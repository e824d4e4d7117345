import Dibibase.Db.DatabaseRefinement
import Dibibase.Db.FailedFlush
import Dibibase.Db.Frames
import Dibibase.Lang.Statements
import Dibibase.Library.Relational

/-!
# What statements mean

The meaning of a statement is a step on the contents of a database, which gives back a record or
fails. The execution of a statement on a database that holds the contents fails where its meaning
does and for the same reason, gives back the same record, and leaves the database with the new contents.
This holds of every statement for tables with integer keys, with keys of any type in a `SELECT`.
-/

namespace Dibibase

open Library

namespace Database

variable {db : Database} {s : Posix Path} {name : List UInt8} {c : Contents} {record : Record}

/-! ### The calls as steps on the contents -/

namespace Contents

/-- A lookup under the key compares it with others, which are of another kind. -/
def mixes (schema : Schema) (store : LayeredStore Data Record) (key : Data) : Bool :=
  (store.count ≠ 0 || !store.frozen.isEmpty) &&
    schema.sortKeyField.any (fun f => key.type.id ≠ f.type.id)

/-- The record under the key, or why there is none. -/
def find (c : Contents) (name : List UInt8) (key : Data) : Except Exception Record :=
  match c name with
  | none => .error .uncomparableType
  | some (schema, store) =>
    match store.read key with
    | some record => .ok record
    | none => .error (if mixes schema store key then .incompatibleDataTypes else .nonExistentRecord)

/-- The table exists and its schema refuses the record. -/
def refuses (c : Contents) (name : List UInt8) (record : Record) : Bool :=
  match c name with
  | none => false
  | some (schema, _) => !schema.verify record

def create (name : List UInt8) (schema : Schema) : EStateM Exception Contents Unit :=
  modify (fun c => c.step (.createTable name schema))

def write (name : List UInt8) (record : Record) : EStateM Exception Contents Unit := do
  if (← get).refuses name record then throw .schemaMismatch
  modify (fun c => c.step (.writeRecord name record))

def lookup (name : List UInt8) (key : Data) : EStateM Exception Contents Record := do
  match (← get).find name key with
  | .ok record => return record
  | .error e => throw e

end Contents

/-- A call and its meaning fail for the same reason. Keys that cannot be compared make two exceptions. -/
def Fails (e e' : Exception) : Prop := e = e' ∨ e.Incomparable ∧ e'.Incomparable

lemma Fails.refl (e : Exception) : Fails e e := .inl rfl

lemma Fails.undefined_iff {e e' : Exception} (h : Fails e e') :
    e = .undefinedBehaviour ↔ e' = .undefinedBehaviour := by
  rcases h with rfl | ⟨rfl | rfl, rfl | rfl⟩ <;> simp

/-! ### Lookups with keys of any type -/

section Table

variable {tm : TableManager} {t : DataType} {store : LayeredStore Data Record} {key : Data}

/-- The SSTables of a table are there when its store has frozen maps, and a key is compared with others
when there are any. -/
lemma mixes_iff {schema : Schema} (h : TableManager.Represents t (tm, s) store)
    (hsort : schema.HasSortKey t) {layers : List (List (Data × Record))}
    (hlayers : store.frozen = layers.map (fun m k => m.lookup k)) :
    Contents.mixes schema store key = true ↔
      ¬((tm.memtable = [] ∧ layers = []) ∨ key.type.id = t.id) := by
  obtain ⟨f, hfield, rfl⟩ := hsort
  have hcount : store.count = tm.memtable.length := h.count
  simp only [Contents.mixes, hfield, hcount, hlayers, Option.any_some, Bool.and_eq_true, Bool.or_eq_true,
    decide_eq_true_eq, Bool.not_eq_true', List.isEmpty_eq_false_iff, ne_eq, List.map_eq_nil_iff,
    List.length_eq_zero_iff]
  tauto

/-- A lookup with a key of another type than the sort key's finds nothing, for the same reason as its
meaning. -/
lemma answer_otherType {schema : Schema} (ht : t.IsInteger) (hsort : schema.HasSortKey t)
    (h : TableManager.Represents t (tm, s) store) (hkey : key.type ≠ t) :
    ∃ e, outcome (tm.readRecord key) s = .error e ∧
      Fails e (if Contents.mixes schema store key then .incompatibleDataTypes else .nonExistentRecord) := by
  obtain ⟨layers, hfrozen, hlayers⟩ := h.frozen
  obtain ⟨e, hanswer, hnothing⟩ := TableManager.answer_otherType
    (fun _ => ⟨.inl ht, TableManager.onePage_two ht⟩) (fun _ _ => .inl ht)
    ⟨h.memtable, h.sized, h.small, hfrozen.frozenRows⟩ hkey
  refine ⟨e, hanswer, ?_⟩
  rcases hnothing with ⟨halike, rfl⟩ | ⟨hother, hthrown⟩
  · rw [if_neg (by rw [mixes_iff h hsort hlayers]; exact not_not.mpr halike)]
    exact .refl _
  · rw [if_pos ((mixes_iff h hsort hlayers).mpr hother)]
    exact .inr ⟨hthrown, .inr rfl⟩

end Table

/-- A key of the sort key's type is never compared with one of another kind. -/
lemma Contents.find_eq_read {key : Data}
    (hkey : ∀ schema store, c name = some (schema, store) → schema.HasSortKey key.type) :
    c.find name key = c.read name key := by
  unfold Contents.find Contents.read
  cases hc : c name with
  | none => rfl
  | some p =>
    obtain ⟨f, hfield, htype⟩ := hkey p.1 p.2 hc
    have hmixes : Contents.mixes p.1 p.2 key = false := by
      simp [Contents.mixes, hfield, htype]
    cases hread : p.2.read key with
    | some record => simp only [hread]; rfl
    | none =>
      simp only [hread, hmixes]
      rfl

/-- A lookup gives back the record that the contents have under the key, and fails for the same reason if
they have none. -/
lemma Holds.outcome_readRecord (h : Holds (db, s) c) (name : List UInt8) (key : Data) :
    (∃ record, outcome (db.readRecord name key) s = .ok record ∧ c.find name key = .ok record) ∨
      ∃ e e', outcome (db.readRecord name key) s = .error e ∧ c.find name key = .error e' ∧
        Fails e e' := by
  by_cases hkey : ∀ schema store, c name = some (schema, store) → schema.HasSortKey key.type
  · rw [readRecord_holds h name key hkey, Contents.find_eq_read hkey]
    cases c.read name key with
    | ok record => exact .inl ⟨record, rfl, rfl⟩
    | error e => exact .inr ⟨e, e, rfl, rfl, .refl e⟩
  · push Not at hkey
    obtain ⟨schema, store, hc, hother⟩ := hkey
    have hname : name ∈ db.tableManagers.map Prod.fst := by
      by_contra hnot
      rw [h.others name hnot] at hc
      cases hc
    obtain ⟨tm, hmem⟩ := exists_table hname
    obtain ⟨schema', store', hc', hm⟩ := h.managed hmem
    rw [hc, Option.some.injEq, Prod.mk.injEq] at hc'
    obtain ⟨rfl, rfl⟩ := hc'
    obtain ⟨t, hsort, ht, hrep⟩ := hm.represents
    have hne : key.type ≠ t := by
      rintro rfl
      exact hother hsort
    obtain ⟨e, hanswer, hfails⟩ := answer_otherType ht hsort hrep hne
    right
    refine ⟨e, _, ?_, ?_, hfails⟩
    · rw [readRecord, outcome_bind_of_ok (Process.ofExcept_ok (find_table h.sorted hmem) s)]
      exact hanswer
    · rw [Contents.find, hc]
      simp only [hrep.read_otherType hne]

lemma relates_createTable {schema : Schema} (hfits : Fits name schema) :
    Relates Fails Holds (createTable name schema) (Contents.create name schema) := by
  intro st c h
  have hholds := h.create hfits
  obtain ⟨db', hcreate, -, -, -⟩ := createTable_manager st.1 st.2 name schema
  rw [Method.after, hcreate] at hholds
  rw [hcreate, Contents.create, modify_apply]
  exact .ok () hholds

lemma Contents.write_apply (name : List UInt8) (record : Record) (c : Contents) :
    Contents.write name record c =
      if c.refuses name record then .error .schemaMismatch c
      else .ok () (c.step (.writeRecord name record)) := by
  unfold Contents.write
  rw [bind_of_ok (get_apply _)]
  cases c.refuses name record with
  | true => rfl
  | false => rfl

/-- A write fails exactly when the schema of its table refuses the record. -/
lemma relates_writeRecord (hs : record.Sized) (name : List UInt8) :
    Relates Fails Holds (writeRecord name record) (Contents.write name record) := by
  rintro ⟨db, s⟩ c h
  have hholds := h.write hs name
  rw [Contents.write_apply]
  by_cases hname : name ∈ db.tableManagers.map Prod.fst
  · obtain ⟨tm, hmem⟩ := exists_table hname
    obtain ⟨schema, store, hc, hm⟩ := h.managed hmem
    have hfind := find_table h.sorted hmem
    obtain ⟨t, hkey, ht, hrep⟩ := hm.represents
    have hschema : tm.schema = schema := hm.sameSchema
    subst hschema
    cases hv : tm.schema.verify record with
    | false =>
      have hrefuses : c.refuses name record = true := by simp [Contents.refuses, hc, hv]
      have hstep : c.step (.writeRecord name record) = c := by
        have hnone : TableManager.accepted tm.schema [record] = [] := by
          simp [TableManager.accepted, hv]
        rw [Contents.step, hc]
        dsimp only
        rw [hnone, List.foldl_nil, ← hc, Function.update_eq_self]
      have hrun := writeRecord_found_error hfind (TableManager.writeRecord_refused (s := s) hv)
      rw [Method.after, hrun, hstep] at hholds
      rw [hrun, if_pos hrefuses]
      exact .error (.refl _) hholds
    | true =>
      have haccepts : c.refuses name record = false := by simp [Contents.refuses, hc, hv]
      obtain ⟨key, hk, htype⟩ := Schema.verify_sortKey hv hkey
      obtain ⟨tm', files, hwrite, -⟩ :=
        TableManager.writeRecord_represents ht hm.fits.row hrep hv hk htype hs
      have hrun := writeRecord_found_ok hfind hwrite
      rw [Method.after, hrun] at hholds
      rw [hrun, if_neg (by simp [haccepts])]
      exact .ok () hholds
  · have haccepts : c.refuses name record = false := by
      simp [Contents.refuses, h.others name hname]
    have hrun := writeRecord_missing (find_no_table h.sorted hname) record s
    rw [Method.after, hrun] at hholds
    rw [hrun, if_neg (by simp [haccepts])]
    exact .ok () hholds

lemma relates_readRecord (name : List UInt8) (key : Data) :
    Relates Fails Holds (do
      let db := (← get).1
      Method.ofProcess (db.readRecord name key)) (Contents.lookup name key) := by
  rintro ⟨db, s⟩ c h
  obtain ⟨-, hfiles, hwrites⟩ := readRecord_after db s name key
  have hafter : ∀ s', (∃ record, db.readRecord name key s = .ok record s') ∨
      (∃ e, db.readRecord name key s = .error e s') → Holds (db, s') c := by
    intro s' hrun
    have hsame : (Access.read name key).run.after (db, s) = (db, s') := by
      rw [Method.after, Access.run, bind_of_ok (get_apply _)]
      rcases hrun with ⟨record, hrun⟩ | ⟨e, hrun⟩
      · rw [bind_of_ok (Method.ofProcess_ok hrun)]
        rfl
      · rw [bind_of_error (Method.ofProcess_error hrun)]
    rw [hsame] at hfiles hwrites
    exact h.congr hfiles hwrites
  rw [bind_of_ok (get_apply _), Contents.lookup, bind_of_ok (get_apply _)]
  have hcases := h.outcome_readRecord name key
  unfold outcome at hcases
  cases hrun : db.readRecord name key s with
  | ok record s' =>
    have hread : c.find name key = .ok record := by simpa [hrun] using hcases
    rw [Method.ofProcess_ok hrun, hread]
    exact .ok record (hafter s' (.inl ⟨record, hrun⟩))
  | error e s' =>
    obtain ⟨e', hread, hfails⟩ : ∃ e', c.find name key = .error e' ∧ Fails e e' := by
      simpa [hrun] using hcases
    rw [Method.ofProcess_error hrun, hread]
    exact .error hfails (hafter s' (.inr ⟨e, hrun⟩))

end Database

namespace Statement

open Database

/-- Statements whose tables have integer sort keys and names for which a directory can be made, and whose
rows and values have sizes that the buffers can handle. -/
def Fits : Statement → Prop
  | createTable table schema => Database.Fits table schema ∧ Database.NamesDirectory table
  | insert _ values => Record.Sized ⟨values.map Data.clone⟩
  | select _ _ => True

/-- What a statement means. A `SELECT` goes by its first relation, whatever its operator is and
whatever other relations there are. -/
def mean : Statement → EStateM Exception Contents (Option Record)
  | createTable table schema => do
    Contents.create table schema
    return none
  | insert table values => do
    Contents.write table ⟨values.map Data.clone⟩
    return none
  | select table relations =>
    match relations[0]? with
    | none => throw .undefinedBehaviour
    | some relation => return some (← Contents.lookup table relation.operand.clone)

/-- Execution follows the meaning. -/
lemma relates_execute {stmt : Statement} (hfits : stmt.Fits) :
    Relates Database.Fails Holds stmt.execute stmt.mean := by
  cases stmt with
  | createTable table schema => exact (relates_createTable hfits.1).bind (fun _ => Relates.pure _)
  | insert table values => exact (relates_writeRecord hfits table).bind (fun _ => Relates.pure _)
  | select table relations =>
    cases relations with
    | nil => exact Relates.throw (E := Database.Fails) (.refl _)
    | cons relation relations =>
      have hread := (relates_readRecord table relation.operand.clone).bind
        (fun record => Relates.pure (some record))
      simp only [bind_assoc] at hread
      exact hread

end Statement

end Dibibase
