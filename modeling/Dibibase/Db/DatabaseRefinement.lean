import Dibibase.Db.Metadata
import Dibibase.Db.WriteHistory

/-!
# A database is a map of layered stores

The contents of a database are a schema and a layered store under the name of every table.
Each call on the database is the same call on its contents, as long as the tables have
integer sort keys and the sizes that the buffers can handle.
-/

namespace Dibibase

open Library TableBuilder

namespace Database

/-- The schema and the store of every table. -/
abbrev Contents := List UInt8 → Option (Schema × LayeredStore Data Record)

namespace Contents

/-- A table whose name exists is kept, and a record that the schema refuses is not written. -/
def step (c : Contents) : Op → Contents
  | .createTable name schema =>
    match c name with
    | some _ => c
    | none => Function.update c name (some (schema, LayeredStore.empty))
  | .writeRecord name record =>
    match c name with
    | none => c
    | some (schema, store) => Function.update c name (some (schema,
        (TableManager.accepted schema [record]).foldl (fun st w => st.write 2 w.1 w.2) store))

/-- The contents after calls one after the other, from no tables. -/
def ofOps (ops : List Op) : Contents := ops.foldl step (fun _ => none)

def read (c : Contents) (name : List UInt8) (key : Data) : Except Exception Record :=
  match c name with
  | none => .error .uncomparableType
  | some (_, store) => TableManager.found (store.read key)

lemma ofOps_append (ops : List Op) (op : Op) : ofOps (ops ++ [op]) = (ofOps ops).step op := by
  simp [ofOps]

/-- A call leaves the other tables alone. -/
lemma step_of_ne {c : Contents} {op : Op} {table : List UInt8} (h : table ≠ op.table) :
    c.step op table = c table := by
  cases op with
  | createTable name schema =>
    have hne : table ≠ name := h
    simp only [step]
    cases c name with
    | some p => rfl
    | none => exact Function.update_of_ne hne _ _
  | writeRecord name record =>
    have hne : table ≠ name := h
    simp only [step]
    cases c name with
    | some p => exact Function.update_of_ne hne _ _
    | none => rfl

end Contents

/-- Tables with an integer sort key whose rows and names keep the sizes that the buffers can
handle. -/
structure Fits (name : List UInt8) (schema : Schema) : Prop where
  sortKey : ∃ t, schema.HasSortKey t ∧ t.IsInteger
  row : schema.recordSize < 2 ^ 31
  name : name.length ≤ 255
  fields : schema.fields.length ≤ 255
  fieldNames : ∀ f ∈ schema.fields, f.name.length ≤ 255

/-- A table gets a directory of its own below that of the database: its name is one component of a path,
and not that of the file of the metadata. Nothing in the grammar sees to it. -/
structure NamesDirectory (name : List UInt8) : Prop where
  component : 47 ∉ name ∧ 0 ∉ name
  free : name ∉ [[], text ".", text "..", text "metadata.meta"]

/-- Calls that create such tables, or write records whose values have fewer than `2 ^ 32`
bytes. -/
def Op.Fits : Op → Prop
  | .createTable name schema => Database.Fits name schema
  | .writeRecord _ record => record.Sized

/-- The table manager, with its files, is the store. -/
structure Managed (base name : List UInt8) (st : TableManager × Posix Path) (schema : Schema)
    (store : LayeredStore Data Record) : Prop where
  basePath : st.1.basePath = base
  tableName : st.1.tableName = name
  sameSchema : st.1.schema = schema
  fits : Fits name schema
  represents : ∃ t, schema.HasSortKey t ∧ t.IsInteger ∧ TableManager.Represents t st store

/-- The database, with its files, has the given contents. -/
structure Holds (st : Database × Posix Path) (c : Contents) : Prop where
  succeed : st.2.WritesSucceed
  sorted : OrderedMap.Sorted nameLt st.1.tableManagers
  tables : ∀ p ∈ st.1.tableManagers, ∃ schema store, c p.1 = some (schema, store) ∧
    Managed st.1.basePath p.1 (p.2, st.2) schema store
  others : ∀ name, name ∉ st.1.tableManagers.map Prod.fst → c name = none

/-- No metadata has been written, and no summaries but those of the SSTables of the tables. -/
structure Unrecorded (st : Database × Posix Path) : Prop where
  metadata : st.2.files (.metadata st.1.basePath) = some []
  unused : ∀ name i, (∀ tm, (name, tm) ∈ st.1.tableManagers → tm.currentSstableId ≤ i) →
    st.2.files (.summary st.1.basePath name i) = none

variable {db : Database} {s : Posix Path} {name : List UInt8} {schema : Schema} {record : Record}
  {tm : TableManager} {c : Contents} {store : LayeredStore Data Record}

/-! ### Execution of the calls -/

lemma after_createTable (tms : List (List UInt8 × TableManager))
    (h : OrderedMap.insert nameLt name (TableManager.new db.basePath name schema [])
      db.tableManagers = .ok tms) :
    (createTable name schema).after (db, s) = ({ db with tableManagers := tms }, s) := by
  rw [Method.after, createTable_ok h]

lemma after_writeRecord_missing (h : OrderedMap.find nameLt name db.tableManagers = .ok none) :
    (writeRecord name record).after (db, s) = (db, s) := by
  rw [Method.after, writeRecord_missing h]

lemma after_writeRecord_found
    (h : OrderedMap.find nameLt name db.tableManagers = .ok (some tm)) :
    (writeRecord name record).after (db, s) =
      (db.update name ((TableManager.writeRecord record).after (tm, s)).1,
        ((TableManager.writeRecord record).after (tm, s)).2) := by
  cases hwrite : TableManager.writeRecord record (tm, s) with
  | ok a st => rw [Method.after, writeRecord_found_ok h hwrite, Method.after, hwrite]
  | error e st => rw [Method.after, writeRecord_found_error h hwrite, Method.after, hwrite]

lemma find_table (hs : OrderedMap.Sorted nameLt db.tableManagers)
    (h : (name, tm) ∈ db.tableManagers) :
    OrderedMap.find nameLt name db.tableManagers = .ok (some tm) :=
  OrderedMap.find_of_mem ordersOn_nameLt (fun _ _ => Set.mem_univ _) hs h

lemma find_no_table (hs : OrderedMap.Sorted nameLt db.tableManagers)
    (h : name ∉ db.tableManagers.map Prod.fst) :
    OrderedMap.find nameLt name db.tableManagers = .ok none :=
  OrderedMap.find_of_notMem ordersOn_nameLt (Set.mem_univ _) (fun _ _ => Set.mem_univ _) hs h

lemma exists_table (h : name ∈ db.tableManagers.map Prod.fst) : ∃ tm, (name, tm) ∈ db.tableManagers := by
  simpa using h

lemma mem_of_find (hs : OrderedMap.Sorted nameLt db.tableManagers)
    (h : OrderedMap.find nameLt name db.tableManagers = .ok (some tm)) :
    (name, tm) ∈ db.tableManagers := by
  by_cases hname : name ∈ db.tableManagers.map Prod.fst
  · obtain ⟨tm', hmem⟩ := exists_table hname
    rw [find_table hs hmem] at h
    cases h
    exact hmem
  · rw [find_no_table hs hname] at h
    cases h

lemma map_fst_update (name : List UInt8) (tm : TableManager) (db : Database) :
    (db.update name tm).tableManagers.map Prod.fst = db.tableManagers.map Prod.fst := by
  rw [update, List.map_map]
  apply List.map_congr_left
  intro p _
  by_cases h : p.1 = name <;> simp [h]

lemma sorted_iff {tms : List (List UInt8 × TableManager)} : OrderedMap.Sorted nameLt tms ↔
    (tms.map Prod.fst).Pairwise (fun a b => nameLt a b = .ok true) := by
  rw [OrderedMap.Sorted, List.pairwise_map]

lemma runAll_append (ops : List Op) (op : Op) (st : Database × Posix Path) :
    runAll (ops ++ [op]) st = op.run.after (runAll ops st) := by
  simp [runAll]

/-! ### The names of the tables -/

/-- A new table joins the others, and a table whose name exists changes nothing. -/
lemma createTable_cases (hs : OrderedMap.Sorted nameLt db.tableManagers) (name : List UInt8)
    (schema : Schema) :
    ∃ tms, (createTable name schema).after (db, s) = ({ db with tableManagers := tms }, s) ∧
      OrderedMap.Sorted nameLt tms ∧
      (name ∈ db.tableManagers.map Prod.fst ∧ tms = db.tableManagers ∨
        name ∉ db.tableManagers.map Prod.fst ∧ ∀ p, p ∈ tms ↔
          p ∈ db.tableManagers ∨ p = (name, TableManager.new db.basePath name schema [])) := by
  by_cases hname : name ∈ db.tableManagers.map Prod.fst
  · obtain ⟨tm, hmem⟩ := exists_table hname
    have hins := OrderedMap.insert_of_lookup_eq_some ordersOn_nameLt (Set.mem_univ _)
      (TableManager.new db.basePath name schema []) tm db.tableManagers (fun _ _ => Set.mem_univ _)
      hs (OrderedMap.lookup_of_mem ordersOn_nameLt _ (fun _ _ => Set.mem_univ _) hs hmem)
    exact ⟨db.tableManagers, after_createTable _ hins, hs, .inl ⟨hname, rfl⟩⟩
  · obtain ⟨l, r, hsplit, hins, hsorted⟩ := OrderedMap.insert_of_lookup_eq_none ordersOn_nameLt
      (Set.mem_univ name) (TableManager.new db.basePath name schema []) db.tableManagers
      (fun _ _ => Set.mem_univ _) hs (OrderedMap.lookup_eq_none_of_notMem hname)
    refine ⟨_, after_createTable _ hins, hsorted, .inr ⟨hname, fun p => ?_⟩⟩
    rw [hsplit]
    simp only [List.mem_append, List.mem_cons]
    tauto

lemma names_create (hs : OrderedMap.Sorted nameLt db.tableManagers) (name : List UInt8)
    (schema : Schema) :
    ∃ tms, (createTable name schema).after (db, s) = ({ db with tableManagers := tms }, s) ∧
      OrderedMap.Sorted nameLt tms ∧
      ∀ n, n ∈ tms.map Prod.fst ↔ n ∈ db.tableManagers.map Prod.fst ∨ n = name := by
  obtain ⟨tms, hafter, hsorted, ⟨hname, rfl⟩ | ⟨-, hmem⟩⟩ := createTable_cases (s := s) hs name schema
  · refine ⟨_, hafter, hsorted, fun n => ⟨.inl, ?_⟩⟩
    rintro (h | rfl)
    · exact h
    · exact hname
  · refine ⟨tms, hafter, hsorted, fun n => ?_⟩
    simp only [List.mem_map, hmem]
    constructor
    · rintro ⟨p, hp | rfl, rfl⟩
      · exact .inl ⟨p, hp, rfl⟩
      · exact .inr rfl
    · rintro (⟨p, hp, rfl⟩ | rfl)
      · exact ⟨p, .inl hp, rfl⟩
      · exact ⟨_, .inr rfl, rfl⟩

lemma names_write (hs : OrderedMap.Sorted nameLt db.tableManagers) (name : List UInt8)
    (record : Record) :
    ((writeRecord name record).after (db, s)).1.tableManagers.map Prod.fst =
        db.tableManagers.map Prod.fst ∧
      ((writeRecord name record).after (db, s)).1.basePath = db.basePath := by
  by_cases hname : name ∈ db.tableManagers.map Prod.fst
  · obtain ⟨tm, hmem⟩ := exists_table hname
    rw [after_writeRecord_found (find_table hs hmem)]
    exact ⟨map_fst_update _ _ _, rfl⟩
  · rw [after_writeRecord_missing (find_no_table hs hname)]
    exact ⟨rfl, rfl⟩

/-- The tables of a database are those that were there and those that were created. -/
theorem names_runAll (st : Database × Posix Path) (hs : OrderedMap.Sorted nameLt st.1.tableManagers)
    (ops : List Op) :
    OrderedMap.Sorted nameLt (runAll ops st).1.tableManagers ∧
      (runAll ops st).1.basePath = st.1.basePath ∧
      ∀ n, n ∈ (runAll ops st).1.tableManagers.map Prod.fst ↔
        n ∈ st.1.tableManagers.map Prod.fst ∨ ∃ schema, Op.createTable n schema ∈ ops := by
  induction ops using List.reverseRecOn with
  | nil => exact ⟨hs, rfl, fun n => by simp [runAll]⟩
  | append_singleton ops op ih =>
    obtain ⟨hsorted, hbase, hnames⟩ := ih
    rw [runAll_append]
    generalize runAll ops st = st' at *
    obtain ⟨db', s'⟩ := st'
    cases op with
    | createTable name schema =>
      obtain ⟨tms, hafter, hsorted', hnames'⟩ := names_create (s := s') hsorted name schema
      rw [Op.run, hafter]
      refine ⟨hsorted', hbase, fun n => (hnames' n).trans ?_⟩
      rw [hnames n]
      simp only [List.mem_append, List.mem_singleton, Op.createTable.injEq]
      constructor
      · rintro ((h | ⟨sch, h⟩) | rfl)
        · exact .inl h
        · exact .inr ⟨sch, .inl h⟩
        · exact .inr ⟨schema, .inr ⟨rfl, rfl⟩⟩
      · rintro (h | ⟨sch, h | ⟨rfl, -⟩⟩)
        · exact .inl (.inl h)
        · exact .inl (.inr ⟨sch, h⟩)
        · exact .inr rfl
    | writeRecord name record =>
      obtain ⟨hsame, hbase'⟩ := names_write (s := s') hsorted name record
      rw [Op.run]
      refine ⟨?_, hbase'.trans hbase, fun n => ?_⟩
      · rw [sorted_iff, hsame]
        exact sorted_iff.mp hsorted
      · rw [hsame, hnames n]
        simp

lemma tableManagers_eq_nil_iff (base : List UInt8) (s : Posix Path) {ops : List Op} :
    (runAll ops (⟨base, []⟩, s)).1.tableManagers = [] ↔
      ∀ name schema, Op.createTable name schema ∉ ops := by
  obtain ⟨-, -, hnames⟩ := names_runAll (⟨base, []⟩, s) (by simp [OrderedMap.Sorted]) ops
  rw [← List.map_eq_nil_iff (f := Prod.fst), List.eq_nil_iff_forall_not_mem]
  simp [hnames]

/-! ### One table -/

lemma Managed.congr {base : List UInt8} {s' : Posix Path}
    (h : Managed base name (tm, s) schema store) (hw : s'.WritesSucceed)
    (hfiles : ∀ i path, IsSstable base name i path → s'.files path = s.files path) :
    Managed base name (tm, s') schema store := by
  obtain ⟨t, hkey, ht, hrep⟩ := h.represents
  refine ⟨h.basePath, h.tableName, h.sameSchema, h.fits, ⟨t, hkey, ht, hrep.congr hw ?_⟩⟩
  intro i path hpath
  have hbase : tm.basePath = base := h.basePath
  have hname : tm.tableName = name := h.tableName
  rw [hbase, hname] at hpath
  exact hfiles i path hpath

lemma managed_new (base : List UInt8) (hfits : Fits name schema) (hw : s.WritesSucceed) :
    Managed base name (TableManager.new base name schema [], s) schema LayeredStore.empty := by
  obtain ⟨t, hkey, ht⟩ := hfits.sortKey
  exact ⟨rfl, rfl, rfl, hfits, ⟨t, hkey, ht, TableManager.represents_new base name schema t hw⟩⟩

/-- A call on the table changes its store, and no file but those of its SSTables, whose number
does not go down. -/
lemma Managed.write {base : List UInt8} (h : Managed base name (tm, s) schema store)
    (hs : record.Sized) :
    ∃ tm' files, (TableManager.writeRecord record).after (tm, s) = (tm', { s with files := files }) ∧
      Managed base name (tm', { s with files := files }) schema
        ((TableManager.accepted schema [record]).foldl (fun st w => st.write 2 w.1 w.2) store) ∧
      tm.currentSstableId ≤ tm'.currentSstableId ∧
      ∀ path, (∀ i < tm'.currentSstableId, ¬IsSstable base name i path) →
        files path = s.files path := by
  obtain ⟨t, hkey, ht, hrep⟩ := h.represents
  obtain ⟨rfl, rfl, rfl⟩ : tm.basePath = base ∧ tm.tableName = name ∧ tm.schema = schema :=
    ⟨h.basePath, h.tableName, h.sameSchema⟩
  cases hv : tm.schema.verify record with
  | false =>
    have hstay : (TableManager.writeRecord record).after (tm, s) = (tm, s) := by
      rw [Method.after, TableManager.writeRecord_refused hv]
    have hnone : TableManager.accepted tm.schema [record] = [] := by
      simp [TableManager.accepted, hv]
    exact ⟨tm, s.files, hstay, by rw [hnone]; exact h, le_rfl, fun _ _ => rfl⟩
  | true =>
    obtain ⟨key, hk, htype⟩ := Schema.verify_sortKey hv hkey
    obtain ⟨tm', files, hwrite, htm', hrep', hframe⟩ :=
      TableManager.writeRecord_represents ht h.fits.row hrep hv hk htype hs
    have hone : TableManager.accepted tm.schema [record] = [(key, record)] := by
      simp [TableManager.accepted, hv, hk]
    have hbase : tm'.basePath = tm.basePath := by rw [htm']
    have hname : tm'.tableName = tm.tableName := by rw [htm']
    have hschema : tm'.schema = tm.schema := by rw [htm']
    refine ⟨tm', files, by rw [Method.after, hwrite], ?_, ?_, hframe⟩
    · rw [hone]
      exact ⟨hbase, hname, hschema, h.fits, ⟨t, hkey, ht, hrep'⟩⟩
    · rw [hrep.id, hrep'.id]
      exact LayeredStore.length_frozen_le_write 2 store key record

/-! ### The whole database -/

/-- A table manager of the database is that of the only table with its name. -/
lemma Holds.managed (h : Holds (db, s) c) (hmem : (name, tm) ∈ db.tableManagers) :
    ∃ schema store, c name = some (schema, store) ∧
      Managed db.basePath name (tm, s) schema store :=
  h.tables _ hmem

/-- Only the files and the outcomes of `write` matter. -/
lemma Holds.congr {s' : Posix Path} (h : Holds (db, s) c) (hfiles : s'.files = s.files)
    (hwrites : s'.writes = s.writes) : Holds (db, s') c := by
  have hw : s'.WritesSucceed := by
    intro i
    rw [hwrites]
    exact h.succeed i
  refine ⟨hw, h.sorted, fun p hp => ?_, h.others⟩
  obtain ⟨schema, store, hc, hm⟩ := h.tables p hp
  exact ⟨schema, store, hc, hm.congr hw (fun _ path _ => congrFun hfiles path)⟩

lemma Holds.create (h : Holds (db, s) c) (hfits : Fits name schema) :
    Holds ((createTable name schema).after (db, s)) (c.step (.createTable name schema)) := by
  obtain ⟨tms, hafter, hsorted, ⟨hname, rfl⟩ | ⟨hname, hmem⟩⟩ :=
    createTable_cases (s := s) h.sorted name schema
  · obtain ⟨tm, hmem⟩ := exists_table hname
    obtain ⟨schema', store, hc, -⟩ := h.managed hmem
    rw [hafter, Contents.step, hc]
    exact h
  · rw [hafter, Contents.step, h.others name hname]
    refine ⟨h.succeed, hsorted, ?_, ?_⟩
    · intro p hp
      rcases (hmem p).mp hp with hp | rfl
      · have hne : p.1 ≠ name := by
          rintro rfl
          exact hname (List.mem_map_of_mem hp)
        simpa [Function.update_of_ne hne] using h.tables p hp
      · exact ⟨schema, LayeredStore.empty, by simp, managed_new _ hfits h.succeed⟩
    · intro name' hname'
      have hne : name' ≠ name := by
        rintro rfl
        exact hname' (List.mem_map_of_mem ((hmem _).mpr (.inr rfl)))
      have hnot : name' ∉ db.tableManagers.map Prod.fst := by
        intro hold
        obtain ⟨tm, hold⟩ := exists_table hold
        exact hname' (List.mem_map_of_mem ((hmem _).mpr (.inl hold)))
      simpa [Function.update_of_ne hne] using h.others name' hnot

lemma Holds.write (h : Holds (db, s) c) (hs : record.Sized) (name : List UInt8) :
    Holds ((writeRecord name record).after (db, s)) (c.step (.writeRecord name record)) := by
  by_cases hname : name ∈ db.tableManagers.map Prod.fst
  · obtain ⟨tm, hmem⟩ := exists_table hname
    obtain ⟨schema, store, hc, hm⟩ := h.managed hmem
    obtain ⟨tm', files, hafter, hm', -, hframe⟩ := hm.write hs
    rw [after_writeRecord_found (find_table h.sorted hmem), hafter, Contents.step, hc]
    dsimp only
    refine ⟨h.succeed, ?_, ?_, ?_⟩
    · rw [sorted_iff, map_fst_update]
      exact sorted_iff.mp h.sorted
    · intro p hp
      obtain ⟨q, hq, rfl⟩ := List.mem_map.mp hp
      by_cases hqname : q.1 = name
      · rw [if_pos hqname]
        exact ⟨schema, _, Function.update_self .., hm'⟩
      · rw [if_neg hqname, Function.update_of_ne hqname]
        obtain ⟨schema', store', hc', hq'⟩ := h.tables q hq
        refine ⟨schema', store', hc', hq'.congr h.succeed (fun i path hpath => hframe path ?_)⟩
        intro j _ hpath'
        exact hqname (hpath.unique hpath').2.1
    · intro name' hname'
      rw [map_fst_update] at hname'
      have hne : name' ≠ name := by
        rintro rfl
        exact hname' hname
      rw [Function.update_of_ne hne]
      exact h.others name' hname'
  · rw [after_writeRecord_missing (find_no_table h.sorted hname), Contents.step, h.others name hname]
    exact h

/-- Every call on the database is the same call on its contents. -/
theorem Holds.step {st : Database × Posix Path} (h : Holds st c) {op : Op} (hfits : op.Fits) :
    Holds (op.run.after st) (c.step op) := by
  cases op with
  | createTable name schema => exact h.create hfits
  | writeRecord name record => exact h.write hfits name

/-- So is a sequence of calls. -/
theorem runAll_holds {st : Database × Posix Path} (h : Holds st (fun _ => none)) (ops : List Op)
    (hfits : ∀ op ∈ ops, op.Fits) : Holds (runAll ops st) (Contents.ofOps ops) := by
  induction ops using List.reverseRecOn with
  | nil => exact h
  | append_singleton ops op ih =>
    rw [runAll_append, Contents.ofOps_append]
    exact (ih (fun op hop => hfits op (by simp [hop]))).step (hfits op (by simp))

/-- A call writes no summary that its table does not count, and no metadata. -/
lemma Unrecorded.step {st : Database × Posix Path} (hu : Unrecorded st) (h : Holds st c) {op : Op}
    (hfits : op.Fits) : Unrecorded (op.run.after st) := by
  obtain ⟨db, s⟩ := st
  cases op with
  | createTable name schema =>
    obtain ⟨tms, hafter, -, hcases⟩ := createTable_cases (s := s) h.sorted name schema
    rw [Op.run, hafter]
    refine ⟨hu.metadata, fun name' i hi => hu.unused name' i (fun tm htm => hi tm ?_)⟩
    rcases hcases with ⟨-, rfl⟩ | ⟨-, hmem⟩
    · exact htm
    · exact (hmem _).mpr (.inl htm)
  | writeRecord name record =>
    rw [Op.run]
    by_cases hname : name ∈ db.tableManagers.map Prod.fst
    · obtain ⟨tm, hmem⟩ := exists_table hname
      obtain ⟨schema, store, -, hm⟩ := h.managed hmem
      obtain ⟨tm', files, hafter, -, hle, hframe⟩ := hm.write hfits
      have hfind := find_table h.sorted hmem
      rw [after_writeRecord_found hfind, hafter]
      refine ⟨(hframe _ (by simp [IsSstable])).trans hu.metadata, fun name' i hi => ?_⟩
      by_cases hne : name' = name
      · subst hne
        have hid : tm'.currentSstableId ≤ i := hi tm' (List.mem_map.mpr ⟨_, hmem, by simp⟩)
        refine (hframe _ (fun j hj hpath => ?_)).trans (hu.unused name' i (fun tm₀ htm₀ => ?_))
        · have hij := (hpath.unique (.inl rfl)).2.2
          omega
        · have hsame := hfind.symm.trans (find_table h.sorted htm₀)
          simp only [Except.ok.injEq, Option.some.injEq] at hsame
          rw [← hsame]
          omega
      · refine (hframe _ (fun j _ hpath => ?_)).trans (hu.unused name' i (fun tm₀ htm₀ => ?_))
        · exact hne (hpath.unique (.inl rfl)).2.1.symm
        · exact hi tm₀ (List.mem_map.mpr ⟨_, htm₀, by simp [hne]⟩)
    · rw [after_writeRecord_missing (find_no_table h.sorted hname)]
      exact hu

/-- What a sequence of calls leaves, from no tables. -/
theorem runAll_unrecorded {st : Database × Posix Path} (h : Holds st (fun _ => none))
    (hu : Unrecorded st) (ops : List Op) (hfits : ∀ op ∈ ops, op.Fits) :
    Unrecorded (runAll ops st) := by
  induction ops using List.reverseRecOn with
  | nil => exact hu
  | append_singleton ops op ih =>
    have hfits' : ∀ op ∈ ops, op.Fits := fun op hop => hfits op (by simp [hop])
    rw [runAll_append]
    exact (ih hfits').step (runAll_holds h ops hfits') (hfits op (by simp))

/-- A read of the database is a read of its contents. -/
theorem readRecord_holds (h : Holds (db, s) c) (name : List UInt8) (key : Data)
    (htype : ∀ schema store, c name = some (schema, store) → schema.HasSortKey key.type) :
    outcome (db.readRecord name key) s = c.read name key := by
  by_cases hname : name ∈ db.tableManagers.map Prod.fst
  · obtain ⟨tm, hmem⟩ := exists_table hname
    obtain ⟨schema, store, hc, hm⟩ := h.managed hmem
    obtain ⟨t, hkey, ht, hrep⟩ := hm.represents
    obtain rfl : key.type = t := Schema.HasSortKey.unique (htype schema store hc) hkey
    have hrow : tm.schema.recordSize < 2 ^ 31 := by
      have hschema : tm.schema = schema := hm.sameSchema
      rw [hschema]
      exact hm.fits.row
    rw [Contents.read, hc]
    dsimp only
    rw [← TableManager.readRecord_represents ht hrow hrep rfl, readRecord]
    exact outcome_bind_of_ok (Process.ofExcept_ok (find_table h.sorted hmem) s)
  · rw [Contents.read, h.others name hname, readRecord]
    exact outcome_bind_of_ok (Process.ofExcept_ok (find_no_table h.sorted hname) s)

end Database

end Dibibase
