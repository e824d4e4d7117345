import Dibibase.Db.Metadata
import Dibibase.Db.Recovery
import Dibibase.Db.WriteHistory

/-!
# Which files the calls on a database change

A flush writes the three files of one SSTable, whose number is the number of SSTables that the
table has, and nothing else writes to the files of tables. So the files of an SSTable stay as they
are from the flush that made them on, whatever calls follow and whichever of their writes fail.
-/

namespace Dibibase

open Library

namespace TableBuilder

/-- Whether it returns or throws, and whichever writes fail, the builder changes no file but those
of its SSTable. -/
lemma build_confined (base table : List UInt8) (schema : Schema) (sstableId : Nat)
    (records : List (Data × Record)) (files : Path → Option (List UInt8)) (heap : Nat → UInt8) :
    Preserves (Posix.Confined {path | IsSstable base table sstableId path} files heap [])
      (build base table schema sstableId records) := by
  intro s hs
  have hsummary : Path.summary base table sstableId ∈ {path | IsSstable base table sstableId path} :=
    .inl rfl
  have hindex : Path.index base table sstableId ∈ {path | IsSstable base table sstableId path} :=
    .inr (.inl rfl)
  have hdata : Path.data base table sstableId ∈ {path | IsSstable base table sstableId path} :=
    .inr (.inr rfl)
  obtain ⟨fd₁, s₁, hopen₁, hs₁⟩ := Posix.openFile_confined (ε := Exception) hsummary hs
  obtain ⟨fd₂, s₂, hopen₂, hs₂⟩ := Posix.openFile_confined (ε := Exception) hindex hs₁
  obtain ⟨fd₃, s₃, hopen₃, hs₃⟩ := Posix.openFile_confined (ε := Exception) hdata hs₂
  have hwrite : ∀ fd ∈ [fd₃, fd₂, fd₁], ∀ bs,
      Preserves (Posix.Confined {path | IsSstable base table sstableId path} files heap
        [fd₃, fd₂, fd₁]) (Posix.write (some fd) bs : Process Bool) :=
    fun fd hfd bs => Posix.preserves_confined_write hfd bs
  have hclose : ∀ fd,
      Preserves (Posix.Confined {path | IsSstable base table sstableId path} files heap [])
        (Posix.close fd : Process PUnit) := fun fd => Posix.preserves_confined_close fd
  have hconstruct : Preserves (Posix.Confined {path | IsSstable base table sstableId path} files
      heap [fd₃, fd₂, fd₁])
        (constructSstableFiles schema records ⟨some fd₁, some fd₂, some fd₃⟩) :=
    preserves_constructSstableFiles (hwrite fd₁ (by simp)) (hwrite fd₂ (by simp))
      (hwrite fd₃ (by simp)) schema records
  unfold build
  rw [bind_of_ok hopen₁, bind_of_ok hopen₂, bind_of_ok hopen₃]
  cases hrun : constructSstableFiles schema records ⟨some fd₁, some fd₂, some fd₃⟩ s₃ with
  | ok summary s₄ =>
    rw [bind_of_ok hrun]
    exact ((hclose _).bind (fun _ => (hclose _).bind (fun _ => (hclose _).bind
      (fun _ => Preserves.pure summary)))) s₄ ((hconstruct s₃ hs₃).1 _ _ hrun).forget
  | error e s₄ =>
    rw [bind_of_error hrun]
    constructor
    · intro a s' h
      cases h
    · intro e' s' h
      cases h
      exact ((hconstruct s₃ hs₃).2 _ _ hrun).forget

end TableBuilder

namespace TableManager

/-- What a write leaves of a table and of the process: the files of other SSTables than the one
that comes next, and the uninitialised memory. -/
structure Extends (st st' : TableManager × Posix Path) : Prop where
  basePath : st'.1.basePath = st.1.basePath
  tableName : st'.1.tableName = st.1.tableName
  counted : st.1.currentSstableId = st.1.summaries.length →
    st'.1.currentSstableId = st'.1.summaries.length
  count : st.1.currentSstableId = st.1.summaries.length →
    st.1.currentSstableId ≤ st'.1.currentSstableId
  files : ∀ path, ¬IsSstable st.1.basePath st.1.tableName st.1.currentSstableId path →
    st'.2.files path = st.2.files path
  heap : st'.2.heap = st.2.heap
  succeed : st.2.WritesSucceed → st'.2.WritesSucceed

lemma flush_extends (tm : TableManager) (s : Posix Path) : Extends (tm, s) (flush.after (tm, s)) := by
  have hframe := TableBuilder.build_confined tm.basePath tm.tableName tm.schema tm.currentSstableId
    tm.memtable s.files s.heap s ⟨fun _ _ => rfl, rfl, by simp⟩
  rw [Method.after]
  cases hbuild : TableBuilder.build tm.basePath tm.tableName tm.schema tm.currentSstableId
      tm.memtable s with
  | ok summary s' =>
    have hs' := hframe.1 _ _ hbuild
    rw [flush_ok tm hbuild]
    refine ⟨rfl, rfl, fun _ => by simp, fun h => ?_, fun path hpath => hs'.files path hpath, hs'.heap,
      fun hw => ?_⟩
    · have hcount : tm.currentSstableId = tm.summaries.length := h
      exact hcount.le.trans (Nat.le_succ _)
    · obtain ⟨out, rfl⟩ := (TableBuilder.build_frame hw _ _ _ _ _).1 _ _ hbuild
      exact hw
  | error e s' =>
    have hs' := hframe.2 _ _ hbuild
    rw [flush_error tm hbuild]
    refine ⟨rfl, rfl, fun h => h, fun _ => le_rfl, fun path hpath => hs'.files path hpath, hs'.heap,
      fun hw => ?_⟩
    obtain ⟨out, -, hwrites⟩ := (TableBuilder.build_frame hw _ _ _ _ _).2 _ _ hbuild
    intro i
    rw [hwrites]
    exact hw i

/-- What an accepted record makes of the table. -/
lemma after_writeRecord_accepted (tm : TableManager) (s : Posix Path) {record : Record} {key : Data}
    {memtable : List (Data × Record)} (h : tm.schema.verify record = true)
    (hkey : record.values[tm.schema.sortKeyIndex.toNat]? = some key)
    (hins : OrderedMap.insert Data.compare key record tm.memtable = .ok memtable) :
    (writeRecord record).after (tm, s) =
      if 2 ≤ memtable.length then flush.after ({ tm with memtable := memtable }, s)
      else ({ tm with memtable := memtable }, s) := by
  rw [Method.after, writeRecord_accepted tm h hkey hins]
  by_cases htwo : 2 ≤ memtable.length
  · rw [if_pos htwo, if_pos htwo]
    rfl
  · rw [if_neg htwo, if_neg htwo]

/-- Whether it returns or throws, a write changes no file but those of the SSTable that comes
next. -/
lemma writeRecord_extends (record : Record) (tm : TableManager) (s : Posix Path) :
    Extends (tm, s) ((writeRecord record).after (tm, s)) := by
  rcases writeRecord_cases tm s record with ⟨e, hthrow⟩ | ⟨key, m, hv, hkey, hins, -⟩
  · rw [Method.after, hthrow]
    exact ⟨rfl, rfl, fun h => h, fun _ => le_rfl, fun _ _ => rfl, rfl, fun h => h⟩
  · rw [after_writeRecord_accepted tm s hv hkey hins]
    split
    · have hflush := flush_extends { tm with memtable := m } s
      exact ⟨hflush.basePath, hflush.tableName, hflush.counted, hflush.count, hflush.files,
        hflush.heap, hflush.succeed⟩
    · exact ⟨rfl, rfl, fun h => h, fun _ => le_rfl, fun _ _ => rfl, rfl, fun h => h⟩

end TableManager

/-! ### Lookups -/

namespace TableManager

variable {files : Path → Option (List UInt8)}

/-- Whether it returns or throws, a reader leaves the files as they are, and the outcomes of the
writes to come. -/
lemma preserves_files_readDecoded {α : Type} (m : BufferM α) (path : Path) (offset : Int) (n : Nat)
    (writes : Nat → Bool) :
    Preserves (fun s => s.files = files ∧ s.writes = writes) (do
      let buf ← Posix.readFile path offset n
      Process.ofExcept (decode m buf) : Process α) := by
  refine Preserves.bind ?_ (fun _ => TableBuilder.preserves_ofExcept _ _)
  rintro s ⟨rfl, rfl⟩
  obtain ⟨s', hread, hfiles, hwrites⟩ := Posix.readFile_executes (ε := Exception) path offset n s
  rw [hread]
  refine ⟨fun a s'' h => ?_, fun e s'' h => by cases h⟩
  cases h
  exact ⟨hfiles, hwrites⟩

lemma preserves_files_readSstable (base table : List UInt8) (schema : Schema) (sstableId : Nat)
    (summary : Summary) (key : Data) (writes : Nat → Bool) :
    Preserves (fun s => s.files = files ∧ s.writes = writes)
      (readSstable base table schema sstableId summary key) := by
  refine (TableBuilder.preserves_ofExcept _ _).bind (fun pageNumber => ?_)
  refine (preserves_files_readDecoded _ _ _ _ writes).bind (fun page => ?_)
  refine (TableBuilder.preserves_ofExcept _ _).bind (fun keyOffset => ?_)
  split
  · exact Preserves.pure _
  · exact (preserves_files_readDecoded _ _ _ _ writes).bind (fun _ => Preserves.pure _)

lemma preserves_files_readSstables (tm : TableManager) (key : Data) (n : Nat)
    (writes : Nat → Bool) :
    Preserves (fun s => s.files = files ∧ s.writes = writes) (tm.readSstables key n) := by
  induction n with
  | zero => exact Preserves.throw _
  | succ n ih =>
    rw [readSstables]
    cases tm.summaries[n]? with
    | none => exact Preserves.throw _
    | some summary =>
      refine (preserves_files_readSstable _ _ _ _ _ _ writes).bind (fun found => ?_)
      cases found with
      | some record => exact Preserves.pure _
      | none => exact ih

lemma preserves_files_readRecord (tm : TableManager) (key : Data) (writes : Nat → Bool) :
    Preserves (fun s => s.files = files ∧ s.writes = writes) (tm.readRecord key) := by
  refine (TableBuilder.preserves_ofExcept _ _).bind (fun found => ?_)
  cases found with
  | some record => exact Preserves.pure _
  | none => exact preserves_files_readSstables tm key _ writes

end TableManager

/-! ### The managers of a database -/

namespace Database

variable {db : Database} {s : Posix Path} {name : List UInt8} {tm : TableManager}

/-- The manager of a table. -/
def manager (db : Database) (name : List UInt8) : Option TableManager :=
  match OrderedMap.find nameLt name db.tableManagers with
  | .ok found => found
  | .error _ => none

lemma find_eq_manager (db : Database) (name : List UInt8) :
    OrderedMap.find nameLt name db.tableManagers = .ok (db.manager name) := by
  obtain ⟨found, hfind⟩ := OrderedMap.find_total ordersOn_nameLt (Set.mem_univ name)
    db.tableManagers (fun _ _ => Set.mem_univ _)
  rw [manager, hfind]

lemma manager_eq_of_find {found : Option TableManager}
    (h : OrderedMap.find nameLt name db.tableManagers = .ok found) : db.manager name = found := by
  rw [manager, h]

/-- A table whose name exists keeps its manager, and a new one gets a manager without SSTables. -/
lemma createTable_manager (db : Database) (s : Posix Path) (name : List UInt8) (schema : Schema) :
    ∃ db', createTable name schema (db, s) = .ok () (db', s) ∧ db'.basePath = db.basePath ∧
      db'.manager name = some ((db.manager name).getD (TableManager.new db.basePath name schema [])) ∧
      ∀ other, other ≠ name → db'.manager other = db.manager other := by
  obtain ⟨tms, found, hins, hfound, hfind⟩ := OrderedMap.find_insert ordersOn_nameLt
    (Set.mem_univ name) (TableManager.new db.basePath name schema []) db.tableManagers
    (fun _ _ => Set.mem_univ _)
  refine ⟨{ db with tableManagers := tms }, createTable_ok hins s, rfl, ?_, fun other hne => ?_⟩
  · rw [manager_eq_of_find hfound]
    exact manager_eq_of_find hfind
  · have hother := OrderedMap.find_insert_of_ne ordersOn_nameLt (Set.mem_univ name)
      (Set.mem_univ other) hne _ _ _ (fun _ _ => Set.mem_univ _) hins
    exact manager_eq_of_find (hother.trans (find_eq_manager db other))

lemma manager_update (h : db.manager name = some tm) (tm' : TableManager) :
    (db.update name tm').manager name = some tm' ∧
      ∀ other, other ≠ name → (db.update name tm').manager other = db.manager other := by
  constructor
  · have hfind := find_eq_manager db name
    rw [h] at hfind
    exact manager_eq_of_find (OrderedMap.find_replace ordersOn_nameLt (Set.mem_univ name) _
      (fun _ _ => Set.mem_univ _) hfind)
  · intro other hne
    have hfind := OrderedMap.find_replace_of_ne ordersOn_nameLt (Set.mem_univ name)
      (Set.mem_univ other) hne tm' db.tableManagers (fun _ _ => Set.mem_univ _)
    exact manager_eq_of_find (hfind.trans (find_eq_manager db other))

/-- A write goes to the manager of its table. -/
lemma writeRecord_manager (db : Database) (s : Posix Path) (name : List UInt8) (record : Record) :
    (writeRecord name record).after (db, s) =
      match db.manager name with
      | none => (db, s)
      | some tm => (db.update name ((TableManager.writeRecord record).after (tm, s)).1,
          ((TableManager.writeRecord record).after (tm, s)).2) := by
  have hfind := find_eq_manager db name
  cases hm : db.manager name with
  | none =>
    rw [hm] at hfind
    rw [Method.after, writeRecord_missing hfind]
  | some tm =>
    rw [hm] at hfind
    rw [Method.after]
    cases hwrite : TableManager.writeRecord record (tm, s) with
    | ok a st =>
      rw [writeRecord_found_ok hfind hwrite]
      simp only [Method.after, hwrite]
    | error e st =>
      rw [writeRecord_found_error hfind hwrite]
      simp only [Method.after, hwrite]

/-- The number of SSTables of a table, which is the number of the next one. -/
def sstableCount (db : Database) (name : List UInt8) : Nat :=
  (db.manager name).elim 0 TableManager.currentSstableId

/-- Every manager works on the files of its own table, and counts its summaries. -/
structure Consistent (db : Database) : Prop where
  basePath : ∀ name tm, db.manager name = some tm → tm.basePath = db.basePath
  tableName : ∀ name tm, db.manager name = some tm → tm.tableName = name
  counted : ∀ name tm, db.manager name = some tm → tm.currentSstableId = tm.summaries.length

lemma consistent_empty (base : List UInt8) : Consistent ⟨base, []⟩ := by
  have hnone : ∀ name, (⟨base, []⟩ : Database).manager name = none := fun _ => rfl
  constructor <;> simp [hnone]

/-- One more manager, of the files of its own table. -/
lemma Consistent.insert {db' : Database} (h : db.Consistent) (name : List UInt8) (schema : Schema)
    (summaries : List Summary) (hbase : db'.basePath = db.basePath)
    (hname : db'.manager name =
      some ((db.manager name).getD (TableManager.new db.basePath name schema summaries)))
    (hothers : ∀ other, other ≠ name → db'.manager other = db.manager other) : db'.Consistent := by
  have hcases : ∀ other tm, db'.manager other = some tm → db.manager other = some tm ∨
      other = name ∧ tm = TableManager.new db.basePath name schema summaries := by
    intro other tm htm
    by_cases hne : other = name
    · subst hne
      rw [hname, Option.some.injEq] at htm
      cases hold : db.manager other with
      | none =>
        rw [hold] at htm
        exact .inr ⟨rfl, htm.symm⟩
      | some old =>
        rw [hold] at htm
        exact .inl (congrArg some htm)
    · exact .inl ((hothers other hne).symm.trans htm)
  constructor
  · intro other tm htm
    rcases hcases other tm htm with htm | ⟨rfl, rfl⟩
    · exact (h.basePath other tm htm).trans hbase.symm
    · exact hbase.symm
  · intro other tm htm
    rcases hcases other tm htm with htm | ⟨rfl, rfl⟩
    · exact h.tableName other tm htm
    · rfl
  · intro other tm htm
    rcases hcases other tm htm with htm | ⟨rfl, rfl⟩
    · exact h.counted other tm htm
    · rfl

/-- The loop of the constructor makes managers of this kind only. -/
lemma consistent_loadTables {base : List UInt8} (length rounds : Nat) {buffer : MemoryBuffer}
    {tms tms' : List (List UInt8 × TableManager)} (h : Consistent ⟨base, tms⟩) {s s' : Posix Path}
    (hload : loadTables base length rounds buffer tms s = .ok tms' s') : Consistent ⟨base, tms'⟩ := by
  induction rounds generalizing buffer tms s with
  | zero =>
    cases hload
    exact h
  | succ rounds ih =>
    rw [loadTables] at hload
    split at hload
    · obtain ⟨⟨table, buffer'⟩, -, hload⟩ := Process.ofExcept_bind_eq_ok hload
      obtain ⟨summaries, s₁, -, hload⟩ := bind_eq_ok hload
      obtain ⟨tms₁, hins, hload⟩ := Process.ofExcept_bind_eq_ok hload
      obtain ⟨tms₂, found, hins₂, hfound, hfind⟩ := OrderedMap.find_insert ordersOn_nameLt
        (Set.mem_univ table.name) (TableManager.new base table.name table.schema summaries) tms
        (fun _ _ => Set.mem_univ _)
      rw [hins, Except.ok.injEq] at hins₂
      subst hins₂
      have hold : (⟨base, tms⟩ : Database).manager table.name = found := manager_eq_of_find hfound
      have hnew : Consistent ⟨base, tms₁⟩ := by
        refine h.insert table.name table.schema summaries rfl (manager_eq_of_find ?_)
          (fun other hne => ?_)
        · rw [hold]
          exact hfind
        · have hother := OrderedMap.find_insert_of_ne ordersOn_nameLt (Set.mem_univ table.name)
            (Set.mem_univ other) hne _ _ _ (fun _ _ => Set.mem_univ _) hins
          exact manager_eq_of_find (hother.trans (find_eq_manager ⟨base, tms⟩ other))
      exact ih hnew hload
    · cases hload
      exact h

/-- So does the constructor, whatever the metadata file holds. -/
lemma consistent_open {base : List UInt8} {s s' : Posix Path}
    (h : «open» base s = .ok db s') : db.basePath = base ∧ db.Consistent := by
  unfold «open» at h
  obtain ⟨fd, s₁, -, h⟩ := bind_eq_ok h
  obtain ⟨head, s₂, -, h⟩ := bind_eq_ok h
  dsimp only at h
  split at h
  · cases h
    exact ⟨rfl, consistent_empty base⟩
  · obtain ⟨buf, s₃, -, h⟩ := bind_eq_ok h
    obtain ⟨-, s₄, -, h⟩ := bind_eq_ok h
    obtain ⟨tms, s₅, hload, h⟩ := bind_eq_ok h
    cases h
    exact ⟨rfl, consistent_loadTables _ _ (consistent_empty base) hload⟩

/-! ### Runs of calls -/

/-- A call that may change the database, or a lookup. -/
inductive Access where
  | change (op : Op)
  | read (name : List UInt8) (key : Data)

def Access.run : Access → Method Database Unit
  | .change op => op.run
  | .read name key => do
    let db := (← get).1
    let _ ← Method.ofProcess (db.readRecord name key)
    return ()

/-- The state after calls one after the other, whether they return or throw. -/
def runAccesses (accesses : List Access) (st : Database × Posix Path) : Database × Posix Path :=
  accesses.foldl (fun st access => access.run.after st) st

/-- The table that a call may write to. -/
def Access.written : Access → Option (List UInt8)
  | .change (.writeRecord name _) => some name
  | _ => none

/-- What a call can do to a consistent database. -/
structure Moves (access : Access) (st st' : Database × Posix Path) : Prop where
  basePath : st'.1.basePath = st.1.basePath
  consistent : st'.1.Consistent
  count : ∀ name, st.1.sstableCount name ≤ st'.1.sstableCount name
  files : ∀ path, st'.2.files path = st.2.files path ∨ ∃ name, access.written = some name ∧
    IsSstable st.1.basePath name (st.1.sstableCount name) path

lemma readRecord_after (db : Database) (s : Posix Path) (name : List UInt8) (key : Data) :
    ((Access.read name key).run.after (db, s)).1 = db ∧
      ((Access.read name key).run.after (db, s)).2.files = s.files ∧
      ((Access.read name key).run.after (db, s)).2.writes = s.writes := by
  have hread : Preserves (fun s' : Posix Path => s'.files = s.files ∧ s'.writes = s.writes)
      (db.readRecord name key) := by
    refine (TableBuilder.preserves_ofExcept _ _).bind (fun found => ?_)
    cases found with
    | some tm => exact TableManager.preserves_files_readRecord tm key _
    | none => exact Preserves.throw _
  rw [Method.after, Access.run, bind_of_ok (get_apply _)]
  cases hrun : db.readRecord name key s with
  | ok record s' =>
    rw [bind_of_ok (Method.ofProcess_ok hrun)]
    exact ⟨rfl, (hread s ⟨rfl, rfl⟩).1 _ _ hrun⟩
  | error e s' =>
    rw [bind_of_error (Method.ofProcess_error hrun)]
    exact ⟨rfl, (hread s ⟨rfl, rfl⟩).2 _ _ hrun⟩

lemma sstableCount_eq {tm : TableManager} (h : db.manager name = some tm) :
    db.sstableCount name = tm.currentSstableId := by
  rw [sstableCount, h]
  rfl

lemma moves_read (h : db.Consistent) (s : Posix Path) (name : List UInt8) (key : Data) :
    Moves (.read name key) (db, s) ((Access.read name key).run.after (db, s)) := by
  obtain ⟨hdb, hfiles, -⟩ := readRecord_after db s name key
  refine ⟨by rw [hdb], by rwa [hdb], fun other => by rw [hdb], fun path => .inl ?_⟩
  exact congrFun hfiles path

lemma moves_createTable (h : db.Consistent) (s : Posix Path) (name : List UInt8)
    (schema : Schema) :
    Moves (.change (.createTable name schema)) (db, s) ((createTable name schema).after (db, s)) := by
  obtain ⟨db', hcreate, hbase, hname, hothers⟩ := createTable_manager db s name schema
  rw [Method.after, hcreate]
  refine ⟨hbase, h.insert name schema [] hbase hname hothers, fun other => ?_, fun path => .inl rfl⟩
  by_cases hne : other = name
  · subst hne
    cases hold : db.manager other with
    | none => simp [sstableCount, hold]
    | some tm => simp [sstableCount, hold, hname]
  · simp [sstableCount, hothers other hne]

lemma moves_writeRecord (h : db.Consistent) (s : Posix Path) (name : List UInt8)
    (record : Record) :
    Moves (.change (.writeRecord name record)) (db, s) ((writeRecord name record).after (db, s)) := by
  rw [writeRecord_manager]
  cases hm : db.manager name with
  | none => exact ⟨rfl, h, fun _ => le_rfl, fun _ => .inl rfl⟩
  | some tm =>
    have hext := TableManager.writeRecord_extends record tm s
    have hcounted := h.counted name tm hm
    dsimp only
    generalize (TableManager.writeRecord record).after (tm, s) = st at hext ⊢
    obtain ⟨hself, hothers⟩ := manager_update hm st.1
    have hcases : ∀ other tm', (db.update name st.1).manager other = some tm' →
        other = name ∧ tm' = st.1 ∨ db.manager other = some tm' := by
      intro other tm' htm'
      by_cases hne : other = name
      · subst hne
        rw [hself, Option.some.injEq] at htm'
        exact .inl ⟨rfl, htm'.symm⟩
      · exact .inr ((hothers other hne).symm.trans htm')
    refine ⟨rfl, ⟨?_, ?_, ?_⟩, ?_, ?_⟩
    · intro other tm' htm'
      rcases hcases other tm' htm' with ⟨rfl, rfl⟩ | hold
      · exact hext.basePath.trans (h.basePath other tm hm)
      · exact h.basePath other tm' hold
    · intro other tm' htm'
      rcases hcases other tm' htm' with ⟨rfl, rfl⟩ | hold
      · exact hext.tableName.trans (h.tableName other tm hm)
      · exact h.tableName other tm' hold
    · intro other tm' htm'
      rcases hcases other tm' htm' with ⟨rfl, rfl⟩ | hold
      · exact hext.counted hcounted
      · exact h.counted other tm' hold
    · intro other
      by_cases hne : other = name
      · subst hne
        rw [sstableCount_eq hm, sstableCount_eq hself]
        exact hext.count hcounted
      · simp [sstableCount, hothers other hne]
    · intro path
      by_cases hpath : IsSstable tm.basePath tm.tableName tm.currentSstableId path
      · refine .inr ⟨name, rfl, ?_⟩
        rw [h.basePath name tm hm, h.tableName name tm hm] at hpath
        simpa only [sstableCount_eq hm] using hpath
      · exact .inl (hext.files path hpath)

lemma moves_run (access : Access) {st : Database × Posix Path} (h : st.1.Consistent) :
    Moves access st (access.run.after st) := by
  cases access with
  | change op =>
    cases op with
    | createTable name schema => exact moves_createTable h st.2 name schema
    | writeRecord name record => exact moves_writeRecord h st.2 name record
  | read name key => exact moves_read h st.2 name key

/-- In every run of calls on a consistent database, with any writes failing and any calls
throwing, a file changes only if it belongs to an SSTable of a table that the run writes to, and
this SSTable is not among those that the table had before. -/
lemma runAccesses_frame (accesses : List Access) {st : Database × Posix Path}
    (h : st.1.Consistent) :
    (runAccesses accesses st).1.basePath = st.1.basePath ∧
      (runAccesses accesses st).1.Consistent ∧
      (∀ name, st.1.sstableCount name ≤ (runAccesses accesses st).1.sstableCount name) ∧
      ∀ path, (runAccesses accesses st).2.files path = st.2.files path ∨
        ∃ access ∈ accesses, ∃ name i, access.written = some name ∧ st.1.sstableCount name ≤ i ∧
          IsSstable st.1.basePath name i path := by
  induction accesses generalizing st with
  | nil => exact ⟨rfl, h, fun _ => le_rfl, fun _ => .inl rfl⟩
  | cons access accesses ih =>
    have hstep := moves_run access h
    obtain ⟨hbase, hconsistent, hcount, hfiles⟩ := ih hstep.consistent
    have hrun : runAccesses (access :: accesses) st = runAccesses accesses (access.run.after st) := rfl
    rw [hrun]
    refine ⟨hbase.trans hstep.basePath, hconsistent,
      fun name => (hstep.count name).trans (hcount name), fun path => ?_⟩
    rcases hfiles path with hsame | ⟨later, hmem, name, i, hwritten, hle, hpath⟩
    · rcases hstep.files path with hfirst | ⟨name, hwritten, hpath⟩
      · exact .inl (hsame.trans hfirst)
      · exact .inr ⟨access, List.mem_cons_self, name, _, hwritten, le_rfl, hpath⟩
    · refine .inr ⟨later, List.mem_cons_of_mem _ hmem, name, i, hwritten,
        (hstep.count name).trans hle, ?_⟩
      rwa [hstep.basePath] at hpath

/-- From the flush that made it on, an SSTable of an opened database keeps its files, whatever
calls follow, whichever of them throw and whichever of their writes fail. -/
theorem sstables_are_written_once {base : List UInt8} {s s₀ : Posix Path}
    (hopen : «open» base s = .ok db s₀) (earlier later : List Access) (name : List UInt8) {i : Nat}
    (hi : i < (runAccesses earlier (db, s₀)).1.sstableCount name) {path : Path}
    (hpath : IsSstable base name i path) :
    (runAccesses (earlier ++ later) (db, s₀)).2.files path =
      (runAccesses earlier (db, s₀)).2.files path := by
  obtain ⟨rfl, hconsistent⟩ := consistent_open hopen
  have hstart : (db, s₀).1.Consistent := hconsistent
  obtain ⟨hbase, hearlier, -, -⟩ := runAccesses_frame earlier hstart
  have happend : runAccesses (earlier ++ later) (db, s₀) =
      runAccesses later (runAccesses earlier (db, s₀)) := List.foldl_append
  rw [happend]
  obtain ⟨-, -, -, hfiles⟩ := runAccesses_frame later hearlier
  rcases hfiles path with hsame | ⟨-, -, name', j, -, hj, hpath'⟩
  · exact hsame
  · -- The changed file would belong to a later SSTable.
    rw [hbase] at hpath'
    obtain ⟨-, rfl, rfl⟩ := hpath'.unique hpath
    omega

/-- A table of pairs of integers and two records of it, which become an SSTable. -/
def twoWrites : List Access :=
  [.change (.createTable [116] TableManager.intPairs),
    .change (.writeRecord [116] ⟨[.int 1, .int 2]⟩), .change (.writeRecord [116] ⟨[.int 3, .int 4]⟩)]

/-- A lookup, another record of the first key, and a third key, with which a second SSTable is made. -/
def laterWrites : List Access :=
  [.read [116] (.int 1), .change (.writeRecord [116] ⟨[.int 1, .int 5]⟩),
    .change (.writeRecord [116] ⟨[.int 6, .int 7]⟩)]

/-- The second flush leaves the first SSTable alone. -/
theorem sstables_are_written_once_later : ∃ s₀,
    «open» [47] (Posix.start (fun _ => 0)) = .ok ⟨[47], []⟩ s₀ ∧
      (runAccesses (twoWrites ++ laterWrites) (⟨[47], []⟩, s₀)).1.sstableCount [116] = 2 ∧
      (runAccesses (twoWrites ++ laterWrites) (⟨[47], []⟩, s₀)).2.files (.data [47] [116] 0) =
        (runAccesses twoWrites (⟨[47], []⟩, s₀)).2.files (.data [47] [116] 0) := by
  refine ⟨_, rfl, by decide +kernel, ?_⟩
  exact sstables_are_written_once (s := Posix.start (fun _ => 0)) rfl twoWrites laterWrites [116] (i := 0)
    (by decide +kernel) (.inr (.inr rfl))

end Database

end Dibibase
