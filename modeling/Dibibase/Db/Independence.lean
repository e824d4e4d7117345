import Dibibase.Db.Frames
import Dibibase.Library.Relational

/-!
# The tables of a database are independent

Two processes that agree on the files of one table and on the memory that is read uninitialised
answer every lookup in this table alike, and a write to it keeps them in agreement. A call on
another table does not disturb the agreement, so that the calls on other tables may as well be left
out of a run.
-/

namespace Dibibase

open Library

/-! ### Two runs of the builder -/

namespace TableBuilder

lemma relates_ofExcept {α : Type} {R : Posix Path → Posix Path → Prop} (x : Except Exception α) :
    Relates Eq R (Process.ofExcept x) (Process.ofExcept x) := by
  cases x with
  | ok a => exact Relates.pure a
  | error e => exact Relates.throw rfl

section Relations

variable {R : Posix Path → Posix Path → Prop} {fds fds' : Files}

lemma relates_writeIndexFile
    (hindex : ∀ bs, Relates Eq R (Posix.write fds.index bs : Process Bool)
      (Posix.write fds'.index bs)) (page : IndexPage) :
    Relates Eq R (writeIndexFile fds page) (writeIndexFile fds' page) :=
  (relates_ofExcept _).bind (fun _ => hindex _)

lemma relates_writeRecords
    (hindex : ∀ bs, Relates Eq R (Posix.write fds.index bs : Process Bool)
      (Posix.write fds'.index bs))
    (hdata : ∀ bs, Relates Eq R (Posix.write fds.data bs : Process Bool)
      (Posix.write fds'.data bs)) (schema : Schema) (records : List (Data × Record))
    (offset : BitVec 64) (summary : Summary) (page : IndexPage) :
    Relates Eq R (writeRecords schema fds records offset summary page)
      (writeRecords schema fds' records offset summary page) := by
  induction records generalizing offset summary page with
  | nil => exact Relates.pure _
  | cons p records ih =>
    rw [writeRecords, writeRecords]
    refine (relates_ofExcept _).bind (fun bs => (hdata _).bind (fun written => ?_))
    cases written with
    | false => exact Relates.pure _
    | true =>
      refine (relates_ofExcept _).bind ?_
      rintro ⟨pushed, page'⟩
      cases pushed with
      | true => exact ih _ _ _
      | false =>
        refine (relates_writeIndexFile hindex _).bind (fun written => ?_)
        cases written with
        | false => exact Relates.pure _
        | true => exact (relates_ofExcept _).bind (fun _ => ih _ _ _)

lemma relates_constructSstableFiles
    (hsummary : ∀ bs, Relates Eq R (Posix.write fds.summary bs : Process Bool)
      (Posix.write fds'.summary bs))
    (hindex : ∀ bs, Relates Eq R (Posix.write fds.index bs : Process Bool)
      (Posix.write fds'.index bs))
    (hdata : ∀ bs, Relates Eq R (Posix.write fds.data bs : Process Bool)
      (Posix.write fds'.data bs)) (schema : Schema) (records : List (Data × Record)) :
    Relates Eq R (constructSstableFiles schema records fds)
      (constructSstableFiles schema records fds') := by
  cases records with
  | nil => exact Relates.throw rfl
  | cons p records =>
    rw [constructSstableFiles, constructSstableFiles]
    refine (relates_writeRecords hindex hdata _ _ _ _ _).bind ?_
    rintro ⟨finished, summary, page⟩
    cases finished with
    | false => exact Relates.pure _
    | true =>
      refine (relates_writeIndexFile hindex _).bind (fun written => ?_)
      cases written with
      | false => exact Relates.pure _
      | true =>
        exact ((relates_ofExcept _).bind (fun _ => hsummary _)).bind (fun _ => Relates.pure _)

end Relations

/-- While two runs of the builder have written the same, they write the same. -/
def SameOutput (S S' : Session) (s s' : Posix Path) : Prop := ∃ out, s = S.after out ∧ s' = S'.after out

lemma SameOutput.relates_write {S S' : Session} {fd fd' : Option Nat} {bs : List UInt8}
    {f : Output → Output}
    (h : ∀ out, Posix.write (ε := Exception) fd bs (S.after out) = .ok true (S.after (f out)))
    (h' : ∀ out, Posix.write (ε := Exception) fd' bs (S'.after out) = .ok true (S'.after (f out))) :
    Relates Eq (SameOutput S S') (Posix.write fd bs : Process Bool) (Posix.write fd' bs) := by
  rintro s s' ⟨out, rfl, rfl⟩
  rw [h, h']
  exact .ok true ⟨f out, rfl, rfl⟩

/-- Two processes whose writes succeed build the same SSTable. -/
lemma build_relates {s s' : Posix Path} (hw : s.WritesSucceed) (hw' : s'.WritesSucceed)
    (base table : List UInt8) (schema : Schema) (sstableId : Nat) (records : List (Data × Record)) :
    ResultsRelate Eq (fun t t' => t.WritesSucceed ∧ t'.WritesSucceed ∧ t.heap = s.heap ∧
        t'.heap = s'.heap ∧ ∃ out, t.files = filesAfter s.files base table sstableId out ∧
          t'.files = filesAfter s'.files base table sstableId out)
      (build base table schema sstableId records s)
      (build base table schema sstableId records s') := by
  rw [build_eq hw, build_eq hw']
  set S := Session.begin s hw base table sstableId
  set S' := Session.begin s' hw' base table sstableId
  have hconstruct := relates_constructSstableFiles
    (fun bs => SameOutput.relates_write (fun out => S.write_summary out bs)
      (fun out => S'.write_summary out bs))
    (fun bs => SameOutput.relates_write (fun out => S.write_index out bs)
      (fun out => S'.write_index out bs))
    (fun bs => SameOutput.relates_write (fun out => S.write_data out bs)
      (fun out => S'.write_data out bs)) schema records (S.after {}) (S'.after {}) ⟨{}, rfl, rfl⟩
  rcases hconstruct.cases with
    ⟨summary, t, t', hrun, hrun', out, rfl, rfl⟩ | ⟨e, e', t, t', hrun, hrun', rfl, out, rfl, rfl⟩
  · rw [bind_of_ok hrun, bind_of_ok hrun', S.close_executes, S'.close_executes]
    exact .ok _ ⟨hw, hw', rfl, rfl, out, rfl, rfl⟩
  · rw [bind_of_error hrun, bind_of_error hrun']
    exact .error rfl ⟨hw, hw', rfl, rfl, out, rfl, rfl⟩

end TableBuilder

/-! ### Two processes that agree on a table -/

/-- Both processes write without failures, hold the same files of the table, and show the same
uninitialised memory. -/
structure SameTable (base table : List UInt8) (s s' : Posix Path) : Prop where
  left : s.WritesSucceed
  right : s'.WritesSucceed
  heap : s.heap = s'.heap
  files : ∀ i path, IsSstable base table i path → s.files path = s'.files path

lemma filesAfter_congr {files files' : Path → Option (List UInt8)} {base table : List UInt8}
    (h : ∀ i path, IsSstable base table i path → files path = files' path) (sstableId : Nat)
    (out : TableBuilder.Output) (i : Nat) (path : Path) (hpath : IsSstable base table i path) :
    TableBuilder.filesAfter files base table sstableId out path =
      TableBuilder.filesAfter files' base table sstableId out path := by
  have hsummary := h sstableId (.summary base table sstableId) (.inl rfl)
  have hindex := h sstableId (.index base table sstableId) (.inr (.inl rfl))
  have hdata := h sstableId (.data base table sstableId) (.inr (.inr rfl))
  have hother := h i path hpath
  simp only [TableBuilder.filesAfter, Function.update_apply, hsummary, hindex, hdata, hother]

lemma SameTable.relates_readFile {base table : List UInt8} {i : Nat} {path : Path}
    (hpath : IsSstable base table i path) (offset : Int) (n : Nat) :
    Relates Eq (SameTable base table) (Posix.readFile path offset n : Process (List UInt8))
      (Posix.readFile path offset n) := by
  intro s s' h
  obtain ⟨t, hread, hfiles, hwrites⟩ := Posix.readFile_executes (ε := Exception) path offset n s
  obtain ⟨t', hread', hfiles', hwrites'⟩ := Posix.readFile_executes (ε := Exception) path offset n s'
  have hheap := Posix.readFile_heap hread
  have hheap' := Posix.readFile_heap hread'
  have hbytes : s.fileBytes path offset.toNat n = s'.fileBytes path offset.toNat n := by
    rw [Posix.fileBytes, Posix.fileBytes, h.files i path hpath]
  rw [hread, hread', hbytes, h.heap]
  refine .ok _ ⟨?_, ?_, ?_, fun j other hother => ?_⟩
  · intro j
    rw [hwrites]
    exact h.left j
  · intro j
    rw [hwrites']
    exact h.right j
  · rw [hheap, hheap', h.heap]
  · rw [hfiles, hfiles', h.files j other hother]

namespace TableManager

/-! ### Lookups and writes in two processes -/

section Relations

variable (base table : List UInt8) (schema : Schema)

lemma relates_readSstable (sstableId : Nat) (summary : Summary) (key : Data) :
    Relates Eq (SameTable base table) (readSstable base table schema sstableId summary key)
      (readSstable base table schema sstableId summary key) := by
  unfold readSstable
  refine (TableBuilder.relates_ofExcept _).bind (fun pageNumber => ?_)
  refine Relates.bind ?_ (fun page => (TableBuilder.relates_ofExcept _).bind (fun keyOffset => ?_))
  · exact (SameTable.relates_readFile (i := sstableId) (.inr (.inl rfl)) _ _).bind
      (fun _ => TableBuilder.relates_ofExcept _)
  · split
    · exact Relates.pure _
    · refine Relates.bind ?_ (fun _ => Relates.pure _)
      exact (SameTable.relates_readFile (i := sstableId) (.inr (.inr rfl)) _ _).bind
        (fun _ => TableBuilder.relates_ofExcept _)

end Relations

variable (tm : TableManager)

lemma relates_readSstables (key : Data) (n : Nat) :
    Relates Eq (SameTable tm.basePath tm.tableName) (tm.readSstables key n)
      (tm.readSstables key n) := by
  induction n with
  | zero => exact Relates.throw rfl
  | succ n ih =>
    rw [readSstables]
    cases tm.summaries[n]? with
    | none => exact Relates.throw rfl
    | some summary =>
      refine (relates_readSstable _ _ _ n summary key).bind (fun found => ?_)
      cases found with
      | some record => exact Relates.pure _
      | none => exact ih

/-- Two processes that agree on the table find the same. -/
lemma relates_readRecord (key : Data) :
    Relates Eq (SameTable tm.basePath tm.tableName) (tm.readRecord key) (tm.readRecord key) := by
  refine (TableBuilder.relates_ofExcept _).bind (fun found => ?_)
  cases found with
  | some record => exact Relates.pure _
  | none => exact relates_readSstables tm key _

variable {s s' : Posix Path}

lemma flush_sameTable (h : SameTable tm.basePath tm.tableName s s') :
    (flush.after (tm, s)).1 = (flush.after (tm, s')).1 ∧
      SameTable tm.basePath tm.tableName (flush.after (tm, s)).2 (flush.after (tm, s')).2 := by
  rcases (TableBuilder.build_relates h.left h.right tm.basePath tm.tableName tm.schema
    tm.currentSstableId tm.memtable).cases with
    ⟨summary, t, t', hrun, hrun', hw, hw', hheap, hheap', out, hfiles, hfiles'⟩ |
    ⟨e, e', t, t', hrun, hrun', -, hw, hw', hheap, hheap', out, hfiles, hfiles'⟩
  all_goals
    have hsame : SameTable tm.basePath tm.tableName t t' := by
      refine ⟨hw, hw', by rw [hheap, hheap', h.heap], fun i path hpath => ?_⟩
      rw [hfiles, hfiles']
      exact filesAfter_congr h.files _ out i path hpath
  · rw [Method.after, Method.after, flush_ok tm hrun, flush_ok tm hrun']
    exact ⟨rfl, hsame⟩
  · rw [Method.after, Method.after, flush_error tm hrun, flush_error tm hrun']
    exact ⟨rfl, hsame⟩

/-- A write to the table leaves the processes in agreement, with the same manager. -/
lemma writeRecord_sameTable (h : SameTable tm.basePath tm.tableName s s') (record : Record) :
    ((writeRecord record).after (tm, s)).1 = ((writeRecord record).after (tm, s')).1 ∧
      SameTable tm.basePath tm.tableName ((writeRecord record).after (tm, s)).2
        ((writeRecord record).after (tm, s')).2 := by
  cases hv : tm.schema.verify record with
  | false =>
    rw [Method.after, Method.after, writeRecord_refused hv, writeRecord_refused hv]
    exact ⟨rfl, h⟩
  | true =>
    cases hkey : record.values[tm.schema.sortKeyIndex.toNat]? with
    | none =>
      rw [Method.after, Method.after, writeRecord_no_key hv hkey, writeRecord_no_key hv hkey]
      exact ⟨rfl, h⟩
    | some key =>
      cases hins : OrderedMap.insert Data.compare key record tm.memtable with
      | error e =>
        rw [Method.after, Method.after, writeRecord_insert_error hv hkey hins,
          writeRecord_insert_error hv hkey hins]
        exact ⟨rfl, h⟩
      | ok memtable =>
        rw [after_writeRecord_accepted tm s hv hkey hins, after_writeRecord_accepted tm s' hv hkey hins]
        by_cases htwo : 2 ≤ memtable.length
        · rw [if_pos htwo, if_pos htwo]
          exact flush_sameTable { tm with memtable := memtable } h
        · rw [if_neg htwo, if_neg htwo]
          exact ⟨rfl, h⟩

end TableManager

namespace Database

/-! ### Runs of calls -/

/-- The databases agree on one table, and their processes on its files. -/
structure AgreeOn (name : List UInt8) (st st' : Database × Posix Path) : Prop where
  basePath : st.1.basePath = st'.1.basePath
  manager : st.1.manager name = st'.1.manager name
  left : st.1.Consistent
  right : st'.1.Consistent
  process : SameTable st.1.basePath name st.2 st'.2

variable {db : Database} {s : Posix Path} {name : List UInt8} {st st' : Database × Posix Path}

/-- A call leaves the managers of the other tables alone, and the memory. -/
lemma run_manager (op : Op) (st : Database × Posix Path) :
    (∀ other, other ≠ op.table → (op.run.after st).1.manager other = st.1.manager other) ∧
      (op.run.after st).2.heap = st.2.heap ∧
      (st.2.WritesSucceed → (op.run.after st).2.WritesSucceed) := by
  obtain ⟨db, s⟩ := st
  cases op with
  | createTable name schema =>
    obtain ⟨db', hcreate, -, -, hothers⟩ := createTable_manager db s name schema
    rw [Op.run, Method.after, hcreate]
    exact ⟨hothers, rfl, fun h => h⟩
  | writeRecord name record =>
    rw [Op.run, writeRecord_manager]
    cases hm : db.manager name with
    | none => exact ⟨fun _ _ => rfl, rfl, fun h => h⟩
    | some tm =>
      have hext := TableManager.writeRecord_extends record tm s
      exact ⟨(manager_update hm _).2, hext.heap, hext.succeed⟩

/-- A call on another table does not disturb the agreement. -/
lemma AgreeOn.other (h : AgreeOn name st st') {op : Op} (hop : op.table ≠ name) :
    AgreeOn name (op.run.after st) st' := by
  obtain ⟨hothers, hheap, hsucceed⟩ := run_manager op st
  have hmoves : Moves (.change op) st (op.run.after st) := moves_run (.change op) h.left
  refine ⟨hmoves.basePath.trans h.basePath, (hothers name hop.symm).trans h.manager,
    hmoves.consistent, h.right, hsucceed h.process.left, h.process.right,
    hheap.trans h.process.heap, fun i path hpath => ?_⟩
  rw [hmoves.basePath] at hpath
  rcases hmoves.files path with hsame | ⟨other, hwritten, hpath'⟩
  · exact hsame.trans (h.process.files i path hpath)
  · -- The changed file would belong to a table of another name.
    have htable : op.table = other := by
      cases op with
      | createTable _ _ => cases hwritten
      | writeRecord _ _ => exact Option.some.inj hwritten
    exact absurd (htable.trans (hpath'.unique hpath).2.1) hop

/-- The same call on the table keeps the agreement. -/
lemma AgreeOn.same (h : AgreeOn name st st') {op : Op} (hop : op.table = name) :
    AgreeOn name (op.run.after st) (op.run.after st') := by
  have hmoves : Moves (.change op) st (op.run.after st) := moves_run (.change op) h.left
  have hmoves' : Moves (.change op) st' (op.run.after st') := moves_run (.change op) h.right
  have hprocess := h.process
  have hbase := h.basePath
  have hmanager := h.manager
  obtain ⟨db, s⟩ := st
  obtain ⟨db', s'⟩ := st'
  suffices hrun : (op.run.after (db, s)).1.manager name = (op.run.after (db', s')).1.manager name ∧
      SameTable db.basePath name (op.run.after (db, s)).2 (op.run.after (db', s')).2 by
    refine ⟨(hmoves.basePath.trans hbase).trans hmoves'.basePath.symm, hrun.1, hmoves.consistent,
      hmoves'.consistent, ?_⟩
    rw [hmoves.basePath]
    exact hrun.2
  subst hop
  cases op with
  | createTable name schema =>
    obtain ⟨db₁, hcreate, -, hname, -⟩ := createTable_manager db s name schema
    obtain ⟨db₁', hcreate', -, hname', -⟩ := createTable_manager db' s' name schema
    rw [Op.run, Method.after, Method.after, hcreate, hcreate']
    dsimp only [Op.table] at *
    rw [hname, hname', hmanager, hbase]
    exact ⟨rfl, hbase ▸ hprocess⟩
  | writeRecord name record =>
    rw [Op.run, writeRecord_manager, writeRecord_manager]
    dsimp only [Op.table] at *
    rw [hmanager]
    cases hm' : db'.manager name with
    | none => exact ⟨hmanager, hprocess⟩
    | some tm =>
      have hm : db.manager name = some tm := hmanager.trans hm'
      have htable : SameTable tm.basePath tm.tableName s s' := by
        rw [h.left.basePath name tm hm, h.left.tableName name tm hm]
        exact hprocess
      obtain ⟨hsame, hprocess'⟩ := TableManager.writeRecord_sameTable tm htable record
      refine ⟨?_, ?_⟩
      · rw [(manager_update hm _).1, (manager_update hm' _).1, hsame]
      · rw [h.left.basePath name tm hm, h.left.tableName name tm hm] at hprocess'
        exact hprocess'

lemma AgreeOn.readRecord (h : AgreeOn name st st') (key : Data) :
    outcome (st.1.readRecord name key) st.2 = outcome (st'.1.readRecord name key) st'.2 := by
  have hfind := find_eq_manager st.1 name
  have hfind' := find_eq_manager st'.1 name
  rw [← h.manager] at hfind'
  rw [Database.readRecord, Database.readRecord, outcome_bind_of_ok (Process.ofExcept_ok hfind _),
    outcome_bind_of_ok (Process.ofExcept_ok hfind' _)]
  cases hm : st.1.manager name with
  | none => rfl
  | some tm =>
    apply ResultsRelate.outcome_eq (TableManager.relates_readRecord tm key st.2 st'.2 _)
    rw [h.left.basePath name tm hm, h.left.tableName name tm hm]
    exact h.process

/-- The calls on other tables may be left out of a run. -/
lemma AgreeOn.runAll (h : AgreeOn name st st') (ops : List Op) :
    AgreeOn name (runAll ops st) (runAll (ops.filter (fun op => op.table = name)) st') := by
  induction ops generalizing st st' with
  | nil => exact h
  | cons op ops ih =>
    by_cases hop : op.table = name
    · rw [List.filter_cons_of_pos (by simpa using hop)]
      exact ih (h.same hop)
    · rw [List.filter_cons_of_neg (by simpa using hop)]
      exact ih (h.other hop)

end Database

end Dibibase
