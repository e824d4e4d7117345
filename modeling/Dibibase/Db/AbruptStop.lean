import Dibibase.Db.Shutdown

/-!
# An abrupt stop

A process that stops without the destructor leaves its SSTables and no metadata: nothing
but the destructor writes the metadata file, although the comment on `create_table` says
that this call does. The next process finds no tables, and the first SSTable that it writes
to a table of an old name goes over the old files.
-/

namespace Dibibase

open Library TableBuilder

namespace Database

/-- What a process leaves to the next one, which finds other memory. -/
def stopped (s : Posix Path) (heap : Nat → UInt8) : Posix Path :=
  { s with descriptors := [], heap := heap }

/-- A process that constructs a database, makes some calls and stops. A constructor that throws
ends the process. -/
def session (base : List UInt8) (s : Posix Path) (ops : List Op) : Posix Path :=
  match «open» base (stopped s s.heap) with
  | .ok db s' => (runAll ops (db, s')).2
  | .error _ s' => s'

/-- The state in which a process stops is safe: a process that comes after it constructs a
database with all tables, which reads what the SSTables held, and no sequence of later
processes changes a file of these SSTables. -/
structure SurvivesStop (st : Database × Posix Path) : Prop where
  reopens : ∀ heap, ∃ db' s', «open» st.1.basePath (stopped st.2 heap) = .ok db' s' ∧
    (∀ name ∈ st.1.tableManagers.map Prod.fst, name ∈ db'.tableManagers.map Prod.fst) ∧
    ∀ name tm key record, (name, tm) ∈ st.1.tableManagers →
      outcome ((reopened tm).readRecord key) st.2 = .ok record →
      outcome (db'.readRecord name key) s' = .ok record
  keeps : ∀ (sessions : List (List Op)) name tm, (name, tm) ∈ st.1.tableManagers →
    ∀ i < tm.currentSstableId, ∀ path, IsSstable st.1.basePath name i path →
      (sessions.foldl (session st.1.basePath) st.2).files path = st.2.files path

variable {base : List UInt8} {s : Posix Path} {ops : List Op}

/-- Without tables no call does anything. -/
lemma runAll_no_tables (hops : ∀ name schema, Op.createTable name schema ∉ ops) :
    runAll ops (⟨base, []⟩, s) = (⟨base, []⟩, s) := by
  induction ops with
  | nil => rfl
  | cons op ops ih =>
    cases op with
    | createTable name schema => exact absurd (by simp) (hops name schema)
    | writeRecord name record =>
      have hstay : (Op.writeRecord name record).run.after (⟨base, []⟩, s) = (⟨base, []⟩, s) :=
        after_writeRecord_missing rfl
      rw [runAll, List.foldl_cons, hstay]
      exact ih (fun name schema h => hops name schema (by simp [h]))

/-- The calls up to the first that creates a table. -/
lemma exists_first_create {name : List UInt8} {schema : Schema}
    (h : Op.createTable name schema ∈ ops) :
    ∃ before name schema, before ++ [Op.createTable name schema] <+: ops ∧
      ∀ n sch, Op.createTable n sch ∉ before := by
  induction ops with
  | nil => simp at h
  | cons op ops ih =>
    cases op with
    | createTable n sch => exact ⟨[], n, sch, by simp, by simp⟩
    | writeRecord n record =>
      obtain ⟨before, n', sch, hbefore, hnone⟩ := ih (by simpa using h)
      refine ⟨.writeRecord n record :: before, n', sch, ?_, by simpa using hnone⟩
      exact List.cons_prefix_cons.mpr ⟨rfl, hbefore⟩

lemma survivesStop_no_tables (hm : s.files (.metadata base) = some []) :
    SurvivesStop (⟨base, []⟩, s) := by
  refine ⟨fun heap => ?_, by simp⟩
  obtain ⟨s', hopen, -⟩ := open_fresh (s := stopped s heap) (by rw [stopped, hm]; rfl)
  exact ⟨_, s', hopen, by simp, by simp⟩

/-- A table that has just been created is not there any more. -/
lemma not_survivesStop_create (hm : s.files (.metadata base) = some []) (name : List UInt8)
    (schema : Schema) :
    ¬ SurvivesStop ((createTable name schema).after (⟨base, []⟩, s)) := by
  rw [after_createTable [(name, TableManager.new base name schema [])] rfl]
  intro h
  obtain ⟨db', s', hrun, hnames, -⟩ := h.reopens (fun _ => 0)
  obtain ⟨s₁, hopen, -⟩ := open_fresh (s := stopped s (fun _ => 0)) (by rw [stopped, hm]; rfl)
  have hsame := hopen.symm.trans hrun
  rw [EStateM.Result.ok.injEq] at hsame
  rw [← hsame.1] at hnames
  simpa using hnames name (by simp)

/-- From a directory without metadata, every state of a run is safe exactly when the run
creates no table. -/
theorem survivesStop_iff (hm : (s.files (.metadata base)).getD [] = []) {db : Database}
    {s₀ : Posix Path} (hopen : «open» base s = .ok db s₀) (ops : List Op) :
    (∀ before, before <+: ops → SurvivesStop (runAll before (db, s₀))) ↔
      ∀ name schema, Op.createTable name schema ∉ ops := by
  obtain ⟨s₁, hrun, hfiles, -⟩ := open_fresh hm
  have hsame := hrun.symm.trans hopen
  rw [EStateM.Result.ok.injEq] at hsame
  obtain ⟨rfl, rfl⟩ := hsame
  have hempty : s₁.files (.metadata base) = some [] := by
    rw [hfiles]
    exact Function.update_self ..
  constructor
  · intro h name schema hmem
    obtain ⟨before, n, sch, hbefore, hnone⟩ := exists_first_create hmem
    have hstop := h _ hbefore
    rw [runAll_append, runAll_no_tables hnone] at hstop
    exact not_survivesStop_create hempty n sch hstop
  · intro h before hbefore
    rw [runAll_no_tables (fun name schema hmem => h name schema (hbefore.subset hmem))]
    exact survivesStop_no_tables hempty

/-- A record for a table that was never created. -/
def strayWrite : List Op := [.writeRecord [116] ⟨[.int 1]⟩]

theorem survivesStop_iff_strayWrite : ∃ s₀, «open» [47] (Posix.start (fun _ => 0)) =
    .ok ⟨[47], []⟩ s₀ ∧ SurvivesStop (runAll strayWrite (⟨[47], []⟩, s₀)) := by
  obtain ⟨s₀, hopen, -⟩ := open_fresh (fresh_start [47] (fun _ => 0)).metadata
  exact ⟨s₀, hopen, (survivesStop_iff (fresh_start [47] (fun _ => 0)).metadata hopen strayWrite).mpr
    (by simp [strayWrite]) strayWrite (List.prefix_refl _)⟩

/-- A table is created, the process stops, and the next database has no table. -/
theorem not_survivesStop_oneTable : ∃ s₀, «open» [47] (Posix.start (fun _ => 0)) =
    .ok ⟨[47], []⟩ s₀ ∧
    ¬ SurvivesStop (runAll [.createTable [116] TableManager.intPairs] (⟨[47], []⟩, s₀)) := by
  obtain ⟨s₀, hopen, hfiles, -⟩ := open_fresh (fresh_start [47] (fun _ => 0)).metadata
  refine ⟨s₀, hopen, not_survivesStop_create ?_ _ _⟩
  rw [hfiles]
  exact Function.update_self ..

end Database

end Dibibase
