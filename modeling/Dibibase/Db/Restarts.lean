import Dibibase.Db.Shutdown

/-!
# Restarts

A process constructs the database, makes its calls and destroys the database, and the next process finds its
files and a memory full of zeros. However many processes there have been, what is read is what has reached
the SSTables of the earlier ones and what this one has written.
-/

namespace Dibibase

open Library TableBuilder

/-- Of one record at most one entry is written. -/
lemma TableManager.accepted_singleton (schema : Schema) (record : Record) :
    accepted schema [record] = [] ∨ ∃ key, accepted schema [record] = [(key, record)] := by
  rw [accepted, List.filterMap_cons]
  split
  · exact .inl rfl
  next entry hentry =>
    rw [Option.ite_none_right_eq_some, Option.map_eq_some_iff] at hentry
    obtain ⟨-, key, -, rfl⟩ := hentry
    exact .inr ⟨key, rfl⟩

namespace Database

/-- A process: the memory that it is given, and the calls that it makes. -/
structure Session where
  heap : Nat → UInt8
  ops : List Op

namespace Session

/-- A new process, which has no open files, constructs the database and makes its calls. One that throws is
caught. -/
def live (base : List UInt8) (x : Session) : Process Database := do
  modify (fun s => { s with heap := x.heap, descriptors := [] })
  let db ← «open» base
  fun s => .ok (runAll x.ops (db, s)).1 (runAll x.ops (db, s)).2

/-- The process ends with the destructor. -/
def run (base : List UInt8) (x : Session) : Process Unit := do
  let db ← x.live base
  flushMetadata db

end Session

namespace Contents

/-- What one process leaves of the contents, and of those that it adds. -/
def restart (c : Contents) (ops : List Op) : Contents := (ops.foldl step c).forget

/-- The contents that a process finds after others. -/
def afterSessions (sessions : List Session) : Contents :=
  sessions.foldl (fun c x => c.restart x.ops) (fun _ => none)

/-- No table has more SSTables. -/
def Depth (c : Contents) (n : Nat) : Prop :=
  ∀ name schema store, c name = some (schema, store) → store.frozen.length ≤ n

end Contents

/-- What a call may add to the catalog. -/
def Op.size : Op → Nat
  | .createTable name schema => Table.size ⟨name, schema, 0⟩
  | .writeRecord _ _ => 0

/-! ### One call -/

section Calls

variable {st : Database × Posix Path} {db : Database} {s : Posix Path} {c : Contents} {n : Nat}

/-- The metadata file of a running process is not longer than the catalog. -/
structure Running (st : Database × Posix Path) (c : Contents) : Prop where
  holds : Holds st c
  metadata : ∃ content, st.2.files (.metadata st.1.basePath) = some content ∧
    content.length ≤ totalSize st.1.tables

lemma totalSize_tables (db : Database) : totalSize db.tables =
    (db.tableManagers.map (fun p => Table.size ⟨p.1, p.2.schema, 0⟩)).sum := by
  rw [totalSize, tables, List.map_map]
  rfl

/-- A new table makes the catalog longer by its entry. -/
lemma totalSize_create (name : List UInt8) (schema : Schema) :
    totalSize db.tables ≤ totalSize ((createTable name schema).after (db, s)).1.tables ∧
      totalSize ((createTable name schema).after (db, s)).1.tables ≤
        totalSize db.tables + Op.size (.createTable name schema) := by
  cases hinsert : OrderedMap.insert nameLt name (TableManager.new db.basePath name schema [])
      db.tableManagers with
  | error e =>
    rw [Method.after, createTable_error hinsert]
    exact ⟨le_refl _, Nat.le_add_right _ _⟩
  | ok tms =>
    rw [after_createTable tms hinsert, totalSize_tables, totalSize_tables]
    rcases OrderedMap.insert_cases hinsert with rfl | ⟨l, r, hm, rfl⟩
    · exact ⟨le_refl _, Nat.le_add_right _ _⟩
    · rw [hm]
      simp only [List.map_append, List.map_cons, List.sum_append, List.sum_cons, Op.size,
        TableManager.new]
      omega

/-- A record is written to files of its table only, and the catalog has no longer entries. -/
lemma running_write (h : Running (db, s) c) (name : List UInt8) {record : Record} (hs : record.Sized) :
    Running ((writeRecord name record).after (db, s)) (c.step (.writeRecord name record)) ∧
      totalSize ((writeRecord name record).after (db, s)).1.tables = totalSize db.tables := by
  have hholds := h.holds.write hs name
  obtain ⟨content, hcontent, hlength⟩ := h.metadata
  by_cases hname : name ∈ db.tableManagers.map Prod.fst
  · obtain ⟨tm, hmem⟩ := exists_table hname
    obtain ⟨schema, store, hc, hm⟩ := h.holds.managed hmem
    obtain ⟨tm', files, hafter, hm', -, hframe⟩ := hm.write hs
    rw [after_writeRecord_found (find_table h.holds.sorted hmem), hafter] at hholds ⊢
    have hsize : totalSize (db.update name tm').tables = totalSize db.tables := by
      rw [totalSize_tables, totalSize_tables, update, List.map_map]
      congr 1
      apply List.map_congr_left
      intro p hp
      by_cases hpname : p.1 = name
      · have hsame : p.2 = tm := by
          have hfind := find_table h.holds.sorted hmem
          have hother := find_table h.holds.sorted (hpname ▸ hp : (name, p.2) ∈ db.tableManagers)
          rw [hfind] at hother
          cases hother
          rfl
        have hschema : tm'.schema = p.2.schema := by
          rw [hsame]
          exact hm'.sameSchema.trans hm.sameSchema.symm
        simp [hpname, hschema]
      · simp [hpname]
    refine ⟨⟨hholds, content, ?_, ?_⟩, hsize⟩
    · rw [← hcontent]
      exact hframe _ (by simp [IsSstable, update])
    · rwa [hsize]
  · rw [after_writeRecord_missing (find_no_table h.holds.sorted hname)] at hholds ⊢
    exact ⟨⟨hholds, content, hcontent, hlength⟩, rfl⟩

/-- What one call does to a running process. -/
lemma Running.step (h : Running st c) {op : Op} (hfits : op.Fits) :
    Running (op.run.after st) (c.step op) ∧ (op.run.after st).1.basePath = st.1.basePath ∧
      totalSize (op.run.after st).1.tables ≤ totalSize st.1.tables + op.size := by
  obtain ⟨db, s⟩ := st
  cases op with
  | createTable name schema =>
    obtain ⟨hlow, hhigh⟩ := totalSize_create (s := s) name schema
    obtain ⟨content, hcontent, hlength⟩ := h.metadata
    have hholds := h.holds.create hfits
    obtain ⟨tms, hafter, -, -⟩ := createTable_cases (s := s) h.holds.sorted name schema
    rw [Op.run]
    rw [hafter] at hholds hlow hhigh ⊢
    exact ⟨⟨hholds, content, hcontent, hlength.trans hlow⟩, rfl, hhigh⟩
  | writeRecord name record =>
    obtain ⟨hrunning, hsize⟩ := running_write h name hfits
    exact ⟨hrunning, (names_write h.holds.sorted name record).2, hsize.le⟩

/-- What all calls of a process do to it. -/
lemma Running.runAll (h : Running st c) {ops : List Op} (hfits : ∀ op ∈ ops, op.Fits) :
    Running (runAll ops st) (ops.foldl Contents.step c) ∧ (runAll ops st).1.basePath = st.1.basePath ∧
      totalSize (runAll ops st).1.tables ≤ totalSize st.1.tables + (ops.map Op.size).sum := by
  induction ops generalizing st c with
  | nil => exact ⟨h, rfl, by simp [Database.runAll]⟩
  | cons op ops ih =>
    obtain ⟨hrunning, hbase, hsize⟩ := h.step (hfits op List.mem_cons_self)
    obtain ⟨hlater, hbase', hsize'⟩ := ih hrunning (fun op hop => hfits op (List.mem_cons_of_mem _ hop))
    refine ⟨hlater, hbase'.trans hbase, hsize'.trans ?_⟩
    rw [List.map_cons, List.sum_cons]
    omega

/-- A call makes at most one SSTable. -/
lemma Contents.Depth.step (h : c.Depth n) (op : Op) : (c.step op).Depth (n + 1) := by
  have hold : ∀ {name schema store}, c name = some (schema, store) → store.frozen.length ≤ n + 1 :=
    fun hc => (h _ _ _ hc).trans (Nat.le_succ n)
  intro name schema store hc
  by_cases hname : name = op.table
  · subst hname
    cases op with
    | createTable name schema' =>
      rw [Op.table] at hc
      cases hc' : c name with
      | some p =>
        rw [Contents.step, hc'] at hc
        exact hold hc
      | none =>
        rw [Contents.step, hc'] at hc
        dsimp only at hc
        rw [Function.update_self] at hc
        cases hc
        exact Nat.zero_le _
    | writeRecord name record =>
      rw [Op.table] at hc
      cases hc' : c name with
      | none =>
        rw [Contents.step, hc'] at hc
        dsimp only at hc
        rw [hc'] at hc
        cases hc
      | some p =>
        obtain ⟨schema', store'⟩ := p
        rw [Contents.step, hc'] at hc
        dsimp only at hc
        rw [Function.update_self] at hc
        cases hc
        rcases TableManager.accepted_singleton schema record with hnone | ⟨key, hone⟩
        · rw [hnone]
          exact hold hc'
        · rw [hone]
          exact (LayeredStore.length_frozen_write_le 2 store' key record).trans
            (Nat.succ_le_succ (h name schema store' hc'))
  · rw [Contents.step_of_ne hname] at hc
    exact hold hc

lemma Contents.Depth.foldl (h : c.Depth n) (ops : List Op) :
    (ops.foldl Contents.step c).Depth (n + ops.length) := by
  induction ops generalizing c n with
  | nil => exact h
  | cons op ops ih =>
    have hlater := ih (h.step op)
    rwa [Nat.add_assoc, Nat.add_comm 1] at hlater

lemma Contents.Depth.forget (h : c.Depth n) : c.forget.Depth n := by
  intro name schema store hc
  rw [Contents.forget, Option.map_eq_some_iff] at hc
  obtain ⟨⟨schema', store'⟩, hc', heq⟩ := hc
  cases heq
  exact h name schema' store' hc'

end Calls

/-! ### One process after another -/

section Processes

variable {base : List UInt8} {db : Database} {s s' : Posix Path} {c : Contents} {n k : Nat}

/-- A process with this memory opens the database and finds the contents, in a catalog of no more than `n`
bytes. -/
def Opens (base : List UInt8) (s : Posix Path) (c : Contents) (n : Nat) (heap : Nat → UInt8) : Prop :=
  ∃ db s', «open» base { s with heap := heap, descriptors := [] } = .ok db s' ∧ db.basePath = base ∧
    Running (db, s') c ∧ totalSize db.tables ≤ n

/-- The first process. -/
lemma Fresh.opens (h : Fresh base s) (heap : Nat → UInt8) : Opens base s (fun _ => none) 0 heap := by
  have hfresh : Fresh base { s with heap := heap, descriptors := [] } := ⟨h.succeed, h.metadata, h.summaries⟩
  obtain ⟨s', hopen, -⟩ := open_fresh hfresh.metadata
  obtain ⟨-, hholds, hun⟩ := hfresh.holds hopen
  exact ⟨_, s', hopen, rfl, ⟨hholds, [], hun.metadata, Nat.zero_le _⟩, le_refl _⟩

lemma length_metadataFile (ts : List Table) : (metadataFile ts).length = totalSize ts := by
  rw [metadataFile, List.length_take, List.length_append, length_leBytes, length_flatMap_encode]
  omega

/-- The destructor writes the catalog over the file of the last process. -/
lemma Running.flush (h : Running (db, s) c) (hlt : totalSize db.tables + 4 < 2 ^ 31) :
    flushMetadata db s = .ok () (closed (db, s) s.heap) := by
  obtain ⟨content, hcontent, hlength⟩ := h.metadata
  have hbuf := metadataBytes_of_lt hlt
  rw [flushMetadata_ok h.holds.succeed hcontent hbuf, (flushMetadata_content hbuf hlength).1]
  rfl

/-- The next process, which finds a memory full of zeros. -/
lemma Running.opens (h : Running (db, s) c) (hlt : totalSize db.tables + 4 < 2 ^ 31) (hdepth : c.Depth k)
    (hk : k < 2 ^ 32) {heap heap' : Nat → UInt8} (hzero : ∀ i, heap' i = 0) :
    Opens db.basePath (closed (db, s) heap) c.forget (totalSize db.tables) heap' := by
  have hholds : Holds (db, { s with descriptors := [] }) c := h.holds.congr rfl rfl
  have hid : ∀ p ∈ db.tableManagers, p.2.currentSstableId < 2 ^ 32 := by
    intro p hp
    obtain ⟨schema, store, hc, hm⟩ := hholds.tables p hp
    obtain ⟨t, -, -, hrep⟩ := hm.represents
    have hle := hdepth p.1 schema store hc
    rw [hrep.id]
    omega
  have hunfilled : unfilled (totalSize db.tables) heap' = [0, 0, 0, 0] := by
    simp [unfilled, hzero, List.range_succ]
  obtain ⟨s'', hopen, hfiles, hwrites⟩ := open_closed hholds hlt hid hunfilled
  have hsame : (⟨db.basePath, db.tableManagers.map (fun p => (p.1, reopened p.2))⟩ : Database).tables =
      db.tables := by
    rw [tables, tables, List.map_map]
    rfl
  refine ⟨_, s'', hopen, rfl, ⟨hholds.reopen hfiles hwrites, metadataFile db.tables, ?_, ?_⟩, ?_⟩
  · rw [hfiles]
    exact Function.update_self ..
  · rw [hsame, length_metadataFile]
  · rw [hsame]

lemma live_ok {x : Session} {s₁ : Posix Path}
    (hopen : «open» base { s with heap := x.heap, descriptors := [] } = .ok db s₁) :
    x.live base s = .ok (runAll x.ops (db, s₁)).1 (runAll x.ops (db, s₁)).2 :=
  (bind_of_ok (modify_apply _ s)).trans (bind_of_ok hopen)

/-- A process opens the database, and what it makes of the contents is found by the next one. -/
lemma Opens.live {x : Session} (h : Opens base s c n x.heap) (hfits : ∀ op ∈ x.ops, op.Fits) :
    ∃ db s', x.live base s = .ok db s' ∧ Running (db, s') (x.ops.foldl Contents.step c) ∧
      db.basePath = base ∧ totalSize db.tables ≤ n + (x.ops.map Op.size).sum := by
  obtain ⟨db, s₁, hopen, hbase, hrunning, hsize⟩ := h
  obtain ⟨hafter, hbase', hsize'⟩ := hrunning.runAll hfits
  exact ⟨_, _, live_ok hopen, hafter, hbase'.trans hbase, hsize'.trans (Nat.add_le_add_right hsize _)⟩

lemma Opens.run {x : Session} (h : Opens base s c n x.heap) (hfits : ∀ op ∈ x.ops, op.Fits)
    (hlt : n + (x.ops.map Op.size).sum + 4 < 2 ^ 31) (hdepth : c.Depth k) (hk : k + x.ops.length < 2 ^ 32) :
    ∃ s', x.run base s = .ok () s' ∧ ∀ heap, (∀ i, heap i = 0) →
      Opens base s' (c.restart x.ops) (n + (x.ops.map Op.size).sum) heap := by
  obtain ⟨db, s₁, hlive, hrunning, hbase, hsize⟩ := h.live hfits
  have hmoderate : totalSize db.tables + 4 < 2 ^ 31 := by omega
  refine ⟨_, (bind_of_ok hlive).trans (hrunning.flush hmoderate), fun heap hzero => ?_⟩
  obtain ⟨db', s', hopen, hbase', hrunning', hsize'⟩ :=
    @Running.opens db s₁ _ _ hrunning hmoderate (hdepth.foldl x.ops) hk s₁.heap heap hzero
  rw [hbase] at hopen hbase'
  exact ⟨db', s', hopen, hbase', hrunning', hsize'.trans hsize⟩

/-- So it is for any number of processes. -/
lemma opens_sessions {sessions : List Session} (hopens : ∀ heap, (∀ i, heap i = 0) → Opens base s c n heap)
    (hzero : ∀ x ∈ sessions, ∀ i, x.heap i = 0) (hfits : ∀ x ∈ sessions, ∀ op ∈ x.ops, op.Fits)
    (hlt : n + ((sessions.flatMap Session.ops).map Op.size).sum + 4 < 2 ^ 31) (hdepth : c.Depth k)
    (hk : k + (sessions.flatMap Session.ops).length < 2 ^ 32) :
    ∃ s', sessions.forM (Session.run base) s = .ok () s' ∧ ∀ heap, (∀ i, heap i = 0) →
      Opens base s' (sessions.foldl (fun c x => c.restart x.ops) c)
        (n + ((sessions.flatMap Session.ops).map Op.size).sum) heap := by
  induction sessions generalizing s c n k with
  | nil => exact ⟨s, rfl, hopens⟩
  | cons x sessions ih =>
    rw [List.flatMap_cons, List.map_append, List.sum_append] at hlt ⊢
    rw [List.flatMap_cons, List.length_append] at hk
    obtain ⟨s₁, hrun, hnext⟩ := (hopens x.heap (hzero x List.mem_cons_self)).run
      (hfits x List.mem_cons_self) (by omega) hdepth (by omega)
    obtain ⟨s', hruns, hlast⟩ := ih hnext (fun x hx => hzero x (List.mem_cons_of_mem _ hx))
      (fun x hx => hfits x (List.mem_cons_of_mem _ hx)) (by omega) (hdepth.foldl x.ops).forget (by omega)
    refine ⟨s', ?_, ?_⟩
    · have hforM : (x :: sessions).forM (Session.run base) =
          Session.run base x >>= fun _ => sessions.forM (Session.run base) := rfl
      rw [hforM, bind_of_ok hrun, hruns]
    · intro heap hheap
      rw [List.foldl_cons, ← Nat.add_assoc]
      exact hlast heap hheap

end Processes

/-! ### Any number of processes -/

section Runs

variable {base : List UInt8} {s : Posix Path} {sessions : List Session} {last : Session}

/-- Processes on an empty directory, each with a memory full of zeros, whose tables and calls are not too
many. -/
structure Ordinary (base : List UInt8) (s : Posix Path) (sessions : List Session) : Prop where
  fresh : Fresh base s
  zero : ∀ x ∈ sessions, ∀ i, x.heap i = 0
  fits : ∀ x ∈ sessions, ∀ op ∈ x.ops, op.Fits
  names : ∀ x ∈ sessions, ∀ name schema, .createTable name schema ∈ x.ops → NamesDirectory name
  sizes : ((sessions.flatMap Session.ops).map Op.size).sum + 4 < 2 ^ 31
  calls : (sessions.flatMap Session.ops).length < 2 ^ 32

lemma holds_sessions (h : Ordinary base s (sessions ++ [last])) :
    ∃ s' db s'', sessions.forM (Session.run base) s = .ok () s' ∧ last.live base s' = .ok db s'' ∧
      Holds (db, s'') (last.ops.foldl Contents.step (Contents.afterSessions sessions)) := by
  have hsizes := h.sizes
  have hcalls := h.calls
  rw [List.flatMap_append, List.map_append, List.sum_append] at hsizes
  rw [List.flatMap_append, List.length_append] at hcalls
  have hempty : Contents.Depth (fun _ => none) 0 := fun _ _ _ hc => by cases hc
  obtain ⟨s', hruns, hopens⟩ := @opens_sessions base s _ 0 0 sessions (fun heap _ => h.fresh.opens heap)
    (fun x hx => h.zero x (List.mem_append_left _ hx)) (fun x hx => h.fits x (List.mem_append_left _ hx))
    (by omega) hempty (by omega)
  obtain ⟨db, s'', hlive, hrunning, -, -⟩ := (hopens last.heap (h.zero last (by simp))).live
    (h.fits last (by simp))
  exact ⟨s', db, s'', hruns, hlive, hrunning.holds⟩

/-- However many processes there have been, every destructor and every constructor succeeds, and a lookup in
the last one gives what it has in the contents of layered stores that lose their top maps at each restart. -/
theorem restarts_forget (h : Ordinary base s (sessions ++ [last])) :
    ∃ s' db s'', sessions.forM (Session.run base) s = .ok () s' ∧ last.live base s' = .ok db s'' ∧
      ∀ name key, (∀ schema store, last.ops.foldl Contents.step (Contents.afterSessions sessions) name =
          some (schema, store) → schema.HasSortKey key.type) →
        outcome (db.readRecord name key) s'' =
          (last.ops.foldl Contents.step (Contents.afterSessions sessions)).read name key := by
  obtain ⟨s', db, s'', hruns, hlive, hholds⟩ := holds_sessions h
  exact ⟨s', db, s'', hruns, hlive, fun name key htype => readRecord_holds hholds name key htype⟩

/-- The newest of the SSTables with the key has the record, and no other one waits for the next SSTable. -/
def Contents.Stored (c : Contents) (name : List UInt8) (schema : Schema) (key : Data) (record : Record) :
    Prop :=
  ∃ store, c name = some (schema, store) ∧ store.top key = none ∧
    LayeredStore.newest store.frozen key = some record

/-- The call writes no record of the key to the table. -/
def Op.Spares (name : List UInt8) (schema : Schema) (key : Data) (op : Op) : Prop :=
  ∀ record, op = .writeRecord name record → record.values[schema.sortKeyIndex.toNat]? ≠ some key

variable {c : Contents} {name : List UInt8} {schema : Schema} {key : Data} {record : Record}

lemma Contents.Stored.step (h : c.Stored name schema key record) {op : Op}
    (hspares : op.Spares name schema key) : (c.step op).Stored name schema key record := by
  obtain ⟨store, hc, htop, hnewest⟩ := h
  by_cases hname : name = op.table
  · cases op with
    | createTable name' schema' =>
      rw [Op.table] at hname
      subst hname
      exact ⟨store, by rw [Contents.step, hc]; exact hc, htop, hnewest⟩
    | writeRecord name' record' =>
      rw [Op.table] at hname
      subst hname
      rw [Contents.step, hc]
      dsimp only
      refine ⟨_, Function.update_self .., ?_⟩
      rcases TableManager.accepted_singleton schema record' with hnone | ⟨key', hone⟩
      · rw [hnone]
        exact ⟨htop, hnewest⟩
      · have hne : key ≠ key' := by
          rintro rfl
          have hmem : (key, record') ∈ TableManager.accepted schema [record'] := by simp [hone]
          exact hspares record' rfl (TableManager.mem_accepted.mp hmem).2.2
        rw [hone, List.foldl_cons, List.foldl_nil, ← hnewest]
        exact LayeredStore.write_of_ne 2 hne record' htop
  · exact ⟨store, by rw [Contents.step_of_ne hname, hc], htop, hnewest⟩

lemma Contents.Stored.foldl {ops : List Op} (h : c.Stored name schema key record)
    (hspares : ∀ op ∈ ops, op.Spares name schema key) :
    (ops.foldl Contents.step c).Stored name schema key record := by
  induction ops generalizing c with
  | nil => exact h
  | cons op ops ih =>
    exact ih (h.step (hspares op List.mem_cons_self)) (fun op hop => hspares op (List.mem_cons_of_mem _ hop))

/-- What is in an SSTable is there after a restart, and nothing waits. -/
lemma Contents.stored_forget {store : LayeredStore Data Record} (hc : c name = some (schema, store))
    (hnewest : LayeredStore.newest store.frozen key = some record) :
    c.forget.Stored name schema key record :=
  ⟨store.forget, by rw [Contents.forget, hc]; rfl, rfl, hnewest⟩

lemma Contents.Stored.restart {ops : List Op} (h : c.Stored name schema key record)
    (hspares : ∀ op ∈ ops, op.Spares name schema key) :
    (c.restart ops).Stored name schema key record := by
  obtain ⟨store, hc, -, hnewest⟩ := h.foldl hspares
  exact Contents.stored_forget hc hnewest

lemma Contents.Stored.restarts {sessions : List Session} (h : c.Stored name schema key record)
    (hspares : ∀ op ∈ sessions.flatMap Session.ops, op.Spares name schema key) :
    (sessions.foldl (fun c x => c.restart x.ops) c).Stored name schema key record := by
  induction sessions generalizing c with
  | nil => exact h
  | cons x sessions ih =>
    rw [List.flatMap_cons, List.forall_mem_append] at hspares
    exact ih (h.restart hspares.1) hspares.2

/-- A record that is in the newest SSTable with its key when a process ends is read by every later process,
until one of them writes another record of the key. -/
theorem stored_survives {before after : List Session} {x : Session}
    (h : Ordinary base s (before ++ x :: after ++ [last])) {store : LayeredStore Data Record}
    (hc : x.ops.foldl Contents.step (Contents.afterSessions before) name = some (schema, store))
    (hnewest : LayeredStore.newest store.frozen key = some record) (hkey : schema.HasSortKey key.type)
    (hspares : ∀ op ∈ after.flatMap Session.ops ++ last.ops, op.Spares name schema key) :
    ∃ s' db s'', (before ++ x :: after).forM (Session.run base) s = .ok () s' ∧
      last.live base s' = .ok db s'' ∧ outcome (db.readRecord name key) s'' = .ok record := by
  obtain ⟨s', db, s'', hruns, hlive, hholds⟩ := holds_sessions h
  rw [List.forall_mem_append] at hspares
  have hstored := (Contents.stored_forget hc hnewest).restarts hspares.1
  have hcontents : Contents.afterSessions (before ++ x :: after) =
      after.foldl (fun c x => c.restart x.ops)
        (x.ops.foldl Contents.step (Contents.afterSessions before)).forget := by
    rw [Contents.afterSessions, List.foldl_append, List.foldl_cons]
    rfl
  rw [← hcontents] at hstored
  obtain ⟨store', hc', htop, hnewest'⟩ := hstored.foldl hspares.2
  refine ⟨s', db, s'', hruns, hlive, ?_⟩
  rw [readRecord_holds hholds name key (by
    intro schema' store'' hc''
    rw [hc'] at hc''
    cases hc''
    exact hkey)]
  rw [Contents.read, hc']
  simp only [LayeredStore.read, htop, hnewest', Option.none_or]
  rfl

end Runs

/-- A process that makes a table and an SSTable, and another one whose record is lost. -/
def twoSessions : List Session :=
  [⟨fun _ => 0, [.createTable [116] TableManager.intPairs, .writeRecord [116] ⟨[.int 1, .int 10]⟩,
    .writeRecord [116] ⟨[.int 2, .int 20]⟩]⟩, ⟨fun _ => 0, [.writeRecord [116] ⟨[.int 3, .int 30]⟩]⟩]

lemma ordinary_twoSessions :
    Ordinary [47] (Posix.start (fun _ => 0)) (twoSessions ++ [⟨fun _ => 0, []⟩]) where
  fresh := fresh_start _ _
  zero := by simp [twoSessions]
  fits := by
    intro x hx op hop
    have hsized : ∀ a b : BitVec 32, (Op.writeRecord [116] ⟨[.int a, .int b]⟩).Fits := by
      simp [Op.Fits, Record.Sized, Data.Sized]
    simp only [twoSessions, List.cons_append, List.nil_append, List.mem_cons, List.not_mem_nil, or_false]
      at hx
    rcases hx with rfl | rfl | rfl
    · simp only [List.mem_cons, List.not_mem_nil, or_false] at hop
      rcases hop with rfl | rfl | rfl
      · exact ⟨⟨⟨.int, 4⟩, ⟨_, rfl, rfl⟩, by decide⟩, by decide, by decide, by decide, by decide⟩
      · exact hsized 1 10
      · exact hsized 2 20
    · rw [List.mem_singleton.mp hop]
      exact hsized 3 30
    · cases hop
  names := by
    intro x hx name schema hop
    have hname : name = [116] := by
      simp only [twoSessions, List.cons_append, List.nil_append, List.mem_cons, List.not_mem_nil, or_false]
        at hx
      rcases hx with rfl | rfl | rfl <;> simp at hop
      exact hop.1
    subst hname
    exact ⟨by decide, by decide⟩
  sizes := by decide
  calls := by decide

theorem restarts_forget_twoSessions : ∃ s' db s'',
    twoSessions.forM (Session.run [47]) (Posix.start (fun _ => 0)) = .ok () s' ∧
      Session.live [47] ⟨fun _ => 0, []⟩ s' = .ok db s'' ∧
        outcome (db.readRecord [116] (.int 1)) s'' = .ok ⟨[.int 1, .int 10]⟩ ∧
          outcome (db.readRecord [116] (.int 3)) s'' = .error .nonExistentRecord := by
  obtain ⟨s', db, s'', hruns, hlive, hreads⟩ := restarts_forget ordinary_twoSessions
  refine ⟨s', db, s'', hruns, hlive, (hreads [116] (.int 1) ?_).trans rfl,
    (hreads [116] (.int 3) ?_).trans rfl⟩
  · rintro schema store ⟨⟩
    exact ⟨_, rfl, rfl⟩
  · rintro schema store ⟨⟩
    exact ⟨_, rfl, rfl⟩

theorem stored_survives_twoSessions : ∃ s' db s'',
    twoSessions.forM (Session.run [47]) (Posix.start (fun _ => 0)) = .ok () s' ∧
      Session.live [47] ⟨fun _ => 0, []⟩ s' = .ok db s'' ∧
        outcome (db.readRecord [116] (.int 2)) s'' = .ok ⟨[.int 2, .int 20]⟩ := by
  refine @stored_survives [47] _ ⟨fun _ => 0, []⟩ [116] TableManager.intPairs (.int 2) ⟨[.int 2, .int 20]⟩ []
    twoSessions.tail _ ordinary_twoSessions _ rfl rfl ⟨_, rfl, rfl⟩ ?_
  intro op hop record heq
  have hone : op = .writeRecord [116] ⟨[.int 3, .int 30]⟩ := by simpa [twoSessions] using hop
  rw [hone] at heq
  cases heq
  decide

end Database

end Dibibase
