import Dibibase.Db.Metadata
import Dibibase.Db.WriteHistory

/-!
# Descriptors that stay open

The builder and `flush_metadata` close what they open. The three readers never do, and a
constructor that finds no length in its file returns without closing it. So a call leaves
the set of open descriptors alone as long as it opens no SSTable for reading and finds a
catalog where it looks for one.
-/

namespace Dibibase

open Library TableBuilder

lemma filter_cons_fresh {n : Nat} {ds : List Nat} (h : n ∉ ds) :
    (n :: ds).filter (fun d => d ≠ n) = ds := by
  rw [List.filter_cons, if_neg (by simp), List.filter_eq_self]
  intro d hd
  have hne : d ≠ n := by
    rintro rfl
    exact h hd
  simpa using hne

/-- The builder closes its three files, whichever of its writes fail. -/
lemma build_opened {base table : List UInt8} {schema : Schema} {sstableId : Nat}
    {records : List (Data × Record)} {s s' : Posix Path} {summary : Summary}
    (h : build base table schema sstableId records s = .ok summary s') : s'.opened = s.opened := by
  have hopen : ∀ (path : Path) (s : Posix Path), ∃ fd s',
      Posix.openFile (ε := Exception) true path s = .ok (some fd) s' ∧ fd ∉ s.opened ∧ s'.opened = fd :: s.opened := by
    intro path s
    rcases Posix.openFile_opened (ε := Exception) true path s with ⟨hcreate, -⟩ | hopen
    · cases hcreate
    · exact hopen
  obtain ⟨a, s₁, hopen₁, ha, hs₁⟩ := hopen (.summary base table sstableId) s
  obtain ⟨b, s₂, hopen₂, hb, hs₂⟩ := hopen (.index base table sstableId) s₁
  obtain ⟨c, s₃, hopen₃, hc, hs₃⟩ := hopen (.data base table sstableId) s₂
  unfold build at h
  rw [bind_of_ok hopen₁, bind_of_ok hopen₂, bind_of_ok hopen₃] at h
  obtain ⟨summary', s₄, hrun, h⟩ := bind_eq_ok h
  have hs₄ : s₄.opened = c :: b :: a :: s.opened := by
    have hkept := (@preserves_constructSstableFiles (fun s => s.opened = s₃.opened) ⟨some a, some b, some c⟩
      (fun bs => Posix.preserves_opened_write s₃.opened (some a) bs)
      (fun bs => Posix.preserves_opened_write s₃.opened (some b) bs)
      (fun bs => Posix.preserves_opened_write s₃.opened (some c) bs) schema records s₃ rfl).1
    rw [hkept _ _ hrun, hs₃, hs₂, hs₁]
  rw [hs₁] at hb hs₂
  rw [hs₂] at hc
  obtain ⟨s₅, hclose₁, hs₅⟩ := Posix.close_opened (ε := Exception) a s₄
  obtain ⟨s₆, hclose₂, hs₆⟩ := Posix.close_opened (ε := Exception) b s₅
  obtain ⟨s₇, hclose₃, hs₇⟩ := Posix.close_opened (ε := Exception) c s₆
  rw [bind_of_ok hclose₁, bind_of_ok hclose₂, bind_of_ok hclose₃] at h
  cases h
  have hne : b ≠ a ∧ c ≠ b ∧ c ≠ a := by
    simp only [List.mem_cons, not_or] at hb hc
    exact ⟨hb.1, hc.1, hc.2.1⟩
  have hafter₁ : s₅.opened = c :: b :: s.opened := by
    rw [hs₅, hs₄, List.filter_cons_of_pos (by simpa using hne.2.2),
      List.filter_cons_of_pos (by simpa using hne.1), filter_cons_fresh ha]
  have hafter₂ : s₆.opened = c :: s.opened := by
    rw [hs₆, hafter₁, List.filter_cons_of_pos (by simpa using hne.2.1),
      filter_cons_fresh (fun hmem => hb (List.mem_cons_of_mem _ hmem))]
  rw [hs₇, hafter₂,
    filter_cons_fresh (fun hmem => hc (List.mem_cons_of_mem _ (List.mem_cons_of_mem _ hmem)))]

lemma flush_opened {st st' : TableManager × Posix Path} (h : TableManager.flush st = .ok () st') :
    st'.2.opened = st.2.opened := by
  obtain ⟨tm, s⟩ := st
  cases hbuild : build tm.basePath tm.tableName tm.schema tm.currentSstableId tm.memtable s with
  | ok summary s' =>
    rw [TableManager.flush_ok tm hbuild] at h
    cases h
    exact build_opened hbuild
  | error e s' =>
    rw [TableManager.flush_error tm hbuild] at h
    cases h

/-- A write that returns has closed what it has opened. -/
lemma writeRecord_opened {st st' : TableManager × Posix Path} {record : Record}
    (h : TableManager.writeRecord record st = .ok () st') : st'.2.opened = st.2.opened := by
  obtain ⟨tm, s⟩ := st
  rcases TableManager.writeRecord_cases tm s record with ⟨e, hthrow⟩ | ⟨key, m, -, -, -, hwrite⟩
  · rw [hthrow] at h
    cases h
  · rw [hwrite] at h
    split at h
    · exact @flush_opened ({ tm with memtable := m }, s) _ h
    · cases h
      rfl

namespace Database

variable {db : Database} {s s' : Posix Path}

/-- The catalog entries that the constructor goes through, up to the first that it cannot
read. -/
def recorded (length : Nat) : Nat → MemoryBuffer → List Table
  | 0, _ => []
  | rounds + 1, buffer =>
    if buffer.offset < length then
      match Table.from buffer with
      | .ok (table, buffer) => table :: recorded length rounds buffer
      | .error _ => []
    else []

/-- There is a catalog, and no file is there for the summaries that it leads to. -/
structure Unflushed (base : List UInt8) (s : Posix Path) (content : List UInt8) : Prop where
  file : s.files (.metadata base) = some content
  head : 4 ≤ content.length
  length : leValue (content.take 4) ≠ 0
  missing : ∀ table ∈ recorded (leValue (content.take 4)) (leValue (content.take 4))
      (MemoryBuffer.ofBytes (metadataBuffer content s.heap)),
    ∀ i < table.lastSstableId.toNat, s.files (.summary base table.name i) = none

section Construction

variable {files : Path → Option (List UInt8)} (ds : List Nat) {base : List UInt8}

lemma preserves_opened_loadSummaries {table : List UInt8} (n i : Nat)
    (h : ∀ j < n, files (.summary base table (i + j)) = none) :
    Preserves (fun s => s.files = files ∧ s.opened = ds) (loadSummaries base table i n) := by
  induction n generalizing i with
  | zero => exact Preserves.pure _
  | succ n ih =>
    unfold loadSummaries
    have hload : Preserves (fun s => s.files = files ∧ s.opened = ds)
        (DiskManager.loadSummary base table i) := by
      refine Preserves.bind ?_ (fun _ => preserves_ofExcept _ _)
      exact Posix.preserves_opened_readFile ds (by simpa using h 0 (by omega)) 0 4096
    refine hload.bind (fun _ => (ih (i + 1) (fun j hj => ?_)).bind (fun _ => Preserves.pure _))
    have hnext := h (j + 1) (by omega)
    rwa [← Nat.add_assoc, Nat.add_right_comm] at hnext

lemma preserves_opened_loadTables (length rounds : Nat) (buffer : MemoryBuffer)
    (tableManagers : List (List UInt8 × TableManager))
    (h : ∀ table ∈ recorded length rounds buffer, ∀ i < table.lastSstableId.toNat,
      files (.summary base table.name i) = none) :
    Preserves (fun s => s.files = files ∧ s.opened = ds)
      (loadTables base length rounds buffer tableManagers) := by
  induction rounds generalizing buffer tableManagers with
  | zero => exact Preserves.pure _
  | succ rounds ih =>
    unfold loadTables
    split
    · rename_i hroom
      cases hread : Table.from buffer with
      | error e => exact Preserves.throw e
      | ok r =>
        obtain ⟨table, buffer'⟩ := r
        have hrecorded : recorded length (rounds + 1) buffer =
            table :: recorded length rounds buffer' := by
          simp [recorded, hroom, hread]
        rw [hrecorded] at h
        refine preserves_bind_of_ok rfl ?_
        refine (preserves_opened_loadSummaries ds _ 0 (fun j hj => ?_)).bind (fun summaries => ?_)
        · rw [Nat.zero_add]
          exact h table (by simp) j hj
        · exact (preserves_ofExcept _ _).bind (fun tms =>
            ih buffer' tms (fun table' hmem => h table' (by simp [hmem])))
    · exact Preserves.pure _

end Construction

lemma open_opened {base content : List UInt8} (h : Unflushed base s content)
    (hopen : «open» base s = .ok db s') : s'.opened = s.opened := by
  obtain ⟨s₁, hrun, hfiles, -, -, hdescriptors⟩ := open_tables h.file h.head h.length
  have hopened : s₁.opened = s.opened := congrArg (List.map Prod.fst) hdescriptors
  have hload := preserves_opened_loadTables s.opened _ _ _ [] h.missing
  rw [hrun] at hopen
  exact ((hload.bind (fun _ => Preserves.pure _)) s₁ ⟨hfiles, hopened⟩).1 db s' hopen |>.2

lemma flushMetadata_opened (h : db.flushMetadata s = .ok () s') : s'.opened = s.opened := by
  unfold flushMetadata at h
  obtain ⟨buf, -, h⟩ := Process.ofExcept_bind_eq_ok h
  rcases Posix.openFile_opened (ε := Exception) false (.metadata db.basePath) s with
    ⟨-, -, hopen⟩ | ⟨fd, s₁, hopen, hfd, hs₁⟩
  · obtain ⟨written, s₂, hrun, hs₂⟩ := Posix.write_opened (ε := Exception) none
      (buf.take (totalSize db.tables)) s
    rw [bind_of_ok hopen, bind_of_ok hrun] at h
    cases h
    simpa [Posix.opened] using hs₂
  · obtain ⟨written, s₂, hrun, hs₂⟩ := Posix.write_opened (ε := Exception) (some fd)
      (buf.take (totalSize db.tables)) s₁
    obtain ⟨s₃, hclose, hs₃⟩ := Posix.close_opened (ε := Exception) fd s₂
    rw [bind_of_ok hopen, bind_of_ok hrun, hclose] at h
    cases h
    rw [hs₃, hs₂, hs₁, filter_cons_fresh hfd]

/-- The table has no SSTable yet, or has the key in its memtable. -/
def AnsweredInMemory (db : Database) (name : List UInt8) (key : Data) : Prop :=
  ∀ tm, OrderedMap.find nameLt name db.tableManagers = .ok (some tm) →
    tm.currentSstableId = 0 ∨
      ∃ record, OrderedMap.find Data.compare key tm.memtable = .ok (some record)

instance (db : Database) (name : List UInt8) (key : Data) :
    Decidable (db.AnsweredInMemory name key) :=
  match hfind : OrderedMap.find nameLt name db.tableManagers with
  | .ok (some tm) =>
    match hlookup : OrderedMap.find Data.compare key tm.memtable with
    | .ok (some record) => isTrue (by simp [AnsweredInMemory, hfind, hlookup])
    | .ok none => decidable_of_iff (tm.currentSstableId = 0)
        (by simp [AnsweredInMemory, hfind, hlookup])
    | .error e => decidable_of_iff (tm.currentSstableId = 0)
        (by simp [AnsweredInMemory, hfind, hlookup])
  | .ok none => isTrue (by simp [AnsweredInMemory, hfind])
  | .error e => isTrue (by simp [AnsweredInMemory, hfind])

lemma readRecord_opened {name : List UInt8} {key : Data} {record : Record}
    (hmem : db.AnsweredInMemory name key) (h : db.readRecord name key s = .ok record s') :
    s'.opened = s.opened := by
  unfold readRecord at h
  obtain ⟨found, hfind, h⟩ := Process.ofExcept_bind_eq_ok h
  cases found with
  | none => cases h
  | some tm =>
    obtain ⟨inMemory, hlookup, h⟩ := Process.ofExcept_bind_eq_ok h
    cases inMemory with
    | some record' =>
      cases h
      rfl
    | none =>
      rcases hmem tm hfind with hzero | ⟨record', hrecord⟩
      · simp only [hzero, TableManager.readSstables] at h
        cases h
      · rw [hrecord] at hlookup
        cases hlookup

lemma writeRecord_opened {name : List UInt8} {record : Record} {st st' : Database × Posix Path}
    (h : writeRecord name record st = .ok () st') : st'.2.opened = st.2.opened := by
  obtain ⟨db, s⟩ := st
  cases hfind : OrderedMap.find nameLt name db.tableManagers with
  | error e =>
    rw [writeRecord, bind_of_ok (get_apply _), bind_of_error (Method.ofExcept_error hfind _)] at h
    cases h
  | ok found =>
    cases found with
    | none =>
      rw [writeRecord_missing hfind] at h
      cases h
      rfl
    | some tm =>
      cases hwrite : TableManager.writeRecord record (tm, s) with
      | error e st₁ =>
        rw [writeRecord_found_error hfind hwrite] at h
        cases h
      | ok a st₁ =>
        rw [writeRecord_found_ok hfind hwrite] at h
        cases h
        exact @Dibibase.writeRecord_opened (tm, s) _ _ hwrite

lemma createTable_opened {name : List UInt8} {schema : Schema} {st st' : Database × Posix Path}
    (h : createTable name schema st = .ok () st') : st'.2.opened = st.2.opened := by
  obtain ⟨db, s⟩ := st
  cases hins : OrderedMap.insert nameLt name (TableManager.new db.basePath name schema [])
      db.tableManagers with
  | error e =>
    rw [createTable_error hins] at h
    cases h
  | ok tms =>
    rw [createTable_ok hins] at h
    cases h
    rfl

/-! ### Sequences of calls -/

/-- The databases that the program has constructed, and the process. -/
abbrev World := List Database × Posix Path

/-- A call on one of the databases, if it returns normally. -/
def World.call {α : Type} (i : Nat) (m : Method Database α) (w : World) : Option World :=
  match w.1[i]? with
  | none => none
  | some db =>
    match m (db, w.2) with
    | .ok _ st => some (w.1.set i st.1, st.2)
    | .error _ _ => none

inductive Call where
  | construct (base : List UInt8)
  | createTable (i : Nat) (name : List UInt8) (schema : Schema)
  | writeRecord (i : Nat) (name : List UInt8) (record : Record)
  | readRecord (i : Nat) (name : List UInt8) (key : Data)
  | flushMetadata (i : Nat)

namespace Call

/-- The state after a call that returns normally. -/
def step : Call → World → Option World
  | construct base, w =>
    match «open» base w.2 with
    | .ok db s => some (w.1 ++ [db], s)
    | .error _ _ => none
  | createTable i name schema, w => w.call i (Database.createTable name schema)
  | writeRecord i name record, w => w.call i (Database.writeRecord name record)
  | readRecord i name key, w =>
    w.call i (fun st => Method.ofProcess (st.1.readRecord name key) st)
  | flushMetadata i, w => w.call i (fun st => Method.ofProcess st.1.flushMetadata st)

/-- The condition on the state before a call under which it leaves no descriptor behind. -/
def Tidy : Call → World → Prop
  | construct base, w => ∃ content, Unflushed base w.2 content
  | readRecord i name key, w => ∀ db, w.1[i]? = some db → db.AnsweredInMemory name key
  | _, _ => True

/-- The call, if it returns, leaves the set of open descriptors as it was. -/
def Balanced (c : Call) (w : World) : Prop :=
  ∀ w', c.step w = some w' → ∀ fd, fd ∈ w'.2.opened ↔ fd ∈ w.2.opened

end Call

lemma World.call_opened {α : Type} {i : Nat} {m : Method Database α} {w w' : World}
    (hm : ∀ db a st, w.1[i]? = some db → m (db, w.2) = .ok a st → st.2.opened = w.2.opened)
    (h : w.call i m = some w') : w'.2.opened = w.2.opened := by
  unfold World.call at h
  cases hdb : w.1[i]? with
  | none => simp [hdb] at h
  | some db =>
    simp only [hdb] at h
    cases hrun : m (db, w.2) with
    | error e st => simp [hrun] at h
    | ok a st =>
      simp only [hrun, Option.some.injEq] at h
      rw [← h]
      exact hm db a st hdb hrun

lemma ofProcess_ok {α : Type} {m : Process α} {a : α} {st : Database × Posix Path}
    (h : Method.ofProcess (σ := Database) m (db, s) = .ok a st) : m s = .ok a st.2 := by
  unfold Method.ofProcess at h
  cases hrun : m s with
  | ok b s' =>
    simp only [hrun] at h
    cases h
    rfl
  | error e s' =>
    simp only [hrun] at h
    cases h

lemma Call.Tidy.opened {c : Call} {w w' : World} (h : c.Tidy w) (hstep : c.step w = some w') :
    w'.2.opened = w.2.opened := by
  cases c with
  | construct base =>
    obtain ⟨content, hcontent⟩ := h
    unfold Call.step at hstep
    cases hopen : «open» base w.2 with
    | error e s => simp [hopen] at hstep
    | ok db s =>
      simp only [hopen, Option.some.injEq] at hstep
      rw [← hstep]
      exact open_opened hcontent hopen
  | createTable i name schema =>
    unfold Call.step at hstep
    apply World.call_opened _ hstep
    intro db a st _ hrun
    exact @createTable_opened _ _ (db, w.2) _ hrun
  | writeRecord i name record =>
    unfold Call.step at hstep
    apply World.call_opened _ hstep
    intro db a st _ hrun
    exact @writeRecord_opened _ _ (db, w.2) _ hrun
  | readRecord i name key =>
    unfold Call.step at hstep
    apply World.call_opened _ hstep
    intro db a st hdb hrun
    exact readRecord_opened (h db hdb) (ofProcess_ok hrun)
  | flushMetadata i =>
    unfold Call.step at hstep
    apply World.call_opened _ hstep
    intro db a st _ hrun
    exact flushMetadata_opened (ofProcess_ok hrun)

/-- A property of calls, each in the state before it, all along a sequence of calls. -/
def Throughout (P : Call → World → Prop) : List Call → World → Prop
  | [], _ => True
  | c :: cs, w => P c w ∧ ∀ w', c.step w = some w' → Throughout P cs w'

lemma Throughout.mono {P Q : Call → World → Prop} (hPQ : ∀ c w, P c w → Q c w) (calls : List Call)
    (w : World) (h : Throughout P calls w) : Throughout Q calls w := by
  induction calls generalizing w with
  | nil => trivial
  | cons c cs ih => exact ⟨hPQ c w h.1, fun w' hw' => ih w' (h.2 w' hw')⟩

/-- Along every sequence of calls that meet the condition, no call that returns leaves a
descriptor behind or closes another one. -/
theorem descriptors_balanced (calls : List Call) (w : World)
    (h : Throughout Call.Tidy calls w) : Throughout Call.Balanced calls w := by
  refine h.mono ?_ calls w
  intro c w htidy w' hw' fd
  rw [htidy.opened hw']

/-- A database without tables in a process that has opened nothing. -/
def emptyWorld : World := ([⟨[47], []⟩], Posix.start (fun _ => 0))

/-- The world behind calls, if all of them return. -/
def runCalls : List Call → World → Option World
  | [], w => some w
  | c :: cs, w => (c.step w).bind (runCalls cs)

lemma Throughout.concat {P : Call → World → Prop} {calls : List Call} {c : Call} {w : World}
    (h : Throughout P calls w) (hlast : ∀ w', runCalls calls w = some w' → P c w') :
    Throughout P (calls ++ [c]) w := by
  induction calls generalizing w with
  | nil => exact ⟨hlast w rfl, fun _ _ => trivial⟩
  | cons d calls ih =>
    refine ⟨h.1, fun w₁ hstep => ih (h.2 w₁ hstep) ?_⟩
    intro w' hrun
    apply hlast w'
    rw [runCalls, hstep]
    exact hrun

/-- Two records are flushed into an SSTable, and a third one is written. -/
def flushedAndWritten : List Call :=
  [.createTable 0 [116] TableManager.intPairs, .writeRecord 0 [116] ⟨[.int 1, .int 10]⟩,
    .writeRecord 0 [116] ⟨[.int 2, .int 20]⟩, .flushMetadata 0,
    .writeRecord 0 [116] ⟨[.int 3, .int 30]⟩]

/-- The third record is still in the memtable when it is looked up. -/
theorem descriptors_balanced_flushed :
    Throughout Call.Balanced (flushedAndWritten ++ [.readRecord 0 [116] (.int 3)]) emptyWorld := by
  apply descriptors_balanced
  have hwritten : Throughout Call.Tidy flushedAndWritten emptyWorld :=
    ⟨trivial, fun _ _ => ⟨trivial, fun _ _ => ⟨trivial, fun _ _ => ⟨trivial, fun _ _ =>
      ⟨trivial, fun _ _ => trivial⟩⟩⟩⟩⟩
  have hanswered : ∀ w ∈ runCalls flushedAndWritten emptyWorld, ∀ db ∈ w.1[0]?,
      db.AnsweredInMemory [116] (.int 3) := by decide +kernel
  exact hwritten.concat hanswered

/-- The constructor of a new database leaves its metadata file open. -/
theorem not_balanced_construct :
    ¬Throughout Call.Balanced [.construct [47]] ([], Posix.start (fun _ => 0)) := by
  intro h
  have hsame := h.1 _ rfl 0
  have hbefore : 0 ∉ (Posix.start (P := Path) (fun _ => 0)).opened := by decide
  exact hbefore (hsame.mp (by decide))

end Database

end Dibibase
