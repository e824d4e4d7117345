import Dibibase.Io.TableBuilder

/-!
# Table managers

A table keeps its newest records in a memtable and the others in SSTables. A record goes
into the memtable; as soon as this has two entries, it becomes a new SSTable. A lookup
asks the memtable and then the SSTables from the newest to the oldest.
-/

namespace Dibibase

open Library

/-- Methods of an object that use the process. An exception keeps what was done before. -/
abbrev Method (σ : Type) := EStateM Exception (σ × Posix Path)

namespace Method

variable {σ α : Type}

/-- A step that leaves the object alone. -/
def ofProcess (m : Process α) : Method σ α := fun st =>
  match m st.2 with
  | .ok a s => .ok a (st.1, s)
  | .error e s => .error e (st.1, s)

def ofExcept (x : Except Exception α) : Method σ α := ofProcess (Process.ofExcept x)

/-- The object and the process after a call, whether it has returned or thrown. -/
def after (m : Method σ α) (st : σ × Posix Path) : σ × Posix Path :=
  match m st with
  | .ok _ st' => st'
  | .error _ st' => st'

lemma ofProcess_ok {m : Process α} {a : α} {st : σ × Posix Path} {s : Posix Path}
    (h : m st.2 = .ok a s) : ofProcess m st = .ok a (st.1, s) := by
  rw [ofProcess, h]

lemma ofProcess_error {m : Process α} {e : Exception} {st : σ × Posix Path} {s : Posix Path}
    (h : m st.2 = .error e s) : ofProcess m st = .error e (st.1, s) := by
  rw [ofProcess, h]

lemma ofExcept_ok {x : Except Exception α} {a : α} (h : x = .ok a) (st : σ × Posix Path) :
    ofExcept x st = .ok a st :=
  ofProcess_ok (Process.ofExcept_ok h st.2)

lemma ofExcept_error {x : Except Exception α} {e : Exception} (h : x = .error e)
    (st : σ × Posix Path) : ofExcept x st = .error e st :=
  ofProcess_error (Process.ofExcept_error h st.2)

end Method

structure TableManager where
  basePath : List UInt8
  tableName : List UInt8
  schema : Schema
  currentSstableId : Nat
  summaries : List Summary
  memtable : List (Data × Record)
  deriving DecidableEq

namespace TableManager

/-- The constructor. -/
def new (basePath tableName : List UInt8) (schema : Schema) (summaries : List Summary) :
    TableManager :=
  ⟨basePath, tableName, schema, summaries.length, summaries, []⟩

/-- One round of the loop of `read_record`: the record of the key in one SSTable, if
`find_offset` does not give -1. -/
def readSstable (basePath tableName : List UInt8) (schema : Schema) (sstableId : Nat)
    (summary : Summary) (key : Data) : Process (Option Record) := do
  let pageNumber ← Process.ofExcept (summary.findPageNumber key)
  let page ← DiskManager.loadIndexPage basePath tableName sstableId pageNumber
  let keyOffset ← Process.ofExcept (page.findOffset key.clone)
  if keyOffset = -1 then return none
  return some (← DiskManager.getRecordFromData basePath tableName sstableId schema keyOffset)

/-- The loop over the SSTables whose id is below the given one, downwards. -/
def readSstables (tm : TableManager) (key : Data) : Nat → Process Record
  | 0 => throw .nonExistentRecord
  | id + 1 =>
    match tm.summaries[id]? with
    | none => throw .undefinedBehaviour
    | some summary => do
      match ← readSstable tm.basePath tm.tableName tm.schema id summary key with
      | some record => return record
      | none => readSstables tm key id

def readRecord (tm : TableManager) (key : Data) : Process Record := do
  match ← Process.ofExcept (OrderedMap.find Data.compare key tm.memtable) with
  | some record => return record
  | none => readSstables tm key tm.currentSstableId

def flush : Method TableManager Unit := do
  let tm := (← get).1
  let summary ← Method.ofProcess
    (TableBuilder.build tm.basePath tm.tableName tm.schema tm.currentSstableId tm.memtable)
  modify (fun st => ({ st.1 with
    summaries := tm.summaries ++ [summary]
    currentSstableId := tm.summaries.length + 1
    memtable := [] }, st.2))

def writeRecord (record : Record) : Method TableManager Unit := do
  let tm := (← get).1
  if tm.schema.verify record = false then throw .schemaMismatch
  match record.values[tm.schema.sortKeyIndex.toNat]? with
  | none => throw .undefinedBehaviour
  | some key =>
    let memtable ← Method.ofExcept (OrderedMap.insert Data.compare key record tm.memtable)
    modify (fun st => ({ st.1 with memtable := memtable }, st.2))
    if memtable.length ≥ 2 then flush

/-! ### Execution of a write -/

section Execution

variable {tm : TableManager} {s s' : Posix Path} {record : Record}

variable (tm) in
lemma flush_ok {summary : Summary}
    (h : TableBuilder.build tm.basePath tm.tableName tm.schema tm.currentSstableId tm.memtable s =
      .ok summary s') :
    flush (tm, s) = .ok () ({ tm with
      summaries := tm.summaries ++ [summary]
      currentSstableId := tm.summaries.length + 1
      memtable := [] }, s') := by
  rw [flush, bind_of_ok (get_apply _), bind_of_ok (Method.ofProcess_ok h)]
  rfl

variable (tm) in
lemma flush_error {e : Exception}
    (h : TableBuilder.build tm.basePath tm.tableName tm.schema tm.currentSstableId tm.memtable s =
      .error e s') : flush (tm, s) = .error e (tm, s') := by
  rw [flush, bind_of_ok (get_apply _), bind_of_error (Method.ofProcess_error h)]

lemma writeRecord_refused (h : tm.schema.verify record = false) :
    writeRecord record (tm, s) = .error .schemaMismatch (tm, s) := by
  rw [writeRecord, bind_of_ok (get_apply _), if_pos h]
  rfl

/-- A record that the schema accepts and that has no value in the place of the sort key. -/
lemma writeRecord_no_key (h : tm.schema.verify record = true)
    (hkey : record.values[tm.schema.sortKeyIndex.toNat]? = none) :
    writeRecord record (tm, s) = .error .undefinedBehaviour (tm, s) := by
  rw [writeRecord, bind_of_ok (get_apply _), if_neg (by simp [h]), hkey]
  rfl

lemma writeRecord_insert_error {key : Data} {e : Exception} (h : tm.schema.verify record = true)
    (hkey : record.values[tm.schema.sortKeyIndex.toNat]? = some key)
    (hins : OrderedMap.insert Data.compare key record tm.memtable = .error e) :
    writeRecord record (tm, s) = .error e (tm, s) := by
  rw [writeRecord, bind_of_ok (get_apply _), if_neg (by simp [h]), hkey]
  exact bind_of_error (Method.ofExcept_error hins _)

variable (tm) in
/-- An accepted record is put into the memtable, and the memtable is flushed if it has two
entries then. -/
lemma writeRecord_accepted {key : Data} {memtable : List (Data × Record)}
    (h : tm.schema.verify record = true)
    (hkey : record.values[tm.schema.sortKeyIndex.toNat]? = some key)
    (hins : OrderedMap.insert Data.compare key record tm.memtable = .ok memtable) :
    writeRecord record (tm, s) =
      if 2 ≤ memtable.length then flush ({ tm with memtable := memtable }, s)
      else .ok () ({ tm with memtable := memtable }, s) := by
  rw [writeRecord, bind_of_ok (get_apply _), if_neg (by simp [h]), hkey]
  refine (bind_of_ok (Method.ofExcept_ok hins _)).trans ?_
  rw [bind_of_ok (modify_apply _ _)]
  split <;> rfl

variable (tm s record) in
/-- What a write can do: it throws before it changes anything, or puts the record into the
memtable. -/
lemma writeRecord_cases :
    (∃ e, writeRecord record (tm, s) = .error e (tm, s)) ∨
      ∃ key memtable, tm.schema.verify record = true ∧
        record.values[tm.schema.sortKeyIndex.toNat]? = some key ∧
        OrderedMap.insert Data.compare key record tm.memtable = .ok memtable ∧
        writeRecord record (tm, s) =
          if 2 ≤ memtable.length then flush ({ tm with memtable := memtable }, s)
          else .ok () ({ tm with memtable := memtable }, s) := by
  cases hv : tm.schema.verify record with
  | false => exact .inl ⟨_, writeRecord_refused hv⟩
  | true =>
    cases hkey : record.values[tm.schema.sortKeyIndex.toNat]? with
    | none => exact .inl ⟨_, writeRecord_no_key hv hkey⟩
    | some key =>
      cases hins : OrderedMap.insert Data.compare key record tm.memtable with
      | error e => exact .inl ⟨e, writeRecord_insert_error hv hkey hins⟩
      | ok memtable =>
        exact .inr ⟨key, memtable, rfl, rfl, hins, writeRecord_accepted tm hv hkey hins⟩

end Execution

/-- The state after calls of `write_record` one after the other. A call that throws does
not end the sequence. -/
def writeAll (records : List Record) (st : TableManager × Posix Path) :
    TableManager × Posix Path :=
  records.foldl (fun st record => (writeRecord record).after st) st

end TableManager

end Dibibase
