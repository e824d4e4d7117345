import Dibibase.Catalog.Table
import Dibibase.Db.TableManager

/-!
# Databases

A database is a map from table names to table managers. Its constructor rebuilds the map
from the metadata file and the summaries; its destructor writes the metadata file. A path
names a base, a table and a file. That these are the files of a real directory is assumed: the
directory of a table can be made, and its name is a single component, which a quoted name with
a slash is not.
-/

namespace Dibibase

open Library

/-- `std::less<std::string>`. -/
def nameLt (a b : List UInt8) : Except Exception Bool := .ok (!stringLe b a)

structure Database where
  basePath : List UInt8
  tableManagers : List (List UInt8 × TableManager)

namespace Database

/-- The loop of the constructor over the summaries of one table. -/
def loadSummaries (base table : List UInt8) : Nat → Nat → Process (List Summary)
  | _, 0 => return []
  | i, n + 1 => do
    let summary ← DiskManager.loadSummary base table i
    let summaries ← loadSummaries base table (i + 1) n
    return summary :: summaries

/-- The loop of the constructor over the tables in the metadata buffer. Every round reads
some bytes, so `length` rounds are enough. -/
def loadTables (base : List UInt8) (length : Nat) : Nat → MemoryBuffer →
    List (List UInt8 × TableManager) → Process (List (List UInt8 × TableManager))
  | 0, _, tableManagers => return tableManagers
  | rounds + 1, buffer, tableManagers =>
    if buffer.offset < length then do
      let (table, buffer) ← Process.ofExcept (Table.from buffer)
      let summaries ← loadSummaries base table.name 0 table.lastSstableId.toNat
      let tableManagers ← Process.ofExcept (OrderedMap.insert nameLt table.name
        (TableManager.new base table.name table.schema summaries) tableManagers)
      loadTables base length rounds buffer tableManagers
    else return tableManagers

/-- The constructor. Without a length in the metadata file it returns at once and leaves
the file open. -/
def «open» (base : List UInt8) : Process Database := do
  let fd ← Posix.openFile true (.metadata base)
  let head := (← Posix.read fd 4).getD []
  let length := leValue head
  if head.length ≠ 4 ∨ length = 0 then return ⟨base, []⟩
  let buf ← Posix.readNew fd length
  Posix.close fd
  let tableManagers ← loadTables base length length (MemoryBuffer.ofBytes buf) []
  return ⟨base, tableManagers⟩

/-- The catalog entries that `flush_metadata` makes. -/
def tables (db : Database) : List Table :=
  db.tableManagers.map (fun p => ⟨p.1, p.2.schema, BitVec.ofNat 64 p.2.currentSstableId⟩)

/-- The variable `length` of `flush_metadata`. -/
def totalSize (ts : List Table) : Nat := (ts.map Table.size).sum

/-- The buffer of `flush_metadata`: the length and then the tables. -/
def metadataBytes (ts : List Table) : Except Exception (List UInt8) :=
  serialise (totalSize ts + 4) (do
    BufferM.putUint32 (BitVec.ofNat 32 (totalSize ts))
    ts.forM Table.bytes)

/-- Also the destructor. The number of bytes written leaves out the four bytes that hold the
length. -/
def flushMetadata (db : Database) : Process Unit := do
  let buf ← Process.ofExcept (metadataBytes db.tables)
  let fd ← Posix.openFile false (.metadata db.basePath)
  let _ ← Posix.write fd (buf.take (totalSize db.tables))
  Posix.close fd

/-- A table whose name exists is kept. -/
def createTable (name : List UInt8) (schema : Schema) : Method Database Unit := do
  let db := (← get).1
  let tableManagers ← Method.ofExcept (OrderedMap.insert nameLt name
    (TableManager.new db.basePath name schema []) db.tableManagers)
  modify (fun st => ({ st.1 with tableManagers := tableManagers }, st.2))

def readRecord (db : Database) (name : List UInt8) (key : Data) : Process Record := do
  match ← Process.ofExcept (OrderedMap.find nameLt name db.tableManagers) with
  | some tm => tm.readRecord key
  | none => throw .uncomparableType

/-- The map after the manager of one table has changed. -/
def update (name : List UInt8) (tm : TableManager) (db : Database) : Database :=
  { db with tableManagers := db.tableManagers.map (fun p => if p.1 = name then (name, tm) else p) }

/-- A write to a table that does not exist does nothing. -/
def writeRecord (name : List UInt8) (record : Record) : Method Database Unit := do
  let db := (← get).1
  match ← Method.ofExcept (OrderedMap.find nameLt name db.tableManagers) with
  | none => return ()
  | some tm => fun st =>
    match TableManager.writeRecord record (tm, st.2) with
    | .ok _ st' => .ok () (db.update name st'.1, st'.2)
    | .error e st' => .error e (db.update name st'.1, st'.2)

/-- The calls that change a database. -/
inductive Op where
  | createTable (name : List UInt8) (schema : Schema)
  | writeRecord (name : List UInt8) (record : Record)

def Op.run : Op → Method Database Unit
  | .createTable name schema => Database.createTable name schema
  | .writeRecord name record => Database.writeRecord name record

/-- The table that a call is about. -/
def Op.table : Op → List UInt8
  | .createTable name _ => name
  | .writeRecord name _ => name

/-- The state after calls one after the other. A call that throws does not end the
sequence. -/
def runAll (ops : List Op) (st : Database × Posix Path) : Database × Posix Path :=
  ops.foldl (fun st op => op.run.after st) st

/-! ### Execution of the calls -/

section Execution

variable {db : Database} {s : Posix Path} {name : List UInt8} {schema : Schema} {record : Record}
  {tm : TableManager}

lemma createTable_ok {tms : List (List UInt8 × TableManager)}
    (h : OrderedMap.insert nameLt name (TableManager.new db.basePath name schema [])
      db.tableManagers = .ok tms) (s : Posix Path) :
    createTable name schema (db, s) = .ok () ({ db with tableManagers := tms }, s) := by
  rw [createTable, bind_of_ok (get_apply _), bind_of_ok (Method.ofExcept_ok h _)]
  rfl

lemma createTable_error {e : Exception}
    (h : OrderedMap.insert nameLt name (TableManager.new db.basePath name schema [])
      db.tableManagers = .error e) (s : Posix Path) :
    createTable name schema (db, s) = .error e (db, s) := by
  rw [createTable, bind_of_ok (get_apply _), bind_of_error (Method.ofExcept_error h _)]

lemma writeRecord_missing (h : OrderedMap.find nameLt name db.tableManagers = .ok none)
    (record : Record) (s : Posix Path) : writeRecord name record (db, s) = .ok () (db, s) := by
  rw [writeRecord, bind_of_ok (get_apply _), bind_of_ok (Method.ofExcept_ok h _)]
  rfl

lemma writeRecord_found_ok {st : TableManager × Posix Path}
    (h : OrderedMap.find nameLt name db.tableManagers = .ok (some tm))
    (hwrite : TableManager.writeRecord record (tm, s) = .ok () st) :
    writeRecord name record (db, s) = .ok () (db.update name st.1, st.2) := by
  rw [writeRecord, bind_of_ok (get_apply _), bind_of_ok (Method.ofExcept_ok h _)]
  dsimp only
  rw [hwrite]

lemma writeRecord_found_error {e : Exception} {st : TableManager × Posix Path}
    (h : OrderedMap.find nameLt name db.tableManagers = .ok (some tm))
    (hwrite : TableManager.writeRecord record (tm, s) = .error e st) :
    writeRecord name record (db, s) = .error e (db.update name st.1, st.2) := by
  rw [writeRecord, bind_of_ok (get_apply _), bind_of_ok (Method.ofExcept_ok h _)]
  dsimp only
  rw [hwrite]

end Execution

end Database

end Dibibase
