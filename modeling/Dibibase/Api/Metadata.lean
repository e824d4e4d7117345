import Dibibase.Util.Numbers

/-!
# Answers to the metadata queries of a driver

`Metadata::meta_result` looks for the names of system tables in the text of a query. Six of the
answers are arrays of the source; the others are put together from the names and types of columns.
The last four bytes of a frame header, the length of its body, are the first four of the answer.
-/

namespace Dibibase

namespace Metadata

/-- `strstr(s, pattern) != nullptr`. -/
def strstr (s pattern : List UInt8) : Bool := s.tails.any (fun t => pattern.isPrefixOf t)

/-- The answers that are arrays of the source. -/
inductive StaticTable where
  | local | systemKeyspaces | tables | columns | virtualTables | virtualColumns
  deriving DecidableEq, Repr

namespace StaticTable

/-- The first four bytes of the array. -/
def head : StaticTable → List UInt8
  | .local => [0, 0, 4, 31]
  | systemKeyspaces => [0, 0, 2, 89]
  | tables => [0, 0, 81, 135]
  | columns => [0, 0, 105, 93]
  | virtualTables => [0, 0, 4, 96]
  | virtualColumns => [0, 0, 61, 13]

/-- The value that is assigned to `msg_length`. -/
def msgLength : StaticTable → Nat
  | .local => 1064
  | systemKeyspaces => 610
  | tables => 20880
  | columns => 26982
  | virtualTables => 1129
  | virtualColumns => 15638

end StaticTable

/-- A column with its type and, for a collection, the types `t1` and `t2`. -/
structure Column where
  name : String
  dtype : UInt8
  t1 : UInt8
  t2 : UInt8

def addStr (str : List UInt8) : List UInt8 :=
  (if str.length > 255 then
    [UInt8.ofNat (str.length / 256), UInt8.ofNat (str.length - str.length / 256 * 256)]
  else [0, UInt8.ofNat str.length]) ++ str

/-- What stands behind the four bytes of the length. -/
def appendHdrs (keyspace table : String) (cols : Nat) : List UInt8 :=
  [0, 0, 0, 2, 0, 0, 0, 1, 0, 0, 0, UInt8.ofNat cols] ++ addStr (text keyspace) ++
    addStr (text table)

def addSchema (columns : List Column) : List UInt8 :=
  columns.flatMap (fun c => addStr (text c.name) ++ [0, c.dtype] ++
    (if c.dtype = 34 ∨ c.dtype = 33 ∨ c.dtype = 32 then
      [0, c.t1] ++ (if c.dtype = 33 then [0, c.t2] else [])
    else []))

def recordMetadata (rows : Nat) : List UInt8 :=
  if rows < 256 then [0, 0, 0, UInt8.ofNat rows] else []

def recordSize (record : List UInt8) : List UInt8 :=
  if record.length < 256 then [0, 0, 0, UInt8.ofNat record.length]
  else if record.length < 65536 then
    [0, 0, UInt8.ofNat (record.length / 256),
      UInt8.ofNat (record.length - 256 * (UInt8.ofNat (record.length / 256)).toNat)]
  else [0, 0, 0, 0]

def addRecords (records : List String) : List UInt8 :=
  records.flatMap (fun r => recordSize (text r) ++ text r)

/-- `total_size`: the four bytes of the length. -/
def totalSize (size : Nat) : List UInt8 :=
  if size < 256 then [0, 0, 0, UInt8.ofNat size]
  else if size < 65536 then
    [0, 0, UInt8.ofNat (size / 256), UInt8.ofNat (size - size / 256 * 256)]
  else if size < 16777216 then
    let high := (UInt8.ofNat (size / (256 * 256))).toNat
    let middle := (UInt8.ofNat ((size - high * 256 * 256) / 256)).toNat
    [0, UInt8.ofNat high, UInt8.ofNat middle,
      UInt8.ofNat (size - high * 256 * 256 - middle * 256)]
  else [0, 0, 0, 0]

/-- The name of the system table that a generated answer is about. -/
inductive GeneratedTable where
  | peers | types | aggregates | functions | triggers | indexes | views | virtualKeyspaces
  deriving DecidableEq, Repr

namespace GeneratedTable

def keyspace : GeneratedTable → String
  | peers => "system"
  | virtualKeyspaces => "system_virtual_schema"
  | _ => "system_schema"

/-- The answer about `indexes` names the table `triggers`. -/
def table : GeneratedTable → String
  | peers => "peers_v2"
  | types => "types"
  | aggregates => "aggregates"
  | functions => "functions"
  | triggers | indexes => "triggers"
  | views => "views"
  | virtualKeyspaces => "keyspaces"

def columns : GeneratedTable → List Column
  | peers => [⟨"peer", 16, 0, 0⟩, ⟨"peer_port", 9, 0, 0⟩, ⟨"data_center", 13, 0, 0⟩,
      ⟨"host_id", 12, 0, 0⟩, ⟨"native_address", 16, 0, 0⟩, ⟨"native_port", 9, 0, 0⟩,
      ⟨"preferred_ip", 16, 0, 0⟩, ⟨"preferred_port", 9, 0, 0⟩, ⟨"rack", 13, 0, 0⟩,
      ⟨"release_version", 13, 0, 0⟩, ⟨"schema_version", 12, 0, 0⟩, ⟨"tokens", 34, 13, 0⟩]
  | types => [⟨"keyspace_name", 13, 0, 0⟩, ⟨"type_name", 13, 0, 0⟩, ⟨"field_names", 32, 13, 0⟩,
      ⟨"field_types", 32, 13, 0⟩]
  | aggregates => [⟨"keyspace_name", 13, 0, 0⟩, ⟨"aggregate_name", 13, 0, 0⟩,
      ⟨"argument_types", 32, 13, 0⟩, ⟨"final_func", 13, 0, 0⟩, ⟨"initcond", 13, 0, 0⟩,
      ⟨"return_type", 13, 0, 0⟩, ⟨"state_func", 13, 0, 0⟩, ⟨"state_type", 13, 0, 0⟩]
  | functions => [⟨"keyspace_name", 13, 0, 0⟩, ⟨"function_name", 13, 0, 0⟩,
      ⟨"argument_types", 32, 13, 0⟩, ⟨"argument_names", 32, 13, 0⟩, ⟨"body", 13, 0, 0⟩,
      ⟨"called_on_null_input", 4, 0, 0⟩, ⟨"language", 13, 0, 0⟩, ⟨"return_type", 13, 0, 0⟩]
  | triggers => [⟨"keyspace_name", 13, 0, 0⟩, ⟨"table_name", 13, 0, 0⟩,
      ⟨"trigger_name", 13, 0, 0⟩, ⟨"options", 33, 13, 13⟩]
  | indexes => [⟨"keyspace_name", 13, 0, 0⟩, ⟨"table_name", 13, 0, 0⟩, ⟨"index_name", 13, 0, 0⟩,
      ⟨"kind", 13, 0, 0⟩, ⟨"options", 33, 13, 13⟩]
  | views => [⟨"keyspace_name", 13, 0, 0⟩, ⟨"view_name", 13, 0, 0⟩,
      ⟨"additional_write_policy", 13, 0, 0⟩, ⟨"base_table_id", 12, 0, 0⟩,
      ⟨"base_table_name", 13, 0, 0⟩, ⟨"bloom_filter_fp_chance", 7, 0, 0⟩,
      ⟨"caching", 33, 13, 13⟩, ⟨"cdc", 4, 0, 0⟩, ⟨"comment", 13, 0, 0⟩,
      ⟨"compaction", 33, 13, 13⟩, ⟨"compression", 33, 13, 13⟩, ⟨"crc_check_chance", 7, 0, 0⟩,
      ⟨"dclocal_read_repair_chance", 7, 0, 0⟩, ⟨"default_time_to_live", 9, 0, 0⟩,
      ⟨"extensions", 33, 13, 3⟩, ⟨"gc_grace_seconds", 9, 0, 0⟩, ⟨"id", 12, 0, 0⟩,
      ⟨"include_all_columns", 4, 0, 0⟩, ⟨"max_index_interval", 9, 0, 0⟩,
      ⟨"memtable_flush_period_in_ms", 9, 0, 0⟩, ⟨"min_index_interval", 9, 0, 0⟩,
      ⟨"read_repair", 13, 0, 0⟩, ⟨"read_repair_chance", 7, 0, 0⟩,
      ⟨"speculative_retry", 13, 0, 0⟩, ⟨"where_clause", 13, 0, 0⟩]
  | virtualKeyspaces => [⟨"keyspace_name", 13, 0, 0⟩]

def records : GeneratedTable → List String
  | virtualKeyspaces => ["system_views", "system_virtual_schema"]
  | _ => []

/-- What is written behind the four bytes of the length. -/
def content (g : GeneratedTable) : List UInt8 :=
  appendHdrs g.keyspace g.table g.columns.length ++ addSchema g.columns ++
    recordMetadata g.records.length ++ addRecords g.records

/-- The size that `total_size` gives back. The index behind the last byte is passed to it, less one
for most tables; `add_records` gives back an index that is greater by one. -/
def size (g : GeneratedTable) : Nat :=
  let count := 4 + g.content.length
  match g with
  | peers => count - 3
  | virtualKeyspaces => count + 1 - 2 - 3
  | _ => count - 1 - 3

end GeneratedTable

inductive Answer where
  | static (table : StaticTable)
  | generated (table : GeneratedTable)
  deriving DecidableEq, Repr

/-- The names in the order in which `meta_result` looks for them. -/
def names : List (String × Answer) :=
  [("peers_v2", .generated .peers), ("system.local", .static .local),
    ("system_schema.keyspaces", .static .systemKeyspaces),
    ("system_schema.tables", .static .tables), ("system_schema.columns", .static .columns),
    ("types", .generated .types), ("aggregates", .generated .aggregates),
    ("functions", .generated .functions), ("triggers", .generated .triggers),
    ("indexes", .generated .indexes), ("views", .generated .views),
    ("system_virtual_schema.keyspaces", .generated .virtualKeyspaces),
    ("system_virtual_schema.tables", .static .virtualTables),
    ("system_virtual_schema.columns", .static .virtualColumns)]

/-- The answer that a query matches. -/
def answer (query : List UInt8) : Option Answer :=
  (names.find? (fun p => strstr query (text p.1))).map Prod.snd

/-- The array that is copied into the response: what is known of it, and then what the source
writes into a static table or what stood on the stack. -/
def fill (known : List UInt8) (rest : Nat → UInt8) : Nat → UInt8 := fun i =>
  if h : i < known.length then known.get ⟨i, h⟩ else rest i

/-- `meta_result`: the length of the message and the array `body`. -/
def metaResult (staticTables : StaticTable → Nat → UInt8) (stack : Nat → UInt8)
    (query : List UInt8) : Nat × (Nat → UInt8) :=
  match answer query with
  | some (.static table) => (table.msgLength, fill table.head (staticTables table))
  | some (.generated table) =>
    (table.size + 9, fill (totalSize table.size ++ table.content) stack)
  | none => (0, stack)

end Metadata

end Dibibase
