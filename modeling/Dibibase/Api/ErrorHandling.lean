import Dibibase.Api.ServerResponse
import Dibibase.Dht.Agreement

/-!
# What the server's handlers catch

Two exceptions are caught around the execution of a statement. Those of the inner handlers are not
thrown there, since the statement has been executed before. So a response comes back only where
nothing else goes wrong in the visitor, in the databases and in the conversion of the result.
-/

namespace Dibibase

open Library

namespace ServerMsg

/-- The exceptions of the two outer handlers. -/
abbrev Handled (e : Exception) : Prop := e = .nonExistentRecord ∨ e = .unsupportedCqlStatement

/-- `CreateResponse` gives back the length of a message. -/
def Returns (env : Environment) (f : Frame) (st : Server × Posix Path) : Prop :=
  ∃ response st', createResponse env f st = .ok response st'

/-- The keyspace database of the node is there or can be opened, and then the condition holds of
it. -/
def InKeyspace (env : Environment) (st : Server × Posix Path)
    (P : Database → Posix Path → Prop) : Prop :=
  match StateStore.getKeyspace (StatementExecutor.keyspace env.config.localAddress)
    (st.1.store, st.2) with
  | .ok db st' => P db st'.2
  | .error e _ => Handled e

/-- The table accepts the record, its sort key can be compared with those of the memtable, and a
flush that becomes due succeeds. -/
def Accepts (tm : TableManager) (s : Posix Path) (record : Record) : Prop :=
  tm.schema.verify record = true ∧ ∃ key memtable,
    record.values[tm.schema.sortKeyIndex.toNat]? = some key ∧
    OrderedMap.insert Data.compare key record tm.memtable = .ok memtable ∧
    (2 ≤ memtable.length → Settles Handled TableManager.flush ({ tm with memtable := memtable }, s))

/-- The server's own database has the table, and the text of the record can be written with the
columns of this table. -/
def Formats (env : Environment) (db : Database) (keyspace table recordStr : List UInt8) : Prop :=
  ∃ tm, OrderedMap.find nameLt table db.tableManagers = .ok (some tm) ∧
    Settles Handled (QueryResult.selectResult keyspace table tm.schema recordStr) env.stack

/-- The node itself executes a statement with this routing key. -/
def RunsHere (config : Config) (key : List UInt8) : Prop :=
  Partitioner.isLocal config key = true ∨ key = []

instance (config : Config) (key : List UInt8) : Decidable (RunsHere config key) :=
  inferInstanceAs (Decidable (_ ∨ _))

/-- What has to be so for a response to a statement. -/
def Answers (env : Environment) (query : List UInt8) (st : Server × Posix Path) :
    CqlStatement → Prop
  | .createTable keyspace table _ =>
    InKeyspace env st (fun _ _ => keyspace.length + table.length ≤ 3458)
  | .insert _ table _ values =>
    ∃ value key, values[1]? = some value ∧ value.print = .ok key ∧
      (RunsHere env.config key → InKeyspace env st (fun db s =>
        ∀ tm, OrderedMap.find nameLt table db.tableManagers = .ok (some tm) →
          Accepts tm s ⟨values.map Data.clone⟩))
  | .select keyspace table relations =>
    ∃ relation key, relations[0]? = some relation ∧ relation.operand.print = .ok key ∧
      if RunsHere env.config key then InKeyspace env st (fun db s =>
        ∃ tm, OrderedMap.find nameLt table db.tableManagers = .ok (some tm) ∧
          match tm.readRecord relation.operand.clone s with
          | .ok record _ => ∃ recordStr,
              (if Partitioner.isLocal env.config key then ResultSerializer.serialize (some record)
                else .ok (text "All nodes have been updated")) = .ok recordStr ∧
                Formats env st.1.db keyspace table recordStr
          | .error e _ => Handled e)
      else ∃ address, Partitioner.getAddress env.config key = some address ∧
        Formats env st.1.db keyspace table (env.streamer address query)

/-! ### The layers below -/

/-- The replies of the other nodes are dropped, so the loop over them does nothing here. -/
lemma sendAll_reply (env : Environment) (query : List UInt8) (st : Server × Posix Path) :
    Partitioner.sendAll env.config
      (fun address query => (pure (env.streamer address query) : Method Server (List UInt8)))
      query st = .ok () st := by
  have hloop := forM_ok (f := fun address => (do
      if address = env.config.localAddress then return ()
      let _ ← (pure (env.streamer address query) : Method Server (List UInt8))
      return () : Method Server Unit)) (g := fun st _ => st) (s := st)
    (by
      intro address st
      by_cases hlocal : address = env.config.localAddress <;>
        simp [hlocal])
    (StateStore.availableStreamers env.config.ranges)
  rw [List.foldl_fixed] at hloop
  exact hloop

/-! ### The response to an executed statement -/

section Respond

variable {version : UInt8} {recordStr : List UInt8} {r : Response} {st : Server × Posix Path}

lemma onDatabase_createTable (table : List UInt8) (schema : Schema) (st : Server × Posix Path) :
    ∃ st', Server.onDatabase (Database.createTable table schema) st = .ok () st' := by
  obtain ⟨tms, -, hins, -⟩ := OrderedMap.find_insert ordersOn_nameLt (Set.mem_univ table)
    (TableManager.new st.1.db.basePath table schema []) st.1.db.tableManagers
    (fun _ _ => Set.mem_univ _)
  refine ⟨({ st.1 with db := { st.1.db with tableManagers := tms } }, st.2), ?_⟩
  rw [Server.onDatabase, Database.createTable_ok hins]

end Respond

/-! ### Routing and execution -/

section Process

variable {env : Environment} {query key : List UInt8} {st : Server × Posix Path}
  {stmt : Statement} {k : List UInt8 → Method Server Response}

/-- What `StreamerClient::execute` gives back for the node. -/
abbrev reply (env : Environment) (address query : List UInt8) : Method Server (List UInt8) :=
  pure (env.streamer address query)

/-- A step of the store that only evaluates. -/
lemma onStore_ofExcept {α : Type} {x : Except Exception α} {a : α} (h : x = .ok a)
    (st : Server × Posix Path) : Server.onStore (Method.ofExcept x) st = .ok a st := by
  rw [Server.onStore, Method.ofExcept_ok h]

end Process

/-! ### The whole response -/

section Statement

variable {env : Environment} {version : UInt8} {query : List UInt8} {r : Response}
  {st : Server × Posix Path} {cql : CqlParser.Cql} {e : Exception}

lemma visit_ok {stmt : CqlStatement} (hroot : env.root query = [cql])
    (hvisit : CQL3Visitor.visitCql env.strtold cql = .ok stmt) :
    (env.root query).mapM (CQL3Visitor.visitCql env.strtold) = .ok [stmt] := by
  rw [hroot, List.mapM_cons, hvisit]
  rfl

lemma visitCql_createTable {strtold : List UInt8 → BitVec 64} {keyspace table : List UInt8}
    {schema : Schema}
    (h : CQL3Visitor.visitCql strtold cql = .ok (.createTable keyspace table schema)) :
    ∃ ctx, cql = .createTable ctx ∧ keyspace = ctx.keyspace.getD [] ∧ table = ctx.table := by
  cases cql with
  | createTable ctx =>
    cases hcolumns : CQL3Visitor.visitColumnDefinitionList ctx.columns ctx.primaryKey with
    | error e =>
      simp only [CQL3Visitor.visitCql, CQL3Visitor.visitCreateTable, hcolumns] at h
      cases h
    | ok schema' =>
      simp only [CQL3Visitor.visitCql, CQL3Visitor.visitCreateTable, hcolumns] at h
      cases h
      exact ⟨ctx, rfl, rfl, rfl⟩
  | insert ctx =>
    simp only [CQL3Visitor.visitCql, CQL3Visitor.visitInsert] at h
    cases hexpressions : ctx.expressionList with
    | none =>
      rw [hexpressions] at h
      cases h
    | some expressions =>
      rw [hexpressions] at h
      obtain ⟨values, -, h⟩ := except_bind_eq_ok h
      obtain ⟨_, -, h⟩ := except_bind_eq_ok h
      cases h
  | select ctx =>
    simp only [CQL3Visitor.visitCql, CQL3Visitor.visitSelect] at h
    obtain ⟨_, -, h⟩ := except_bind_eq_ok h
    obtain ⟨relations, -, h⟩ := except_bind_eq_ok h
    cases h

end Statement

/-! ### Two inserts -/

/-- The frame of a query: the length of its text, and the text. -/
def queryFrame (query : List UInt8) : Frame :=
  ⟨fun i => ([4, 0, 0, 1, QUERY, 0, 0, 0, UInt8.ofNat (4 + query.length), 0, 0, 0,
    UInt8.ofNat query.length] ++ query).getD i 0, 13 + query.length⟩

/-- A node on its own, for whose parser every text is an `INSERT` of two numbers. -/
def insertEnvironment (table : List UInt8) : Environment where
  root _ := [.insert ⟨none, table, none, some [.constant (.decimalLiteral [49]),
    .constant (.decimalLiteral [50])], true⟩]
  strtold _ := 0
  config := ⟨text "a", []⟩
  streamer _ _ := []
  staticTables _ _ := 0
  stack _ := 0
  header _ := 0

/-- The keyspace of the node has the table `t` with one column. -/
def oneTable : Server × Posix Path :=
  (⟨⟨[], []⟩, ⟨[(StatementExecutor.keyspace (text "a"), ⟨[], [(text "t",
    TableManager.new [] (text "t") ⟨0, 0, [⟨text "k", ⟨.int, 4⟩⟩]⟩ [])]⟩)]⟩⟩, Posix.start (fun _ => 0))

end ServerMsg

end Dibibase
