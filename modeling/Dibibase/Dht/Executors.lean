import Dibibase.Dht.ResultSerializer
import Dibibase.Dht.Routing
import Dibibase.Lang.Visitor

/-!
# Execution of queries

What a node does with the text of a query. Only the node itself changes its databases; a query
that belongs elsewhere is sent as text, and what comes back is text too. The executors do not
depend on where the other nodes are: they work in any monad that can run a step of the local node
and call the streamer of an address.
-/

namespace Dibibase

open Library

/-- The databases of the keyspaces that the node has used. The streamers of `StateStore` are those
of the addresses in the configuration. -/
structure StateStore where
  keyspaces : List (List UInt8 × Database)

/-- A new node has used no keyspace. -/
def StateStore.empty : StateStore := ⟨[]⟩

/-- `get_keyspace`, which constructs a database when its keyspace is used first. -/
def StateStore.getKeyspace (keyspace : List UInt8) : Method StateStore Database := do
  let store := (← get).1
  match ← Method.ofExcept (OrderedMap.find nameLt keyspace store.keyspaces) with
  | some db => return db
  | none =>
    let db ← Method.ofProcess (Database.open keyspace)
    let keyspaces ← Method.ofExcept (OrderedMap.assign nameLt keyspace db store.keyspaces)
    modify (fun st => (⟨keyspaces⟩, st.2))
    return db

/-- The map after the database of a keyspace has changed. -/
def StateStore.update (keyspace : List UInt8) (db : Database) (store : StateStore) : StateStore :=
  ⟨store.keyspaces.map (fun p => if p.1 = keyspace then (keyspace, db) else p)⟩

namespace StatementExecutor

/-- The keyspace in which a node executes all statements. -/
def keyspace (address : List UInt8) : List UInt8 := text "data/" ++ address ++ text ":database"

/-- `execute()`. The only `return` stands in the loop over the values of the record. Without a value the
function flows off its end, which is undefined behaviour; here the caller gets the empty result that a
build without optimisation leaves in its place. -/
def execute (address : List UInt8) (stmt : Statement) : Method StateStore (Option Record) := do
  let db ← StateStore.getKeyspace (keyspace address)
  fun st =>
    match stmt.execute (db, st.2) with
    | .ok result st' => .ok result (st.1.update (keyspace address) st'.1, st'.2)
    | .error e st' => .error e (st.1.update (keyspace address) st'.1, st'.2)

section Execution

variable {address : List UInt8} {stmt : Statement} {db : Database} {e : Exception}
  {st st' : StateStore × Posix Path} {st'' : Database × Posix Path}

lemma execute_no_keyspace (hget : StateStore.getKeyspace (keyspace address) st = .error e st')
    (stmt : Statement) : execute address stmt st = .error e st' :=
  bind_of_error hget

lemma execute_ok {result : Option Record}
    (hget : StateStore.getKeyspace (keyspace address) st = .ok db st')
    (h : stmt.execute (db, st'.2) = .ok result st'') :
    execute address stmt st =
      .ok result (st'.1.update (keyspace address) st''.1, st''.2) := by
  refine (bind_of_ok hget).trans ?_
  rw [h]

lemma execute_error (hget : StateStore.getKeyspace (keyspace address) st = .ok db st')
    (h : stmt.execute (db, st'.2) = .error e st'') :
    execute address stmt st =
      .error e (st'.1.update (keyspace address) st''.1, st''.2) := by
  refine (bind_of_ok hget).trans ?_
  rw [h]

end Execution

end StatementExecutor

/-- `LocalQueryExecutor::execute`. -/
def LocalQueryExecutor.execute (address : List UInt8) (stmt : Statement) :
    Method StateStore (List UInt8) := do
  let result ← StatementExecutor.execute address stmt
  Method.ofExcept (ResultSerializer.serialize result)

/-- `StatementParser::process`: the first statement of the text. The parser that is generated from
the grammar gives the parse trees of the statements. -/
def StatementParser.process (root : List UInt8 → List CqlParser.Cql)
    (strtold : List UInt8 → BitVec 64) (query : List UInt8) : Except Exception CqlStatement := do
  match ← (root query).mapM (CQL3Visitor.visitCql strtold) with
  | stmt :: _ => return stmt
  | [] => throw .undefinedBehaviour

/-- `StreamerServer::execute`: a node that is sent a query executes it itself. -/
def StreamerServer.execute (process : List UInt8 → Except Exception CqlStatement)
    (address query : List UInt8) : Method StateStore (List UInt8) := do
  let stmt ← Method.ofExcept (process query)
  LocalQueryExecutor.execute address stmt.statement

section Executors

variable {m : Type → Type} [Monad m] [MonadExceptOf Exception m] (config : Config)
  (onNode : ∀ {α : Type}, Method StateStore α → m α)
  (streamer : List UInt8 → List UInt8 → m (List UInt8))

/-- `send`. -/
def Partitioner.send (query key : List UInt8) : m (List UInt8) :=
  match Partitioner.getAddress config key with
  | none => throw .badOptionalAccess
  | some address => streamer address query

/-- `send_all`, which drops the replies. -/
def Partitioner.sendAll (query : List UInt8) : m Unit :=
  (StateStore.availableStreamers config.ranges).forM (fun address => do
    if address = config.localAddress then return ()
    let _ ← streamer address query
    return ())

/-- `MultinodeQueryExecutor::execute`. -/
def MultinodeQueryExecutor.execute (query : List UInt8) (stmt : Statement) : m (List UInt8) := do
  let _ ← onNode (StatementExecutor.execute config.localAddress stmt)
  Partitioner.sendAll config streamer query
  return text "All nodes have been updated"

/-- `SinglenodeQueryExecutor::execute`. -/
def SinglenodeQueryExecutor.execute (query : List UInt8) (stmt : Statement) : m (List UInt8) := do
  match ← onNode (Method.ofExcept stmt.partitionKey) with
  | none => throw .badOptionalAccess
  | some key =>
    if Partitioner.isLocal config key then
      onNode (LocalQueryExecutor.execute config.localAddress stmt)
    else if key.isEmpty then MultinodeQueryExecutor.execute config onNode streamer query stmt
    else Partitioner.send config streamer query key

/-- `QueryProcessor::process`. -/
def QueryProcessor.process (process : List UInt8 → Except Exception CqlStatement)
    (query : List UInt8) : m (List UInt8) := do
  let stmt ← onNode (Method.ofExcept (process query))
  match stmt with
  | .createTable _ _ _ =>
    MultinodeQueryExecutor.execute config onNode streamer query stmt.statement
  | .insert _ _ _ _ | .select _ _ _ =>
    SinglenodeQueryExecutor.execute config onNode streamer query stmt.statement

end Executors

end Dibibase
