import Dibibase.Db.DatabaseRefinement
import Dibibase.Dht.Executors

/-!
# Agreement after CREATE TABLE

The node that receives a `CREATE TABLE` executes it and sends it to the other nodes of the ranges.
Their replies are dropped, so its own reply says nothing about them: the nodes agree on the table
only where each of them executes the statement, or has had the table before.
-/

namespace Dibibase

open Library

/-- The schema of a table of a database. -/
def Database.tableSchema (db : Database) (table : List UInt8) : Option Schema :=
  match OrderedMap.find nameLt table db.tableManagers with
  | .ok (some tm) => some tm.schema
  | _ => none

/-- The keyspace database of the node with the given address has the table with the schema. -/
def HasTable (address table : List UInt8) (schema : Schema) (st : StateStore × Posix Path) : Prop :=
  ∃ db, OrderedMap.find nameLt (StatementExecutor.keyspace address) st.1.keyspaces = .ok (some db) ∧
    db.tableSchema table = some schema

/-! ### One node -/

section Node

variable {keyspace address table : List UInt8} {schema schema' : Schema} {db : Database}
  {st st' : StateStore × Posix Path}

lemma getKeyspace_used (hfind : OrderedMap.find nameLt keyspace st.1.keyspaces = .ok (some db)) :
    StateStore.getKeyspace keyspace st = .ok db st := by
  rw [StateStore.getKeyspace, bind_of_ok (get_apply _), bind_of_ok (Method.ofExcept_ok hfind _)]
  rfl

lemma getKeyspace_opens (hfind : OrderedMap.find nameLt keyspace st.1.keyspaces = .ok none)
    {s : Posix Path} (hopen : Database.open keyspace st.2 = .ok db s) :
    ∃ keyspaces, StateStore.getKeyspace keyspace st = .ok db (⟨keyspaces⟩, s) ∧
      OrderedMap.find nameLt keyspace keyspaces = .ok (some db) := by
  obtain ⟨keyspaces, hassign, hassigned⟩ := OrderedMap.find_assign ordersOn_nameLt
    (Set.mem_univ keyspace) db st.1.keyspaces (fun _ _ => Set.mem_univ _)
  refine ⟨keyspaces, ?_, hassigned⟩
  rw [StateStore.getKeyspace, bind_of_ok (get_apply _), bind_of_ok (Method.ofExcept_ok hfind _)]
  refine (bind_of_ok (Method.ofProcess_ok hopen)).trans ?_
  rw [bind_of_ok (Method.ofExcept_ok hassign _)]
  rfl

/-- A keyspace that has been used has its database, and any other is opened. An exception leaves
the keyspaces as they were. -/
lemma getKeyspace_cases (keyspace : List UInt8) (st : StateStore × Posix Path) :
    (∃ db, OrderedMap.find nameLt keyspace st.1.keyspaces = .ok (some db) ∧
      StateStore.getKeyspace keyspace st = .ok db st) ∨
    OrderedMap.find nameLt keyspace st.1.keyspaces = .ok none ∧
      ((∃ db st', StateStore.getKeyspace keyspace st = .ok db st' ∧
        OrderedMap.find nameLt keyspace st'.1.keyspaces = .ok (some db)) ∨
      ∃ e s, StateStore.getKeyspace keyspace st = .error e (st.1, s)) := by
  obtain ⟨found, hfind⟩ := OrderedMap.find_total ordersOn_nameLt (Set.mem_univ keyspace)
    st.1.keyspaces (fun _ _ => Set.mem_univ _)
  cases found with
  | some db => exact .inl ⟨db, hfind, getKeyspace_used hfind⟩
  | none =>
    refine .inr ⟨hfind, ?_⟩
    cases hopen : Database.open keyspace st.2 with
    | ok db s =>
      obtain ⟨keyspaces, hget, hassigned⟩ := getKeyspace_opens hfind hopen
      exact .inl ⟨db, _, hget, hassigned⟩
    | error e s =>
      refine .inr ⟨e, s, ?_⟩
      rw [StateStore.getKeyspace, bind_of_ok (get_apply _),
        bind_of_ok (Method.ofExcept_ok hfind _)]
      exact bind_of_error (Method.ofProcess_error hopen)

/-- A table that exists keeps its schema, and one that does not gets the new one. -/
lemma createTable_tableSchema (db : Database) (s : Posix Path) (table : List UInt8)
    (schema : Schema) :
    ∃ db', (Statement.createTable table schema).execute (db, s) = .ok none (db', s) ∧
      db'.tableSchema table = some ((db.tableSchema table).getD schema) ∧
      ∀ other σ, db.tableSchema other = some σ → db'.tableSchema other = some σ := by
  obtain ⟨tms, found, hins, hfound, hfind⟩ := OrderedMap.find_insert ordersOn_nameLt
    (Set.mem_univ table) (TableManager.new db.basePath table schema []) db.tableManagers
    (fun _ _ => Set.mem_univ _)
  have hself : Database.tableSchema { db with tableManagers := tms } table =
      some ((db.tableSchema table).getD schema) := by
    simp only [Database.tableSchema, hfind, hfound]
    cases found <;> rfl
  refine ⟨{ db with tableManagers := tms }, ?_, hself, ?_⟩
  · rw [Statement.execute, bind_of_ok (Database.createTable_ok hins s)]
    rfl
  · intro other σ hσ
    by_cases heq : other = table
    · subst heq
      rw [hself, hσ, Option.getD_some]
    · have hother := OrderedMap.find_insert_of_ne ordersOn_nameLt (Set.mem_univ table)
        (Set.mem_univ other) heq _ _ _ (fun _ _ => Set.mem_univ _) hins
      unfold Database.tableSchema at hσ ⊢
      rwa [hother]

/-- The node after it has executed a `CREATE TABLE`. -/
def afterCreate (address table : List UInt8) (schema : Schema) (st : StateStore × Posix Path) :
    StateStore × Posix Path :=
  (StatementExecutor.execute address (.createTable table schema)).after st

lemma execute_createTable {st' : StateStore × Posix Path}
    (h : StateStore.getKeyspace (StatementExecutor.keyspace address) st = .ok db st')
    (hfind : OrderedMap.find nameLt (StatementExecutor.keyspace address) st'.1.keyspaces =
      .ok (some db)) (table : List UInt8) (schema : Schema) :
    ∃ db', db'.tableSchema table = some ((db.tableSchema table).getD schema) ∧
      (∀ other σ, db.tableSchema other = some σ → db'.tableSchema other = some σ) ∧
      StatementExecutor.execute address (.createTable table schema) st =
        .ok none (afterCreate address table schema st) ∧
      OrderedMap.find nameLt (StatementExecutor.keyspace address)
        (afterCreate address table schema st).1.keyspaces = .ok (some db') := by
  obtain ⟨db', hcreate, hself, hothers⟩ := createTable_tableSchema db st'.2 table schema
  have hexecute := StatementExecutor.execute_ok h hcreate
  have hcreated : afterCreate address table schema st =
      (st'.1.update (StatementExecutor.keyspace address) db', st'.2) := by
    rw [afterCreate, Method.after, hexecute]
  refine ⟨db', hself, hothers, by rw [hexecute, hcreated], ?_⟩
  rw [hcreated]
  exact OrderedMap.find_replace ordersOn_nameLt (Set.mem_univ _) _ (fun _ _ => Set.mem_univ _) hfind

lemma execute_createTable_error {e : Exception}
    (h : StateStore.getKeyspace (StatementExecutor.keyspace address) st = .error e st')
    (table : List UInt8) (schema : Schema) :
    StatementExecutor.execute address (.createTable table schema) st =
        .error e (afterCreate address table schema st) ∧ afterCreate address table schema st = st' := by
  have hexecute := StatementExecutor.execute_no_keyspace h (.createTable table schema)
  have hcreated : afterCreate address table schema st = st' := by
    rw [afterCreate, Method.after, hexecute]
  exact ⟨by rw [hexecute, hcreated], hcreated⟩

/-- A node that has executed the statement has the table if its keyspace database could be opened,
with the schema of the statement unless it has had the table before. -/
lemma hasTable_afterCreate (address table : List UInt8) (schema σ : Schema)
    (st : StateStore × Posix Path) :
    HasTable address table σ (afterCreate address table schema st) ↔
      ∃ db st', StateStore.getKeyspace (StatementExecutor.keyspace address) st = .ok db st' ∧
        (db.tableSchema table).getD schema = σ := by
  have hopened : ∀ db st', StateStore.getKeyspace (StatementExecutor.keyspace address) st =
      .ok db st' → OrderedMap.find nameLt (StatementExecutor.keyspace address) st'.1.keyspaces =
        .ok (some db) → (HasTable address table σ (afterCreate address table schema st) ↔
          ∃ db st', StateStore.getKeyspace (StatementExecutor.keyspace address) st = .ok db st' ∧
            (db.tableSchema table).getD schema = σ) := by
    intro db st' hget hfind
    obtain ⟨db', hself, -, -, hfound⟩ := execute_createTable hget hfind table schema
    rw [HasTable, hfound, hget]
    constructor
    · rintro ⟨db₁, h₁, hσ⟩
      cases h₁
      rw [hself, Option.some.injEq] at hσ
      exact ⟨db, st', rfl, hσ⟩
    · rintro ⟨db₁, st₁, h₁, hσ⟩
      cases h₁
      exact ⟨db', rfl, by rw [hself, hσ]⟩
  rcases getKeyspace_cases (StatementExecutor.keyspace address) st with
    ⟨db, hfind, hget⟩ | ⟨hnone, ⟨db, st', hget, hfind⟩ | ⟨e, s, hget⟩⟩
  · exact hopened db st hget hfind
  · exact hopened db st' hget hfind
  · rw [HasTable, (execute_createTable_error hget table schema).2, hnone, hget]
    constructor
    · rintro ⟨_, h, -⟩
      cases h
    · rintro ⟨_, _, h, -⟩
      cases h

/-- A node that has a table keeps it. -/
lemma HasTable.afterCreate (h : HasTable address table schema st) (other : List UInt8)
    (schema' : Schema) : HasTable address table schema (afterCreate address other schema' st) := by
  obtain ⟨db, hfind, htable⟩ := h
  rcases getKeyspace_cases (StatementExecutor.keyspace address) st with
    ⟨db₁, hfind₁, hget⟩ | ⟨hnone, -⟩
  · rw [hfind, Except.ok.injEq, Option.some.injEq] at hfind₁
    subst hfind₁
    obtain ⟨db', -, hothers, -, hfound⟩ := execute_createTable hget hfind other schema'
    exact ⟨db', hfound, hothers table schema htable⟩
  · rw [hfind] at hnone
    cases hnone

lemma execute_createTable_cases (address table : List UInt8) (schema : Schema)
    (st : StateStore × Posix Path) :
    StatementExecutor.execute address (.createTable table schema) st =
        .ok none (afterCreate address table schema st) ∨
      ∃ e, StatementExecutor.execute address (.createTable table schema) st =
        .error e (afterCreate address table schema st) := by
  rcases getKeyspace_cases (StatementExecutor.keyspace address) st with
    ⟨db, hfind, hget⟩ | ⟨-, ⟨db, st', hget, hfind⟩ | ⟨e, s, hget⟩⟩
  · obtain ⟨-, -, -, hexecute, -⟩ := execute_createTable hget hfind table schema
    exact .inl hexecute
  · obtain ⟨-, -, -, hexecute, -⟩ := execute_createTable hget hfind table schema
    exact .inl hexecute
  · exact .inr ⟨e, (execute_createTable_error hget table schema).1⟩

end Node

/-! ### The cluster -/

/-- The nodes by their addresses. -/
abbrev Cluster := List UInt8 → StateStore × Posix Path

namespace Cluster

/-- A step of one node. -/
def onNode (address : List UInt8) {α : Type} (m : Method StateStore α) :
    EStateM Exception Cluster α := fun c =>
  match m (c address) with
  | .ok a st => .ok a (Function.update c address st)
  | .error e st => .error e (Function.update c address st)

/-- `StreamerClient::execute`, among nodes that never end: undefined behaviour on the called node is taken
for an exception. A call that does not reach the node and one that ends in an exception there come back as
the same text. -/
def streamer (process : List UInt8 → Except Exception CqlStatement) (rpc : List UInt8 → Bool)
    (address query : List UInt8) : EStateM Exception Cluster (List UInt8) := fun c =>
  if rpc address then
    match StreamerServer.execute process address query (c address) with
    | .ok reply st => .ok reply (Function.update c address st)
    | .error _ st => .ok (text "Error") (Function.update c address st)
  else .ok (text "Error") c

/-- A `CREATE TABLE` that a node receives, with the addresses that its calls reach. -/
structure Request where
  coordinator : List UInt8
  query : List UInt8
  keyspace : List UInt8
  table : List UInt8
  schema : Schema
  rpc : List UInt8 → Bool

namespace Request

/-- The text of the query is that of the statement. -/
structure Parsed (process : List UInt8 → Except Exception CqlStatement) (r : Request) : Prop where
  eq : process r.query = .ok (.createTable r.keyspace r.table r.schema)

def execute (process : List UInt8 → Except Exception CqlStatement) (ranges : List Range)
    (r : Request) : EStateM Exception Cluster (List UInt8) :=
  MultinodeQueryExecutor.execute ⟨r.coordinator, ranges⟩ (onNode r.coordinator)
    (streamer process r.rpc) r.query (.createTable r.table r.schema)

/-- The cluster after the request, whether the coordinator answers or throws. -/
def after (process : List UInt8 → Except Exception CqlStatement) (ranges : List Range)
    (r : Request) (c : Cluster) : Cluster :=
  match r.execute process ranges c with
  | .ok _ c' => c'
  | .error _ c' => c'

def Answered (process : List UInt8 → Except Exception CqlStatement) (ranges : List Range)
    (r : Request) (c : Cluster) : Prop :=
  ∃ c', r.execute process ranges c = .ok (text "All nodes have been updated") c'

/-- The nodes that are to have the table: those of the ranges and the coordinator. -/
def nodes (ranges : List Range) (r : Request) : List (List UInt8) :=
  r.coordinator :: StateStore.availableStreamers ranges

/-- They are the nodes that the routing of the statement counts as its executors. -/
lemma mem_nodes_iff (ranges : List Range) (r : Request) (address : List UInt8) :
    address ∈ r.nodes ranges ↔
      address ∈ MultinodeQueryExecutor.executors ⟨r.coordinator, ranges⟩ := by
  by_cases h : address = r.coordinator
  · simp [nodes, MultinodeQueryExecutor.executors, h]
  · simp [nodes, MultinodeQueryExecutor.executors, h]

/-- All these nodes have the table, with one schema. -/
def Agreed (ranges : List Range) (r : Request) (c : Cluster) : Prop :=
  ∃ σ, ∀ address ∈ r.nodes ranges, HasTable address r.table σ (c address)

/-- With one schema, each of these nodes either executes the statement and can open its keyspace,
where the table has that schema or is created with it, or has the table with it already. -/
def Reaches (ranges : List Range) (r : Request) (c : Cluster) : Prop :=
  ∃ σ, ∀ address ∈ r.nodes ranges,
    if address = r.coordinator ∨ r.rpc address then
      ∃ db st, StateStore.getKeyspace (StatementExecutor.keyspace address) (c address) = .ok db st ∧
        (db.tableSchema r.table).getD r.schema = σ
    else HasTable address r.table σ (c address)

end Request

/-- The state after requests one after the other. -/
def runAll (process : List UInt8 → Except Exception CqlStatement) (ranges : List Range)
    (requests : List Request) (c : Cluster) : Cluster :=
  requests.foldl (fun c r => r.after process ranges c) c

section Execution

variable {process : List UInt8 → Except Exception CqlStatement} {ranges : List Range}
  {r : Request} {c : Cluster}

/-- A call changes the node that it reaches, and no other. -/
lemma streamer_ok (hparsed : r.Parsed process) (address : List UInt8) (c : Cluster) :
    ∃ reply, streamer process r.rpc address r.query c = .ok reply
      (if r.rpc address then
        Function.update c address (afterCreate address r.table r.schema (c address)) else c) := by
  by_cases hrpc : r.rpc address = true
  · have hserver : (StreamerServer.execute process address r.query).after (c address) =
        afterCreate address r.table r.schema (c address) := by
      rw [Method.after, StreamerServer.execute, bind_of_ok (Method.ofExcept_ok hparsed.eq _),
        LocalQueryExecutor.execute, CqlStatement.statement]
      rcases execute_createTable_cases address r.table r.schema (c address) with h | ⟨e, h⟩
      · rw [bind_of_ok h]
        rfl
      · rw [bind_of_error h]
    rw [streamer, if_pos hrpc, if_pos hrpc, ← hserver, Method.after]
    cases StreamerServer.execute process address r.query (c address) with
    | ok reply st => exact ⟨reply, rfl⟩
    | error e st => exact ⟨text "Error", rfl⟩
  · rw [streamer, if_neg hrpc, if_neg hrpc]
    exact ⟨_, rfl⟩

/-- What a call of `send_all` makes of the cluster: nothing, if the node is the coordinator. -/
def afterCall (r : Request) (c : Cluster) (address : List UInt8) : Cluster :=
  if address ≠ r.coordinator ∧ r.rpc address then
    Function.update c address (afterCreate address r.table r.schema (c address))
  else c

lemma sendAll_ok (hparsed : r.Parsed process) (c : Cluster) :
    Partitioner.sendAll ⟨r.coordinator, ranges⟩ (streamer process r.rpc) r.query c =
      .ok () ((StateStore.availableStreamers ranges).foldl (afterCall r) c) := by
  apply forM_ok
  intro address c
  by_cases hlocal : address = r.coordinator
  · simp [hlocal, afterCall]
  · obtain ⟨reply, hcall⟩ := streamer_ok hparsed address c
    simp [hlocal, afterCall, bind_of_ok hcall]

/-- Every node of the list that can be reached has executed the statement once. -/
lemma foldl_afterCall (addresses : List (List UInt8)) (hnodup : addresses.Nodup) (c : Cluster)
    (a : List UInt8) :
    addresses.foldl (afterCall r) c a =
      if a ∈ addresses ∧ a ≠ r.coordinator ∧ r.rpc a then
        afterCreate a r.table r.schema (c a) else c a := by
  induction addresses generalizing c with
  | nil => simp
  | cons address addresses ih =>
    obtain ⟨hnot, hnodup⟩ := List.nodup_cons.mp hnodup
    rw [List.foldl_cons, ih hnodup]
    by_cases ha : a = address
    · subst ha
      by_cases hcalled : a ≠ r.coordinator ∧ r.rpc a = true
      · simp [hnot, afterCall, hcalled]
      · simp only [hnot, false_and, if_false, afterCall, if_neg hcalled, List.mem_cons, true_or,
          true_and]
    · have hsame : afterCall r c address a = c a := by
        unfold afterCall
        split
        · exact Function.update_of_ne ha _ _
        · rfl
      rw [hsame]
      simp [ha]

lemma nodup_availableStreamers (ranges : List Range) :
    (StateStore.availableStreamers ranges).Nodup := by
  unfold StateStore.availableStreamers
  rw [(List.mergeSort_perm _ _).nodup_iff]
  exact List.nodup_dedup _

/-- The coordinator answers as soon as it has executed the statement itself. -/
lemma execute_ok (hparsed : r.Parsed process) {c : Cluster}
    (h : StatementExecutor.execute r.coordinator (.createTable r.table r.schema)
      (c r.coordinator) = .ok none (afterCreate r.coordinator r.table r.schema (c r.coordinator))) :
    r.execute process ranges c = .ok (text "All nodes have been updated")
      ((StateStore.availableStreamers ranges).foldl (afterCall r) (Function.update c
        r.coordinator (afterCreate r.coordinator r.table r.schema (c r.coordinator)))) := by
  have hlocal : onNode r.coordinator
      (StatementExecutor.execute r.coordinator (.createTable r.table r.schema)) c =
      .ok none (Function.update c r.coordinator
        (afterCreate r.coordinator r.table r.schema (c r.coordinator))) := by
    rw [onNode, h]
  unfold Request.execute MultinodeQueryExecutor.execute
  rw [bind_of_ok hlocal, bind_of_ok (sendAll_ok hparsed _)]
  rfl

/-- A request changes and, if it is answered, the other nodes of the ranges
that it reaches. -/
lemma execute_cases (hparsed : r.Parsed process) (c : Cluster) :
    (∃ c', r.execute process ranges c = .ok (text "All nodes have been updated") c' ∧
      ∀ a, c' a = if a = r.coordinator ∨ (a ∈ r.nodes ranges ∧ r.rpc a) then
        afterCreate a r.table r.schema (c a) else c a) ∨
    ∃ e, r.execute process ranges c = .error e (Function.update c r.coordinator
      (afterCreate r.coordinator r.table r.schema (c r.coordinator))) := by
  rcases execute_createTable_cases r.coordinator r.table r.schema (c r.coordinator) with h | ⟨e, h⟩
  · refine .inl ⟨_, execute_ok hparsed h, fun a => ?_⟩
    rw [foldl_afterCall _ (nodup_availableStreamers ranges)]
    by_cases ha : a = r.coordinator
    · subst ha
      simp
    · simp [ha, Request.nodes]
  · have hlocal : onNode r.coordinator
        (StatementExecutor.execute r.coordinator (.createTable r.table r.schema)) c =
        .error e (Function.update c r.coordinator
          (afterCreate r.coordinator r.table r.schema (c r.coordinator))) := by
      rw [onNode, h]
    refine .inr ⟨e, ?_⟩
    unfold Request.execute MultinodeQueryExecutor.execute
    rw [bind_of_error hlocal]

/-- A node that a request does not reach stays as it is. -/
lemma after_of_not_reached (hparsed : r.Parsed process) {a : List UInt8} (ha : a ≠ r.coordinator)
    (hrpc : r.rpc a = false) (c : Cluster) : r.after process ranges c a = c a := by
  unfold Request.after
  rcases @execute_cases _ ranges _ hparsed c with ⟨c', hexecute, hnodes⟩ | ⟨e, hexecute⟩
  · rw [hexecute]
    simpa [ha, hrpc] using hnodes a
  · rw [hexecute]
    exact Function.update_of_ne ha _ _

/-- What an answered request leaves behind. -/
lemma agreed_after_iff (hparsed : r.Parsed process) (hanswered : r.Answered process ranges c) :
    r.Agreed ranges (r.after process ranges c) ↔ r.Reaches ranges c := by
  obtain ⟨c', hexecute⟩ := hanswered
  rcases @execute_cases _ ranges _ hparsed c with ⟨c₁, h, hnodes⟩ | ⟨e, h⟩
  · have hafter : r.after process ranges c = c₁ := by
      rw [Request.after, h]
    rw [hafter]
    apply exists_congr
    intro σ
    apply forall_congr'
    intro address
    apply imp_congr_right
    intro hmem
    rw [hnodes]
    by_cases hreached : address = r.coordinator ∨ r.rpc address = true
    · have hcond : address = r.coordinator ∨ (address ∈ r.nodes ranges ∧ r.rpc address = true) := by
        tauto
      rw [if_pos hcond, if_pos hreached, hasTable_afterCreate]
    · have hcond : ¬(address = r.coordinator ∨
          (address ∈ r.nodes ranges ∧ r.rpc address = true)) := by
        tauto
      rw [if_neg hcond, if_neg hreached]
  · rw [hexecute] at h
    cases h

/-- No request takes a table away from a node. -/
lemma hasTable_after (hparsed : r.Parsed process) {address table : List UInt8} {σ : Schema}
    (h : HasTable address table σ (c address)) :
    HasTable address table σ (r.after process ranges c address) := by
  rcases @execute_cases _ ranges _ hparsed c with ⟨c', hexecute, hnodes⟩ | ⟨e, hexecute⟩
  · rw [Request.after, hexecute]
    change HasTable address table σ (c' address)
    rw [hnodes]
    split
    · exact h.afterCreate r.table r.schema
    · exact h
  · rw [Request.after, hexecute]
    by_cases ha : address = r.coordinator
    · subst ha
      change HasTable r.coordinator table σ (Function.update c _ _ r.coordinator)
      rw [Function.update_self]
      exact h.afterCreate r.table r.schema
    · change HasTable address table σ (Function.update c _ _ address)
      rwa [Function.update_of_ne ha]

lemma hasTable_runAll {requests : List Request} (hparsed : ∀ r ∈ requests, r.Parsed process)
    {address table : List UInt8} {σ : Schema} {c : Cluster}
    (h : HasTable address table σ (c address)) :
    HasTable address table σ (runAll process ranges requests c address) := by
  induction requests generalizing c with
  | nil => exact h
  | cons r requests ih =>
    exact ih (fun r' hr' => hparsed r' (List.mem_cons_of_mem _ hr'))
      (hasTable_after (hparsed r List.mem_cons_self) h)

end Execution

section Run

variable (root : List UInt8 → List CqlParser.Cql) (strtold : List UInt8 → BitVec 64)
  (ranges : List Range) (requests : List Request) (c : Cluster)

/-- Every answered request means agreement on its table, right after the answer and as long as the
run goes on. -/
def AnswersMeanAgreement : Prop :=
  ∀ earlier r later rest, requests = earlier ++ r :: later ++ rest →
    r.Answered (StatementParser.process root strtold) ranges
        (runAll (StatementParser.process root strtold) ranges earlier c) →
      r.Agreed ranges (runAll (StatementParser.process root strtold) ranges
        (earlier ++ r :: later) c)

/-- In every run of `CREATE TABLE` statements through any coordinators, with any calls failing, the
answers mean agreement exactly when each answered request reaches all nodes. -/
theorem answersMeanAgreement_iff
    (hparsed : ∀ r ∈ requests, r.Parsed (StatementParser.process root strtold)) :
    AnswersMeanAgreement root strtold ranges requests c ↔
      ∀ earlier r later, requests = earlier ++ r :: later →
        r.Answered (StatementParser.process root strtold) ranges
            (runAll (StatementParser.process root strtold) ranges earlier c) →
          r.Reaches ranges (runAll (StatementParser.process root strtold) ranges earlier c) := by
  have hstep : ∀ earlier r later, runAll (StatementParser.process root strtold) ranges
      (earlier ++ r :: later) c = runAll (StatementParser.process root strtold) ranges later
        (r.after (StatementParser.process root strtold) ranges
          (runAll (StatementParser.process root strtold) ranges earlier c)) := by
    intro earlier r later
    simp [runAll]
  constructor
  · intro h earlier r later hrequests hanswered
    have hmem : r ∈ requests := by simp [hrequests]
    have hagreed := h earlier r [] later (by simp [hrequests]) hanswered
    rw [hstep] at hagreed
    exact (agreed_after_iff (hparsed r hmem) hanswered).mp hagreed
  · intro h earlier r later rest hrequests hanswered
    have hmem : r ∈ requests := by simp [hrequests]
    have hreaches := h earlier r (later ++ rest) (by simp [hrequests]) hanswered
    obtain ⟨σ, hagreed⟩ := (agreed_after_iff (hparsed r hmem) hanswered).mpr hreaches
    refine ⟨σ, fun address haddress => ?_⟩
    rw [hstep]
    apply hasTable_runAll
    · intro r' hr'
      exact hparsed r' (by simp [hrequests, hr'])
    · exact hagreed address haddress

end Run

/-- A parser that finds one `CREATE TABLE t (k INT PRIMARY KEY)`. -/
def createRoot (_ : List UInt8) : List CqlParser.Cql :=
  [.createTable ⟨none, [116], [⟨[107], .int, true⟩], none⟩]

/-- The statement, received by the node `a`. -/
def createRequest (rpc : List UInt8 → Bool) : Request :=
  ⟨[97], text "CREATE TABLE t (k INT PRIMARY KEY);", [], [116], ⟨0, 0, [⟨[107], ⟨.int, 4⟩⟩]⟩, rpc⟩

/-- Nodes whose keyspace databases are open and have no tables. -/
def withoutTables : Cluster := fun address =>
  (⟨[(StatementExecutor.keyspace address, ⟨StatementExecutor.keyspace address, []⟩)]⟩,
    Posix.start (fun _ => 0))

/-- Two nodes, which can both be reached. -/
theorem answersMeanAgreement_iff_reached :
    AnswersMeanAgreement createRoot (fun _ => 0) twoNodes [createRequest (fun _ => true)]
      withoutTables := by
  refine (answersMeanAgreement_iff createRoot (fun _ => 0) twoNodes
    [createRequest (fun _ => true)] withoutTables ?_).mpr ?_
  · intro r hr
    rw [List.mem_singleton.mp hr]
    exact ⟨rfl⟩
  · intro earlier r later hrequests _
    obtain ⟨rfl, rfl⟩ : earlier = [] ∧ r = createRequest (fun _ => true) := by
      cases earlier with
      | nil => simpa using (List.cons.inj hrequests).1.symm
      | cons r' earlier => simp at hrequests
    refine ⟨⟨0, 0, [⟨[107], ⟨.int, 4⟩⟩]⟩, fun address haddress => ?_⟩
    have hnodes : address = [97] ∨ address = [98] := by
      simpa [Request.nodes, StateStore.availableStreamers, twoNodes, createRequest] using haddress
    rw [if_pos (.inr rfl)]
    rcases hnodes with rfl | rfl
    · exact ⟨_, _, rfl, rfl⟩
    · exact ⟨_, _, rfl, rfl⟩

/-- If the call to the other node fails, the answer is the same. -/
theorem not_answersMeanAgreement_failed :
    ¬AnswersMeanAgreement createRoot (fun _ => 0) twoNodes [createRequest (fun _ => false)]
      withoutTables := by
  intro h
  have hparsed : (createRequest (fun _ => false)).Parsed
      (StatementParser.process createRoot (fun _ => 0)) := ⟨rfl⟩
  obtain ⟨σ, hagreed⟩ := h [] (createRequest (fun _ => false)) [] [] rfl
    ⟨_, execute_ok hparsed rfl⟩
  have htable := hagreed [98]
    (by simp [Request.nodes, StateStore.availableStreamers, twoNodes, createRequest])
  have hsame : runAll (StatementParser.process createRoot (fun _ => 0)) twoNodes
      ([] ++ [createRequest (fun _ => false)]) withoutTables [98] = withoutTables [98] :=
    after_of_not_reached hparsed (by decide) rfl withoutTables
  rw [hsame] at htable
  obtain ⟨db, hfind, htable⟩ := htable
  obtain rfl : (⟨StatementExecutor.keyspace [98], []⟩ : Database) = db :=
    Option.some.inj (Except.ok.inj hfind)
  cases htable

end Cluster

end Dibibase
