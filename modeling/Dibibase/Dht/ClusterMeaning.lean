import Dibibase.Api.ErrorHandling
import Dibibase.Db.Shutdown
import Dibibase.Dht.Agreement
import Dibibase.Lang.Meaning

/-!
# What a cluster answers

The meaning of a query that a node of the cluster receives is a step on the contents of the nodes:
the statement goes to one node or to all of them, and what comes back is the text of a record, a
fixed text or a failure. An exception that the server does not catch ends the node that has received
the query, and undefined behaviour the node where it happens; nodes that have ended do not come back.
Every run of queries through any coordinators, with any calls between nodes failing, gets the
answers that the queries mean, and the same nodes end.
-/

namespace Dibibase

open Library

/-! ### One node -/

/-- A node whose database holds the contents, or that has not opened its database and has no
files in its directory. -/
inductive NodeHolds (address : List UInt8) (st : StateStore × Posix Path) (c : Database.Contents) :
    Prop
  | unused (find : OrderedMap.find nameLt (StatementExecutor.keyspace address) st.1.keyspaces =
        .ok none) (fresh : Database.Fresh (StatementExecutor.keyspace address) st.2)
      (empty : c = fun _ => none)
  | used {db : Database} (find : OrderedMap.find nameLt (StatementExecutor.keyspace address)
        st.1.keyspaces = .ok (some db)) (holds : Database.Holds (db, st.2) c)

variable {address : List UInt8} {st : StateStore × Posix Path} {c : Database.Contents}

/-- The database of the node, opened if it has not been used. -/
lemma NodeHolds.getKeyspace (h : NodeHolds address st c) :
    ∃ db st', StateStore.getKeyspace (StatementExecutor.keyspace address) st = .ok db st' ∧
      OrderedMap.find nameLt (StatementExecutor.keyspace address) st'.1.keyspaces = .ok (some db) ∧
      Database.Holds (db, st'.2) c := by
  cases h with
  | unused hfind hfresh hempty =>
    obtain ⟨s', hopen, -, -⟩ := Database.open_fresh hfresh.metadata
    obtain ⟨-, hholds, -⟩ := hfresh.holds hopen
    obtain ⟨keyspaces, hassign, hassigned⟩ := OrderedMap.find_assign ordersOn_nameLt
      (Set.mem_univ (StatementExecutor.keyspace address))
      (⟨StatementExecutor.keyspace address, []⟩ : Database) st.1.keyspaces
      (fun _ _ => Set.mem_univ _)
    refine ⟨_, (⟨keyspaces⟩, s'), ?_, hassigned, hempty ▸ hholds⟩
    rw [StateStore.getKeyspace, bind_of_ok (get_apply _), bind_of_ok (Method.ofExcept_ok hfind _)]
    refine (bind_of_ok (Method.ofProcess_ok hopen)).trans ?_
    rw [bind_of_ok (Method.ofExcept_ok hassign _)]
    rfl
  | used hfind hholds =>
    refine ⟨_, st, ?_, hfind, hholds⟩
    rw [StateStore.getKeyspace, bind_of_ok (get_apply _), bind_of_ok (Method.ofExcept_ok hfind _)]
    rfl

/-- On every node the execution of a statement follows its meaning. -/
lemma relates_statementExecutor (address : List UInt8) {stmt : Statement} (hfits : stmt.Fits) :
    Relates Database.Fails (NodeHolds address) (StatementExecutor.execute address stmt)
      stmt.mean := by
  intro st c h
  obtain ⟨db, st', hget, hfind, hholds⟩ := h.getKeyspace
  have hupdate : ∀ db', OrderedMap.find nameLt (StatementExecutor.keyspace address)
      (st'.1.update (StatementExecutor.keyspace address) db').keyspaces = .ok (some db') :=
    fun db' => OrderedMap.find_replace ordersOn_nameLt (Set.mem_univ _) _
      (fun _ _ => Set.mem_univ _) hfind
  rcases (Statement.relates_execute hfits (db, st'.2) c hholds).cases with
    ⟨result, st'', c', hrun, hmean, h'⟩ | ⟨e, d, st'', c', hrun, hmean, hfails, h'⟩
  · rw [StatementExecutor.execute_ok hget hrun, hmean]
    exact .ok result (.used (hupdate st''.1) h')
  · rw [StatementExecutor.execute_error hget hrun, hmean]
    exact .error hfails (.used (hupdate st''.1) h')

/-! ### The meaning of a query -/

/-- A step that does not touch the state. -/
def settled {σ α : Type} (x : Except Exception α) : EStateM Exception σ α :=
  match x with
  | .ok a => return a
  | .error e => throw e

/-- What a node makes of the text of a query that it executes itself. -/
def CqlStatement.answer (stmt : CqlStatement) : EStateM Exception Database.Contents (List UInt8) := do
  let result ← stmt.statement.mean
  settled (ResultSerializer.serialize result)

/-- Where a statement is executed: by the node that receives it, by all nodes, or by another one. -/
inductive Route where
  | here
  | everywhere
  | toward (address : List UInt8)
  deriving DecidableEq, Repr

/-- The way of a statement with a key: to the owner of its token, which is the receiver if the
token has none. Without a text the key leads everywhere, unless the receiver is the owner. -/
def routeOf (config : Config) : Option (List UInt8) → Except Exception Route
  | none => throw .badOptionalAccess
  | some key =>
    match StateStore.getAddress config.ranges (Partitioner.token key) with
    | none => return .here
    | some owner =>
      if owner = config.localAddress then return .here
      else if key = [] then return .everywhere
      else return .toward owner

/-- A table is created everywhere, and any other statement goes by its key. -/
def route (config : Config) (stmt : CqlStatement) : Except Exception Route :=
  match stmt with
  | .createTable _ _ _ => return .everywhere
  | .insert _ _ _ _ | .select _ _ _ => do routeOf config (← stmt.statement.partitionKey)

lemma settled_bind {σ α β : Type} (x : Except Exception α) (f : α → Except Exception β) :
    (settled (x >>= f) : EStateM Exception σ β) = settled x >>= fun a => settled (f a) := by
  cases x with
  | ok a => rfl
  | error e => rfl

namespace Cluster

/-! ### Nodes that may end -/

/-- The server goes on after a query exactly when it does after its meaning. -/
lemma handled_iff {e e' : Exception} (h : Database.Fails e e') :
    ServerMsg.Handled e ↔ ServerMsg.Handled e' := by
  rcases h with rfl | ⟨rfl | rfl, rfl | rfl⟩ <;> simp [ServerMsg.Handled]

/-- What each node has, and whether its process still runs. -/
structure Nodes (σ : Type) where
  state : List UInt8 → σ
  live : List UInt8 → Bool

namespace Nodes

variable {σ α : Type} {address x : List UInt8} {s : σ} {n : Nodes σ}

def set (address : List UInt8) (s : σ) (n : Nodes σ) : Nodes σ :=
  { n with state := Function.update n.state address s }

/-- The process of a node ends. -/
def stop (address : List UInt8) (n : Nodes σ) : Nodes σ :=
  { n with live := Function.update n.live address false }

/-- A step of one node. -/
def onNode (address : List UInt8) (m : EStateM Exception σ α) : EStateM Exception (Nodes σ) α := fun n =>
  match m (n.state address) with
  | .ok a s => .ok a (n.set address s)
  | .error e s => .error e (n.set address s)

/-- The call of another node. The caller gets the same text when the call does not get through and when
the called node throws; undefined behaviour ends the process there. -/
def call (rpc : List UInt8 → Bool) (m : EStateM Exception σ (List UInt8)) (address : List UInt8) :
    EStateM Exception (Nodes σ) (List UInt8) := fun n =>
  if rpc address ∧ n.live address then
    match m (n.state address) with
    | .ok reply s => .ok reply (n.set address s)
    | .error e s =>
      .ok (text "Error")
        (if e = .undefinedBehaviour then (n.set address s).stop address else n.set address s)
  else .ok (text "Error") n

/-- A query at a node that runs. What `CreateResponse` does not catch ends the process. -/
def serve (address : List UInt8) (m : EStateM Exception (Nodes σ) α) : EStateM Unit (Nodes σ) α := fun n =>
  if n.live address then
    match m n with
    | .ok a n' => .ok a n'
    | .error e n' => .error () (if ServerMsg.Handled e then n' else n'.stop address)
  else .error () n

@[simp] lemma state_set_self : (n.set address s).state address = s := Function.update_self ..

lemma state_set_of_ne (h : x ≠ address) : (n.set address s).state x = n.state x :=
  Function.update_of_ne h _ _

@[simp] lemma live_set : (n.set address s).live = n.live := rfl

@[simp] lemma state_stop : (n.stop address).state = n.state := rfl

end Nodes

/-- `StreamerClient::execute`. -/
def call (process : List UInt8 → Except Exception CqlStatement) (rpc : List UInt8 → Bool)
    (address query : List UInt8) : EStateM Exception (Nodes (StateStore × Posix Path)) (List UInt8) :=
  Nodes.call rpc (StreamerServer.execute process address query) address

/-- Among nodes that all run and come to no undefined behaviour, a call is that of the streamer. -/
lemma call_eq_streamer {process : List UInt8 → Except Exception CqlStatement} {rpc : List UInt8 → Bool}
    {address query : List UInt8} {n : Nodes (StateStore × Posix Path)} (hlive : n.live address = true)
    (hdefined : ∀ st, StreamerServer.execute process address query (n.state address) ≠
      .error .undefinedBehaviour st) :
    call process rpc address query n =
      match streamer process rpc address query n.state with
      | .ok reply c => .ok reply ⟨c, n.live⟩
      | .error e c => .error e ⟨c, n.live⟩ := by
  rw [call, Nodes.call, streamer]
  by_cases hrpc : rpc address = true
  · rw [if_pos ⟨hrpc, hlive⟩, if_pos hrpc]
    cases hrun : StreamerServer.execute process address query (n.state address) with
    | ok reply st => rfl
    | error e st =>
      have hother : e ≠ .undefinedBehaviour := by
        rintro rfl
        exact hdefined st hrun
      dsimp only
      rw [if_neg hother]
      rfl
  · rw [if_neg (fun h => hrpc h.1), if_neg hrpc]

/-- A query that a node receives, with the addresses that its calls reach. -/
structure Submission where
  coordinator : List UInt8
  query : List UInt8
  rpc : List UInt8 → Bool

namespace Submission

/-- `QueryProcessor::process` on the node that receives the query. -/
def process (parse : List UInt8 → Except Exception CqlStatement) (ranges : List Range)
    (r : Submission) : EStateM Exception (Nodes (StateStore × Posix Path)) (List UInt8) :=
  QueryProcessor.process ⟨r.coordinator, ranges⟩ (Nodes.onNode r.coordinator) (call parse r.rpc)
    parse r.query

/-- What becomes of a query and of the nodes. -/
def execute (parse : List UInt8 → Except Exception CqlStatement) (ranges : List Range)
    (r : Submission) : EStateM Unit (Nodes (StateStore × Posix Path)) (List UInt8) :=
  Nodes.serve r.coordinator (r.process parse ranges)

/-- What a query means once its way is known, with the addresses of all nodes. -/
def follow (nodes : List (List UInt8)) (r : Submission) (stmt : CqlStatement) :
    Route → EStateM Exception (Nodes Database.Contents) (List UInt8)
  | .here => Nodes.onNode r.coordinator stmt.answer
  | .toward address => Nodes.call r.rpc stmt.answer address
  | .everywhere => do
    let _ ← Nodes.onNode r.coordinator stmt.statement.mean
    nodes.forM (fun address =>
      if address = r.coordinator then return ()
      else do
        let _ ← Nodes.call r.rpc stmt.answer address
        return ())
    return text "All nodes have been updated"

/-- What a query means at a node that runs. -/
def meaning (parse : List UInt8 → Except Exception CqlStatement) (ranges : List Range)
    (r : Submission) : EStateM Exception (Nodes Database.Contents) (List UInt8) := do
  let stmt ← settled (parse r.query)
  let way ← settled (route ⟨r.coordinator, ranges⟩ stmt)
  r.follow (StateStore.availableStreamers ranges) stmt way

/-- What a query means. -/
def mean (parse : List UInt8 → Except Exception CqlStatement) (ranges : List Range)
    (r : Submission) : EStateM Unit (Nodes Database.Contents) (List UInt8) :=
  Nodes.serve r.coordinator (r.meaning parse ranges)

end Submission

/-- Every node holds its contents, and the same nodes run. -/
structure Holds (n : Nodes (StateStore × Posix Path)) (m : Nodes Database.Contents) : Prop where
  node : ∀ address, NodeHolds address (n.state address) (m.state address)
  live : n.live = m.live

section Simulation

variable {parse : List UInt8 → Except Exception CqlStatement} {stmt : CqlStatement} {α : Type}
  {n : Nodes (StateStore × Posix Path)} {m : Nodes Database.Contents}

lemma Holds.set (h : Holds n m) {address : List UInt8} {st : StateStore × Posix Path}
    {contents : Database.Contents} (hnode : NodeHolds address st contents) :
    Holds (n.set address st) (m.set address contents) := by
  refine ⟨fun other => ?_, h.live⟩
  by_cases hne : other = address
  · subst hne
    simpa using hnode
  · rw [Nodes.state_set_of_ne hne, Nodes.state_set_of_ne hne]
    exact h.node other

lemma Holds.stop (h : Holds n m) (address : List UInt8) : Holds (n.stop address) (m.stop address) :=
  ⟨h.node, by rw [Nodes.stop, Nodes.stop, h.live]⟩

lemma relates_onNode {address : List UInt8} {f : Method StateStore α}
    {g : EStateM Exception Database.Contents α} (h : Relates Database.Fails (NodeHolds address) f g) :
    Relates Database.Fails Holds (Nodes.onNode address f) (Nodes.onNode address g) := by
  intro n m hholds
  unfold Nodes.onNode
  rcases (h _ _ (hholds.node address)).cases with
    ⟨a, st, st', hf, hg, h'⟩ | ⟨e, d, st, st', hf, hg, hfails, h'⟩
  · rw [hf, hg]
    exact .ok a (hholds.set h')
  · rw [hf, hg]
    exact .error hfails (hholds.set h')

/-- The caller gets the same text, and the called node ends or not. -/
lemma relates_call {address : List UInt8} {f : Method StateStore (List UInt8)}
    {g : EStateM Exception Database.Contents (List UInt8)}
    (h : Relates Database.Fails (NodeHolds address) f g) (rpc : List UInt8 → Bool) :
    Relates Database.Fails Holds (Nodes.call rpc f address) (Nodes.call rpc g address) := by
  intro n m hholds
  unfold Nodes.call
  rw [hholds.live]
  by_cases hreached : rpc address = true ∧ m.live address = true
  · rw [if_pos hreached, if_pos hreached]
    rcases (h _ _ (hholds.node address)).cases with
      ⟨reply, st, st', hf, hg, h'⟩ | ⟨e, d, st, st', hf, hg, hfails, h'⟩
    · rw [hf, hg]
      exact .ok reply (hholds.set h')
    · rw [hf, hg]
      dsimp only
      by_cases hundefined : d = .undefinedBehaviour
      · rw [if_pos ((Database.Fails.undefined_iff hfails).mpr hundefined), if_pos hundefined]
        exact .ok _ ((hholds.set h').stop address)
      · rw [if_neg (mt (Database.Fails.undefined_iff hfails).mp hundefined), if_neg hundefined]
        exact .ok _ (hholds.set h')
  · rw [if_neg hreached, if_neg hreached]
    exact .ok _ hholds

/-- A node ends exactly when it ends by the meaning of the query. -/
lemma relates_serve {f : EStateM Exception (Nodes (StateStore × Posix Path)) α}
    {g : EStateM Exception (Nodes Database.Contents) α} (h : Relates Database.Fails Holds f g)
    (address : List UInt8) : Relates Eq Holds (Nodes.serve address f) (Nodes.serve address g) := by
  intro n m hholds
  unfold Nodes.serve
  rw [hholds.live]
  by_cases hlive : m.live address = true
  · rw [if_pos hlive, if_pos hlive]
    rcases (h n m hholds).cases with ⟨a, n', m', hf, hg, h'⟩ | ⟨e, d, n', m', hf, hg, hfails, h'⟩
    · rw [hf, hg]
      exact .ok a h'
    · rw [hf, hg]
      dsimp only
      by_cases hhandled : ServerMsg.Handled d
      · rw [if_pos ((handled_iff hfails).mpr hhandled), if_pos hhandled]
        exact .error rfl h'
      · rw [if_neg (mt (handled_iff hfails).mp hhandled), if_neg hhandled]
        exact .error rfl (h'.stop address)
  · rw [if_neg hlive, if_neg hlive]
    exact .error rfl hholds

lemma relates_settled {σ τ : Type} {R : σ × Posix Path → τ → Prop} (x : Except Exception α) :
    Relates Database.Fails R (Method.ofExcept x : Method σ α) (settled x) := by
  intro s t hst
  cases x with
  | ok a => exact .ok a hst
  | error e => exact .error (.refl e) hst

/-- A step of a node that leaves its state alone. -/
lemma relates_onNode_settled (address : List UInt8) (x : Except Exception α) :
    Relates Database.Fails Holds (Nodes.onNode address (Method.ofExcept x)) (settled x) := by
  intro n m hholds
  have hsame : n.set address (n.state address) = n := by
    rw [Nodes.set, Function.update_eq_self]
  cases x with
  | ok a =>
    rw [Nodes.onNode, Method.ofExcept_ok rfl]
    dsimp only
    rw [hsame]
    exact .ok a hholds
  | error e =>
    rw [Nodes.onNode, Method.ofExcept_error rfl]
    dsimp only
    rw [hsame]
    exact .error (.refl e) hholds

lemma relates_answer (hfits : stmt.statement.Fits) (address : List UInt8) :
    Relates Database.Fails (NodeHolds address) (LocalQueryExecutor.execute address stmt.statement)
      stmt.answer :=
  (relates_statementExecutor address hfits).bind (fun _ => relates_settled _)

lemma relates_streamer {query : List UInt8} (hparsed : parse query = .ok stmt)
    (hfits : stmt.statement.Fits) (rpc : List UInt8 → Bool) (address : List UInt8) :
    Relates Database.Fails Holds (call parse rpc address query) (Nodes.call rpc stmt.answer address) := by
  have hserver : StreamerServer.execute parse address query =
      LocalQueryExecutor.execute address stmt.statement := by
    funext st
    exact bind_of_ok (Method.ofExcept_ok hparsed st)
  rw [call, hserver]
  exact relates_call (relates_answer hfits address) rpc

/-- The steps of a statement that goes to all nodes. -/
lemma relates_everywhere (ranges : List Range) {r : Submission}
    (hparsed : parse r.query = .ok stmt) (hfits : stmt.statement.Fits) :
    Relates Database.Fails Holds
      (MultinodeQueryExecutor.execute ⟨r.coordinator, ranges⟩ (Nodes.onNode r.coordinator)
        (call parse r.rpc) r.query stmt.statement)
      (r.follow (StateStore.availableStreamers ranges) stmt .everywhere) := by
  refine (relates_onNode (relates_statementExecutor r.coordinator hfits)).bind (fun _ => ?_)
  refine Relates.bind ?_ (fun _ => Relates.pure _)
  refine Relates.forM (fun address _ => ?_)
  by_cases hlocal : address = r.coordinator
  · simp only [hlocal, if_true]
    exact Relates.pure ()
  · simp only [hlocal, if_false]
    exact (relates_streamer hparsed hfits r.rpc address).bind (fun _ => Relates.pure ())

/-- The steps of a statement that goes by its key. -/
lemma relates_singlenode (ranges : List Range) {r : Submission}
    (hparsed : parse r.query = .ok stmt) (hfits : stmt.statement.Fits) :
    Relates Database.Fails Holds
      (SinglenodeQueryExecutor.execute ⟨r.coordinator, ranges⟩ (Nodes.onNode r.coordinator)
        (call parse r.rpc) r.query stmt.statement)
      (do
        let key ← settled stmt.statement.partitionKey
        let way ← settled (routeOf ⟨r.coordinator, ranges⟩ key)
        r.follow (StateStore.availableStreamers ranges) stmt way) := by
  refine (relates_onNode_settled r.coordinator _).bind (fun key => ?_)
  cases key with
  | none => exact Relates.throw (E := Database.Fails) (.refl _)
  | some key =>
    have hhere := relates_onNode (relates_answer hfits r.coordinator)
    have hall := relates_everywhere ranges hparsed hfits
    simp only [Partitioner.isLocal, Partitioner.send, Partitioner.getAddress, routeOf,
      List.isEmpty_iff]
    cases StateStore.getAddress ranges (Partitioner.token key) with
    | none => exact hhere
    | some owner =>
      by_cases howner : owner = r.coordinator
      · simp only [howner, decide_true, if_true]
        exact hhere
      · by_cases hkey : key = []
        · simp only [howner, hkey, decide_false, Bool.false_eq_true, if_false, if_true]
          exact hall
        · simp only [howner, hkey, decide_false, Bool.false_eq_true, if_false]
          exact relates_streamer hparsed hfits r.rpc owner

/-- What a node makes of a query is what the query means there. -/
lemma relates_process (ranges : List Range) {r : Submission}
    (hfits : ∀ stmt, parse r.query = .ok stmt → stmt.statement.Fits) :
    Relates Database.Fails Holds (r.process parse ranges) (r.meaning parse ranges) := by
  intro n m hholds
  rcases (relates_onNode_settled r.coordinator (parse r.query) n m hholds).cases with
    ⟨stmt, n', m', hrun, hmean, h'⟩ | ⟨e, d, n', m', hrun, hmean, hfails, h'⟩
  · have hparsed : parse r.query = .ok stmt := by
      cases hp : parse r.query with
      | ok stmt' =>
        rw [hp] at hmean
        cases hmean
        rfl
      | error e =>
        rw [hp] at hmean
        cases hmean
    unfold Submission.process Submission.meaning QueryProcessor.process
    rw [bind_of_ok hrun, bind_of_ok hmean]
    cases stmt with
    | createTable keyspace table schema =>
      exact relates_everywhere ranges hparsed (hfits _ hparsed) n' m' h'
    | insert keyspace table columns values =>
      have hsingle := relates_singlenode ranges hparsed (hfits _ hparsed)
      simp only [route, settled_bind, bind_assoc]
      exact hsingle n' m' h'
    | select keyspace table relations =>
      have hsingle := relates_singlenode ranges hparsed (hfits _ hparsed)
      simp only [route, settled_bind, bind_assoc]
      exact hsingle n' m' h'
  · unfold Submission.process Submission.meaning QueryProcessor.process
    rw [bind_of_error hrun, bind_of_error hmean]
    exact .error hfails h'

/-- Every query is answered with what it means. -/
lemma relates_submission (ranges : List Range) {r : Submission}
    (hfits : ∀ stmt, parse r.query = .ok stmt → stmt.statement.Fits) :
    Relates Eq Holds (r.execute parse ranges) (r.mean parse ranges) :=
  relates_serve (relates_process ranges hfits) r.coordinator

end Simulation

/-- Nodes that have used no keyspace, over directories without tables. -/
def Fresh (n : Nodes (StateStore × Posix Path)) : Prop :=
  ∀ address, (n.state address).1 = StateStore.empty ∧
    Database.Fresh (StatementExecutor.keyspace address) (n.state address).2

/-- Nodes without tables. -/
def unfilled (live : List UInt8 → Bool) : Nodes Database.Contents := ⟨fun _ _ => none, live⟩

lemma Fresh.holds {n : Nodes (StateStore × Posix Path)} (h : Fresh n) : Holds n (unfilled n.live) := by
  refine ⟨fun address => ?_, rfl⟩
  obtain ⟨hstore, hfresh⟩ := h address
  exact .unused (by rw [hstore]; rfl) hfresh rfl

/-- After a run the nodes hold what the run means. -/
lemma Fresh.run {n : Nodes (StateStore × Posix Path)} (h : Fresh n)
    {parse : List UInt8 → Except Exception CqlStatement} (ranges : List Range)
    {submissions : List Submission}
    (hfits : ∀ r ∈ submissions, ∀ stmt, parse r.query = .ok stmt → stmt.statement.Fits) :
    Holds (finalState (Submission.execute parse ranges) submissions n)
      (finalState (Submission.mean parse ranges) submissions (unfilled n.live)) :=
  Relates.finalState (fun r hr => relates_submission ranges (hfits r hr)) h.holds

end Cluster

end Dibibase
