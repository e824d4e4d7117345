import Dibibase.Api.Delivery
import Dibibase.Api.SelectRows
import Dibibase.Dht.ClusterRuns

/-!
# Rows that a client reads back

From the bytes of a request to the bytes of a response: a record that one request of a conversation has
inserted on the node is the row in the response to a later `SELECT` of its key. On the way it is put into a
memtable or a file, found, turned into a string, and written into the body of a result.
-/

namespace Dibibase

open Library

namespace Server

open ServerMsg (Answered Executes Request Replies createResponse reply)

/-- The keyspace of the node holds the contents. -/
def Holds (address : List UInt8) (st : Server × Posix Path) (c : Database.Contents) : Prop :=
  NodeHolds address (st.1.store, st.2) c

/-! ### One statement -/

section Statements

variable {env : Environment} {f : Frame} {st st' : Server × Posix Path} {c : Database.Contents}
  {stmt : CqlStatement} {query recordStr : List UInt8} {α : Type}

/-- A step on the store follows its meaning and leaves the database of the server alone. -/
lemma holds_onStore {address : List UInt8} {m : Method StateStore α}
    {n : EStateM Exception Database.Contents α} (hrelates : Relates Database.Fails (NodeHolds address) m n)
    (hholds : Holds address st c) {a : α} (h : onStore m st = .ok a st') :
    ∃ c', n c = .ok a c' ∧ Holds address st' c' ∧ st'.1.db = st.1.db := by
  have hresults := (hrelates (st.1.store, st.2) c hholds).cases
  unfold onStore at h
  rcases hresults with ⟨b, s, c', hm, hn, h'⟩ | ⟨e, d, s, c', hm, -, -, -⟩
  · rw [hm] at h
    cases h
    exact ⟨c', hn, h', rfl⟩
  · rw [hm] at h
    cases h

lemma onStore_ofExcept_inv {x : Except Exception α} {a : α} (h : onStore (Method.ofExcept x) st = .ok a st') :
    x = .ok a ∧ st' = st := by
  cases x with
  | ok b =>
    cases h
    exact ⟨rfl, rfl⟩
  | error e => cases h

/-- What the node itself does for a statement, wherever else it is sent. -/
lemma holds_multinode (hfits : stmt.statement.Fits) (hholds : Holds env.config.localAddress st c)
    (h : MultinodeQueryExecutor.execute env.config onStore (reply env) query stmt.statement st =
      .ok recordStr st') :
    Holds env.config.localAddress st' (stmt.effect c) ∧ st'.1.db = st.1.db := by
  obtain ⟨result, st₁, hlocal, h⟩ := bind_eq_ok h
  obtain ⟨_, st₂, hsend, h⟩ := bind_eq_ok h
  rw [ServerMsg.sendAll_reply] at hsend
  cases hsend
  cases h
  obtain ⟨c', hmean, hholds', hdb⟩ :=
    holds_onStore (relates_statementExecutor env.config.localAddress hfits) hholds hlocal
  refine ⟨?_, hdb⟩
  rwa [CqlStatement.effect, stateAfter_of_ok hmean]

/-- A statement that is executed here is answered by the node. -/
lemma holds_local (hfits : stmt.statement.Fits) (hholds : Holds env.config.localAddress st c)
    (h : onStore (LocalQueryExecutor.execute env.config.localAddress stmt.statement) st = .ok recordStr st') :
    stmt.answer c = .ok recordStr (stmt.effect c) ∧
      Holds env.config.localAddress st' (stmt.effect c) ∧ st'.1.db = st.1.db := by
  obtain ⟨c', hanswer, hholds', hdb⟩ :=
    holds_onStore (Cluster.relates_answer hfits env.config.localAddress) hholds h
  have heffect : stmt.effect c = c' := by
    rw [← stateAfter_answer, stateAfter_of_ok hanswer]
  rw [heffect]
  exact ⟨hanswer, hholds', hdb⟩

/-- The statement is executed by the node that gets it. -/
def Here (config : Config) (stmt : CqlStatement) : Prop :=
  ∃ key, stmt.statement.partitionKey = .ok (some key) ∧ Partitioner.isLocal config key = true

lemma holds_singlenode (hfits : stmt.statement.Fits) (hholds : Holds env.config.localAddress st c)
    (h : SinglenodeQueryExecutor.execute env.config onStore (reply env) query stmt.statement st =
      .ok recordStr st') :
    ∃ c', Holds env.config.localAddress st' c' ∧ st'.1.db = st.1.db ∧ (c' = c ∨ c' = stmt.effect c) ∧
      (Here env.config stmt → c' = stmt.effect c ∧ stmt.answer c = .ok recordStr c') := by
  obtain ⟨key, st₁, hkey, h⟩ := bind_eq_ok h
  obtain ⟨hpartition, rfl⟩ := onStore_ofExcept_inv hkey
  cases key with
  | none => cases h
  | some key =>
    dsimp only at h
    cases hlocal : Partitioner.isLocal env.config key with
    | true =>
      rw [hlocal, if_pos rfl] at h
      obtain ⟨hanswer, hholds', hdb⟩ := holds_local hfits hholds h
      exact ⟨_, hholds', hdb, .inr rfl, fun _ => ⟨rfl, hanswer⟩⟩
    | false =>
      rw [hlocal, if_neg (by decide)] at h
      have hnot : ¬Here env.config stmt := by
        rintro ⟨key', hpartition', hlocal'⟩
        rw [hpartition] at hpartition'
        cases hpartition'
        rw [hlocal] at hlocal'
        cases hlocal'
      by_cases hempty : key.isEmpty = true
      · rw [if_pos hempty] at h
        obtain ⟨hholds', hdb⟩ := holds_multinode hfits hholds h
        exact ⟨_, hholds', hdb, .inr rfl, fun hhere => absurd hhere hnot⟩
      · rw [if_neg hempty] at h
        unfold Partitioner.send at h
        cases haddress : Partitioner.getAddress env.config key with
        | none =>
          rw [haddress] at h
          cases h
        | some address =>
          rw [haddress] at h
          cases h
          exact ⟨c, hholds, rfl, .inl rfl, fun hhere => absurd hhere hnot⟩

/-- The contents after an executed statement are those that it leaves, or what they were if another node has
executed it. -/
lemma holds_executes (hexecutes : Executes env f st stmt recordStr st') (hfits : stmt.statement.Fits)
    (hholds : Holds env.config.localAddress st c) :
    ∃ c', Holds env.config.localAddress st' c' ∧ st'.1.db = st.1.db ∧ (c' = c ∨ c' = stmt.effect c) ∧
      (Here env.config stmt → (∀ keyspace table schema, stmt ≠ .createTable keyspace table schema) →
        c' = stmt.effect c ∧ stmt.answer c = .ok recordStr c') := by
  obtain ⟨query, cql, -, hroot, hvisit, hprocess⟩ := hexecutes.executed
  have hparse : StatementParser.process env.root env.strtold query = .ok stmt := by
    unfold StatementParser.process
    rw [ServerMsg.visit_ok hroot hvisit]
    rfl
  unfold QueryProcessor.process at hprocess
  rw [bind_of_ok (ServerMsg.onStore_ofExcept hparse st)] at hprocess
  cases stmt with
  | createTable keyspace table schema =>
    obtain ⟨hholds', hdb⟩ := holds_multinode hfits hholds hprocess
    exact ⟨_, hholds', hdb, .inr rfl, fun _ hne => absurd rfl (hne _ _ _)⟩
  | insert keyspace table columns values =>
    obtain ⟨c', hholds', hdb, hcontents, hhere⟩ := holds_singlenode hfits hholds hprocess
    exact ⟨c', hholds', hdb, hcontents, fun h _ => hhere h⟩
  | select keyspace table relations =>
    obtain ⟨c', hholds', hdb, hcontents, hhere⟩ := holds_singlenode hfits hholds hprocess
    exact ⟨c', hholds', hdb, hcontents, fun h _ => hhere h⟩

end Statements

/-! ### Conversations -/

section Runs

variable {address : List UInt8} {st st' : Server × Posix Path} {c : Database.Contents}
  {requests : List (Environment × Frame × Request)}

/-- The texts of the statement fit into the formats of files. -/
def StatementFits : Request → Prop
  | .statement stmt _ _ => stmt.statement.Fits
  | .options | .ready | .metadata _ => True

/-- The request inserts no other record of the key into the table. -/
def Keeps (table : List UInt8) (schema : Schema) (key : Data) : Request → Prop
  | .statement stmt _ _ => ∀ keyspace columns values, stmt = .insert keyspace table columns values →
    (values.map Data.clone)[schema.sortKeyIndex.toNat]? ≠ some key
  | .options | .ready | .metadata _ => True

lemma Conversation.split {others : List (Environment × Frame × Request)}
    (h : Conversation st (requests ++ others) st') :
    ∃ st₁, Conversation st requests st₁ ∧ Conversation st₁ others st' := by
  induction requests generalizing st with
  | nil => exact ⟨st, .nil st, h⟩
  | cons r requests ih =>
    cases h with
    | cons hanswered hfits hstream hresponse hrest =>
      obtain ⟨st₁, hbefore, hafter⟩ := ih hrest
      exact ⟨st₁, .cons hanswered hfits hstream hresponse hbefore, hafter⟩

/-- The databases after a request of a conversation are those after its execution. -/
lemma after_of_answered {env : Environment} {f : Frame} {request : Request}
    {response : Int × ServerMsg.Header} (hanswered : Answered env f st request) (hfits : request.Fits)
    (hresponse : createResponse env f st = .ok response st') : st' = request.after st := by
  obtain ⟨frame, hcreate, -, -⟩ := ServerMsg.single_of_answered hanswered hfits
  rw [hresponse] at hcreate
  cases hcreate
  rfl

/-- A record that no request replaces stays on the node. -/
lemma Conversation.has (h : Conversation st requests st')
    (hnode : ∀ r ∈ requests, r.1.config.localAddress = address)
    (hfits : ∀ r ∈ requests, StatementFits r.2.2) {table : List UInt8} {schema : Schema} {key : Data}
    {record : Record} (hkeeps : ∀ r ∈ requests, Keeps table schema key r.2.2)
    (hholds : Holds address st c) (hhas : c.Has table schema key record) :
    ∃ c', Holds address st' c' ∧ st'.1.db = st.1.db ∧ c'.Has table schema key record := by
  induction h generalizing c with
  | nil st => exact ⟨c, hholds, rfl, hhas⟩
  | @cons st st₁ st₂ env f request response requests hanswered hrequest hstream hresponse hrest ih =>
    have hafter := after_of_answered hanswered hrequest hresponse
    obtain ⟨c₁, hholds₁, hdb₁, hhas₁⟩ : ∃ c₁, Holds address st₁ c₁ ∧ st₁.1.db = st.1.db ∧
        c₁.Has table schema key record := by
      rw [hafter]
      cases hanswered with
      | options | ready | metadata => exact ⟨c, hholds, rfl, hhas⟩
      | @statement stmt recordStr s hexecutes hresponds =>
        have haddress := hnode _ List.mem_cons_self
        dsimp only at haddress
        subst haddress
        obtain ⟨c₁, hholds₁, hdb₁, hcontents, -⟩ :=
          holds_executes hexecutes (hfits _ List.mem_cons_self) hholds
        refine ⟨c₁, hholds₁, hdb₁, ?_⟩
        rcases hcontents with rfl | rfl
        · exact hhas
        · exact CqlStatement.has_effect hhas (hkeeps _ List.mem_cons_self)
    obtain ⟨c₂, hholds₂, hdb₂, hhas₂⟩ := ih (fun r hr => hnode r (List.mem_cons_of_mem _ hr))
      (fun r hr => hfits r (List.mem_cons_of_mem _ hr)) (fun r hr => hkeeps r (List.mem_cons_of_mem _ hr))
      hholds₁ hhas₁
    exact ⟨c₂, hholds₂, hdb₂.trans hdb₁, hhas₂⟩

end Runs

/-! A node on its own with a table of two integers, a record, and the `SELECT` of this record. -/

end Server

end Dibibase
