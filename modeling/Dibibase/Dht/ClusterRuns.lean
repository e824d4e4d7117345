import Dibibase.Db.Independence
import Dibibase.Dht.ClusterMeaning

/-!
# What the nodes of a cluster execute

In a run of queries every node executes some of the statements, each at most once and in the order
in which the cluster received them. A record that one query has inserted is found by a later one
that leads to the same node, as long as the node runs and no other record of its key comes in between.
-/

namespace Dibibase

open Library

/-- The contents after a statement, whether it succeeds or fails. -/
def CqlStatement.effect (stmt : CqlStatement) (c : Database.Contents) : Database.Contents :=
  stateAfter stmt.statement.mean c

lemma settled_of_ok {σ α : Type} {x : Except Exception α} {a : α} (h : x = .ok a) (s : σ) :
    (settled x : EStateM Exception σ α) s = .ok a s := by
  rw [h]
  rfl

lemma stateAfter_settled {σ α : Type} (x : Except Exception α) (s : σ) :
    stateAfter (settled x : EStateM Exception σ α) s = s := by
  cases x with
  | ok a => rfl
  | error e => rfl

lemma stateAfter_answer (stmt : CqlStatement) (c : Database.Contents) :
    stateAfter stmt.answer c = stmt.effect c :=
  stateAfter_bind_of_pure (fun _ _ => stateAfter_settled _ _)

/-! ### One statement -/

namespace Database.Contents

/-- The table has the schema, and the record under the key. -/
def Has (c : Contents) (table : List UInt8) (schema : Schema) (key : Data) (record : Record) : Prop :=
  ∃ store, c table = some (schema, store) ∧ store.read key = some record

end Database.Contents

namespace CqlStatement

open Database

variable {c : Contents} {keyspace table : List UInt8} {columns : List (List UInt8)}
  {schema : Schema} {key : Data} {record : Record}

lemma effect_createTable (keyspace table : List UInt8) (schema : Schema) (c : Contents) :
    (createTable keyspace table schema).effect c = c.step (.createTable table schema) := rfl

lemma effect_insert (keyspace table : List UInt8) (columns : List (List UInt8)) (values : List Data)
    (c : Contents) : (insert keyspace table columns values).effect c =
      if c.refuses table ⟨values.map Data.clone⟩ then c
      else c.step (.writeRecord table ⟨values.map Data.clone⟩) := by
  have hmean : stateAfter (Contents.write table ⟨values.map Data.clone⟩) c =
      if c.refuses table ⟨values.map Data.clone⟩ then c
      else c.step (.writeRecord table ⟨values.map Data.clone⟩) := by
    unfold stateAfter
    rw [Contents.write_apply]
    by_cases h : c.refuses table ⟨values.map Data.clone⟩ = true
    · rw [if_pos h, if_pos h]
    · rw [if_neg h, if_neg h]
  rw [← hmean]
  exact stateAfter_bind_of_pure (fun _ _ => rfl)

/-- A lookup changes nothing. -/
lemma effect_select (keyspace table : List UInt8) (relations : List RelationElement)
    (c : Contents) : (select keyspace table relations).effect c = c := by
  have hlookup : ∀ key, stateAfter (Contents.lookup table key) c = c := by
    intro key
    unfold Contents.lookup
    rw [stateAfter_bind_of_ok (get_apply c)]
    cases c.find table key with
    | ok record => rfl
    | error e => rfl
  cases relations with
  | nil => rfl
  | cons relation relations =>
    exact (stateAfter_bind_of_pure (fun _ _ => rfl)).trans (hlookup relation.operand.clone)

/-- The store of a table after an accepted record. -/
lemma effect_accepted {values : List Data} {store : LayeredStore Data Record}
    (htable : c table = some (schema, store))
    (hv : schema.verify ⟨values.map Data.clone⟩ = true)
    (hkey : (values.map Data.clone)[schema.sortKeyIndex.toNat]? = some key) :
    (insert keyspace table columns values).effect c table =
      some (schema, store.write 2 key ⟨values.map Data.clone⟩) := by
  have haccepts : c.refuses table ⟨values.map Data.clone⟩ = false := by
    simp [Contents.refuses, htable, hv]
  have hone : TableManager.accepted schema [⟨values.map Data.clone⟩] =
      [(key, ⟨values.map Data.clone⟩)] := by
    simp [TableManager.accepted, hv, hkey]
  rw [effect_insert, if_neg (by simp [haccepts]), Contents.step, htable]
  dsimp only
  rw [hone, Function.update_self]
  rfl

/-- A record stays under its key while no other record of the key is inserted into its table. -/
lemma has_effect (h : c.Has table schema key record) {stmt : CqlStatement}
    (hstmt : ∀ k columns values, stmt = .insert k table columns values →
      (values.map Data.clone)[schema.sortKeyIndex.toNat]? ≠ some key) :
    (stmt.effect c).Has table schema key record := by
  obtain ⟨store, htable, hread⟩ := h
  cases stmt with
  | createTable k name schema' =>
    refine ⟨store, ?_, hread⟩
    rw [effect_createTable]
    by_cases hname : name = table
    · subst hname
      rw [Contents.step, htable]
      exact htable
    · have hne : table ≠ (Op.createTable name schema').table := fun h => hname h.symm
      rw [Contents.step_of_ne hne, htable]
  | select k name relations =>
    rw [effect_select]
    exact ⟨store, htable, hread⟩
  | insert k name columns values =>
    by_cases hname : name = table
    · subst hname
      cases hv : schema.verify ⟨values.map Data.clone⟩ with
      | false =>
        have hrefuses : c.refuses name ⟨values.map Data.clone⟩ = true := by
          simp [Contents.refuses, htable, hv]
        rw [effect_insert, if_pos hrefuses]
        exact ⟨store, htable, hread⟩
      | true =>
        have hother := hstmt k columns values rfl
        cases hkey : (values.map Data.clone)[schema.sortKeyIndex.toNat]? with
        | none =>
          have hnone : TableManager.accepted schema [⟨values.map Data.clone⟩] = [] := by
            simp [TableManager.accepted, hkey]
          refine ⟨store, ?_, hread⟩
          rw [effect_insert, if_neg (by simp [Contents.refuses, htable, hv]), Contents.step, htable]
          dsimp only
          rw [hnone, Function.update_self]
          rfl
        | some key' =>
          have hne : key ≠ key' := by
            rintro rfl
            exact hother hkey
          refine ⟨_, effect_accepted htable hv hkey, ?_⟩
          rw [LayeredStore.read_write, if_neg (fun h => hne h.1)]
          exact hread
    · refine ⟨store, ?_, hread⟩
      rw [effect_insert]
      split
      · exact htable
      · have hne : table ≠ (Op.writeRecord name ⟨values.map Data.clone⟩).table :=
          fun h => hname h.symm
        rw [Contents.step_of_ne hne, htable]

end CqlStatement

namespace Cluster

/-! ### One query -/

section Steps

variable {n : Nodes Database.Contents} {address x : List UInt8} {stmt : CqlStatement}
  {rpc : List UInt8 → Bool}

lemma stateAfter_onNode {α : Type} (m : EStateM Exception Database.Contents α)
    (n : Nodes Database.Contents) (address : List UInt8) :
    stateAfter (Nodes.onNode address m) n = n.set address (stateAfter m (n.state address)) := by
  unfold stateAfter Nodes.onNode
  cases m (n.state address) with
  | ok a c => rfl
  | error e c => rfl

/-- A call changes the node that it reaches, and always gives a reply. -/
lemma call_ok (rpc : List UInt8 → Bool) (stmt : CqlStatement) (address : List UInt8)
    (n : Nodes Database.Contents) :
    ∃ reply n', Nodes.call rpc stmt.answer address n = .ok reply n' ∧
      n'.state = if rpc address ∧ n.live address then
        Function.update n.state address (stmt.effect (n.state address)) else n.state := by
  unfold Nodes.call
  by_cases hreached : rpc address = true ∧ n.live address = true
  · rw [if_pos hreached, if_pos hreached, ← stateAfter_answer]
    cases hanswer : stmt.answer (n.state address) with
    | ok reply c => exact ⟨reply, _, rfl, by rw [stateAfter_of_ok hanswer]; rfl⟩
    | error e c =>
      refine ⟨_, _, rfl, ?_⟩
      rw [stateAfter_of_error hanswer]
      split <;> rfl
  · rw [if_neg hreached, if_neg hreached]
    exact ⟨_, _, rfl, rfl⟩

/-- The end of a process changes the contents of no node. -/
lemma state_stateAfter_serve {α : Type} (m : EStateM Exception (Nodes Database.Contents) α)
    (address : List UInt8) (n : Nodes Database.Contents) :
    (stateAfter (Nodes.serve address m) n).state =
      if n.live address then (stateAfter m n).state else n.state := by
  unfold stateAfter Nodes.serve
  by_cases hlive : n.live address = true
  · rw [if_pos hlive, if_pos hlive]
    cases m n with
    | ok a n' => rfl
    | error e n' =>
      dsimp only
      split <;> rfl
  · rw [if_neg hlive, if_neg hlive]

end Steps

/-! ### Runs -/

/-- The statements that the queries of a run are parsed to, in the order of the run. -/
def statements (parse : List UInt8 → Except Exception CqlStatement)
    (submissions : List Submission) : List CqlStatement :=
  submissions.filterMap (fun r => (parse r.query).toOption)

/-- The query leads to one node and reaches it, while the two nodes run. -/
structure Submission.Reaches (ranges : List Range) (live : List UInt8 → Bool) (r : Submission)
    (stmt : CqlStatement) (x : List UInt8) : Prop where
  coordinator : live r.coordinator = true
  executor : live x = true
  leads : route ⟨r.coordinator, ranges⟩ stmt = .ok .here ∧ x = r.coordinator ∨
    route ⟨r.coordinator, ranges⟩ stmt = .ok (.toward x) ∧ r.rpc x = true

section Reaches

variable {parse : List UInt8 → Except Exception CqlStatement} {ranges : List Range}
  {r : Submission} {stmt : CqlStatement} {x : List UInt8} {n : Nodes Database.Contents}

lemma meaning_of_route (hparsed : parse r.query = .ok stmt) {way : Route}
    (hroute : route ⟨r.coordinator, ranges⟩ stmt = .ok way) (n : Nodes Database.Contents) :
    r.meaning parse ranges n = r.follow (StateStore.availableStreamers ranges) stmt way n := by
  unfold Submission.meaning
  rw [bind_of_ok (settled_of_ok hparsed n), bind_of_ok (settled_of_ok hroute n)]

/-- The statement changes the contents of the node, and the reply is that of the node. -/
lemma Submission.Reaches.mean (h : r.Reaches ranges n.live stmt x) (hparsed : parse r.query = .ok stmt) :
    (stateAfter (r.mean parse ranges) n).state x = stmt.effect (n.state x) ∧
      ∀ reply c, stmt.answer (n.state x) = .ok reply c →
        ∃ n', r.mean parse ranges n = .ok reply n' := by
  have hserve : ∀ reply n', r.meaning parse ranges n = .ok reply n' →
      r.mean parse ranges n = .ok reply n' := by
    intro reply n' hrun
    rw [Submission.mean, Nodes.serve, if_pos h.coordinator, hrun]
  have hstate : (stateAfter (r.mean parse ranges) n).state =
      (stateAfter (r.meaning parse ranges) n).state := by
    rw [Submission.mean, state_stateAfter_serve, if_pos h.coordinator]
  rw [hstate]
  rcases h.leads with ⟨hroute, rfl⟩ | ⟨hroute, hrpc⟩
  · have hrun := meaning_of_route hparsed hroute n
    constructor
    · have hsame : stateAfter (r.meaning parse ranges) n =
          stateAfter (Nodes.onNode r.coordinator stmt.answer) n := by
        rw [stateAfter, hrun]
        rfl
      rw [hsame, stateAfter_onNode, Nodes.state_set_self, stateAfter_answer]
    · intro reply c hanswer
      refine ⟨n.set r.coordinator c, hserve _ _ (hrun.trans ?_)⟩
      rw [Submission.follow, Nodes.onNode, hanswer]
  · have hrun := meaning_of_route hparsed hroute n
    constructor
    · obtain ⟨reply, n', hcall, hn'⟩ := call_ok r.rpc stmt x n
      rw [stateAfter_of_ok (hrun.trans hcall), hn', if_pos ⟨hrpc, h.executor⟩, Function.update_self]
    · intro reply c hanswer
      refine ⟨n.set x c, hserve _ _ (hrun.trans ?_)⟩
      rw [Submission.follow, Nodes.call, if_pos ⟨hrpc, h.executor⟩, hanswer]

end Reaches

end Cluster

end Dibibase
