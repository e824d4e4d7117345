import Mathlib.Data.List.Dedup
import Dibibase.Lang.Statements

/-!
# Routing

Which node executes a statement. Every node has the same list of token ranges; the token of
a key is one of two, by the parity of the number that the key starts with. A token outside
every range is executed by the node that happens to receive the statement.
-/

namespace Dibibase

open Library

structure Range where
  start : Nat
  stop : Nat
  address : List UInt8
  deriving DecidableEq, Repr

def Range.contains (r : Range) (id : Nat) : Bool := decide (r.start ≤ id ∧ id < r.stop)

structure Config where
  localAddress : List UInt8
  ranges : List Range
  deriving DecidableEq, Repr

namespace StateStore

/-- The address of the first range that contains the token. -/
def getAddress (ranges : List Range) (token : Nat) : Option (List UInt8) :=
  (ranges.find? (fun range => range.contains token)).map Range.address

/-- The keys of the map of streamers, which has every address of the ranges once. -/
def availableStreamers (ranges : List Range) : List (List UInt8) :=
  (ranges.map Range.address).dedup.mergeSort stringLe

end StateStore

namespace Partitioner

def token (key : List UInt8) : Nat := if (atoi key).getLsbD 0 then 50 else 150

def getAddress (config : Config) (key : List UInt8) : Option (List UInt8) :=
  StateStore.getAddress config.ranges (token key)

def isLocal (config : Config) (key : List UInt8) : Bool :=
  match getAddress config key with
  | none => true
  | some address => address = config.localAddress

end Partitioner

/-! ### The nodes that execute a statement

The executors below give the addresses of the nodes on whose databases the statement is
executed, in this order, when the node with the given configuration processes it. A node that
is sent a statement executes it itself. -/

def MultinodeQueryExecutor.executors (config : Config) : List (List UInt8) :=
  config.localAddress ::
    (StateStore.availableStreamers config.ranges).filter (fun a => a ≠ config.localAddress)

def SinglenodeQueryExecutor.executors (config : Config) (stmt : Statement) :
    Except Exception (List (List UInt8)) := do
  match ← stmt.partitionKey with
  | none => throw .badOptionalAccess
  | some key =>
    if Partitioner.isLocal config key then return [config.localAddress]
    else if key.isEmpty then return MultinodeQueryExecutor.executors config
    else match Partitioner.getAddress config key with
      | none => throw .badOptionalAccess
      | some address => return [address]

def QueryProcessor.executors (config : Config) : Statement → Except Exception (List (List UInt8))
  | .createTable _ _ => return MultinodeQueryExecutor.executors config
  | stmt => SinglenodeQueryExecutor.executors config stmt

/-! ### Agreement between INSERT and SELECT -/

variable {ranges : List Range} {a b key : List UInt8}

lemma getAddress_mem_streamers {token : Nat} {x : List UInt8}
    (h : StateStore.getAddress ranges token = some x) : x ∈ StateStore.availableStreamers ranges := by
  obtain ⟨range, hfind, rfl⟩ := Option.map_eq_some_iff.mp h
  rw [StateStore.availableStreamers, List.mem_mergeSort, List.mem_dedup]
  exact List.mem_map_of_mem (List.mem_of_find?_eq_some hfind)

/-- A statement that goes to all nodes goes to two at least, if one of them is not the local one. -/
lemma multinode_ne_singleton {token : Nat} {x : List UInt8}
    (h : StateStore.getAddress ranges token = some x) (hx : x ≠ a) (node : List UInt8) :
    MultinodeQueryExecutor.executors ⟨a, ranges⟩ ≠ [node] := by
  intro heq
  have hmem : x ∈ (StateStore.availableStreamers ranges).filter (fun y => y ≠ a) :=
    List.mem_filter.mpr ⟨getAddress_mem_streamers h, by simpa using hx⟩
  simp only [MultinodeQueryExecutor.executors, List.cons.injEq] at heq
  rw [heq.2] at hmem
  exact absurd hmem List.not_mem_nil

/-- The nodes that execute a statement with the given key: the owner of the token, or the local
node if there is none, or all nodes if there is an owner elsewhere and the key has no text. -/
lemma executors_of_key {stmt : Statement} (hstmt : stmt.partitionKey = .ok (some key)) :
    SinglenodeQueryExecutor.executors ⟨a, ranges⟩ stmt = .ok (
      match StateStore.getAddress ranges (Partitioner.token key) with
      | none => [a]
      | some x =>
        if x = a then [a] else if key = [] then MultinodeQueryExecutor.executors ⟨a, ranges⟩
        else [x]) := by
  simp only [SinglenodeQueryExecutor.executors, hstmt, Partitioner.isLocal, Partitioner.getAddress,
    Bind.bind, Except.bind, Pure.pure, Except.pure, List.isEmpty_iff]
  generalize StateStore.getAddress ranges (Partitioner.token key) = owner
  cases owner with
  | none => rfl
  | some x =>
    by_cases hx : x = a
    · simp [hx]
    · by_cases hempty : key = []
      · simp [hx, hempty]
      · simp [hx, hempty]

lemma executors_eq_singleton_iff {stmt : Statement} (hstmt : stmt.partitionKey = .ok (some key))
    (node : List UInt8) :
    SinglenodeQueryExecutor.executors ⟨a, ranges⟩ stmt = .ok [node] ↔
      match StateStore.getAddress ranges (Partitioner.token key) with
      | none => node = a
      | some x => node = x ∧ (key = [] → x = a) := by
  rw [executors_of_key hstmt, Except.ok.injEq]
  have hmany : ∀ x, StateStore.getAddress ranges (Partitioner.token key) = some x → x ≠ a →
      MultinodeQueryExecutor.executors ⟨a, ranges⟩ ≠ [node] :=
    fun x h hx => multinode_ne_singleton h hx node
  generalize StateStore.getAddress ranges (Partitioner.token key) = owner at *
  cases owner with
  | none => simp [eq_comm]
  | some x =>
    by_cases hx : x = a
    · simp [hx, eq_comm]
    · by_cases hempty : key = []
      · simp [hx, hempty, hmany x rfl hx]
      · simp [hx, hempty, eq_comm]

/-- Both statements are executed by one node, the same for both. -/
def Agrees (ranges : List Range) (a b : List UInt8) (insert select : Statement) : Prop :=
  ∃ node, QueryProcessor.executors ⟨a, ranges⟩ insert = .ok [node] ∧
    QueryProcessor.executors ⟨b, ranges⟩ select = .ok [node]

/-- The tokens of two keys belong to one node, where a token outside every range belongs to the
node that receives the statement. A key without text has to be received by its owner. -/
def SameOwner (ranges : List Range) (a b v k : List UInt8) : Prop :=
  match StateStore.getAddress ranges (Partitioner.token v),
    StateStore.getAddress ranges (Partitioner.token k) with
  | some x, some y => x = y ∧ (v = [] → x = a) ∧ (k = [] → y = b)
  | some x, none => x = b ∧ (v = [] → x = a)
  | none, some y => y = a ∧ (k = [] → y = b)
  | none, none => a = b

instance (ranges : List Range) (a b v k : List UInt8) : Decidable (SameOwner ranges a b v k) := by
  unfold SameOwner
  split <;> infer_instance

lemma exists_owner_iff (a b v k : List UInt8) :
    (∃ node, (match StateStore.getAddress ranges (Partitioner.token v) with
        | none => node = a
        | some x => node = x ∧ (v = [] → x = a)) ∧
      (match StateStore.getAddress ranges (Partitioner.token k) with
        | none => node = b
        | some y => node = y ∧ (k = [] → y = b))) ↔ SameOwner ranges a b v k := by
  rw [SameOwner]
  cases StateStore.getAddress ranges (Partitioner.token v) with
  | none => cases StateStore.getAddress ranges (Partitioner.token k) with
    | none => simp
    | some y => simp [eq_comm]
  | some x => cases StateStore.getAddress ranges (Partitioner.token k) with
    | none =>
      constructor
      · rintro ⟨node, ⟨rfl, hx⟩, rfl⟩
        exact ⟨rfl, hx⟩
      · rintro ⟨rfl, hx⟩
        exact ⟨x, ⟨rfl, hx⟩, rfl⟩
    | some y =>
      constructor
      · rintro ⟨node, ⟨rfl, hx⟩, rfl, hy⟩
        exact ⟨rfl, hx, hy⟩
      · rintro ⟨rfl, hx, hy⟩
        exact ⟨x, ⟨rfl, hx⟩, rfl, hy⟩

lemma print_of_id {d : Data} (h : d.type.id = .int ∨ d.type.id = .ascii) :
    ∃ text, d.print = .ok text := by
  cases d with
  | ascii data => exact ⟨data, rfl⟩
  | int data => exact ⟨_, rfl⟩
  | _ => simp [Data.type] at h

/-- An `INSERT` through one node and a `SELECT` of its sort key through another are executed by
the same node exactly when the second value of the record and its sort key have texts whose
tokens belong to one node. -/
theorem agrees_iff {schema : Schema} {t : DataType} (hkey : schema.HasSortKey t)
    (ht : t.id = .int ∨ t.id = .ascii) {record : Record} (hv : schema.verify record = true)
    {sortKey : Data} (hk : record.values[schema.sortKeyIndex.toNat]? = some sortKey)
    (table column : List UInt8) (op : Operator) (rest : List RelationElement) :
    Agrees ranges a b (.insert table record.values)
        (.select table (⟨column, op, sortKey⟩ :: rest)) ↔
      ∃ value v k, record.values[1]? = some value ∧ value.print = .ok v ∧
        sortKey.print = .ok k ∧ SameOwner ranges a b v k := by
  obtain ⟨sortKey', hk', htype⟩ := Schema.verify_sortKey hv hkey
  rw [hk, Option.some.injEq] at hk'
  subst hk'
  obtain ⟨k, hprint⟩ := print_of_id (d := sortKey) (by rwa [htype])
  have hselect : (Statement.select table (⟨column, op, sortKey⟩ :: rest)).partitionKey =
      .ok (some k) := by
    simp [Statement.partitionKey, hprint, Bind.bind, Except.bind, Pure.pure, Except.pure]
  simp only [Agrees, QueryProcessor.executors, executors_eq_singleton_iff hselect]
  cases hvalue : record.values[1]? with
  | none =>
    have hinsert : SinglenodeQueryExecutor.executors ⟨a, ranges⟩ (.insert table record.values) =
        .error .undefinedBehaviour := by
      simp [SinglenodeQueryExecutor.executors, Statement.partitionKey, hvalue, Bind.bind, Except.bind,
        throw, throwThe, MonadExceptOf.throw]
    simp [hinsert]
  | some value =>
    cases htext : value.print with
    | error e =>
      have hinsert : SinglenodeQueryExecutor.executors ⟨a, ranges⟩ (.insert table record.values) =
          .error e := by
        simp [SinglenodeQueryExecutor.executors, Statement.partitionKey, hvalue, htext, Bind.bind,
          Except.bind]
      simp [hinsert, htext]
    | ok v =>
      have hinsert : (Statement.insert table record.values).partitionKey = .ok (some v) := by
        simp [Statement.partitionKey, hvalue, htext, Bind.bind, Except.bind, Pure.pure, Except.pure]
      have hright : (∃ value' v' k', some value = some value' ∧ value'.print = .ok v' ∧
          sortKey.print = .ok k' ∧ SameOwner ranges a b v' k') ↔ SameOwner ranges a b v k := by
        simp [hprint, htext]
      rw [hright]
      simp only [executors_eq_singleton_iff hinsert]
      exact exists_owner_iff a b v k

/-- Two nodes, the first with the token of odd keys and the second with that of even keys. -/
def twoNodes : List Range := [⟨0, 100, [97]⟩, ⟨100, 200, [98]⟩]

/-- A record is inserted through one node and found by a `SELECT` through the other. -/
theorem agrees_iff_twoNodes : Agrees twoNodes [97] [98] (.insert [116] [.int 1, .int 3])
    (.select [116] [⟨[107], .eq, .int 1⟩]) :=
  (@agrees_iff _ _ _ ⟨0, 0, [⟨[107], ⟨.int, 4⟩⟩, ⟨[118], ⟨.int, 4⟩⟩]⟩ ⟨.int, 4⟩ ⟨_, rfl, rfl⟩ (.inl rfl)
    ⟨[.int 1, .int 3]⟩ (by decide) _ rfl [116] [107] .eq []).mpr
    ⟨.int 3, [51], [49], rfl, by decide, by decide, by decide⟩

/-- An `INSERT` goes by its second value, so a `SELECT` by the first does not reach its node. -/
theorem not_agrees_twoNodes :
    Schema.verify ⟨0, 0, [⟨[107], ⟨.int, 4⟩⟩, ⟨[118], ⟨.int, 4⟩⟩]⟩ ⟨[.int 1, .int 2]⟩ = true ∧
      QueryProcessor.executors ⟨[97], twoNodes⟩ (.insert [116] [.int 1, .int 2]) = .ok [[98]] ∧
      QueryProcessor.executors ⟨[97], twoNodes⟩ (.select [116] [⟨[107], .eq, .int 1⟩]) =
        .ok [[97]] ∧
      ¬ Agrees twoNodes [97] [97] (.insert [116] [.int 1, .int 2])
        (.select [116] [⟨[107], .eq, .int 1⟩]) := by
  have hinsert : QueryProcessor.executors ⟨[97], twoNodes⟩ (.insert [116] [.int 1, .int 2]) =
      .ok [[98]] := by decide
  have hselect : QueryProcessor.executors ⟨[97], twoNodes⟩
      (.select [116] [⟨[107], .eq, .int 1⟩]) = .ok [[97]] := by decide
  refine ⟨by decide, hinsert, hselect, ?_⟩
  rintro ⟨node, hi, hs⟩
  rw [hinsert] at hi
  rw [hselect] at hs
  simp only [Except.ok.injEq, List.cons.injEq, and_true] at hi hs
  rw [← hi] at hs
  exact absurd hs (by decide)

end Dibibase
