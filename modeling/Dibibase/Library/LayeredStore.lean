import Mathlib.Data.Finset.Card
import Mathlib.Data.List.Infix
import Mathlib.Data.Set.Basic
import Mathlib.Logic.Function.Basic

/-!
# Stores made of layers

A store of the log-structured kind: a map that takes the writes and, below it, maps that
no longer change. A write goes into the top map if the key is not there yet, and a top map
that has reached its capacity is frozen. Reads go from the newest layer to the oldest.
-/

namespace Dibibase.Library

structure LayeredStore (K V : Type) where
  top : K → Option V
  /-- The number of keys in the top map. -/
  count : Nat
  /-- The frozen maps, the oldest first. -/
  frozen : List (K → Option V)

namespace LayeredStore

variable {K V : Type}

def empty : LayeredStore K V := ⟨fun _ => none, 0, []⟩

/-- The newest of the maps that has the key. -/
def newest (frozen : List (K → Option V)) (k : K) : Option V := frozen.reverse.findSome? (fun m => m k)

def read (s : LayeredStore K V) (k : K) : Option V := (s.top k).or (newest s.frozen k)

def freeze (s : LayeredStore K V) : LayeredStore K V := ⟨fun _ => none, 0, s.frozen ++ [s.top]⟩

lemma newest_append (frozen : List (K → Option V)) (m : K → Option V) (k : K) :
    newest (frozen ++ [m]) k = (m k).or (newest frozen k) := by
  simp only [newest, List.reverse_append, List.reverse_singleton, List.singleton_append,
    List.findSome?_cons]
  cases m k <;> rfl

/-- Freezing the top map changes no read. -/
@[simp] lemma read_freeze (s : LayeredStore K V) (k : K) : s.freeze.read k = s.read k := by
  simp [read, freeze, newest_append]

/-- The store without its top map. -/
def forget (s : LayeredStore K V) : LayeredStore K V := ⟨fun _ => none, 0, s.frozen⟩

/-- Forgetting the top map is not seen under a key exactly when a frozen map gives what the
top map has. -/
lemma read_forget_eq_iff (s : LayeredStore K V) (k : K) :
    s.forget.read k = s.read k ↔ ∀ v, s.top k = some v → newest s.frozen k = some v := by
  cases h : s.top k with
  | none => simp [read, forget, h]
  | some v => simp [read, forget, h]

variable [DecidableEq K]

/-- An entry that is already in the top map is kept. -/
def insert (k : K) (v : V) (s : LayeredStore K V) : LayeredStore K V :=
  match s.top k with
  | some _ => s
  | none => { s with top := Function.update s.top k (some v), count := s.count + 1 }

def write (capacity : Nat) (s : LayeredStore K V) (k : K) (v : V) : LayeredStore K V :=
  if capacity ≤ (s.insert k v).count then (s.insert k v).freeze else s.insert k v

lemma read_insert (s : LayeredStore K V) (k k' : K) (v : V) :
    (s.insert k v).read k' = if k' = k ∧ s.top k = none then some v else s.read k' := by
  cases h : s.top k with
  | some w => simp [insert, h]
  | none =>
    by_cases hk : k' = k
    · subst hk
      simp [insert, h, read]
    · simp [insert, h, read, hk]

/-- A write is seen under its own key, unless the top map had the key, and under no other. -/
lemma read_write (capacity : Nat) (s : LayeredStore K V) (k k' : K) (v : V) :
    (s.write capacity k v).read k' = if k' = k ∧ s.top k = none then some v else s.read k' := by
  rw [write]
  split
  · rw [read_freeze, read_insert]
  · rw [read_insert]

lemma frozen_insert (s : LayeredStore K V) (k : K) (v : V) : (s.insert k v).frozen = s.frozen := by
  rw [insert]
  split <;> rfl

/-- No write removes a frozen map. -/
lemma length_frozen_le_write (capacity : Nat) (s : LayeredStore K V) (k : K) (v : V) :
    s.frozen.length ≤ (s.write capacity k v).frozen.length := by
  rw [write]
  split
  · simp [freeze, frozen_insert]
  · rw [frozen_insert]

/-- A write freezes at most one map. -/
lemma length_frozen_write_le (capacity : Nat) (s : LayeredStore K V) (k : K) (v : V) :
    (s.write capacity k v).frozen.length ≤ s.frozen.length + 1 := by
  rw [write]
  split
  · simp [freeze, frozen_insert]
  · rw [frozen_insert]
    exact Nat.le_succ _

/-- A write leaves a key alone that waits neither in the top map nor is written. -/
lemma write_of_ne (capacity : Nat) {s : LayeredStore K V} {k k' : K} (hne : k' ≠ k) (v : V)
    (htop : s.top k' = none) :
    (s.write capacity k v).top k' = none ∧ newest (s.write capacity k v).frozen k' = newest s.frozen k' := by
  have hinsert : (s.insert k v).top k' = none := by
    rw [insert]
    split
    · exact htop
    · dsimp only
      rw [Function.update_of_ne hne, htop]
  rw [write]
  split
  · refine ⟨rfl, ?_⟩
    rw [freeze, newest_append, hinsert, frozen_insert, Option.none_or]
  · exact ⟨hinsert, by rw [frozen_insert]⟩

/-- The store after a sequence of writes. -/
def run (capacity : Nat) (ws : List (K × V)) : LayeredStore K V :=
  ws.foldl (fun s w => s.write capacity w.1 w.2) empty

lemma run_append (capacity : Nat) (ws : List (K × V)) (k : K) (v : V) :
    run capacity (ws ++ [(k, v)]) = (run capacity ws).write capacity k v := by
  simp [run]

/-- The keys of a sequence of writes. -/
def keys (ws : List (K × V)) : Finset K := (ws.map Prod.fst).toFinset

lemma keys_append (ws : List (K × V)) (k : K) (v : V) : keys (ws ++ [(k, v)]) = Insert.insert k (keys ws) := by
  ext k'
  simp [keys]

/-- All keys that have been written are in the top map, and nothing has been frozen. -/
structure Unfrozen (ws : List (K × V)) (s : LayeredStore K V) : Prop where
  frozen : s.frozen = []
  count : s.count = (keys ws).card
  top : ∀ k, s.top k = none ↔ k ∉ keys ws

/-- A write that does not fill the top map freezes nothing. -/
lemma Unfrozen.write {capacity : Nat} {ws : List (K × V)} {s : LayeredStore K V} (h : Unfrozen ws s)
    (k : K) (v : V) (hroom : (keys (ws ++ [(k, v)])).card < capacity) :
    Unfrozen (ws ++ [(k, v)]) (s.write capacity k v) := by
  rw [keys_append] at hroom
  rw [LayeredStore.write, LayeredStore.insert]
  by_cases hk : k ∈ keys ws
  · obtain ⟨w, hw⟩ := Option.ne_none_iff_exists'.mp (fun hnone => (h.top k).mp hnone hk)
    have hkeys : keys (ws ++ [(k, v)]) = keys ws := by rw [keys_append, Finset.insert_eq_of_mem hk]
    rw [Finset.insert_eq_of_mem hk] at hroom
    simp only [hw]
    rw [if_neg (by rw [h.count]; omega)]
    exact ⟨h.frozen, by rw [h.count, hkeys], by rw [hkeys]; exact h.top⟩
  · have hnone := (h.top k).mpr hk
    rw [Finset.card_insert_of_notMem hk] at hroom
    simp only [hnone]
    rw [if_neg (by rw [h.count]; omega)]
    refine ⟨h.frozen, by rw [keys_append, Finset.card_insert_of_notMem hk, h.count], fun k' => ?_⟩
    rw [keys_append, Finset.mem_insert]
    by_cases hk' : k' = k
    · simp [hk']
    · simp [hk', h.top k']

/-- A write that fills the top map freezes it. -/
lemma Unfrozen.freezes {capacity : Nat} {ws : List (K × V)} {s : LayeredStore K V} (h : Unfrozen ws s)
    (k : K) (v : V) (hbefore : (keys ws).card < capacity)
    (hfull : capacity ≤ (keys (ws ++ [(k, v)])).card) :
    s.write capacity k v = ⟨fun _ => none, 0, [Function.update s.top k (some v)]⟩ := by
  have hk : k ∉ keys ws := by
    intro hk
    rw [keys_append, Finset.insert_eq_of_mem hk] at hfull
    omega
  rw [keys_append, Finset.card_insert_of_notMem hk] at hfull
  rw [LayeredStore.write, LayeredStore.insert, (h.top k).mpr hk]
  simp only
  rw [if_pos (by rw [h.count]; exact hfull), freeze, h.frozen, List.nil_append]

/-- Nothing is frozen until as many keys have been written as the top map can take. -/
lemma unfrozen_run {capacity : Nat} {ws : List (K × V)} (hroom : (keys ws).card < capacity) :
    Unfrozen ws (run capacity ws) := by
  induction ws using List.reverseRecOn with
  | nil => exact ⟨rfl, rfl, by simp [keys, run, empty]⟩
  | append_singleton ws w ih =>
    obtain ⟨k, v⟩ := w
    rw [run_append]
    apply (ih (lt_of_le_of_lt (Finset.card_le_card ?_) hroom)).write k v hroom
    rw [keys_append]
    exact Finset.subset_insert k (keys ws)

/-- The value written last under a key. -/
def lastWrite (ws : List (K × V)) (k : K) : Option V := ws.reverse.lookup k

lemma lastWrite_append (ws : List (K × V)) (k k' : K) (v : V) :
    lastWrite (ws ++ [(k, v)]) k' = if k' = k then some v else lastWrite ws k' := by
  by_cases h : k' = k
  · simp [lastWrite, h]
  · have hbeq : (k' == k) = false := by simpa using h
    simp [lastWrite, List.lookup_cons, hbeq, h]

/-- No write meets a different value of its key in the top map. -/
def NoStaleTop (capacity : Nat) (ws : List (K × V)) : Prop :=
  ∀ before k v after, ws = before ++ (k, v) :: after →
    ∀ w, (run capacity before).top k = some w → w = v

/-- The last write wins throughout a run exactly when no write of the run meets a different
value of its key in the top map. It is enough to watch the keys of a set that has all keys
of the run. -/
theorem read_run_eq_lastWrite_iff (capacity : Nat) (ws : List (K × V)) (S : Set K)
    (hS : ∀ w ∈ ws, w.1 ∈ S) :
    (∀ before, before <+: ws → ∀ k ∈ S, (run capacity before).read k = lastWrite before k) ↔
      NoStaleTop capacity ws := by
  constructor
  · intro h before k v after hws w htop
    have hread := h (before ++ [(k, v)]) ⟨after, by simp [hws]⟩ k (hS (k, v) (by simp [hws]))
    rw [run_append, read_write, lastWrite_append] at hread
    simpa [htop, read] using hread
  · intro h before
    induction before using List.reverseRecOn with
    | nil =>
      intro _ k _
      rfl
    | append_singleton before w ih =>
      obtain ⟨k, v⟩ := w
      rintro ⟨after, hws⟩ k' hk'
      have hbefore := ih ⟨(k, v) :: after, by simpa using hws⟩ k' hk'
      have hsame := h before k v after (by simpa using hws.symm)
      rw [run_append, read_write, lastWrite_append]
      by_cases hk : k' = k
      · subst hk
        cases htop : (run capacity before).top k' with
        | none => simp
        | some w => simp [read, htop, hsame w htop]
      · simp [hk, hbefore]

end LayeredStore

end Dibibase.Library
