import Mathlib.Logic.Function.Basic
import Mathlib.Tactic.Common

/-!
# Absorbing blocks

Iterated mixing of blocks into a state, as hash functions do it. When a step loses neither the state
nor the block, then sequences that differ in one block only become different states.
-/

namespace Dibibase.Library

/-- The state after the first `n` of the blocks `f` have been mixed into `s`. -/
def absorb {σ β : Type} (mix : σ → β → σ) (f : Nat → β) (s : σ) : Nat → σ
  | 0 => s
  | n + 1 => mix (absorb mix f s n) (f n)

/-- Neither the state nor the block is lost. -/
structure Lossless {σ β : Type} (mix : σ → β → σ) : Prop where
  state : ∀ b, Function.Injective (fun s => mix s b)
  block : ∀ s, Function.Injective (mix s)

section Absorb

variable {σ β : Type} {mix : σ → β → σ} {f g : Nat → β}

lemma absorb_congr {n : Nat} (h : ∀ i < n, f i = g i) (s : σ) : absorb mix f s n = absorb mix g s n := by
  induction n with
  | zero => rfl
  | succ n ih => rw [absorb, absorb, ih (fun i hi => h i (by omega)), h n (by omega)]

/-- The first block is mixed in before the others. -/
lemma absorb_succ_from (f : Nat → β) (s : σ) (i n : Nat) :
    absorb mix (fun j => f (i + j)) s (n + 1) = absorb mix (fun j => f (i + 1 + j)) (mix s (f i)) n := by
  induction n with
  | zero => rfl
  | succ n ih =>
    have hlast : i + (n + 1) = i + 1 + n := by omega
    rw [absorb, ih, hlast, absorb]

/-- Blocks that are the same except for the one at `j`. -/
lemma Lossless.absorb_inj (hmix : Lossless mix) {n j : Nat} (h : ∀ i < n, i ≠ j → f i = g i) (s : σ) :
    absorb mix f s n = absorb mix g s n ↔ (j < n → f j = g j) := by
  induction n with
  | zero => simp [absorb]
  | succ n ih =>
    rw [absorb, absorb]
    by_cases hj : j = n
    · subst hj
      have hsame : absorb mix f s j = absorb mix g s j :=
        absorb_congr (fun i hi => h i (by omega) (by omega)) s
      rw [hsame, (hmix.block _).eq_iff]
      simp
    · have hlast : f n = g n := h n (by omega) (by omega)
      rw [hlast, (hmix.state (g n)).eq_iff, ih (fun i hi hne => h i (by omega) hne)]
      exact ⟨fun hlow hj' => hlow (by omega), fun hlow hj' => hlow (by omega)⟩

end Absorb

end Dibibase.Library
