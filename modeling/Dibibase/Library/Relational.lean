import Dibibase.Library.Execution

/-!
# Two computations side by side

Two computations that start in related states give the same value, or both throw, and end in
related states. The relation may compare two runs of one program, as in a proof that a part of the
state does not matter, or a program with an abstract one.
-/

namespace Dibibase.Library

variable {ε δ σ τ α β : Type}

/-- The results of two computations: the same value, or exceptions that belong together. -/
inductive ResultsRelate (E : ε → δ → Prop) (R : σ → τ → Prop) :
    EStateM.Result ε σ α → EStateM.Result δ τ α → Prop
  | ok (a : α) {s : σ} {t : τ} (h : R s t) : ResultsRelate E R (.ok a s) (.ok a t)
  | error {e : ε} {d : δ} {s : σ} {t : τ} (he : E e d) (h : R s t) :
    ResultsRelate E R (.error e s) (.error d t)

lemma ResultsRelate.cases {E : ε → δ → Prop} {R : σ → τ → Prop} {x : EStateM.Result ε σ α}
    {y : EStateM.Result δ τ α} (h : ResultsRelate E R x y) :
    (∃ a s t, x = .ok a s ∧ y = .ok a t ∧ R s t) ∨
      ∃ e d s t, x = .error e s ∧ y = .error d t ∧ E e d ∧ R s t := by
  cases h with
  | ok a h => exact .inl ⟨a, _, _, rfl, rfl, h⟩
  | error he h => exact .inr ⟨_, _, _, _, rfl, rfl, he, h⟩

/-- From related states to related results. -/
def Relates (E : ε → δ → Prop) (R : σ → τ → Prop) (m : EStateM ε σ α) (n : EStateM δ τ α) : Prop :=
  ∀ s t, R s t → ResultsRelate E R (m s) (n t)

namespace Relates

variable {E : ε → δ → Prop} {R : σ → τ → Prop} {m : EStateM ε σ α} {n : EStateM δ τ α}

lemma pure (a : α) : Relates E R (Pure.pure a) (Pure.pure a) := fun _ _ h => .ok a h

lemma throw {e : ε} {d : δ} (h : E e d) :
    Relates E R (throw e : EStateM ε σ α) (throw d : EStateM δ τ α) := fun _ _ hst => .error h hst

lemma bind {f : α → EStateM ε σ β} {g : α → EStateM δ τ β} (hm : Relates E R m n)
    (hf : ∀ a, Relates E R (f a) (g a)) : Relates E R (m >>= f) (n >>= g) := by
  intro s t hst
  rcases (hm s t hst).cases with ⟨a, s', t', hs, ht, h⟩ | ⟨e, d, s', t', hs, ht, he, h⟩
  · rw [bind_of_ok hs, bind_of_ok ht]
    exact hf a s' t' h
  · rw [bind_of_error hs, bind_of_error ht]
    exact .error he h

/-- Loops over the same list whose rounds are related. -/
lemma forM {f : α → EStateM ε σ Unit} {g : α → EStateM δ τ Unit} {as : List α}
    (h : ∀ a ∈ as, Relates E R (f a) (g a)) : Relates E R (as.forM f) (as.forM g) := by
  induction as with
  | nil => exact Relates.pure _
  | cons a as ih =>
    exact (h a List.mem_cons_self).bind
      (fun _ => ih (fun b hb => h b (List.mem_cons_of_mem _ hb)))

end Relates

/-- Computations that throw the same exceptions have the same outcome. -/
lemma ResultsRelate.outcome_eq {R : σ → τ → Prop} {m : EStateM ε σ α} {n : EStateM ε τ α} {s : σ}
    {t : τ} (h : ResultsRelate Eq R (m s) (n t)) : outcome m s = outcome n t := by
  unfold outcome
  rcases h.cases with ⟨a, s', t', hs, ht, -⟩ | ⟨e, d, s', t', hs, ht, rfl, -⟩
  · rw [hs, ht]
  · rw [hs, ht]

lemma ResultsRelate.stateAfter {E : ε → δ → Prop} {R : σ → τ → Prop} {m : EStateM ε σ α}
    {n : EStateM δ τ α} {s : σ} {t : τ} (h : ResultsRelate E R (m s) (n t)) :
    R (Library.stateAfter m s) (Library.stateAfter n t) := by
  rcases h.cases with ⟨a, s', t', hs, ht, h⟩ | ⟨e, d, s', t', hs, ht, -, h⟩
  · rwa [stateAfter_of_ok hs, stateAfter_of_ok ht]
  · rwa [stateAfter_of_error hs, stateAfter_of_error ht]

/-- The state after requests one after the other. -/
def finalState {ι : Type} (f : ι → EStateM ε σ α) (is : List ι) (s : σ) : σ :=
  is.foldl (fun s i => stateAfter (f i) s) s

/-- Systems whose requests are related stay in related states. -/
lemma Relates.finalState {ι : Type} {E : ε → δ → Prop} {R : σ → τ → Prop}
    {f : ι → EStateM ε σ α} {g : ι → EStateM δ τ α} {is : List ι}
    (h : ∀ i ∈ is, Relates E R (f i) (g i)) {s : σ} {t : τ} (hst : R s t) :
    R (Library.finalState f is s) (Library.finalState g is t) := by
  induction is generalizing s t with
  | nil => exact hst
  | cons i is ih =>
    exact ih (fun j hj => h j (List.mem_cons_of_mem _ hj)) (h i List.mem_cons_self s t hst).stateAfter

end Dibibase.Library
