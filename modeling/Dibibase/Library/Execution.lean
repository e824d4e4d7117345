import Mathlib.Tactic.Common

/-!
# Computations with a state and exceptions

What one step of a computation does to its state, which values and exceptions a computation ends
with, and the invariants that it keeps.
-/

namespace Dibibase.Library

section Steps

variable {ε σ α β : Type} {m : EStateM ε σ α} {f : α → EStateM ε σ β} {s s' : σ}

@[simp] lemma pure_apply (a : α) (s : σ) : (pure a : EStateM ε σ α) s = .ok a s := rfl

@[simp] lemma get_apply (s : σ) : (get : EStateM ε σ σ) s = .ok s s := rfl

@[simp] lemma modify_apply (f : σ → σ) (s : σ) : (modify f : EStateM ε σ PUnit) s = .ok ⟨⟩ (f s) := rfl

@[simp] lemma throw_apply (e : ε) (s : σ) : (throw e : EStateM ε σ α) s = .error e s := rfl

@[simp] lemma stateT_pure_apply (a : α) (s : σ) :
    (pure a : StateT σ (Except ε) α) s = .ok (a, s) := rfl

lemma bind_of_ok {a : α} (h : m s = .ok a s') : (m >>= f) s = f a s' := by
  simp [Bind.bind, EStateM.bind, h]

lemma bind_of_error {e : ε} (h : m s = .error e s') : (m >>= f) s = .error e s' := by
  simp [Bind.bind, EStateM.bind, h]

lemma except_bind_eq_ok {x : Except ε α} {g : α → Except ε β} {b : β} (h : x >>= g = .ok b) :
    ∃ a, x = .ok a ∧ g a = .ok b := by
  cases x with
  | error e => cases h
  | ok a => exact ⟨a, rfl, h⟩

lemma stateT_bind_eq_ok {x : StateT σ (Except ε) α} {g : α → StateT σ (Except ε) β} {b : β}
    {s s' : σ} (h : (x >>= g) s = .ok (b, s')) : ∃ a s₁, x s = .ok (a, s₁) ∧ g a s₁ = .ok (b, s') := by
  obtain ⟨⟨a, s₁⟩, hx, hg⟩ := except_bind_eq_ok h
  exact ⟨a, s₁, hx, hg⟩

/-- A loop whose rounds return and change the state by a function. -/
lemma forM_ok {f : α → EStateM ε σ Unit} {g : σ → α → σ}
    (h : ∀ a s, f a s = .ok () (g s a)) (as : List α) (s : σ) :
    as.forM f s = .ok () (as.foldl g s) := by
  induction as generalizing s with
  | nil => rfl
  | cons a as ih =>
    have hbind : (a :: as).forM f s = (f a >>= fun _ => as.forM f) s := rfl
    rw [hbind, bind_of_ok (h a s), ih, List.foldl_cons]

/-- What a computation gives back, without the state it leaves. -/
def outcome (m : EStateM ε σ α) (s : σ) : Except ε α :=
  match m s with
  | .ok a _ => .ok a
  | .error e _ => .error e

lemma outcome_bind_of_ok {a : α} (h : m s = .ok a s') :
    outcome (m >>= f) s = outcome (f a) s' := by
  rw [outcome, bind_of_ok h, outcome]

lemma outcome_bind_of_error {e : ε} (h : m s = .error e s') : outcome (m >>= f) s = .error e := by
  rw [outcome, bind_of_error h]

/-- The state that a computation leaves, whether it returns or throws. -/
def stateAfter (m : EStateM ε σ α) (s : σ) : σ :=
  match m s with
  | .ok _ s' => s'
  | .error _ s' => s'

lemma stateAfter_of_ok {a : α} (h : m s = .ok a s') : stateAfter m s = s' := by
  rw [stateAfter, h]

lemma stateAfter_of_error {e : ε} (h : m s = .error e s') : stateAfter m s = s' := by
  rw [stateAfter, h]

lemma stateAfter_bind_of_ok {a : α} (h : m s = .ok a s') :
    stateAfter (m >>= f) s = stateAfter (f a) s' := by
  rw [stateAfter, bind_of_ok h, stateAfter]

lemma stateAfter_bind_of_error {e : ε} (h : m s = .error e s') : stateAfter (m >>= f) s = s' := by
  rw [stateAfter, bind_of_error h]

/-- A step that changes nothing may follow. -/
lemma stateAfter_bind_of_pure (h : ∀ a s, stateAfter (f a) s = s) :
    stateAfter (m >>= f) s = stateAfter m s := by
  cases hm : m s with
  | ok a s' => rw [stateAfter_bind_of_ok hm, h, stateAfter_of_ok hm]
  | error e s' => rw [stateAfter_bind_of_error hm, stateAfter_of_error hm]

lemma tryCatch_of_ok {a : α} {handler : ε → EStateM ε σ α} (h : m s = .ok a s') :
    tryCatch m handler s = .ok a s' := by
  simp [tryCatch, tryCatchThe, MonadExceptOf.tryCatch, EStateM.tryCatch, h]

lemma bind_eq_ok {b : β} {s'' : σ} (h : (m >>= f) s = .ok b s'') :
    ∃ a s', m s = .ok a s' ∧ f a s' = .ok b s'' := by
  cases hm : m s with
  | ok a s' =>
    rw [bind_of_ok hm] at h
    exact ⟨a, s', rfl, h⟩
  | error e s' =>
    rw [bind_of_error hm] at h
    cases h

/-- The computation gives back a value or throws an exception that is handled. -/
inductive Settles (handled : ε → Prop) (m : EStateM ε σ α) (s : σ) : Prop where
  | returns {a : α} {s' : σ} (h : m s = .ok a s')
  | throws {e : ε} {s' : σ} (h : m s = .error e s') (he : handled e)

variable {handled : ε → Prop}

end Steps

/-- Whether it returns or throws, the computation keeps the invariant. -/
def Preserves {ε σ α : Type} (I : σ → Prop) (m : EStateM ε σ α) : Prop :=
  ∀ s, I s → (∀ a s', m s = .ok a s' → I s') ∧ (∀ e s', m s = .error e s' → I s')

namespace Preserves

variable {ε σ α β : Type} {I : σ → Prop}

lemma pure (a : α) : Preserves I (Pure.pure a : EStateM ε σ α) := by
  intro s hs
  constructor
  · intro b s' h
    cases h
    exact hs
  · intro e s' h
    cases h

lemma throw (e : ε) : Preserves I (throw e : EStateM ε σ α) := by
  intro s hs
  constructor
  · intro b s' h
    cases h
  · intro e s' h
    cases h
    exact hs

lemma bind {m : EStateM ε σ α} {f : α → EStateM ε σ β} (hm : Preserves I m)
    (hf : ∀ a, Preserves I (f a)) : Preserves I (m >>= f) := by
  intro s hs
  obtain ⟨hok, herr⟩ := hm s hs
  cases h : m s with
  | ok a s' =>
    rw [bind_of_ok h]
    exact hf a s' (hok a s' h)
  | error e s' =>
    rw [bind_of_error h]
    constructor
    · intro b s'' h'
      cases h'
    · intro e' s'' h'
      cases h'
      exact herr e s' h

end Preserves

/-- From every state the computation returns, and its value has the property. -/
def Completes {ε σ α : Type} (Q : α → Prop) (m : EStateM ε σ α) : Prop :=
  ∀ s, ∃ a s', m s = .ok a s' ∧ Q a

namespace Completes

variable {ε σ α β : Type} {Q : α → Prop} {R : β → Prop}

lemma pure {a : α} (h : Q a) : Completes Q (Pure.pure a : EStateM ε σ α) :=
  fun s => ⟨a, s, rfl, h⟩

lemma bind {m : EStateM ε σ α} {f : α → EStateM ε σ β} (hm : Completes Q m)
    (hf : ∀ a, Q a → Completes R (f a)) : Completes R (m >>= f) := by
  intro s
  obtain ⟨a, s', hfirst, ha⟩ := hm s
  obtain ⟨b, s'', hsecond, hb⟩ := hf a ha s'
  exact ⟨b, s'', by rw [bind_of_ok hfirst, hsecond], hb⟩

lemma forM {f : α → EStateM ε σ PUnit} {as : List α} (hf : ∀ a ∈ as, Completes (fun _ => True) (f a)) :
    Completes (fun _ => True) (as.forM f) := by
  induction as with
  | nil => exact Completes.pure trivial
  | cons a as ih =>
    exact (hf a List.mem_cons_self).bind (fun _ _ => ih (fun b hb => hf b (List.mem_cons_of_mem a hb)))

end Completes

end Dibibase.Library
