import Mathlib.Data.List.Forall2

/-!
# Exceptions

The exceptions that the modelled code throws: the classes made by `DEFINE_ERROR`, the
string literal thrown by the buffer, and those of the C++ library. Operations that the
language leaves undefined end in `undefinedBehaviour`, which no handler catches.
-/

namespace Dibibase

inductive Exception where
  | bufferOverflow
  | undefinedDataType
  | incompatibleDataTypes
  | uncomparableType
  | schemaMismatch
  | nonExistentRecord
  | unknownCqlStatement
  | unsupportedCqlStatement
  | invalidArgument (what : String)
  | outOfRange
  | badAlloc
  | badOptionalAccess
  | undefinedBehaviour
  deriving DecidableEq, Repr

/-- The exceptions of a comparison. -/
def Exception.Incomparable (e : Exception) : Prop := e = .uncomparableType ∨ e = .incompatibleDataTypes

/-- A list of steps succeeds when every step does. -/
lemma mapM_eq_ok_iff {α β : Type} {f : α → Except Exception β} {xs : List α} {ys : List β} :
    xs.mapM f = .ok ys ↔ List.Forall₂ (fun x y => f x = .ok y) xs ys := by
  induction xs generalizing ys with
  | nil => simp [Pure.pure, Except.pure, eq_comm]
  | cons x xs ih =>
    cases hx : f x with
    | error e =>
      simp only [List.mapM_cons, hx, Bind.bind, Except.bind, reduceCtorEq, false_iff]
      intro h
      cases h with
      | cons hy _ => simp [hx] at hy
    | ok y =>
      cases hxs : xs.mapM f with
      | error e =>
        simp only [List.mapM_cons, hx, hxs, Bind.bind, Except.bind, reduceCtorEq, false_iff]
        intro h
        cases h with
        | cons _ hys => simp [ih.mpr hys] at hxs
      | ok ys' =>
        simp only [List.mapM_cons, hx, hxs, Bind.bind, Except.bind, Pure.pure, Except.pure,
          Except.ok.injEq]
        constructor
        · rintro rfl
          exact .cons hx (ih.mp hxs)
        · intro h
          cases h with
          | cons hy hys =>
            rw [hx, Except.ok.injEq] at hy
            rw [ih.mpr hys, Except.ok.injEq] at hxs
            rw [hy, hxs]

/-- The results of a list of steps are related to the elements when each result is to its own. -/
lemma exists_mapM_forall₂_iff {α β : Type} {f : α → Except Exception β} {r : α → β → Prop}
    {xs : List α} : (∃ ys, xs.mapM f = .ok ys ∧ List.Forall₂ r xs ys) ↔
      ∀ x ∈ xs, ∃ y, f x = .ok y ∧ r x y := by
  simp only [mapM_eq_ok_iff]
  induction xs with
  | nil => simp
  | cons x xs ih =>
    rw [List.forall_mem_cons, ← ih]
    constructor
    · rintro ⟨_, hmap, hrel⟩
      cases hmap with
      | cons hy hys =>
        cases hrel with
        | cons hr hrs => exact ⟨⟨_, hy, hr⟩, _, hys, hrs⟩
    · rintro ⟨⟨y, hy, hr⟩, ys, hys, hrs⟩
      exact ⟨y :: ys, .cons hy hys, .cons hr hrs⟩

end Dibibase
