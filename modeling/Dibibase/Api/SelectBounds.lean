import Dibibase.Api.ResultSize

/-!
# When the answer to SELECT can be written

Whether a function of `QueryResult` returns does not depend on what the array holds: it needs the
characters that it writes to lie in the array, and texts that can be taken apart and read as numbers.
So `select_result` returns exactly under a condition on its arguments.
-/

namespace Dibibase

open Library

namespace QueryResult

variable {α β : Type} {P Q : Prop} {body body' : Nat → UInt8}

/-- The function returns exactly under the condition, and gives back this value. -/
structure Needs (P : Prop) (m : BodyM α) (a : α) : Prop where
  returns : P → ∀ body, ∃ body', m body = .ok a body'
  returned : ∀ body b body', m body = .ok b body' → P ∧ b = a

namespace Needs

lemma pure (a : α) : Needs True (Pure.pure a) a := by
  refine ⟨fun _ body => ⟨body, rfl⟩, fun body b body' h => ?_⟩
  cases h
  exact ⟨trivial, rfl⟩

lemma bind {m : BodyM α} {f : α → BodyM β} {a : α} {b : β} (hm : Needs P m a) (hf : Needs Q (f a) b) :
    Needs (P ∧ Q) (m >>= f) b := by
  constructor
  · rintro ⟨hP, hQ⟩ body
    obtain ⟨body₁, hfirst⟩ := hm.returns hP body
    obtain ⟨body₂, hsecond⟩ := hf.returns hQ body₁
    exact ⟨body₂, by rw [bind_of_ok hfirst, hsecond]⟩
  · intro body c body' h
    obtain ⟨a', body₁, hfirst, hsecond⟩ := bind_eq_ok h
    obtain ⟨hP, rfl⟩ := hm.returned _ _ _ hfirst
    obtain ⟨hQ, rfl⟩ := hf.returned _ _ _ hsecond
    exact ⟨⟨hP, hQ⟩, rfl⟩

lemma congr {m : BodyM α} {a : α} (h : Needs P m a) (hPQ : P ↔ Q) : Needs Q m a := by
  rwa [← propext hPQ]

lemma ofExcept {x : Except Exception α} {a : α} (h : x = .ok a) : Needs True (BodyM.ofExcept x) a := by
  subst h
  exact Needs.pure a

end Needs

/-! ### Single characters and numbers -/

/-- The `n` characters from `start` on lie in the array. -/
def InArray (start : Int) (n : Nat) : Prop := 0 ≤ start ∧ start + n ≤ 3500

/-- The sizes that `count` writes. -/
def Counted (size : Int) : Prop := size < 256 * 256 * 256 ∧ size ≠ 256 ∧ size ≠ 256 * 256

instance (start : Int) (n : Nat) : Decidable (InArray start n) := inferInstanceAs (Decidable (_ ∧ _))

instance (size : Int) : Decidable (Counted size) := inferInstanceAs (Decidable (_ ∧ _))

/-- The bytes of the columns. -/
def columnsSize (fields : List Field) : Nat := (fields.map (fun field => 4 + field.name.length)).sum

/-- The bytes of a value lie in the array, and those of a text in the text. Numbers are read from their
text. Nothing is written for the other types. -/
def Placed (index : Int) (a : Attributes) : Prop :=
  (Counted a.length → InArray index 4) ∧
    if a.id = TypeId.ascii.toByte.toNat then
      a.length.toNat = 0 ∨ a.length.toNat ≤ a.text.length + 1 ∧ InArray (index + 4) a.length.toNat
    else if a.id = TypeId.int.toByte.toNat then
      ∃ n, stoi a.text = .ok n ∧ (Counted n → InArray (index + 4) 4)
    else True

/-- The values behind each other, each at the index that those before it lead to. -/
def AllPlaced : Int → List Attributes → Prop
  | _, [] => True
  | index, a :: values => Placed index a ∧ AllPlaced (index + 4 + a.length) values

/-- The names and the columns lie in the array, and the values of the text find their places behind them. -/
structure Fits (keyspace table : List UInt8) (fields : List Field) (recordStr : List UInt8) : Prop where
  columns : 20 + keyspace.length + table.length + columnsSize fields ≤ 3500
  values : ∃ values, recordValues recordStr = .ok values ∧
    AllPlaced ((20 + keyspace.length + table.length + columnsSize fields : Nat) : Int) values

variable {keyspace table recordStr : List UInt8} {schema : Schema}

end QueryResult

end Dibibase
