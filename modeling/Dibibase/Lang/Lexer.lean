import Dibibase.Util.Numbers

/-!
# Number tokens

The lexer takes the longest match, and of several longest ones that of the earliest rule. The
rules below are those of the grammar that match a prefix of a text of digits with at most one
sign in front; all others need another character.
-/

namespace Dibibase

namespace CqlLexer

/-- The longest match of the rules, of which each gives the length of its own longest match, or
zero. -/
def longestMatch {τ : Type} (input : List UInt8) :
    List (τ × (List UInt8 → Nat)) → Option (τ × Nat)
  | [] => none
  | (token, length) :: rules =>
    match longestMatch input rules with
    | none => if length input = 0 then none else some (token, length input)
    | some (other, n) =>
      if length input < n then some (other, n) else some (token, length input)

inductive Token where
  | minusMinus | minus | decimalLiteral | floatLiteral
  deriving DecidableEq, Repr

/-- `DEC_DIGIT +`. -/
def digits (input : List UInt8) : Nat := (input.takeWhile isDigit).length

/-- `[0-9] + (DOT [0-9] +)?`. -/
def unsignedFloat (input : List UInt8) : Nat :=
  let whole := digits input
  if whole = 0 then 0
  else match input.drop whole with
    | 46 :: rest => if digits rest = 0 then whole else whole + 1 + digits rest
    | _ => whole

/-- The rules in the order of the grammar. -/
def rules : List (Token × (List UInt8 → Nat)) :=
  [(.minusMinus, fun | 45 :: 45 :: _ => 2 | _ => 0),
    (.minus, fun | 45 :: _ => 1 | _ => 0),
    (.decimalLiteral, digits),
    (.floatLiteral, fun
      | 45 :: rest => if unsignedFloat rest = 0 then 0 else 1 + unsignedFloat rest
      | input => unsignedFloat input)]

def nextToken (input : List UInt8) : Option (Token × Nat) := longestMatch input rules

lemma digits_toDecimal (n : Nat) : digits (toDecimal n) = (toDecimal n).length := by
  unfold digits
  rw [List.takeWhile_eq_self_iff.mpr (fun _ hb => isDigit_of_mem_toDecimal hb)]

lemma unsignedFloat_toDecimal (n : Nat) : unsignedFloat (toDecimal n) = (toDecimal n).length := by
  simp [unsignedFloat, digits_toDecimal, toDecimal_ne_nil]

/-- The digits of a number are a decimal literal. -/
lemma nextToken_nat (n : Nat) :
    nextToken (toDecimal n) = some (.decimalLiteral, (toDecimal n).length) := by
  obtain ⟨b, s, hcons, hdigit⟩ := head_toDecimal n
  have hsign : b ≠ 45 := by
    rintro rfl
    exact absurd hdigit (by decide)
  have hfloat := unsignedFloat_toDecimal n
  have hdigits := digits_toDecimal n
  rw [hcons] at *
  simp [nextToken, rules, longestMatch, hfloat, hdigits, hsign]

/-- With a sign in front they are a float literal. -/
lemma nextToken_neg {n : Nat} (h : 0 < n) :
    nextToken (toDecimal (-n : Int)) = some (.floatLiteral, (toDecimal (-n : Int)).length) := by
  obtain ⟨b, s, hcons, hdigit⟩ := head_toDecimal n
  have hsign : b ≠ 45 := by
    rintro rfl
    exact absurd hdigit (by decide)
  have hfloat := unsignedFloat_toDecimal n
  rw [toDecimal_neg h]
  rw [hcons] at *
  have hminus : isDigit 45 = false := by decide
  simp [nextToken, rules, longestMatch, hfloat, digits, hminus, hsign]
  omega

end CqlLexer

end Dibibase
