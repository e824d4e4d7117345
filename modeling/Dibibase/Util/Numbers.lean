import Dibibase.Errors
import Mathlib.Algebra.Order.Group.Int
import Mathlib.Data.List.TakeWhile
import Mathlib.Tactic.NormNum

/-!
# Numbers as text

The functions of the C and C++ libraries that print integers in decimal and read them back,
in the C locale. Texts are byte lists; a text ends at its first NUL for the C functions.
-/

namespace Dibibase

/-- The characters of a literal. -/
def text (literal : String) : List UInt8 := literal.toList.map (fun c => UInt8.ofNat c.toNat)

/-- `std::to_string`. -/
def toDecimal (n : Int) : List UInt8 :=
  (if n < 0 then [45] else []) ++ (Nat.toDigits 10 n.natAbs).map (fun c => UInt8.ofNat c.toNat)

/-- `isspace` in the C locale. -/
def isSpace (c : UInt8) : Bool := c = 32 ∨ (9 ≤ c ∧ c ≤ 13)

def isDigit (c : UInt8) : Bool := 48 ≤ c ∧ c ≤ 57

/-- `atoi` of the C library: `strtol` in base ten, which stops at the bounds of a `long`, cast to
`int`. The string ends at the first NUL. -/
def atoi (s : List UInt8) : BitVec 32 :=
  let s := (s.takeWhile (· ≠ 0)).dropWhile isSpace
  let digits (s : List UInt8) : Nat :=
    (s.takeWhile isDigit).foldl (fun n c => n * 10 + (c.toNat - 48)) 0
  match s with
  | 45 :: s => BitVec.ofInt 32 (max (-digits s) (-2 ^ 63))
  | 43 :: s => BitVec.ofInt 32 (min (digits s) (2 ^ 63 - 1))
  | s => BitVec.ofInt 32 (min (digits s) (2 ^ 63 - 1))

/-- The digits at the start of a text, read in base ten. -/
def leadingDigits (s : List UInt8) : Option Nat :=
  let digits := s.takeWhile isDigit
  if digits = [] then none else some (digits.foldl (fun n c => n * 10 + (c.toNat - 48)) 0)

/-- The number that `strtoll` in base ten finds at the start of a text, behind white space and a
sign. -/
def scanInteger (s : List UInt8) : Option Int :=
  match (s.takeWhile (· ≠ 0)).dropWhile isSpace with
  | 45 :: s => (leadingDigits s).map (fun n : Nat => -(n : Int))
  | 43 :: s => (leadingDigits s).map (fun n : Nat => (n : Int))
  | s => (leadingDigits s).map (fun n : Nat => (n : Int))

/-- `strtoll` in base ten: zero if there is no number, and the nearest bound of a `long long` if
the number lies outside. -/
def strtoll (s : List UInt8) : BitVec 64 :=
  BitVec.ofInt 64 (max (-2 ^ 63) (min ((scanInteger s).getD 0) (2 ^ 63 - 1)))

/-- The number that a text of digits stands for. -/
def decimalValue (s : List UInt8) : Nat := s.foldl (fun n c => n * 10 + (c.toNat - 48)) 0

/-- `std::stoi`. -/
def stoi (s : List UInt8) : Except Exception Int :=
  match scanInteger s with
  | none => .error (.invalidArgument "stoi")
  | some n => if -2 ^ 31 ≤ n ∧ n < 2 ^ 31 then .ok n else .error .outOfRange

/-! ### Reading what was printed -/

lemma toDecimal_nat (n : Nat) :
    toDecimal n = (Nat.toDigits 10 n).map (fun c => UInt8.ofNat c.toNat) := by
  simp [toDecimal]

lemma toDecimal_neg {n : Nat} (h : 0 < n) : toDecimal (-(n : Int)) = 45 :: toDecimal n := by
  simp [toDecimal, h]

lemma toNat_digit {c : Char} (h : c.isDigit) :
    (UInt8.ofNat c.toNat).toNat = c.toNat ∧ 48 ≤ c.toNat ∧ c.toNat ≤ 57 := by
  have hbounds : 48 ≤ c.toNat ∧ c.toNat ≤ 57 := Char.isDigit_iff_toNat.mp h
  refine ⟨?_, hbounds⟩
  rw [UInt8.toNat_ofNat_of_lt' (by change c.toNat < 256; omega)]

lemma isDigit_iff {b : UInt8} : isDigit b = true ↔ 48 ≤ b.toNat ∧ b.toNat ≤ 57 := by
  simp [isDigit, UInt8.le_iff_toNat_le]

lemma isDigit_of_mem_toDecimal {n : Nat} {b : UInt8} (h : b ∈ toDecimal n) : isDigit b = true := by
  rw [toDecimal_nat, List.mem_map] at h
  obtain ⟨c, hc, rfl⟩ := h
  have hdigit := toNat_digit (Nat.isDigit_of_mem_toDigits (by norm_num) (by norm_num) hc)
  rw [isDigit_iff, hdigit.1]
  exact hdigit.2

/-- A number consists of digits and at most a sign. -/
lemma mem_toDecimal {n : Int} {b : UInt8} (h : b ∈ toDecimal n) : b = 45 ∨ isDigit b = true := by
  rcases Int.natAbs_eq n with hn | hn
  · rw [hn] at h
    exact .inr (isDigit_of_mem_toDecimal h)
  · by_cases hzero : n.natAbs = 0
    · rw [hn, hzero] at h
      exact .inr (isDigit_of_mem_toDecimal (n := 0) h)
    · rw [hn, toDecimal_neg (by omega), List.mem_cons] at h
      exact h.imp id isDigit_of_mem_toDecimal

lemma toDecimal_ne_nil (n : Nat) : toDecimal n ≠ [] := by
  rw [toDecimal_nat]
  simp

lemma length_toDecimal_le {n k : Nat} (hk : 0 < k) : (toDecimal n).length ≤ k ↔ n < 10 ^ k := by
  rw [toDecimal_nat, List.length_map]
  exact Nat.length_toDigits_le_iff (by norm_num) hk

lemma foldl_digits (cs : List Char) (h : ∀ c ∈ cs, c.isDigit) (init : Nat) :
    (cs.map (fun c => UInt8.ofNat c.toNat)).foldl (fun n c => n * 10 + (c.toNat - 48)) init =
      Nat.ofDigitChars 10 cs init := by
  induction cs generalizing init with
  | nil => rfl
  | cons c cs ih =>
    have hc := (toNat_digit (h c (by simp))).1
    rw [List.map_cons, List.foldl_cons, ih (fun d hd => h d (by simp [hd])), hc,
      Nat.ofDigitChars_cons, Nat.mul_comm]
    rfl

lemma decimalValue_toDecimal (n : Nat) : decimalValue (toDecimal n) = n := by
  have hvalue := foldl_digits (Nat.toDigits 10 n)
    (fun c hc => Nat.isDigit_of_mem_toDigits (by norm_num) (by norm_num) hc) 0
  rw [← toDecimal_nat, Nat.ofDigitChars_ten_toDigits] at hvalue
  exact hvalue

lemma head_toDecimal (n : Nat) : ∃ b s, toDecimal n = b :: s ∧ isDigit b = true := by
  obtain ⟨b, s, hcons⟩ := List.exists_cons_of_ne_nil (toDecimal_ne_nil n)
  exact ⟨b, s, hcons, isDigit_of_mem_toDecimal (n := n) (by simp [hcons])⟩

lemma leadingDigits_of_digits {s : List UInt8} (hs : s ≠ []) (h : ∀ c ∈ s, isDigit c = true) :
    leadingDigits s = some (decimalValue s) := by
  have hall : s.takeWhile isDigit = s := List.takeWhile_eq_self_iff.mpr h
  simp only [leadingDigits, hall, hs, if_false]
  rfl

lemma leadingDigits_toDecimal (n : Nat) : leadingDigits (toDecimal n) = some n := by
  rw [leadingDigits_of_digits (toDecimal_ne_nil n) (fun _ => isDigit_of_mem_toDecimal),
    decimalValue_toDecimal]

lemma not_isSpace_of_isDigit {b : UInt8} (h : isDigit b = true) : isSpace b = false := by
  rw [isDigit_iff] at h
  simp only [isSpace, decide_eq_false_iff_not, not_or, not_and, UInt8.le_iff_toNat_le,
    ← UInt8.toNat_inj]
  simp only [UInt8.reduceToNat]
  omega

/-- A text of digits alone has no NUL. -/
lemma takeWhile_ne_zero {s : List UInt8} (h : ∀ c ∈ s, isDigit c = true) :
    s.takeWhile (· ≠ 0) = s := by
  apply List.takeWhile_eq_self_iff.mpr
  intro c hc
  have hdigit := isDigit_iff.mp (h c hc)
  simp only [ne_eq, decide_not, Bool.not_eq_eq_eq_not, Bool.not_true, decide_eq_false_iff_not]
  rintro rfl
  simp at hdigit

/-- Digits alone are read as the number that they stand for. -/
theorem scanInteger_of_digits {s : List UInt8} (hs : s ≠ []) (h : ∀ c ∈ s, isDigit c = true) :
    scanInteger s = some (decimalValue s : Int) := by
  unfold scanInteger
  rw [takeWhile_ne_zero h]
  obtain ⟨b, t, hcons⟩ := List.exists_cons_of_ne_nil hs
  have hdigit : isDigit b = true := h b (by simp [hcons])
  have hdrop : s.dropWhile isSpace = s := by
    rw [hcons, List.dropWhile_cons_of_neg (by simp [not_isSpace_of_isDigit hdigit])]
  have hvalue := leadingDigits_of_digits hs h
  rw [hdrop]
  rw [hcons] at hvalue ⊢
  rw [isDigit_iff] at hdigit
  split
  · rename_i heq
    cases heq
    simp at hdigit
  · rename_i heq
    cases heq
    simp at hdigit
  · rw [hvalue]
    rfl

/-- Numbers above the largest `long long` are read as that. -/
lemma toNat_strtoll {s : List UInt8} (hs : s ≠ []) (h : ∀ c ∈ s, isDigit c = true) :
    (strtoll s).toNat = min (decimalValue s) (2 ^ 63 - 1) := by
  unfold strtoll
  rw [scanInteger_of_digits hs h, Option.getD_some]
  have hclamp : max (-2 ^ 63) (min (decimalValue s : Int) (2 ^ 63 - 1)) =
      ((min (decimalValue s) (2 ^ 63 - 1) : Nat) : Int) := by
    omega
  rw [hclamp, BitVec.ofInt_natCast, BitVec.toNat_ofNat, Nat.mod_eq_of_lt (by omega)]

/-- A printed integer is read back. -/
theorem scanInteger_toDecimal (n : Int) : scanInteger (toDecimal n) = some n := by
  have hnonneg : ∀ m : Nat, scanInteger (toDecimal m) = some (m : Int) := by
    intro m
    rw [scanInteger_of_digits (toDecimal_ne_nil m) (fun _ => isDigit_of_mem_toDecimal),
      decimalValue_toDecimal]
  rcases Int.natAbs_eq n with hn | hn
  · rw [hn]
    exact hnonneg n.natAbs
  · by_cases hzero : n.natAbs = 0
    · have hn0 : n = (0 : Nat) := by omega
      rw [hn0]
      exact hnonneg 0
    · rw [hn, toDecimal_neg (by omega), scanInteger, List.takeWhile_cons_of_pos (by decide),
        takeWhile_ne_zero (fun _ => isDigit_of_mem_toDecimal),
        List.dropWhile_cons_of_neg (by decide)]
      simp only [leadingDigits_toDecimal, Option.map_some]

lemma stoi_toDecimal {n : Int} (hlow : -2 ^ 31 ≤ n) (hhigh : n < 2 ^ 31) :
    stoi (toDecimal n) = .ok n := by
  unfold stoi
  rw [scanInteger_toDecimal]
  exact if_pos ⟨hlow, hhigh⟩

end Dibibase
