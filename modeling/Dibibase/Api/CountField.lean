import Dibibase.Api.ResultBody

/-!
# Numbers in the body of a result

The protocol has big-endian numbers. `count` writes the last three bytes of a number, leaves out
256, 65536 and everything with a fourth byte, and writes a negative number as one byte.
-/

namespace Dibibase

open Library

namespace QueryResult

/-- A byte of the big-endian encoding in two's complement. -/
def digit (breadth : Nat) (size : Int) (k : Nat) : UInt8 :=
  UInt8.ofInt (size / 256 ^ (breadth - 1 - k))

/-- The array with the encoding from `start` on. -/
def encoded (start breadth : Nat) (size : Int) (body : Nat → UInt8) : Nat → UInt8 := fun i =>
  if start ≤ i ∧ i < start + breadth then digit breadth size (i - start) else body i

/-- `count` overwrites the field with the encoding of the number, and nothing else. -/
def WritesBigEndian (start breadth : Nat) (size : Int) (body : Nat → UInt8) : Prop :=
  count start breadth size body = .ok (start + breadth) (encoded start breadth size body)

variable {start breadth : Nat} {size : Int} {body : Nat → UInt8}

lemma encoded_two (start : Nat) (size : Int) (body : Nat → UInt8) :
    encoded start 2 size body = Function.update (Function.update body start
      (UInt8.ofInt (size / 256))) (start + 1) (UInt8.ofInt size) := by
  funext i
  unfold encoded digit
  by_cases h0 : i = start
  · subst h0
    simp
  · by_cases h1 : i = start + 1
    · subst h1
      simp
    · rw [if_neg (by omega)]
      simp [h0, h1]

lemma encoded_four (start : Nat) (size : Int) (body : Nat → UInt8) :
    encoded start 4 size body = Function.update (Function.update (Function.update
      (Function.update body start (UInt8.ofInt (size / 16777216))) (start + 1)
        (UInt8.ofInt (size / 65536))) (start + 2) (UInt8.ofInt (size / 256))) (start + 3)
          (UInt8.ofInt size) := by
  funext i
  unfold encoded digit
  by_cases h0 : i = start
  · subst h0
    simp
  · by_cases h1 : i = start + 1
    · subst h1
      simp
    · by_cases h2 : i = start + 2
      · subst h2
        simp
      · by_cases h3 : i = start + 3
        · subst h3
          simp
        · rw [if_neg (by omega)]
          simp [h0, h1, h2, h3]

/-- These sizes write nothing. -/
lemma count_nothing (hnot : size = 256 ∨ size = 65536 ∨ 16777216 ≤ size) :
    count start breadth size body = .ok (start + breadth) body := by
  unfold count
  rw [if_neg (by omega), if_neg (by omega), if_neg (by omega)]
  rfl

/-- Where nothing is written, the encoding may be there already. -/
lemma writesBigEndian_of_nothing (hnot : size = 256 ∨ size = 65536 ∨ 16777216 ≤ size) :
    WritesBigEndian start breadth size body ↔
      ∀ k < breadth, body (start + k) = digit breadth size k := by
  unfold WritesBigEndian
  rw [count_nothing hnot]
  constructor
  · intro h k hk
    have heq : body = encoded start breadth size body := by injection h
    rw [heq, encoded, if_pos (by omega), Nat.add_sub_cancel_left]
  · intro h
    congr 1
    funext i
    unfold encoded
    by_cases hi : start ≤ i ∧ i < start + breadth
    · have hk := h (i - start) (by omega)
      rw [if_pos hi, ← hk]
      congr 1
      omega
    · rw [if_neg hi]

/-- A signed character is not greater than the number that was stored in it. -/
lemma toInt_ofInt_le {x : Int} (hx : 0 ≤ x) : (UInt8.ofInt x).toBitVec.toInt ≤ x := by
  have hbyte : ((UInt8.ofInt x).toBitVec.toNat : Int) = x % 256 := by
    change ((UInt8.ofInt x).toNat : Int) = _
    simp [UInt8.ofInt]
    omega
  rw [BitVec.toInt_eq_toNat_cond]
  split <;> omega

/-- What is read back has the wrong sign for bytes above 127, which does not matter in the next
byte. -/
lemma ofInt_middle {x : Int} (hx : 0 ≤ x) :
    UInt8.ofInt ((x - (UInt8.ofInt (x / 65536)).toBitVec.toInt * 65536).tdiv 256) =
      UInt8.ofInt (x / 256) := by
  have hle := @toInt_ofInt_le (x / 65536) (by omega)
  generalize (UInt8.ofInt (x / 65536)).toBitVec.toInt = c at hle ⊢
  rw [Int.tdiv_eq_ediv_of_nonneg (by omega)]
  have hdiv : (x - c * 65536) / 256 = x / 256 - c * 256 := by omega
  rw [hdiv, ofInt_sub_mul]

lemma ofInt_last (x a c : Int) :
    UInt8.ofInt (x - a * 256 - c * 65536) = UInt8.ofInt x := by
  have hc : c * 65536 = c * 256 * 256 := by omega
  rw [hc, ofInt_sub_mul, ofInt_sub_mul]

/-- A number of three bytes. -/
lemma count_three {n : Nat} (hstart : start + 4 ≤ 3500) (hlow : 65536 < n) (hhigh : n < 16777216)
    (body : Nat → UInt8) :
    count start 4 n body = .ok ((start : Int) + 4) (encoded start 4 n body) := by
  obtain ⟨h0, h1, h2, h3⟩ := putChar_four hstart
  have hget : ∀ (k : Nat), k < 4 → ∀ (i : Int) b, i = start + k →
      getChar i b = .ok (b (start + k)).toBitVec.toInt b := by
    rintro k hk i b rfl
    exact getChar_ok (i := start + k) (by omega) b
  have g1 : ∀ b, getChar ((start : Int) + 2 - 1) b = .ok (b (start + 1)).toBitVec.toInt b :=
    fun b => hget 1 (by omega) _ b (by omega)
  have g2 : ∀ b, getChar ((start : Int) + 3 - 1) b = .ok (b (start + 2)).toBitVec.toInt b :=
    fun b => hget 2 (by omega) _ b (by omega)
  have g3 : ∀ b, getChar ((start : Int) + 3 - 2) b = .ok (b (start + 1)).toBitVec.toInt b :=
    fun b => hget 1 (by omega) _ b (by omega)
  have hrange : List.range 4 = [0, 1, 2, 3] := rfl
  rw [encoded_four]
  unfold count
  rw [if_pos (by omega)]
  have hfirst : UInt8.ofInt ((n : Int) / 16777216) = UInt8.ofInt 0 := by
    rw [Int.ediv_eq_zero_of_lt (by omega) (by omega)]
  simp [hrange, h0, h1, h2, h3, g1, g2, g3, Bind.bind, EStateM.bind, hfirst,
    ofInt_middle (x := n) (by omega), ofInt_last]

/-- A negative number loses its first three bytes. -/
lemma not_writesBigEndian_neg (hstart : start + 4 ≤ 3500) (hneg : size < 0) (hlow : -2 ^ 31 ≤ size) :
    ¬WritesBigEndian start 4 size body := by
  obtain ⟨h0, h1, h2, h3⟩ := putChar_four hstart
  have hrange : List.range 4 = [0, 1, 2, 3] := rfl
  intro h
  unfold WritesBigEndian count at h
  rw [if_neg (by omega), if_neg (by omega), if_pos (by omega), encoded_four] at h
  simp [hrange, h0, h1, h2, h3, Bind.bind, EStateM.bind] at h
  have hbyte := congrFun h start
  simp at hbyte
  have hnat : (0 : UInt8).toNat = (UInt8.ofInt (size / 16777216)).toNat := by rw [← hbyte]; rfl
  simp [UInt8.ofInt] at hnat
  omega

/-- The numbers that are written. -/
lemma writesBigEndian_of_lt {n : Nat} (hbreadth : breadth = 2 ∧ n < 65536 ∨ breadth = 4)
    (hstart : start + breadth ≤ 3500) (hn : n < 16777216) (h256 : n ≠ 256) (h65536 : n ≠ 65536) :
    WritesBigEndian start breadth n body := by
  unfold WritesBigEndian
  rcases hbreadth with ⟨rfl, hlt⟩ | rfl
  · rw [encoded_two, count_two hstart hlt h256]
    simp [← ofInt_natCast]
  · by_cases hlt : n < 65536
    · have h1 : UInt8.ofInt ((n : Int) / 16777216) = 0 := by
        rw [Int.ediv_eq_zero_of_lt (by omega) (by omega)]
        rfl
      have h2 : UInt8.ofInt ((n : Int) / 65536) = 0 := by
        rw [Int.ediv_eq_zero_of_lt (by omega) (by omega)]
        rfl
      rw [encoded_four, count_four hstart hlt h256, h1, h2]
      simp [← ofInt_natCast]
    · exact count_three hstart (by omega) hn body

/-- A number is written as it should be exactly when it is not negative, and has at most three
bytes and is neither 256 nor 65536 or stands in the array already. -/
theorem writesBigEndian_iff (hstart : start + breadth ≤ 3500)
    (hsize : breadth = 2 ∧ 0 ≤ size ∧ size < 2 ^ 16 ∨ breadth = 4 ∧ -2 ^ 31 ≤ size ∧ size < 2 ^ 31) :
    WritesBigEndian start breadth size body ↔
      0 ≤ size ∧ (size < 2 ^ 24 ∧ size ≠ 256 ∧ size ≠ 65536 ∨
        ∀ k < breadth, body (start + k) = digit breadth size k) := by
  by_cases hneg : size < 0
  · have hfour : breadth = 4 := by omega
    subst hfour
    have hnot := @not_writesBigEndian_neg start size body hstart hneg (by omega)
    exact iff_of_false hnot (by omega)
  · obtain ⟨n, rfl⟩ := Int.eq_ofNat_of_zero_le (not_lt.mp hneg)
    by_cases hnothing : (n : Int) = 256 ∨ (n : Int) = 65536 ∨ 16777216 ≤ (n : Int)
    · rw [writesBigEndian_of_nothing hnothing]
      constructor
      · intro h
        exact ⟨by omega, .inr h⟩
      · rintro ⟨-, h | h⟩
        · omega
        · exact h
    · have hwrites := @writesBigEndian_of_lt start breadth body n (by omega) hstart (by omega)
        (by omega) (by omega)
      exact iff_of_true hwrites ⟨by omega, .inl (by omega)⟩

/-- The number 257. -/
theorem writesBigEndian_257 : WritesBigEndian 8 4 257 (fun _ => 255) :=
  (writesBigEndian_iff (by decide) (by decide)).mpr (by decide)

/-- A field of 255s stays so for the length 256. -/
theorem not_writesBigEndian_256 : ¬WritesBigEndian 8 2 256 (fun _ => 255) := by
  intro h
  have hfirst : ∀ k < 2, (255 : UInt8) = digit 2 256 k := (writesBigEndian_of_nothing (.inl rfl)).mp h
  exact absurd (hfirst 0 (by decide)) (by decide)

end QueryResult

end Dibibase
