import Mathlib.Data.BitVec
import Mathlib.Tactic.Ring
import Dibibase.Library.Bytes

/-!
# Machine words

The operations that hash functions mix words with, and their inverses: rotations, the exclusive or
with a shifted copy, exchanges of neighbouring groups of bits, and the word that a few bytes hold.
-/

namespace Dibibase.Library

/-! ### Rotations -/

section Rotations

variable {n : Nat} (v : BitVec 64)

def rotate (v : BitVec 64) (n : Nat) : BitVec 64 := v <<< n ||| v >>> (64 - n)

lemma getLsbD_rotate (hn : n ≤ 64) {i : Nat} (hi : i < 64) :
    (rotate v n).getLsbD i = if i < n then v.getLsbD (64 - n + i) else v.getLsbD (i - n) := by
  simp only [rotate, BitVec.getLsbD_or, BitVec.getLsbD_shiftLeft, BitVec.getLsbD_ushiftRight]
  by_cases hlow : i < n
  · simp [hlow]
  · rw [v.getLsbD_of_ge (64 - n + i) (by omega)]
    simp [hi, hlow]

/-- A rotation is undone by the rotation through the other bits. -/
lemma rotate_rotate (hn : n ≤ 64) : rotate (rotate v n) (64 - n) = v := by
  apply BitVec.eq_of_getLsbD_eq
  intro i hi
  rw [getLsbD_rotate _ (by omega) hi]
  split
  · rw [getLsbD_rotate _ hn (by omega), if_neg (by omega)]
    congr 1
    omega
  · rw [getLsbD_rotate _ hn (by omega), if_pos (by omega)]
    congr 1
    omega

end Rotations

/-! ### The exclusive or with a shifted copy -/

/-- A shift by more than half the bits is undone by doing it again. -/
lemma xorShift_xorShift (v : BitVec 64) {n : Nat} (hn : 32 ≤ n) :
    v ^^^ v >>> n ^^^ (v ^^^ v >>> n) >>> n = v := by
  have hzero : v >>> (n + n) = 0 := by
    apply BitVec.eq_of_getLsbD_eq
    intro i _
    rw [BitVec.getLsbD_ushiftRight, v.getLsbD_of_ge _ (by omega), BitVec.ofNat_eq_ofNat,
      BitVec.getLsbD_zero]
  rw [BitVec.ushiftRight_xor_distrib, ← BitVec.shiftRight_add, hzero, BitVec.xor_assoc,
    ← BitVec.xor_assoc (v >>> n), BitVec.xor_self]
  simp

/-- The bits of the argument can be found one by one from the uppermost downwards. -/
lemma xorShift_injective {w n : Nat} (hn : 0 < n) :
    Function.Injective (fun v : BitVec w => v ^^^ v >>> n) := by
  intro u v h
  have hbit : ∀ k i, w ≤ i + k → u.getLsbD i = v.getLsbD i := by
    intro k
    induction k with
    | zero =>
      intro i hi
      rw [u.getLsbD_of_ge i (by omega), v.getLsbD_of_ge i (by omega)]
    | succ k ih =>
      intro i hi
      have hi' := congrArg (fun x => BitVec.getLsbD x i) h
      simp only [BitVec.getLsbD_xor, BitVec.getLsbD_ushiftRight, ih (n + i) (by omega)] at hi'
      exact Bool.xor_left_inj.mp hi'
  exact BitVec.eq_of_getLsbD_eq (fun i _ => hbit w i (by omega))

/-! ### Exchanges of groups of bits -/

/-- Two masks that select the lower and the upper one of every two groups of `n` bits. -/
structure Exchanges (low high : BitVec 64) (n : Nat) : Prop where
  up : ∀ i < 64, low.getLsbD i = true → i + n < 64 ∧ high.getLsbD (i + n) = true
  down : ∀ i < 64, low.getLsbD i = false → n ≤ i ∧ low.getLsbD (i - n) = true
  apart : ∀ i < 64, low.getLsbD i = true → n ≤ i → low.getLsbD (i - n) = false
  apart' : ∀ i < 64, low.getLsbD i = false → i + n < 64 → high.getLsbD (i + n) = false

/-- The bit that comes to the place `i`. -/
def exchanged (low : BitVec 64) (n i : Nat) : Nat := if low.getLsbD i then i + n else i - n

lemma Exchanges.exchanged_lt {low high : BitVec 64} {n : Nat} (h : Exchanges low high n) {i : Nat}
    (hi : i < 64) : exchanged low n i < 64 := by
  rw [exchanged]
  split
  · next hbit => exact (h.up i hi hbit).1
  · omega

lemma Exchanges.getLsbD {low high : BitVec 64} {n : Nat} (h : Exchanges low high n) (v : BitVec 64)
    {i : Nat} (hi : i < 64) : ((v &&& low) <<< n ||| (v &&& high) >>> n).getLsbD i =
      v.getLsbD (exchanged low n i) := by
  simp only [exchanged, BitVec.getLsbD_or, BitVec.getLsbD_shiftLeft, BitVec.getLsbD_ushiftRight,
    BitVec.getLsbD_and, Nat.add_comm n i]
  cases hbit : low.getLsbD i with
  | true =>
    obtain ⟨-, hhigh⟩ := h.up i hi hbit
    by_cases hni : n ≤ i
    · simp [hhigh, h.apart i hi hbit hni]
    · simp [hhigh, show i < n by omega]
  | false =>
    obtain ⟨hni, hlow⟩ := h.down i hi hbit
    by_cases hroom : i + n < 64
    · simp [hi, hlow, show ¬i < n by omega, h.apart' i hi hbit hroom]
    · simp [hi, hlow, show ¬i < n by omega, v.getLsbD_of_ge (i + n) (by omega)]

/-! ### The word that bytes hold -/

section WordOf

variable {w : Nat}

/-- The word of `w` bits whose image the bytes are. -/
def wordOf (w : Nat) (bs : List UInt8) : BitVec w := BitVec.ofNat w (leValue bs)

/-- The conversion of a byte to `w` bits. -/
def byteOf (w : Nat) (b : UInt8) : BitVec w := BitVec.ofNat w b.toNat

lemma testBit_leValue (bs : List UInt8) (i : Nat) :
    (leValue bs).testBit i = (bs.getD (i / 8) 0).toNat.testBit (i % 8) := by
  induction bs generalizing i with
  | nil => simp [leValue]
  | cons b bs ih =>
    have hbyte : b.toNat < 2 ^ 8 := b.toNat_lt
    rw [leValue, Nat.add_comm, show (256 : Nat) = 2 ^ 8 from rfl, Nat.testBit_two_pow_mul_add _ hbyte]
    by_cases hi : i < 8
    · rw [if_pos hi, Nat.div_eq_of_lt hi, Nat.mod_eq_of_lt hi, List.getD_cons_zero]
    · rw [if_neg hi, ih, show i / 8 = (i - 8) / 8 + 1 by omega, List.getD_cons_succ,
        show (i - 8) % 8 = i % 8 by omega]

lemma getLsbD_wordOf (bs : List UInt8) {i : Nat} (hi : i < w) :
    (wordOf w bs).getLsbD i = (bs.getD (i / 8) 0).toNat.testBit (i % 8) := by
  rw [wordOf, BitVec.getLsbD_ofNat, testBit_leValue]
  simp [hi]

lemma getLsbD_byteOf (b : UInt8) {i : Nat} (hi : 8 ≤ i) : (byteOf w b).getLsbD i = false := by
  rw [byteOf, BitVec.getLsbD_ofNat]
  have hlt : b.toNat < 2 ^ i := lt_of_lt_of_le b.toNat_lt (Nat.pow_le_pow_right (by norm_num) hi)
  rw [Nat.testBit_lt_two_pow hlt, Bool.and_false]

/-- The first byte and the others have no bit in common. -/
lemma wordOf_cons_xor (b : UInt8) (bs : List UInt8) :
    wordOf w (b :: bs) = byteOf w b ^^^ wordOf w bs <<< 8 := by
  apply BitVec.eq_of_getLsbD_eq
  intro i hi
  rw [BitVec.getLsbD_xor, BitVec.getLsbD_shiftLeft, getLsbD_wordOf _ hi]
  by_cases h : i < 8
  · rw [Nat.div_eq_of_lt h, Nat.mod_eq_of_lt h, byteOf, BitVec.getLsbD_ofNat]
    simp [h, hi]
  · rw [getLsbD_byteOf _ (by omega), getLsbD_wordOf _ (by omega), show i / 8 = (i - 8) / 8 + 1 by omega,
      show i % 8 = (i - 8) % 8 by omega]
    simp [h, hi]

/-- The low bits of a byte are all of it. -/
lemma byteOf_and (b : UInt8) : byteOf w b &&& BitVec.ofNat w 255 = byteOf w b := by
  apply BitVec.eq_of_getLsbD_eq
  intro i hi
  rw [BitVec.getLsbD_and]
  by_cases h : i < 8
  · have hmask : (BitVec.ofNat w 255).getLsbD i = true := by
      rw [BitVec.getLsbD_ofNat, show 255 = 2 ^ 8 - 1 from rfl, Nat.testBit_two_pow_sub_one]
      simp [h, hi]
    rw [hmask, Bool.and_true]
  · rw [getLsbD_byteOf _ (by omega), Bool.false_and]

lemma wordOf_singleton (b : UInt8) : wordOf w [b] = byteOf w b := by
  simp [wordOf, byteOf, leValue]

/-- The first byte comes in below the others. -/
lemma wordOf_cons_or (b : UInt8) (bs : List UInt8) :
    wordOf w (b :: bs) = wordOf w bs <<< 8 ||| byteOf w b := by
  rw [wordOf_cons_xor]
  apply BitVec.eq_of_getLsbD_eq
  intro i hi
  rw [BitVec.getLsbD_xor, BitVec.getLsbD_or, BitVec.getLsbD_shiftLeft]
  by_cases h : i < 8
  · simp [h]
  · rw [getLsbD_byteOf _ (by omega), Bool.false_xor, Bool.or_false]

/-- One more byte comes into the word above the others. -/
lemma wordOf_range_succ (g : Nat → UInt8) (n : Nat) : wordOf w ((List.range (n + 1)).map g) =
    byteOf w (g n) <<< (8 * n) ^^^ wordOf w ((List.range n).map g) := by
  induction n generalizing g with
  | zero => simp [wordOf, byteOf, leValue]
  | succ n ih =>
    have h := ih (fun i => g (i + 1))
    rw [List.range_succ_eq_map, List.map_cons, List.map_map, wordOf_cons_xor]
    change byteOf w (g 0) ^^^ wordOf w ((List.range (n + 1)).map (fun i => g (i + 1))) <<< 8 = _
    rw [h, BitVec.shiftLeft_xor_distrib, ← BitVec.shiftLeft_add, List.range_succ_eq_map, List.map_cons,
      List.map_map, wordOf_cons_xor, ← BitVec.xor_assoc, ← BitVec.xor_assoc,
      BitVec.xor_comm (byteOf w (g 0))]
    rfl

/-- Bytes that fit into the word can be read off it. -/
lemma wordOf_injective {as bs : List UInt8} (hlength : as.length = bs.length)
    (hw : 8 * bs.length ≤ w) (h : wordOf w as = wordOf w bs) : as = bs := by
  have hbound : ∀ cs : List UInt8, 8 * cs.length ≤ w → leValue cs < 2 ^ w := by
    intro cs hcs
    calc leValue cs < 256 ^ cs.length := leValue_lt cs
      _ = 2 ^ (8 * cs.length) := by rw [pow_mul]; norm_num
      _ ≤ 2 ^ w := Nat.pow_le_pow_right (by norm_num) hcs
  have hvalue := congrArg BitVec.toNat h
  rw [wordOf, wordOf, BitVec.toNat_ofNat, BitVec.toNat_ofNat, Nat.mod_eq_of_lt (hbound as (by omega)),
    Nat.mod_eq_of_lt (hbound bs hw)] at hvalue
  rw [← leBytes_leValue as, ← leBytes_leValue bs, hvalue, hlength]

lemma wordOf_range_inj {g g' : Nat → UInt8} {n : Nat} (hw : 8 * n ≤ w) :
    wordOf w ((List.range n).map g) = wordOf w ((List.range n).map g') ↔ ∀ i < n, g i = g' i := by
  constructor
  · intro h
    have hlist := wordOf_injective (by simp) (by simpa using hw) h
    simpa using List.map_inj_left.mp hlist
  · intro h
    congr 1
    exact List.map_congr_left (fun i hi => h i (List.mem_range.mp hi))

end WordOf

/-- The number of which the bytes are the image. -/
def word (bs : List UInt8) : BitVec 64 := BitVec.ofNat 64 (leValue bs)

/-- The conversion of a byte. -/
def byteWord (b : UInt8) : BitVec 64 := BitVec.ofNat 64 b.toNat

lemma word_nil : word [] = 0 := rfl

lemma word_cons_add (b : UInt8) (bs : List UInt8) :
    word (b :: bs) = byteWord b + word bs <<< 8 := by
  apply BitVec.eq_of_toNat_eq
  simp only [word, byteWord, leValue, BitVec.toNat_add, BitVec.toNat_ofNat, BitVec.toNat_shiftLeft,
    Nat.shiftLeft_eq]
  omega

/-- In the word of the same bytes in the other order a bit stands in the opposite byte. -/
lemma getLsbD_word_reverse {bs : List UInt8} (h8 : bs.length = 8) {i : Nat} (hi : i < 64) :
    (word bs.reverse).getLsbD i = (word bs).getLsbD (56 - 8 * (i / 8) + i % 8) := by
  change (wordOf 64 bs.reverse).getLsbD i = (wordOf 64 bs).getLsbD (56 - 8 * (i / 8) + i % 8)
  rw [getLsbD_wordOf _ hi, getLsbD_wordOf _ (by omega)]
  have hindex : (56 - 8 * (i / 8) + i % 8) / 8 = bs.length - 1 - i / 8 := by omega
  have hbit : (56 - 8 * (i / 8) + i % 8) % 8 = i % 8 := by omega
  rw [hindex, hbit, List.getD_eq_getElem?_getD, List.getD_eq_getElem?_getD,
    List.getElem?_reverse (by omega)]

end Dibibase.Library
