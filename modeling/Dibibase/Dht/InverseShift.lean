import Dibibase.Dht.MurmurHash

/-!
# The inverse of the xor-shift

The loop of `inv_rshift_xor` restores a value window by window from the top. Each window is as wide
as the shift, and the last one may be cut off.
-/

namespace Dibibase

open Library

namespace MurmurHash

/-- The loop of `inv_rshift_xor` with its index of type `uint64_t`, or `none` when it has not ended
after so many rounds. -/
def invRshiftXorRounds (shift : Nat) : Nat → BitVec 64 → BitVec 64 → BitVec 64 → Option (BitVec 64)
  | 0, i, _, output => if (i * BitVec.ofNat 64 shift).toNat < 64 then none else some output
  | rounds + 1, i, value, output =>
    if (i * BitVec.ofNat 64 shift).toNat < 64 then
      let c := (0xffffffffffffffff : BitVec 64) <<< (64 - shift) >>>
        (BitVec.ofNat 64 shift * i).toNat
      let partOutput := value &&& c
      invRshiftXorRounds shift rounds (i + 1) (value ^^^ partOutput >>> shift) (output ||| partOutput)
    else some output

section Restoring

variable {shift i : Nat} {v value output : BitVec 64}

/-- Before round `i` the uppermost `i` windows are in the output. The running value is right in the
next window, and below it every bit is still combined with the one `shift` places above. -/
structure Restoring (v : BitVec 64) (shift i : Nat) (value output : BitVec 64) : Prop where
  output : ∀ j < 64, output.getLsbD j = (decide (64 ≤ j + shift * i) && v.getLsbD j)
  restored : ∀ j, j + shift * i < 64 → 64 ≤ j + shift * (i + 1) → value.getLsbD j = v.getLsbD j
  combined : ∀ j, j + shift * (i + 1) < 64 → value.getLsbD j = (v.getLsbD j ^^ v.getLsbD (shift + j))

lemma restoring_start (v : BitVec 64) (shift : Nat) : Restoring v shift 0 (v ^^^ v >>> shift) 0 := by
  constructor
  · intro j hj
    simp [show ¬64 ≤ j by omega]
  · intro j _ habove
    rw [BitVec.getLsbD_xor, BitVec.getLsbD_ushiftRight, v.getLsbD_of_ge (shift + j) (by omega),
      Bool.xor_false]
  · intro j _
    rw [BitVec.getLsbD_xor, BitVec.getLsbD_ushiftRight]

/-- When no window is left, all bits are in the output. -/
lemma Restoring.output_eq (h : Restoring v shift i value output) (hi : 64 ≤ shift * i) : output = v := by
  apply BitVec.eq_of_getLsbD_eq
  intro j hj
  rw [h.output j hj]
  simp [show 64 ≤ j + shift * i by omega]

/-- The mask of round `i` selects its window. -/
lemma getLsbD_mask (hs : 1 ≤ shift) (h63 : shift ≤ 63) (j : Nat) :
    ((0xffffffffffffffff : BitVec 64) <<< (64 - shift) >>> (shift * i)).getLsbD j =
      (decide (j + shift * i < 64) && decide (64 ≤ j + shift * (i + 1))) := by
  rw [BitVec.getLsbD_ushiftRight, BitVec.getLsbD_shiftLeft,
    show (0xffffffffffffffff : BitVec 64) = BitVec.allOnes 64 from rfl, BitVec.getLsbD_allOnes, Nat.mul_succ]
  generalize shift * i = p
  by_cases hlow : p + j < 64
  · by_cases hhigh : p + j < 64 - shift
    · simp [hhigh, show ¬64 ≤ j + (p + shift) by omega]
    · simp [hlow, hhigh, show j + p < 64 by omega, show 64 ≤ j + (p + shift) by omega,
        show p + j - (64 - shift) < 64 by omega]
  · simp [hlow, show ¬j + p < 64 by omega]

/-- A round takes its window out of the running value and corrects the next one. -/
lemma Restoring.round (h : Restoring v shift i value output) {c : BitVec 64}
    (hc : ∀ j, c.getLsbD j = (decide (j + shift * i < 64) && decide (64 ≤ j + shift * (i + 1)))) :
    Restoring v shift (i + 1) (value ^^^ (value &&& c) >>> shift) (output ||| value &&& c) := by
  have hnext : shift * (i + 1) = shift * i + shift := Nat.mul_succ shift i
  have hnext' : shift * (i + 1 + 1) = shift * i + shift + shift := by rw [Nat.mul_succ, hnext]
  have hpart : ∀ j, (value &&& c).getLsbD j =
      (decide (j + shift * i < 64) && decide (64 ≤ j + shift * (i + 1)) && v.getLsbD j) := by
    intro j
    rw [BitVec.getLsbD_and, hc]
    by_cases hlow : j + shift * i < 64
    · by_cases hhigh : 64 ≤ j + shift * (i + 1)
      · simp [hlow, hhigh, h.restored j hlow hhigh]
      · simp [hhigh]
    · simp [hlow]
  constructor
  · intro j hj
    rw [BitVec.getLsbD_or, h.output j hj, hpart]
    by_cases hlow : j + shift * i < 64
    · simp [hlow, show ¬64 ≤ j + shift * i by omega]
    · simp [show 64 ≤ j + shift * i by omega, show 64 ≤ j + shift * (i + 1) by omega]
  · intro j hlow hhigh
    rw [BitVec.getLsbD_xor, BitVec.getLsbD_ushiftRight, hpart, h.combined j (by omega)]
    simp [show shift + j + shift * i < 64 by omega, show 64 ≤ shift + j + shift * (i + 1) by omega]
  · intro j hlow
    rw [BitVec.getLsbD_xor, BitVec.getLsbD_ushiftRight, hpart, h.combined j (by omega)]
    simp [show ¬64 ≤ shift + j + shift * (i + 1) by omega]

/-- The product of the index and the shift does not overflow. -/
lemma toNat_index_mul (hi : i ≤ 64) (h63 : shift ≤ 63) :
    (BitVec.ofNat 64 i * BitVec.ofNat 64 shift).toNat = shift * i ∧
      (BitVec.ofNat 64 shift * BitVec.ofNat 64 i).toNat = shift * i := by
  have hproduct : shift * i ≤ 63 * 64 := Nat.mul_le_mul h63 hi
  simp only [BitVec.toNat_mul, BitVec.toNat_ofNat, Nat.mod_eq_of_lt (show i < 2 ^ 64 by omega),
    Nat.mod_eq_of_lt (show shift < 2 ^ 64 by omega), Nat.mul_comm i shift]
  exact ⟨Nat.mod_eq_of_lt (by omega), Nat.mod_eq_of_lt (by omega)⟩

/-- From any round on the loop ends with the whole value in the output. -/
lemma invRshiftXorRounds_eq {rounds : Nat} (hs : 1 ≤ shift) (h63 : shift ≤ 63) (hi : i ≤ 64)
    (hrounds : 64 ≤ i + rounds) (h : Restoring v shift i value output) :
    invRshiftXorRounds shift rounds (BitVec.ofNat 64 i) value output = some v ∧
      invRshiftXorLoop shift rounds i value output = v := by
  obtain ⟨hindex, hindex'⟩ := toNat_index_mul hi h63
  induction rounds generalizing i value output with
  | zero =>
    have hend : 64 ≤ shift * i := le_trans (by omega) (Nat.mul_le_mul_right i hs)
    rw [invRshiftXorRounds, hindex, if_neg (by omega), invRshiftXorLoop, h.output_eq hend]
    exact ⟨rfl, rfl⟩
  | succ rounds ih =>
    rw [invRshiftXorRounds, invRshiftXorLoop, hindex, hindex', Nat.mul_comm i shift]
    by_cases hmore : shift * i < 64
    · have hlt : i < 64 := by
        have hle : 1 * i ≤ shift * i := Nat.mul_le_mul_right i hs
        omega
      have hsucc : BitVec.ofNat 64 i + 1 = BitVec.ofNat 64 (i + 1) := by
        simp [BitVec.ofNat_add]
      obtain ⟨hnext, hnext'⟩ := toNat_index_mul (show i + 1 ≤ 64 by omega) h63
      rw [if_pos hmore, if_pos hmore, hsucc]
      exact ih (by omega) (by omega) (h.round (getLsbD_mask hs h63)) hnext hnext'
    · rw [if_neg hmore, if_neg hmore, h.output_eq (by omega)]
      exact ⟨rfl, rfl⟩

/-- For every shift the loop ends, after at most 64 rounds, and undoes the xor-shift. -/
theorem invRshiftXor_inverts (hs : 1 ≤ shift) (h63 : shift ≤ 63) (v : BitVec 64) :
    (∀ rounds, 64 ≤ rounds → invRshiftXorRounds shift rounds 0 (v ^^^ v >>> shift) 0 = some v) ∧
      invRshiftXor (v ^^^ v >>> shift) shift = v := by
  have hloop := fun rounds (hrounds : 64 ≤ 0 + rounds) =>
    invRshiftXorRounds_eq hs h63 (Nat.zero_le 64) hrounds (restoring_start v shift)
  exact ⟨fun rounds hrounds => (hloop rounds (by omega)).1, (hloop 64 (by omega)).2⟩

/-- A shift by one bit, where every window is one bit wide. -/
theorem invRshiftXor_inverts_one : invRshiftXor 0xc000000000000000 1 = 0x8000000000000000 :=
  (@invRshiftXor_inverts 1 (by decide) (by decide) 0x8000000000000000).2

end Restoring

end MurmurHash

end Dibibase
