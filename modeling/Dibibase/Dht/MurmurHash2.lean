import Dibibase.Dht.HashTail
import Dibibase.Library.Absorbing

/-!
# The 32-bit and the 64-bit hash functions

Every step of them loses neither the state nor the block that it mixes in, so two keys whose windows
differ in one block only, or only behind the last full block, never have the same hash.
-/

namespace Dibibase

open Library

namespace MurmurHash

/-! ### The hash function of 32 bits -/

/-- `key[i]` with the conversion to `uint32_t`. -/
def byteAt32 (key : List UInt8) (i : Nat) : Except Exception (BitVec 32) :=
  match key[i % 2 ^ 32]? with
  | some b => .ok (byteOf 32 b)
  | none => .error .undefinedBehaviour

def m : BitVec 32 := 0x5bd1e995

/-- The loop over the blocks from `i` on, of which so many are left. -/
def body32 (key : List UInt8) (offset : Nat) : Nat → Nat → BitVec 32 → Except Exception (BitVec 32)
  | 0, _, h => return h
  | blocks + 1, i, h => do
    let i4 := i <<< 2 % 2 ^ 32
    let k ← byteAt32 key (offset + i4 + 3)
    let k := k <<< 8
    let k := k ||| ((← byteAt32 key (offset + i4 + 2)) &&& 0xff#32)
    let k := k <<< 8
    let k := k ||| ((← byteAt32 key (offset + i4 + 1)) &&& 0xff#32)
    let k := k <<< 8
    let k := k ||| ((← byteAt32 key (offset + i4 + 0)) &&& 0xff#32)
    let k := k * m
    let k := k ^^^ k >>> 24
    let k := k * m
    let h := h * m
    let h := h ^^^ k
    body32 key offset blocks (i + 1) h

/-- The bytes behind the blocks, of which there are `left`. -/
def tail32 (key : List UInt8) (offset length left : Nat) (h : BitVec 32) :
    Except Exception (BitVec 32) := do
  if left = 0 then return h
  let h ← if 3 ≤ left then pure (h ^^^ (← byteAt32 key (offset + length - 3)) <<< 16) else pure h
  let h ← if 2 ≤ left then pure (h ^^^ (← byteAt32 key (offset + length - 2)) <<< 8) else pure h
  let h ← if 1 ≤ left then pure (h ^^^ (← byteAt32 key (offset + length - 1))) else pure h
  return h * m

def hash2X32 (key : List UInt8) (offset length : Nat) (seed : BitVec 32) :
    Except Exception (BitVec 32) := do
  let h := seed ^^^ BitVec.ofNat 32 length
  let len4 := length >>> 2
  let h ← body32 key offset len4 0 h
  let left := length - len4 <<< 2
  let h ← tail32 key offset length left h
  let h := h ^^^ h >>> 13
  let h := h * m
  return h ^^^ h >>> 15

/-! ### The hash function of 64 bits -/

def m64 : BitVec 64 := 0xc6a4a7935bd1e995

/-- The loop over the blocks from `i` on, of which so many are left. The words are put together as in
`get_block`. -/
def body64 (key : List UInt8) (offset : Nat) : Nat → Nat → BitVec 64 → Except Exception (BitVec 64)
  | 0, _, h => return h
  | blocks + 1, i, h => do
    let k ← getBlock key offset i
    let k := k * m64
    let k := k ^^^ k >>> 47
    let k := k * m64
    let h := h ^^^ k
    let h := h * m64
    body64 key offset blocks (i + 1) h

def tailCases : List TailCase :=
  [⟨7, 6, 48⟩, ⟨6, 5, 40⟩, ⟨5, 4, 32⟩, ⟨4, 3, 24⟩, ⟨3, 2, 16⟩, ⟨2, 1, 8⟩, ⟨1, 0, 0⟩]

/-- The switch. The last statement of case 1 is for every label but 0. -/
def tail64 (key : List UInt8) (offset length rem : Nat) (h : BitVec 64) :
    Except Exception (BitVec 64) := do
  let h ← fallThrough key (offset + length - rem) rem h tailCases
  return if 1 ≤ rem then h * m64 else h

def hash2X64 (key : List UInt8) (offset length : Nat) (seed : BitVec 64) :
    Except Exception (BitVec 64) := do
  let h := (seed &&& 0xffffffff) ^^^ m64 * BitVec.ofNat 64 length
  let lenLongs := length >>> 3
  let h ← body64 key offset lenLongs 0 h
  let h ← tail64 key offset length (length &&& 7) h
  let h := h ^^^ h >>> 47
  let h := h * m64
  return h ^^^ h >>> 47

/-! ### What the functions compute -/

/-- Block `i` of `width` bytes in a window with the bytes `g`. -/
def blockOf (w width : Nat) (g : Nat → UInt8) (i : Nat) : BitVec w :=
  wordOf w ((List.range width).map (fun r => g (width * i + r)))

def mix32 (h k : BitVec 32) : BitVec 32 := h * m ^^^ (k * m ^^^ (k * m) >>> 24) * m

def mix64 (h k : BitVec 64) : BitVec 64 := (h ^^^ (k * m64 ^^^ (k * m64) >>> 47) * m64) * m64

def finish32 (h : BitVec 32) : BitVec 32 :=
  let h := (h ^^^ h >>> 13) * m
  h ^^^ h >>> 15

def finish64 (h : BitVec 64) : BitVec 64 :=
  let h := (h ^^^ h >>> 47) * m64
  h ^^^ h >>> 47

/-- The bytes of the window behind its last full block. The first of them comes uppermost. -/
def remainder32 (g : Nat → UInt8) (n : Nat) : BitVec 32 :=
  wordOf 32 ((List.range (n % 4)).map (fun r => g (n - (r + 1))))

/-- The bytes of the window behind its last full block. The first of them comes lowermost. -/
def remainder64 (g : Nat → UInt8) (n : Nat) : BitVec 64 :=
  wordOf 64 ((List.range (n % 8)).map (fun r => g (8 * (n / 8) + r)))

/-- The hash of a window of `n` bytes `g`. -/
def digest32 (g : Nat → UInt8) (n : Nat) (seed : BitVec 32) : BitVec 32 :=
  let h := absorb mix32 (blockOf 32 4 g) (seed ^^^ BitVec.ofNat 32 n) (n / 4)
  finish32 (if n % 4 = 0 then h else (h ^^^ remainder32 g n) * m)

def digest64 (g : Nat → UInt8) (n : Nat) (seed : BitVec 64) : BitVec 64 :=
  let h := absorb mix64 (blockOf 64 8 g) ((seed &&& 0xffffffff) ^^^ m64 * BitVec.ofNat 64 n) (n / 8)
  finish64 (if n % 8 = 0 then h else (h ^^^ remainder64 g n) * m64)

section Digest

variable {key : List UInt8} {offset n : Nat} {g : Nat → UInt8}

lemma body32_eq (blocks i : Nat) (h : BitVec 32)
    (hg : ∀ j < 4 * (i + blocks), key[offset + j]? = some (g j))
    (h32 : offset + 4 * (i + blocks) < 2 ^ 32) :
    body32 key offset blocks i h =
      .ok (absorb mix32 (fun j => blockOf 32 4 g (i + j)) h blocks) := by
  induction blocks generalizing i h with
  | zero => rfl
  | succ blocks ih =>
    have hbyte : ∀ r < 4, byteAt32 key (offset + i <<< 2 % 2 ^ 32 + r) =
        .ok (byteOf 32 (g (4 * i + r))) := by
      intro r hr
      rw [byteAt32, Nat.shiftLeft_eq, show (offset + i * 2 ^ 2 % 2 ^ 32 + r) % 2 ^ 32 =
        offset + (4 * i + r) by omega, hg _ (by omega)]
    have hblock : blockOf 32 4 g i = ((byteOf 32 (g (4 * i + 3)) <<< 8 |||
        byteOf 32 (g (4 * i + 2))) <<< 8 ||| byteOf 32 (g (4 * i + 1))) <<< 8 |||
          byteOf 32 (g (4 * i + 0)) := by
      change wordOf 32 [g (4 * i + 0), g (4 * i + 1), g (4 * i + 2), g (4 * i + 3)] = _
      rw [wordOf_cons_or, wordOf_cons_or, wordOf_cons_or, wordOf_singleton]
    have hand : ∀ b, byteOf 32 b &&& 0xff#32 = byteOf 32 b := byteOf_and
    have hrest := ih (i + 1) (mix32 h (blockOf 32 4 g i)) (fun j hj => hg j (by omega)) (by omega)
    rw [body32, hbyte 3 (by norm_num), hbyte 2 (by norm_num), hbyte 1 (by norm_num),
      hbyte 0 (by norm_num)]
    simp only [Bind.bind, Except.bind, hand, ← hblock]
    rw [absorb_succ_from]
    exact hrest

lemma tail32_eq {left : Nat} {b : Nat → UInt8} (h : BitVec 32) (hlt : left < 4)
    (hbyte : ∀ r < left, byteAt32 key (offset + n - (r + 1)) = .ok (byteOf 32 (b r))) :
    tail32 key offset n left h =
      .ok (if left = 0 then h else (h ^^^ wordOf 32 ((List.range left).map b)) * m) := by
  have hword₁ : wordOf 32 ((List.range 1).map b) = byteOf 32 (b 0) := wordOf_singleton (b 0)
  have hword₂ : wordOf 32 ((List.range 2).map b) = byteOf 32 (b 1) <<< 8 ^^^ byteOf 32 (b 0) := by
    rw [wordOf_range_succ, hword₁]
  have hword₃ : wordOf 32 ((List.range 3).map b) =
      byteOf 32 (b 2) <<< 16 ^^^ (byteOf 32 (b 1) <<< 8 ^^^ byteOf 32 (b 0)) := by
    rw [wordOf_range_succ, hword₂]
  have h₁ : 0 < left → byteAt32 key (offset + n - 1) = .ok (byteOf 32 (b 0)) := hbyte 0
  have h₂ : 1 < left → byteAt32 key (offset + n - 2) = .ok (byteOf 32 (b 1)) := hbyte 1
  have h₃ : 2 < left → byteAt32 key (offset + n - 3) = .ok (byteOf 32 (b 2)) := hbyte 2
  rw [tail32]
  have hcases : left = 0 ∨ left = 1 ∨ left = 2 ∨ left = 3 := by omega
  rcases hcases with rfl | rfl | rfl | rfl
  · rfl
  · rw [hword₁, h₁ (by norm_num)]
    rfl
  · rw [hword₂, ← BitVec.xor_assoc, h₁ (by norm_num), h₂ (by norm_num)]
    rfl
  · rw [hword₃, ← BitVec.xor_assoc, ← BitVec.xor_assoc, h₁ (by norm_num), h₂ (by norm_num),
      h₃ (by norm_num)]
    rfl

lemma hash2X32_eq (seed : BitVec 32) (hg : ∀ i < n, key[offset + i]? = some (g i))
    (h32 : offset + n < 2 ^ 32) : hash2X32 key offset n seed = .ok (digest32 g n seed) := by
  have hblocks : n >>> 2 = n / 4 := Nat.shiftRight_eq_div_pow n 2
  have hleft : n - (n / 4) <<< 2 = n % 4 := by
    rw [Nat.shiftLeft_eq]
    omega
  have hbody := body32_eq (n / 4) 0 (seed ^^^ BitVec.ofNat 32 n) (fun j hj => hg j (by omega)) (by omega)
  simp only [Nat.zero_add] at hbody
  have hbyte : ∀ r < n % 4, byteAt32 key (offset + n - (r + 1)) = .ok (byteOf 32 (g (n - (r + 1)))) := by
    intro r hr
    rw [byteAt32, show offset + n - (r + 1) = offset + (n - (r + 1)) by omega,
      Nat.mod_eq_of_lt (by omega), hg _ (by omega)]
  have htail := fun h => tail32_eq h (Nat.mod_lt n (by norm_num)) hbyte
  simp only [hash2X32, hblocks, hleft, hbody, htail, Bind.bind, Except.bind]
  rfl

/-- The cases of the switch take every byte of the tail once. -/
lemma assemble_tailCases (rest : Nat) (hrest : rest < 8) (b : Nat → UInt8) :
    assemble rest b 0 tailCases = wordOf 64 ((List.range rest).map b) := by
  have h := assemble_casesBelow rest b 7
  rw [min_eq_left (by omega)] at h
  exact h

lemma body64_eq (blocks i : Nat) (h : BitVec 64)
    (hg : ∀ j < 8 * (i + blocks), key[offset + j]? = some (g j))
    (h32 : offset + 8 * (i + blocks) < 2 ^ 32) :
    body64 key offset blocks i h =
      .ok (absorb mix64 (fun j => blockOf 64 8 g (i + j)) h blocks) := by
  induction blocks generalizing i h with
  | zero => rfl
  | succ blocks ih =>
    have hdrop : key.drop (offset + 8 * i) = (List.range 8).map (fun r => g (8 * i + r)) ++
        key.drop (offset + 8 * i + 8) := by
      apply List.ext_getElem?
      intro r
      by_cases hr : r < 8
      · rw [List.getElem?_drop, List.getElem?_append_left (by simpa using hr), Nat.add_assoc,
          hg _ (by omega)]
        simp [hr]
      · rw [List.getElem?_append_right (by simpa using hr), List.getElem?_drop, List.getElem?_drop]
        simp only [List.length_map, List.length_range]
        congr 1
        omega
    have hblock : getBlock key offset i = .ok (blockOf 64 8 g i) :=
      getBlock_word (by simp) hdrop (by omega)
    have hrest := ih (i + 1) (mix64 h (blockOf 64 8 g i)) (fun j hj => hg j (by omega)) (by omega)
    rw [body64, hblock, absorb_succ_from]
    exact hrest

lemma hash2X64_eq (seed : BitVec 64) (hg : ∀ i < n, key[offset + i]? = some (g i))
    (h32 : offset + n < 2 ^ 32) : hash2X64 key offset n seed = .ok (digest64 g n seed) := by
  have hblocks : n >>> 3 = n / 8 := Nat.shiftRight_eq_div_pow n 3
  have hrem : n &&& 7 = n % 8 := Nat.and_two_pow_sub_one_eq_mod n 3
  have hbody := body64_eq (n / 8) 0 ((seed &&& 0xffffffff) ^^^ m64 * BitVec.ofNat 64 n)
    (fun j hj => hg j (by omega)) (by omega)
  simp only [Nat.zero_add] at hbody
  have hbyte : ∀ r < n % 8, byteAt key (offset + n - n % 8 + r) =
      .ok (byteWord (g (8 * (n / 8) + r))) := by
    intro r hr
    rw [byteAt, show offset + n - n % 8 + r = offset + (8 * (n / 8) + r) by omega,
      Nat.mod_eq_of_lt (by omega), hg _ (by omega)]
  have htail : ∀ h, tail64 key offset n (n % 8) h =
      .ok (if n % 8 = 0 then h else (h ^^^ remainder64 g n) * m64) := by
    intro h
    have hlabels : ∀ case ∈ tailCases, case.position < case.label := by simp [tailCases]
    have hcases := @fallThrough_eq key _ (n % 8) (fun r => g (8 * (n / 8) + r)) tailCases
      (fun case hmem hle => hbyte _ (lt_of_lt_of_le (hlabels case hmem) hle)) h
    rw [tail64, hcases, assemble_eq_xor, assemble_tailCases _ (Nat.mod_lt n (by norm_num))]
    by_cases hzero : n % 8 = 0
    · rw [hzero]
      simp [Bind.bind, Except.bind, Pure.pure, Except.pure, wordOf, leValue]
    · rw [if_neg hzero]
      simp only [Bind.bind, Except.bind, Pure.pure, Except.pure]
      rw [if_pos (show 1 ≤ n % 8 by omega)]
      rfl
  simp only [hash2X64, hblocks, hrem, hbody, htail, Bind.bind, Except.bind]
  rfl

end Digest

/-! ### Nothing is lost -/

lemma mul_m_injective : Function.Injective (fun h : BitVec 32 => h * m) :=
  (IsUnit.of_mul_eq_one (0xe59b19bd : BitVec 32) (by decide)).mul_left_injective

lemma mul_m64_injective : Function.Injective (fun h : BitVec 64 => h * m64) :=
  (IsUnit.of_mul_eq_one (0x5f7a0ea7e59b19bd : BitVec 64) (by decide)).mul_left_injective

lemma lossless_mix32 : Lossless mix32 := by
  constructor
  · intro k h h' heq
    exact mul_m_injective ((BitVec.xor_left_inj _).mp heq)
  · intro h k k' heq
    have hscrambled := mul_m_injective ((BitVec.xor_right_inj _).mp heq)
    exact mul_m_injective (xorShift_injective (by norm_num) hscrambled)

lemma lossless_mix64 : Lossless mix64 := by
  constructor
  · intro k h h' heq
    exact (BitVec.xor_left_inj _).mp (mul_m64_injective heq)
  · intro h k k' heq
    have hscrambled := mul_m64_injective ((BitVec.xor_right_inj _).mp (mul_m64_injective heq))
    exact mul_m64_injective (xorShift_injective (by norm_num) hscrambled)

lemma finish32_injective : Function.Injective finish32 := by
  intro h h' heq
  have hscrambled := mul_m_injective (xorShift_injective (by norm_num) heq)
  exact xorShift_injective (by norm_num) hscrambled

lemma finish64_injective : Function.Injective finish64 := by
  intro h h' heq
  have hscrambled := mul_m64_injective (xorShift_injective (by norm_num) heq)
  exact xorShift_injective (by norm_num) hscrambled

section Windows

variable {g g' : Nat → UInt8} {n b : Nat}

lemma blockOf_inj {w width i : Nat} (hw : 8 * width ≤ w) :
    blockOf w width g i = blockOf w width g' i ↔ ∀ r < width, g (width * i + r) = g' (width * i + r) :=
  wordOf_range_inj hw

/-- Windows that differ only in the block `b`, or behind the last block when `b` is their number. -/
lemma absorb_xor_inj {w width : Nat} {mix : BitVec w → BitVec w → BitVec w} (hmix : Lossless mix)
    (hwidth : 0 < width) (hw : 8 * width ≤ w) (hsame : ∀ i < n, i / width ≠ b → g i = g' i)
    {rest rest' : BitVec w}
    (hrest : rest = rest' ↔ ∀ i < n, width * (n / width) ≤ i → g i = g' i) (s : BitVec w) :
    absorb mix (blockOf w width g) s (n / width) ^^^ rest =
        absorb mix (blockOf w width g') s (n / width) ^^^ rest' ↔ ∀ i < n, g i = g' i := by
  have hdiv : ∀ i r, r < width → (width * i + r) / width = i := by
    intro i r hr
    rw [Nat.mul_add_div hwidth, Nat.div_eq_of_lt hr, Nat.add_zero]
  have hend : width * (n / width) ≤ n := Nat.mul_div_le n width
  have hin : ∀ i r, i < n / width → r < width → width * i + r < n := by
    intro i r hi hr
    calc width * i + r < width * i + width := by omega
      _ = width * (i + 1) := by ring
      _ ≤ width * (n / width) := Nat.mul_le_mul_left _ (by omega)
      _ ≤ n := hend
  have hblocks : ∀ i < n / width, i ≠ b → blockOf w width g i = blockOf w width g' i := by
    intro i hi hne
    rw [blockOf_inj hw]
    intro r hr
    exact hsame _ (hin i r hi hr) (by rw [hdiv i r hr]; exact hne)
  constructor
  · intro h i hi
    by_cases hb : b < n / width
    · have hsameRest : rest = rest' := hrest.mpr (fun i hi hle => hsame i hi (by
        have hge : n / width ≤ i / width :=
          (Nat.le_div_iff_mul_le hwidth).mpr (by rwa [Nat.mul_comm])
        omega))
      rw [hsameRest, BitVec.xor_left_inj, hmix.absorb_inj hblocks, blockOf_inj hw] at h
      by_cases hib : i / width = b
      · have hbyte := h hb (i % width) (Nat.mod_lt i hwidth)
        rwa [← hib, Nat.div_add_mod] at hbyte
      · exact hsame i hi hib
    · have hsameBlocks := @absorb_congr _ _ mix _ _ (n / width) (fun i hi => hblocks i hi (by omega)) s
      rw [hsameBlocks, BitVec.xor_right_inj, hrest] at h
      by_cases hle : width * (n / width) ≤ i
      · exact h i hi hle
      · have hlt : i / width < n / width := Nat.div_lt_of_lt_mul (by omega)
        exact hsame i hi (by omega)
  · intro h
    rw [hrest.mpr (fun i hi _ => h i hi), absorb_congr (fun i hi => (blockOf_inj hw).mpr
      (fun r hr => h _ (hin i r hi hr)))]

lemma remainder32_inj :
    remainder32 g n = remainder32 g' n ↔ ∀ i < n, 4 * (n / 4) ≤ i → g i = g' i := by
  rw [remainder32, remainder32, wordOf_range_inj (by omega)]
  constructor
  · intro h i hi hle
    have hbyte := h (n - (i + 1)) (by omega)
    rwa [show n - (n - (i + 1) + 1) = i by omega] at hbyte
  · intro h r hr
    exact h _ (by omega) (by omega)

lemma remainder64_inj :
    remainder64 g n = remainder64 g' n ↔ ∀ i < n, 8 * (n / 8) ≤ i → g i = g' i := by
  rw [remainder64, remainder64, wordOf_range_inj (by omega)]
  constructor
  · intro h i hi hle
    have hbyte := h (i - 8 * (n / 8)) (by omega)
    rwa [Nat.add_sub_cancel' hle] at hbyte
  · intro h r hr
    exact h _ (by omega) (by omega)

/-- Windows that differ only in the block `b` have the same hash only if they are the same. -/
lemma digest32_inj (hsame : ∀ i < n, i / 4 ≠ b → g i = g' i) (seed : BitVec 32) :
    digest32 g n seed = digest32 g' n seed ↔ ∀ i < n, g i = g' i := by
  have hwindow := absorb_xor_inj lossless_mix32 (by norm_num) (by norm_num) hsame remainder32_inj
    (seed ^^^ BitVec.ofNat 32 n)
  rw [digest32, digest32, finish32_injective.eq_iff, ← hwindow]
  by_cases hzero : n % 4 = 0
  · simp [hzero, remainder32]
  · rw [if_neg hzero, if_neg hzero, mul_m_injective.eq_iff]

lemma digest64_inj (hsame : ∀ i < n, i / 8 ≠ b → g i = g' i) (seed : BitVec 64) :
    digest64 g n seed = digest64 g' n seed ↔ ∀ i < n, g i = g' i := by
  have hwindow := absorb_xor_inj lossless_mix64 (by norm_num) (by norm_num) hsame remainder64_inj
    ((seed &&& 0xffffffff) ^^^ m64 * BitVec.ofNat 64 n)
  rw [digest64, digest64, finish64_injective.eq_iff, ← hwindow]
  by_cases hzero : n % 8 = 0
  · simp [hzero, remainder64]
  · rw [if_neg hzero, if_neg hzero, mul_m64_injective.eq_iff]

end Windows

/-! ### Keys that differ in one block -/

/-- The windows of `n` bytes of two keys are not the same, and differ only in block `b`. The bytes
behind the last full block count as one more block. -/
structure DifferOnlyIn (key key' : List UInt8) (offset n width b : Nat) : Prop where
  differ : ∃ i < n, key[offset + i]? ≠ key'[offset + i]?
  same : ∀ i < n, i / width ≠ b → key[offset + i]? = key'[offset + i]?

/-- Two runs return, the same value when the windows are the same, and different values when the
windows differ in one block only. -/
structure Distinguishes {w : Nat} (hash : List UInt8 → Except Exception (BitVec w))
    (key key' : List UInt8) (offset n width : Nat) : Prop where
  returns : ∃ r r', hash key = .ok r ∧ hash key' = .ok r'
  equal : (∀ i < n, key[offset + i]? = key'[offset + i]?) → hash key = hash key'
  distinct : ∀ b, DifferOnlyIn key key' offset n width b → hash key ≠ hash key'

/-- A hash that is a function of the bytes in the window, injective in every block. -/
lemma distinguishes_of_digest {w : Nat} {hash : List UInt8 → Except Exception (BitVec w)}
    {digest : (Nat → UInt8) → BitVec w} {key key' : List UInt8} {offset n width : Nat}
    (hkey : offset + n ≤ key.length) (hkey' : offset + n ≤ key'.length)
    (hhash : ∀ key g, (∀ i < n, key[offset + i]? = some (g i)) → hash key = .ok (digest g))
    (hinj : ∀ g g' b, (∀ i < n, i / width ≠ b → g i = g' i) →
      (digest g = digest g' ↔ ∀ i < n, g i = g' i)) :
    Distinguishes hash key key' offset n width := by
  have hbytes : ∀ key : List UInt8, offset + n ≤ key.length → ∀ i < n,
      key[offset + i]? = some (key.getD (offset + i) 0) := by
    intro key hkey i hi
    rw [List.getD_eq_getElem?_getD, List.getElem?_eq_getElem (by omega), Option.getD_some]
  have hfirst := hhash key _ (hbytes key hkey)
  have hsecond := hhash key' _ (hbytes key' hkey')
  constructor
  · exact ⟨_, _, hfirst, hsecond⟩
  · intro hequal
    rw [hsecond]
    exact hhash key _ (fun i hi => (hequal i hi).trans (hbytes key' hkey' i hi))
  · rintro b ⟨⟨i, hi, hdiffer⟩, hsame⟩ heq
    rw [hfirst, hsecond, Except.ok.injEq, hinj _ _ b] at heq
    · refine hdiffer ?_
      rw [hbytes key hkey i hi, hbytes key' hkey' i hi, heq i hi]
    · intro i hi hne
      rw [List.getD_eq_getElem?_getD, List.getD_eq_getElem?_getD, hsame i hi hne]

/-- Neither hash function has a collision within one block, and both depend on the window only. -/
theorem hash2_distinguishes {key key' : List UInt8} {offset n : Nat} (hkey : offset + n ≤ key.length)
    (hkey' : offset + n ≤ key'.length) (h32 : offset + n < 2 ^ 32) :
    (∀ seed, Distinguishes (fun key => hash2X32 key offset n seed) key key' offset n 4) ∧
      ∀ seed, Distinguishes (fun key => hash2X64 key offset n seed) key key' offset n 8 :=
  ⟨fun seed => distinguishes_of_digest hkey hkey' (fun _ _ hg => hash2X32_eq seed hg h32)
      (fun _ _ _ hsame => digest32_inj hsame seed),
    fun seed => distinguishes_of_digest hkey hkey' (fun _ _ hg => hash2X64_eq seed hg h32)
      (fun _ _ _ hsame => digest64_inj hsame seed)⟩

/-- Two keys whose second bytes differ. -/
theorem hash2_distinguishes_hello :
    hash2X32 [104, 101, 108, 108, 111] 0 5 7 ≠ hash2X32 [104, 97, 108, 108, 111] 0 5 7 ∧
      hash2X64 [104, 101, 108, 108, 111] 0 5 7 ≠ hash2X64 [104, 97, 108, 108, 111] 0 5 7 :=
  have h := @hash2_distinguishes [104, 101, 108, 108, 111] [104, 97, 108, 108, 111] 0 5 (by decide)
    (by decide) (by decide)
  ⟨(h.1 7).distinct 0 ⟨⟨1, by decide, by decide⟩, by decide⟩,
    (h.2 7).distinct 0 ⟨⟨1, by decide, by decide⟩, by decide⟩⟩

example : hash2X32 [104, 101, 108, 108, 111] 0 5 0x982 = .ok 0x1E65961D := rfl

example : hash2X64 [87, 101, 32, 97, 114, 101, 32, 104, 101, 114, 101] 0 11 0x14F =
    .ok 0x7A647FDF36B1E653 := rfl

end MurmurHash

end Dibibase
