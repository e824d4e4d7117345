import Dibibase.Errors
import Dibibase.Library.Words

/-!
# MurmurHash

The 128-bit hash function and its inverse on keys of 16 bytes. The array of the key is read at
`uint32_t` indices.
-/

namespace Dibibase

open Library

namespace MurmurHash

/-- `key[i]` with the conversion to `uint64_t`. -/
def byteAt (key : List UInt8) (i : Nat) : Except Exception (BitVec 64) :=
  match key[i % 2 ^ 32]? with
  | some b => .ok (byteWord b)
  | none => .error .undefinedBehaviour

def getBlock (key : List UInt8) (offset index : Nat) : Except Exception (BitVec 64) := do
  let i8 := index <<< 3 % 2 ^ 32
  let blockOffset := (offset + i8) % 2 ^ 32
  return ((← byteAt key (blockOffset + 0)) &&& 0xff#64) +
    (((← byteAt key (blockOffset + 1)) &&& 0xff#64) <<< 8) +
    (((← byteAt key (blockOffset + 2)) &&& 0xff#64) <<< 16) +
    (((← byteAt key (blockOffset + 3)) &&& 0xff#64) <<< 24) +
    (((← byteAt key (blockOffset + 4)) &&& 0xff#64) <<< 32) +
    (((← byteAt key (blockOffset + 5)) &&& 0xff#64) <<< 40) +
    (((← byteAt key (blockOffset + 6)) &&& 0xff#64) <<< 48) +
    (((← byteAt key (blockOffset + 7)) &&& 0xff#64) <<< 56)

def rotl64 (v : BitVec 64) (n : Nat) : BitVec 64 := v <<< n ||| v >>> (64 - n)

def fmix (k : BitVec 64) : BitVec 64 :=
  let k := k ^^^ k >>> 33
  let k := k * 0xff51afd7ed558ccd
  let k := k ^^^ k >>> 33
  let k := k * 0xc4ceb9fe1a85ec53
  let k := k ^^^ k >>> 33
  k

def invRotl64 (v : BitVec 64) (n : Nat) : BitVec 64 := v >>> n ||| v <<< (64 - n)

/-- The loop of `inv_rshift_xor`, with at most so many rounds. -/
def invRshiftXorLoop (shift : Nat) : Nat → Nat → BitVec 64 → BitVec 64 → BitVec 64
  | 0, _, _, output => output
  | rounds + 1, i, value, output =>
    if i * shift < 64 then
      let c := (0xffffffffffffffff : BitVec 64) <<< (64 - shift) >>> (shift * i)
      let partOutput := value &&& c
      invRshiftXorLoop shift rounds (i + 1) (value ^^^ partOutput >>> shift) (output ||| partOutput)
    else output

/-- For a shift by at least one bit 64 rounds are enough. -/
def invRshiftXor (value : BitVec 64) (shift : Nat) : BitVec 64 := invRshiftXorLoop shift 64 0 value 0

def invFmix (k : BitVec 64) : BitVec 64 :=
  let k := invRshiftXor k 33
  let k := k * 0x9cb4b2f8129337db
  let k := invRshiftXor k 33
  let k := k * 0x4f74430c22a54005
  let k := invRshiftXor k 33
  k

def reverseBytes (x : BitVec 64) : BitVec 64 :=
  let x := (x &&& 0x00000000FFFFFFFF) <<< 32 ||| (x &&& 0xFFFFFFFF00000000) >>> 32
  let x := (x &&& 0x0000FFFF0000FFFF) <<< 16 ||| (x &&& 0xFFFF0000FFFF0000) >>> 16
  let x := (x &&& 0x00FF00FF00FF00FF) <<< 8 ||| (x &&& 0xFF00FF00FF00FF00) >>> 8
  x

/-! ### The hash function -/

def c1 : BitVec 64 := 0x87c37b91114253d5
def c2 : BitVec 64 := 0x4cf5ad432745937f

/-- What is done to `k1` before it goes into `h1`, in the body and in the tail. -/
def mixK1 (k1 : BitVec 64) : BitVec 64 :=
  let k1 := k1 * c1
  let k1 := rotl64 k1 31
  k1 * c2

/-- What is done to `k2` before it goes into `h2`. -/
def mixK2 (k2 : BitVec 64) : BitVec 64 :=
  let k2 := k2 * c2
  let k2 := rotl64 k2 33
  k2 * c1

/-- A round of the body. -/
def mixBlock (k1 k2 h1 h2 : BitVec 64) : BitVec 64 × BitVec 64 :=
  let h1 := h1 ^^^ mixK1 k1
  let h1 := rotl64 h1 27
  let h1 := h1 + h2
  let h1 := h1 * 5 + 0x52dce729
  let h2 := h2 ^^^ mixK2 k2
  let h2 := rotl64 h2 31
  let h2 := h2 + h1
  let h2 := h2 * 5 + 0x38495ab5
  (h1, h2)

/-- The loop over the blocks from `i` on, of which so many are left. -/
def body (key : List UInt8) (offset : Nat) : Nat → Nat → BitVec 64 → BitVec 64 →
    Except Exception (BitVec 64 × BitVec 64)
  | 0, _, h1, h2 => return (h1, h2)
  | blocks + 1, i, h1, h2 => do
    let k1 ← getBlock key offset (i * 2 + 0)
    let k2 ← getBlock key offset (i * 2 + 1)
    let (h1, h2) := mixBlock k1 k2 h1 h2
    body key offset blocks (i + 1) h1 h2

/-- Cases of the switch, with the position of the byte and the shift. -/
structure TailCase where
  label : Nat
  position : Nat
  shift : Nat

/-- The cases that fill `k2`. -/
def upperCases : List TailCase :=
  [⟨15, 1, 48⟩, ⟨14, 1, 40⟩, ⟨13, 1, 32⟩, ⟨12, 1, 24⟩, ⟨11, 1, 16⟩, ⟨10, 9, 8⟩, ⟨9, 8, 0⟩]

/-- The cases that fill `k1`. -/
def lowerCases : List TailCase :=
  [⟨8, 7, 56⟩, ⟨7, 6, 48⟩, ⟨6, 5, 40⟩, ⟨5, 4, 32⟩, ⟨4, 3, 24⟩, ⟨3, 2, 16⟩, ⟨2, 1, 8⟩, ⟨1, 0, 0⟩]

/-- The cases in their order, each of which falls through to the next. The switch enters them at the
label `rest`, so those with a greater label are left out. -/
def fallThrough (key : List UInt8) (offset rest : Nat) (k : BitVec 64) :
    List TailCase → Except Exception (BitVec 64)
  | [] => return k
  | case :: cases =>
    if case.label ≤ rest then do
      let b ← byteAt key (offset + case.position)
      fallThrough key offset rest (k ^^^ b <<< case.shift) cases
    else fallThrough key offset rest k cases

/-- The switch. The statements behind the byte of case 9 are for the labels from 9 on, and those
behind the byte of case 1 for the labels from 1 on. -/
def tail (key : List UInt8) (offset rest : Nat) (h1 h2 : BitVec 64) :
    Except Exception (BitVec 64 × BitVec 64) := do
  let k2 ← fallThrough key offset rest 0 upperCases
  let h2 := if 9 ≤ rest then h2 ^^^ mixK2 k2 else h2
  let k1 ← fallThrough key offset rest 0 lowerCases
  let h1 := if 1 ≤ rest then h1 ^^^ mixK1 k1 else h1
  return (h1, h2)

def finalization (length h1 h2 : BitVec 64) : BitVec 64 × BitVec 64 :=
  let h1 := h1 ^^^ length
  let h2 := h2 ^^^ length
  let h1 := h1 + h2
  let h2 := h2 + h1
  let h1 := fmix h1
  let h2 := fmix h2
  let h1 := h1 + h2
  let h2 := h2 + h1
  (h1, h2)

def hash3X64128 (key : List UInt8) (offset length : Nat) (seed : BitVec 64) :
    Except Exception (BitVec 64 × BitVec 64) := do
  let nblocks := length >>> 4
  let (h1, h2) ← body key offset nblocks 0 seed seed
  let offset := (offset + nblocks * 16) % 2 ^ 32
  let (h1, h2) ← tail key offset (length &&& 15) h1 h2
  return finalization (BitVec.ofNat 64 length) h1 h2

/-! ### Its inverse on one block -/

def invC1 : BitVec 64 := 0xa98409e882ce4d7d
def invC2 : BitVec 64 := 0xa81e14edd9de2c7f

def invFinalization (length h1 h2 : BitVec 64) : BitVec 64 × BitVec 64 :=
  let h2 := h2 - h1
  let h1 := h1 - h2
  let h1 := invFmix h1
  let h2 := invFmix h2
  let h2 := h2 - h1
  let h1 := h1 - h2
  (h1 ^^^ length, h2 ^^^ length)

def invMixK1 (k1 : BitVec 64) : BitVec 64 :=
  let k1 := k1 * invC2
  let k1 := invRotl64 k1 31
  k1 * invC1

def invMixK2 (k2 : BitVec 64) : BitVec 64 :=
  let k2 := k2 * invC1
  let k2 := invRotl64 k2 33
  k2 * invC2

def invHash3X64128 (result : BitVec 64 × BitVec 64) : BitVec 64 × BitVec 64 :=
  let (h1, h2) := invFinalization 16 result.1 result.2
  let h2 := h2 - 0x38495ab5
  let h2 := h2 * 0xcccccccccccccccd
  let h2 := h2 - h1
  let h2 := invRotl64 h2 31
  let k2 := invMixK2 h2
  let h1 := h1 - 0x52dce729
  let h1 := h1 * 0xcccccccccccccccd
  let h1 := invRotl64 h1 27
  let k1 := invMixK1 h1
  (reverseBytes k1, reverseBytes k2)

/-! ### The operations are undone -/

section Inverses

variable (v : BitVec 64) {n : Nat}

lemma invRotl64_eq (hn : n ≤ 64) : invRotl64 v n = rotl64 v (64 - n) := by
  rw [invRotl64, rotl64, BitVec.or_comm, Nat.sub_sub_self hn]

lemma invRotl64_rotl64 (hn : n ≤ 64) : invRotl64 (rotl64 v n) n = v := by
  rw [invRotl64_eq _ hn]
  exact rotate_rotate v hn

lemma rotl64_invRotl64 (hn : n ≤ 64) : rotl64 (invRotl64 v n) n = v := by
  have h := rotate_rotate v (Nat.sub_le 64 n)
  rw [Nat.sub_sub_self hn] at h
  rw [invRotl64_eq _ hn]
  exact h

/-- The masks of the two rounds select the upper 33 bits and the lower 31 bits. -/
lemma restore_eq {high low : BitVec 64} (hhigh : ∀ i < 64, high.getLsbD i = decide (31 ≤ i))
    (hlow : ∀ i < 64, low.getLsbD i = decide (i < 31)) :
    0 ||| v &&& high ||| (v ^^^ (v &&& high) >>> 33) &&& low = v ^^^ v >>> 33 := by
  apply BitVec.eq_of_getLsbD_eq
  intro i hi
  simp only [BitVec.getLsbD_or, BitVec.getLsbD_xor, BitVec.getLsbD_and, BitVec.getLsbD_ushiftRight,
    hhigh i hi, hlow i hi]
  by_cases h : i < 31
  · simp [h, show ¬31 ≤ i by omega, hhigh (33 + i) (by omega), show 31 ≤ 33 + i by omega]
  · simp [h, show 31 ≤ i by omega, v.getLsbD_of_ge (33 + i) (by omega)]

/-- After two rounds the loop has restored the lower bits from the upper ones. -/
lemma invRshiftXor_eq : invRshiftXor v 33 = v ^^^ v >>> 33 :=
  @restore_eq v 0xffffffff80000000 0x7fffffff (by decide) (by decide)

lemma invRshiftXor_xorShift : invRshiftXor (v ^^^ v >>> 33) 33 = v := by
  rw [invRshiftXor_eq, xorShift_xorShift v (by norm_num)]

lemma xorShift_invRshiftXor : invRshiftXor v 33 ^^^ invRshiftXor v 33 >>> 33 = v := by
  rw [invRshiftXor_eq, xorShift_xorShift v (by norm_num)]

lemma invFmix_fmix : invFmix (fmix v) = v := by
  simp only [invFmix, fmix, invRshiftXor_xorShift, BitVec.mul_assoc, BitVec.reduceMul, BitVec.mul_one]

lemma fmix_invFmix : fmix (invFmix v) = v := by
  simp only [invFmix, fmix, xorShift_invRshiftXor, BitVec.mul_assoc, BitVec.reduceMul, BitVec.mul_one]

lemma c1_mul_invC1 : c1 * invC1 = 1 := by decide

lemma c2_mul_invC2 : c2 * invC2 = 1 := by decide

lemma invC1_mul_c1 : invC1 * c1 = 1 := by decide

lemma invC2_mul_c2 : invC2 * c2 = 1 := by decide

lemma invMixK1_mixK1 : invMixK1 (mixK1 v) = v := by
  rw [invMixK1, mixK1, mul_assoc, c2_mul_invC2, mul_one, invRotl64_rotl64 _ (by norm_num), mul_assoc,
    c1_mul_invC1, mul_one]

lemma mixK1_invMixK1 : mixK1 (invMixK1 v) = v := by
  rw [invMixK1, mixK1, mul_assoc _ invC1, invC1_mul_c1, mul_one, rotl64_invRotl64 _ (by norm_num),
    mul_assoc, invC2_mul_c2, mul_one]

lemma invMixK2_mixK2 : invMixK2 (mixK2 v) = v := by
  rw [invMixK2, mixK2, mul_assoc, c1_mul_invC1, mul_one, invRotl64_rotl64 _ (by norm_num), mul_assoc,
    c2_mul_invC2, mul_one]

lemma mixK2_invMixK2 : mixK2 (invMixK2 v) = v := by
  rw [invMixK2, mixK2, mul_assoc _ invC2, invC2_mul_c2, mul_one, rotl64_invRotl64 _ (by norm_num),
    mul_assoc, invC1_mul_c1, mul_one]

lemma xor_xor_self (w : BitVec 64) : v ^^^ w ^^^ w = v := by
  rw [BitVec.xor_assoc, BitVec.xor_self, BitVec.xor_zero]

lemma zero_xor : 0 ^^^ v = v := BitVec.zero_xor

lemma invFinalization_finalization (length h1 h2 : BitVec 64) :
    invFinalization length (finalization length h1 h2).1 (finalization length h1 h2).2 = (h1, h2) := by
  simp only [invFinalization, finalization, add_sub_cancel_right, invFmix_fmix, xor_xor_self]

lemma finalization_invFinalization (length r1 r2 : BitVec 64) :
    finalization length (invFinalization length r1 r2).1 (invFinalization length r1 r2).2 = (r1, r2) := by
  simp only [invFinalization, finalization, sub_add_cancel, fmix_invFmix, xor_xor_self]

/-- `5 * 0xcccccccccccccccd = 1`. -/
lemma mul_five_mul_inv : v * 5 * 0xcccccccccccccccd = v := by
  have h : (5 : BitVec 64) * 0xcccccccccccccccd = 1 := by decide
  rw [mul_assoc, h, mul_one]

lemma mul_inv_mul_five : v * 0xcccccccccccccccd * 5 = v := by
  have h : (0xcccccccccccccccd : BitVec 64) * 5 = 1 := by decide
  rw [mul_assoc, h, mul_one]

end Inverses

/-! ### The order of the bytes -/

lemma exchanges_32 : Exchanges 0x00000000FFFFFFFF 0xFFFFFFFF00000000 32 := by
  constructor <;> decide

lemma exchanges_16 : Exchanges 0x0000FFFF0000FFFF 0xFFFF0000FFFF0000 16 := by
  constructor <;> decide

lemma exchanges_8 : Exchanges 0x00FF00FF00FF00FF 0xFF00FF00FF00FF00 8 := by
  constructor <;> decide

lemma getLsbD_reverseBytes (x : BitVec 64) {i : Nat} (hi : i < 64) :
    (reverseBytes x).getLsbD i = x.getLsbD (56 - 8 * (i / 8) + i % 8) := by
  have hindex : ∀ i < 64, exchanged 0x00000000FFFFFFFF 32 (exchanged 0x0000FFFF0000FFFF 16
      (exchanged 0x00FF00FF00FF00FF 8 i)) = 56 - 8 * (i / 8) + i % 8 := by decide
  have h₈ := exchanges_8.exchanged_lt hi
  have h₁₆ := exchanges_16.exchanged_lt h₈
  rw [reverseBytes, exchanges_8.getLsbD _ hi, exchanges_16.getLsbD _ h₈, exchanges_32.getLsbD _ h₁₆,
    hindex i hi]

lemma reverseBytes_reverseBytes (x : BitVec 64) : reverseBytes (reverseBytes x) = x := by
  apply BitVec.eq_of_getLsbD_eq
  intro i hi
  rw [getLsbD_reverseBytes _ hi, getLsbD_reverseBytes _ (by omega)]
  congr 1
  omega

lemma reverseBytes_word {bs : List UInt8} (h8 : bs.length = 8) :
    reverseBytes (word bs) = word bs.reverse := by
  apply BitVec.eq_of_getLsbD_eq
  intro i hi
  rw [getLsbD_reverseBytes _ hi, getLsbD_word_reverse h8 hi]

/-! ### Reading the key -/

section Reading

variable {key : List UInt8} {offset i : Nat}

lemma getBlock_ok {b0 b1 b2 b3 b4 b5 b6 b7 : UInt8} {rest : List UInt8} {index : Nat}
    (hkey : key.drop (offset + 8 * index) = b0 :: b1 :: b2 :: b3 :: b4 :: b5 :: b6 :: b7 :: rest)
    (h32 : offset + 8 * index + 8 ≤ 2 ^ 32) :
    getBlock key offset index = .ok (word [b0, b1, b2, b3, b4, b5, b6, b7]) := by
  have hbyte : ∀ j b, (key.drop (offset + 8 * index))[j]? = some b → j < 8 →
      byteAt key (offset + 8 * index + j) = .ok (byteWord b) := by
    intro j b hb hj
    rw [List.getElem?_drop] at hb
    rw [byteAt, Nat.mod_eq_of_lt (by omega), hb]
  have hshift : (offset + index <<< 3 % 2 ^ 32) % 2 ^ 32 = offset + 8 * index := by
    rw [Nat.shiftLeft_eq]
    omega
  rw [hkey] at hbyte
  have hword : word [b0, b1, b2, b3, b4, b5, b6, b7] = byteWord b0 + byteWord b1 <<< 8 +
      byteWord b2 <<< 16 + byteWord b3 <<< 24 + byteWord b4 <<< 32 + byteWord b5 <<< 40 +
      byteWord b6 <<< 48 + byteWord b7 <<< 56 := by
    simp only [word_cons_add, word_nil, BitVec.shiftLeft_add_distrib, ← BitVec.shiftLeft_add,
      ← add_assoc]
    simp
  simp only [getBlock, hshift]
  rw [hbyte 0 b0 rfl (by norm_num), hbyte 1 b1 rfl (by norm_num), hbyte 2 b2 rfl (by norm_num),
    hbyte 3 b3 rfl (by norm_num), hbyte 4 b4 rfl (by norm_num), hbyte 5 b5 rfl (by norm_num),
    hbyte 6 b6 rfl (by norm_num), hbyte 7 b7 rfl (by norm_num), hword]
  have hand : ∀ b, byteWord b &&& 0xff#64 = byteWord b := byteOf_and
  simp only [Bind.bind, Except.bind, Pure.pure, Except.pure, hand]

/-- Eight bytes that stand in the key are read as their word. -/
lemma getBlock_word {bs rest : List UInt8} {index : Nat} (h8 : bs.length = 8)
    (hkey : key.drop (offset + 8 * index) = bs ++ rest) (h32 : offset + 8 * index + 8 ≤ 2 ^ 32) :
    getBlock key offset index = .ok (word bs) := by
  match bs, h8 with
  | [b0, b1, b2, b3, b4, b5, b6, b7], _ => exact getBlock_ok hkey h32

end Reading

/-! ### One block -/

/-- The words of one block that becomes the state `r` of the hash function. -/
lemma hash3X64128_block {key as bs rest : List UInt8} {offset : Nat} (has : as.length = 8)
    (hbs : bs.length = 8) (hkey : key.drop offset = as ++ (bs ++ rest)) (h32 : offset + 16 < 2 ^ 32) :
    hash3X64128 key offset 16 0 = .ok (finalization 16 (mixBlock (word as) (word bs) 0 0).1
      (mixBlock (word as) (word bs) 0 0).2) := by
  have hfirst : getBlock key offset 0 = .ok (word as) := getBlock_word has hkey (by omega)
  have hsecond : getBlock key offset 1 = .ok (word bs) := by
    have hdrop : key.drop (offset + 8 * 1) = bs ++ rest := by
      rw [← List.drop_drop, hkey, List.drop_left' (by omega)]
    exact getBlock_word hbs hdrop (by omega)
  have hbody : body key offset 1 0 0 0 = .ok (mixBlock (word as) (word bs) 0 0) := by
    simp only [body, hfirst, hsecond, Bind.bind, Except.bind, Pure.pure, Except.pure]
  have htail : ∀ offset h1 h2, tail key offset 0 h1 h2 = .ok (h1, h2) := fun _ _ _ => rfl
  simp only [hash3X64128, hbody, htail, Bind.bind, Except.bind, Pure.pure, Except.pure,
    show 16 >>> 4 = 1 from rfl, show 16 &&& 15 = 0 from rfl]
  rfl

lemma invHash3X64128_mixBlock (k1 k2 : BitVec 64) :
    invHash3X64128 (finalization 16 (mixBlock k1 k2 0 0).1 (mixBlock k1 k2 0 0).2) =
      (reverseBytes k1, reverseBytes k2) := by
  have h27 := fun v => @invRotl64_rotl64 v 27 (by norm_num)
  have h31 := fun v => @invRotl64_rotl64 v 31 (by norm_num)
  simp only [invHash3X64128, invFinalization_finalization, mixBlock, add_sub_cancel_right,
    mul_five_mul_inv, h27, h31, add_zero, zero_xor, invMixK1_mixK1, invMixK2_mixK2]

/-- The words that the inverse gives are those of a block that becomes `r`. -/
lemma mixBlock_invHash3X64128 (r : BitVec 64 × BitVec 64) :
    let k1 := reverseBytes (invHash3X64128 r).1
    let k2 := reverseBytes (invHash3X64128 r).2
    finalization 16 (mixBlock k1 k2 0 0).1 (mixBlock k1 k2 0 0).2 = r := by
  have h27 := fun v => @rotl64_invRotl64 v 27 (by norm_num)
  have h31 := fun v => @rotl64_invRotl64 v 31 (by norm_num)
  simp only [invHash3X64128, mixBlock, reverseBytes_reverseBytes, mixK1_invMixK1, mixK2_invMixK2,
    zero_xor, h27, h31, add_zero, sub_add_cancel, mul_inv_mul_five]
  exact finalization_invFinalization 16 r.1 r.2

lemma word_beBytes (w : BitVec 64) : word (beBytes 8 w.toNat) = reverseBytes w := by
  have hvalue : w.toNat % 256 ^ 8 = w.toNat := Nat.mod_eq_of_lt (by have := w.isLt; omega)
  rw [beBytes, ← reverseBytes_word (length_leBytes 8 _), word, leValue_leBytes, hvalue,
    BitVec.ofNat_toNat, BitVec.setWidth_eq]

/-- On one block the inverse gives back the key, as two big-endian words, and the hash function gives
back the state that was inverted. -/
theorem invHash3X64128_inverts :
    (∀ (key : List UInt8) (offset : Nat), offset + 16 ≤ key.length → offset + 16 < 2 ^ 32 →
      ∃ r, hash3X64128 key offset 16 0 = .ok r ∧
        invHash3X64128 r = (BitVec.ofNat 64 (beValue ((key.drop offset).take 8)),
          BitVec.ofNat 64 (beValue ((key.drop (offset + 8)).take 8)))) ∧
    ∀ r : BitVec 64 × BitVec 64, hash3X64128 (beBytes 8 (invHash3X64128 r).1.toNat ++
      beBytes 8 (invHash3X64128 r).2.toNat) 0 16 0 = .ok r := by
  constructor
  · intro key offset hroom h32
    have has : ((key.drop offset).take 8).length = 8 := by
      rw [List.length_take, List.length_drop]
      omega
    have hbs : ((key.drop (offset + 8)).take 8).length = 8 := by
      rw [List.length_take, List.length_drop]
      omega
    have hkey : key.drop offset = (key.drop offset).take 8 ++
        ((key.drop (offset + 8)).take 8 ++ (key.drop (offset + 8)).drop 8) := by
      rw [List.take_append_drop, ← List.drop_drop, List.take_append_drop]
    refine ⟨_, hash3X64128_block has hbs hkey h32, ?_⟩
    rw [invHash3X64128_mixBlock, reverseBytes_word has, reverseBytes_word hbs]
    rfl
  · intro r
    have hblock := @hash3X64128_block _ (beBytes 8 (invHash3X64128 r).1.toNat)
      (beBytes 8 (invHash3X64128 r).2.toNat) [] 0 (length_beBytes 8 _) (length_beBytes 8 _)
      (by rw [List.append_nil, List.drop_zero]) (by norm_num)
    rw [hblock, word_beBytes, word_beBytes, mixBlock_invHash3X64128 r]

/-- The key that becomes two zeros, and a key that starts at the second byte. -/
theorem invHash3X64128_inverts_zero :
    hash3X64128 [0x5e, 0xd0, 0xb8, 0x93, 0xf1, 0x0c, 0x08, 0x8c, 0xcf, 0x0e, 0x00, 0x7b, 0xf6, 0xed,
        0xbf, 0x61] 0 16 0 = .ok (0, 0) ∧
      ∃ r, hash3X64128 [7, 0, 0, 0, 0, 0, 0, 0, 1, 0, 0, 0, 0, 0, 0, 0, 2] 1 16 0 = .ok r ∧
        invHash3X64128 r = (1, 2) := by
  have hinverse : invHash3X64128 (0, 0) = (0x5ed0b893f10c088c, 0xcf0e007bf6edbf61) := by decide
  have h := invHash3X64128_inverts.2 (0, 0)
  rw [hinverse] at h
  exact ⟨h, invHash3X64128_inverts.1 [7, 0, 0, 0, 0, 0, 0, 0, 1, 0, 0, 0, 0, 0, 0, 0, 2] 1
    (by decide) (by decide)⟩

end MurmurHash

end Dibibase
