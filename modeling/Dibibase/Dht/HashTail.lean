import Mathlib.Tactic.IntervalCases
import Dibibase.Dht.MurmurHash
import Dibibase.Util.Numbers

/-!
# The tail of a hashed key

What the last `length % 16` bytes of a key contribute to its hash. Everything behind the switch is
injective, so two keys with the same blocks have the same hash exactly when the switch makes the same
words of their tails. Its cases 11 to 15 read the second byte of the tail again.
-/

namespace Dibibase

open Library

namespace MurmurHash

/-! ### The body -/

section Body

variable {key key' : List UInt8} {offset offset' : Nat}

lemma byteAt_congr {i i' : Nat} (h : key[i]? = key'[i']?) (hi : i < 2 ^ 32) (hi' : i' < 2 ^ 32) :
    byteAt key i = byteAt key' i' := by
  rw [byteAt, byteAt, Nat.mod_eq_of_lt hi, Nat.mod_eq_of_lt hi', h]

lemma getBlock_congr {index : Nat}
    (h : ∀ i < 8, key[offset + 8 * index + i]? = key'[offset' + 8 * index + i]?)
    (h32 : offset + 8 * index + 8 ≤ 2 ^ 32) (h32' : offset' + 8 * index + 8 ≤ 2 ^ 32) :
    getBlock key offset index = getBlock key' offset' index := by
  have hbyte : ∀ i < 8, byteAt key (offset + 8 * index + i) = byteAt key' (offset' + 8 * index + i) :=
    fun i hi => byteAt_congr (h i hi) (by omega) (by omega)
  have hshift : ∀ o : Nat, o + 8 * index + 8 ≤ 2 ^ 32 →
      (o + index <<< 3 % 2 ^ 32) % 2 ^ 32 = o + 8 * index := by
    intro o ho
    rw [Nat.shiftLeft_eq]
    omega
  simp only [getBlock, hshift offset h32, hshift offset' h32']
  rw [hbyte 0 (by norm_num), hbyte 1 (by norm_num), hbyte 2 (by norm_num), hbyte 3 (by norm_num),
    hbyte 4 (by norm_num), hbyte 5 (by norm_num), hbyte 6 (by norm_num), hbyte 7 (by norm_num)]

/-- The body depends on the blocks only. -/
lemma body_congr (blocks i : Nat) (h1 h2 : BitVec 64)
    (h : ∀ j < 16 * (i + blocks), key[offset + j]? = key'[offset' + j]?)
    (h32 : offset + 16 * (i + blocks) ≤ 2 ^ 32) (h32' : offset' + 16 * (i + blocks) ≤ 2 ^ 32) :
    body key offset blocks i h1 h2 = body key' offset' blocks i h1 h2 := by
  induction blocks generalizing i h1 h2 with
  | zero => rfl
  | succ blocks ih =>
    have hblock : ∀ j < 2, getBlock key offset (i * 2 + j) = getBlock key' offset' (i * 2 + j) := by
      intro j hj
      refine getBlock_congr (fun k hk => ?_) (by omega) (by omega)
      rw [Nat.add_assoc, Nat.add_assoc]
      exact h _ (by omega)
    have hrest : body key offset blocks (i + 1) = body key' offset' blocks (i + 1) := by
      funext h1 h2
      exact ih (i + 1) h1 h2 (fun j hj => h j (by omega)) (by omega) (by omega)
    rw [body, body, hblock 0 (by norm_num), hblock 1 (by norm_num), hrest]

lemma getBlock_returns {index : Nat} (hkey : offset + 8 * index + 8 ≤ key.length)
    (h32 : offset + 8 * index + 8 ≤ 2 ^ 32) : ∃ k, getBlock key offset index = .ok k := by
  have h8 : ((key.drop (offset + 8 * index)).take 8).length = 8 := by
    rw [List.length_take, List.length_drop]
    omega
  exact ⟨_, getBlock_word h8 (List.take_append_drop 8 _).symm h32⟩

lemma body_returns (blocks i : Nat) (h1 h2 : BitVec 64)
    (hkey : offset + 16 * (i + blocks) ≤ key.length) (h32 : offset + 16 * (i + blocks) ≤ 2 ^ 32) :
    ∃ h, body key offset blocks i h1 h2 = .ok h := by
  induction blocks generalizing i h1 h2 with
  | zero => exact ⟨_, rfl⟩
  | succ blocks ih =>
    obtain ⟨k1, hk1⟩ := @getBlock_returns key offset (i * 2 + 0) (by omega) (by omega)
    obtain ⟨k2, hk2⟩ := @getBlock_returns key offset (i * 2 + 1) (by omega) (by omega)
    obtain ⟨h, hrest⟩ := ih (i + 1) (mixBlock k1 k2 h1 h2).1 (mixBlock k1 k2 h1 h2).2 (by omega)
      (by omega)
    refine ⟨h, ?_⟩
    rw [body, hk1, hk2]
    exact hrest

end Body

/-! ### The switch -/

/-- What the cases from the label `rest` on make of the bytes `g` of the tail. -/
def assemble (rest : Nat) (g : Nat → UInt8) (k : BitVec 64) : List TailCase → BitVec 64
  | [] => k
  | case :: cases =>
    if case.label ≤ rest then assemble rest g (k ^^^ byteWord (g case.position) <<< case.shift) cases
    else assemble rest g k cases

lemma fallThrough_eq {key : List UInt8} {offset rest : Nat} {g : Nat → UInt8} (cases : List TailCase)
    (h : ∀ case ∈ cases, case.label ≤ rest →
      byteAt key (offset + case.position) = .ok (byteWord (g case.position))) (k : BitVec 64) :
    fallThrough key offset rest k cases = .ok (assemble rest g k cases) := by
  induction cases generalizing k with
  | nil => rfl
  | cons case cases ih =>
    have hrest := ih (fun case' hmem => h case' (by simp [hmem]))
    rw [fallThrough, assemble]
    split
    · next hlabel =>
      rw [h case (by simp) hlabel]
      exact hrest _
    · exact hrest k

/-- Every case reads a byte of the tail. -/
lemma position_lt_label : ∀ case ∈ upperCases ++ lowerCases, case.position < case.label := by
  simp [upperCases, lowerCases]

/-- The switch on a tail whose bytes are `g`. -/
lemma tail_eq {key : List UInt8} {offset rest : Nat} {g : Nat → UInt8}
    (h : ∀ i < rest, byteAt key (offset + i) = .ok (byteWord (g i))) (h1 h2 : BitVec 64) :
    tail key offset rest h1 h2 =
      .ok (if 1 ≤ rest then h1 ^^^ mixK1 (assemble rest g 0 lowerCases) else h1,
        if 9 ≤ rest then h2 ^^^ mixK2 (assemble rest g 0 upperCases) else h2) := by
  have hcases : ∀ case ∈ upperCases ++ lowerCases, case.label ≤ rest →
      byteAt key (offset + case.position) = .ok (byteWord (g case.position)) :=
    fun case hmem hlabel => h _ (lt_of_lt_of_le (position_lt_label case hmem) hlabel)
  rw [tail, fallThrough_eq upperCases (fun case hmem => hcases case (by simp [hmem])),
    fallThrough_eq lowerCases (fun case hmem => hcases case (by simp [hmem]))]
  rfl

lemma assemble_eq_xor (rest : Nat) (g : Nat → UInt8) (k : BitVec 64) (cases : List TailCase) :
    assemble rest g k cases = k ^^^ assemble rest g 0 cases := by
  induction cases generalizing k with
  | nil =>
    rw [assemble, assemble]
    exact BitVec.xor_zero.symm
  | cons case cases ih =>
    rw [assemble, assemble]
    split
    · rw [ih, ih (0 ^^^ _), zero_xor, BitVec.xor_assoc]
    · exact ih k

lemma assemble_cons (rest : Nat) (g : Nat → UInt8) (case : TailCase) (cases : List TailCase) :
    assemble rest g 0 (case :: cases) =
      if case.label ≤ rest then byteWord (g case.position) <<< case.shift ^^^ assemble rest g 0 cases
      else assemble rest g 0 cases := by
  rw [assemble, assemble_eq_xor, zero_xor]

/-- The first cases are combined with what the others make. -/
lemma assemble_append (rest : Nat) (g : Nat → UInt8) (cases cases' : List TailCase) :
    assemble rest g 0 (cases ++ cases') = assemble rest g 0 cases ^^^ assemble rest g 0 cases' := by
  induction cases with
  | nil => exact (zero_xor _).symm
  | cons case cases ih =>
    rw [List.cons_append, assemble_cons, assemble_cons, ih]
    split
    · rw [BitVec.xor_assoc]
    · rfl

/-- Cases that take the first `n` bytes of the tail once each. -/
def casesBelow : Nat → List TailCase
  | 0 => []
  | n + 1 => ⟨n + 1, n, 8 * n⟩ :: casesBelow n

lemma assemble_casesBelow (rest : Nat) (g : Nat → UInt8) (n : Nat) :
    assemble rest g 0 (casesBelow n) = word ((List.range (min rest n)).map g) := by
  induction n with
  | zero =>
    rw [Nat.min_zero]
    rfl
  | succ n ih =>
    rw [casesBelow, assemble_cons, ih]
    by_cases h : n + 1 ≤ rest
    · rw [if_pos h, min_eq_right h, min_eq_right (by omega)]
      exact (wordOf_range_succ g n).symm
    · rw [if_neg h, min_eq_left (by omega), min_eq_left (by omega)]

/-- The cases from 8 on take every byte once. -/
lemma assemble_lowerCases (rest : Nat) (g : Nat → UInt8) :
    assemble rest g 0 lowerCases = word ((List.range (min rest 8)).map g) :=
  assemble_casesBelow rest g 8

/-- The cases 11 to 15, which read the second byte of the tail. -/
def repeatedCases : List TailCase := upperCases.take 5

lemma assemble_congr {rest : Nat} {g g' : Nat → UInt8} (cases : List TailCase)
    (h : ∀ case ∈ cases, g case.position = g' case.position) :
    assemble rest g 0 cases = assemble rest g' 0 cases := by
  induction cases with
  | nil => rfl
  | cons case cases ih =>
    rw [assemble_cons, assemble_cons, h case (by simp), ih (fun case' hmem => h case' (by simp [hmem]))]

/-- The cases 10 and 9 take the two bytes behind the first eight. -/
lemma assemble_upperCases {rest : Nat} (h9 : 9 ≤ rest) (g : Nat → UInt8) :
    assemble rest g 0 upperCases = assemble rest g 0 repeatedCases ^^^
      word ((List.range (min (rest - 8) 2)).map (fun i => g (8 + i))) := by
  have hsplit : upperCases = repeatedCases ++ [⟨10, 9, 8⟩, ⟨9, 8, 0⟩] := rfl
  have hlast : assemble rest g 0 [⟨10, 9, 8⟩, ⟨9, 8, 0⟩] =
      assemble (rest - 8) (fun i => g (8 + i)) 0 (casesBelow 2) := by
    simp only [casesBelow, assemble_cons, show (9 ≤ rest) = True from eq_true h9,
      show (0 + 1 ≤ rest - 8) = True from eq_true (by omega),
      show (1 + 1 ≤ rest - 8) = (10 ≤ rest) from propext (by omega)]
    rfl
  rw [hsplit, assemble_append, hlast, assemble_casesBelow]

/-! ### Equal hashes -/

/-- At most eight bytes can be read off their word. -/
lemma word_range_inj {g g' : Nat → UInt8} {n : Nat} (h8 : n ≤ 8) :
    word ((List.range n).map g) = word ((List.range n).map g') ↔ ∀ i < n, g i = g' i :=
  wordOf_range_inj (by omega)

/-- The two words of the tail are the same exactly when its first ten bytes are. -/
lemma assemble_inj {rest : Nat} {g g' : Nat → UInt8} :
    (assemble rest g 0 lowerCases = assemble rest g' 0 lowerCases ∧
      (9 ≤ rest → assemble rest g 0 upperCases = assemble rest g' 0 upperCases)) ↔
    ∀ i < min rest 10, g i = g' i := by
  rw [assemble_lowerCases, assemble_lowerCases, word_range_inj (min_le_right _ _)]
  by_cases h9 : 9 ≤ rest
  · have hrepeated : (∀ i < min rest 8, g i = g' i) →
        assemble rest g 0 repeatedCases = assemble rest g' 0 repeatedCases := by
      intro h
      refine assemble_congr _ (fun case hmem => ?_)
      have hposition : case.position = 1 := by
        revert case
        simp [repeatedCases, upperCases]
      rw [hposition]
      exact h 1 (by omega)
    rw [assemble_upperCases h9, assemble_upperCases h9]
    constructor
    · rintro ⟨hlow, hhigh⟩ i hi
      by_cases hi8 : i < 8
      · exact hlow i (by omega)
      · have hword := hhigh h9
        rw [hrepeated hlow] at hword
        have hcancel := (BitVec.xor_right_inj _).mp hword
        have h := (word_range_inj (by omega)).mp hcancel (i - 8) (by omega)
        rwa [show 8 + (i - 8) = i by omega] at h
    · intro h
      have hlow : ∀ i < min rest 8, g i = g' i := fun i hi => h i (by omega)
      refine ⟨hlow, fun _ => ?_⟩
      rw [hrepeated hlow, (word_range_inj (by omega)).mpr (fun i hi => h (8 + i) (by omega))]
  · constructor
    · rintro ⟨h, -⟩ i hi
      exact h i (by omega)
    · intro h
      exact ⟨fun i hi => h i (by omega), fun h => absurd h h9⟩

lemma mixK1_inj {v w : BitVec 64} : mixK1 v = mixK1 w ↔ v = w :=
  ⟨fun h => by rw [← invMixK1_mixK1 v, h, invMixK1_mixK1], fun h => by rw [h]⟩

lemma mixK2_inj {v w : BitVec 64} : mixK2 v = mixK2 w ↔ v = w :=
  ⟨fun h => by rw [← invMixK2_mixK2 v, h, invMixK2_mixK2], fun h => by rw [h]⟩

lemma finalization_inj {length h1 h2 h1' h2' : BitVec 64} :
    finalization length h1 h2 = finalization length h1' h2' ↔ h1 = h1' ∧ h2 = h2' := by
  constructor
  · intro h
    have h₁ := invFinalization_finalization length h1 h2
    rw [h, invFinalization_finalization] at h₁
    exact ⟨(congrArg Prod.fst h₁).symm, (congrArg Prod.snd h₁).symm⟩
  · rintro ⟨rfl, rfl⟩
    rfl

/-- The hash of a key from the state behind its blocks and the bytes behind them. -/
lemma hash3X64128_eq {key : List UInt8} {offset n : Nat} {seed : BitVec 64}
    {h : BitVec 64 × BitVec 64} (hbody : body key offset (n / 16) 0 seed seed = .ok h)
    (h32 : offset + n ≤ 2 ^ 32) {g : Nat → UInt8}
    (hg : ∀ i < n % 16, key[offset + 16 * (n / 16) + i]? = some (g i)) :
    hash3X64128 key offset n seed = .ok (finalization (BitVec.ofNat 64 n)
      (if 1 ≤ n % 16 then h.1 ^^^ mixK1 (assemble (n % 16) g 0 lowerCases) else h.1)
      (if 9 ≤ n % 16 then h.2 ^^^ mixK2 (assemble (n % 16) g 0 upperCases) else h.2)) := by
  have hrest : n &&& 15 = n % 16 := Nat.and_two_pow_sub_one_eq_mod n 4
  have hblocks : n >>> 4 = n / 16 := Nat.shiftRight_eq_div_pow n 4
  have hbyte : ∀ i < n % 16, byteAt key ((offset + n / 16 * 16) % 2 ^ 32 + i) = .ok (byteWord (g i)) := by
    intro i hi
    rw [Nat.mod_eq_of_lt (by omega), Nat.mul_comm (n / 16), byteAt, Nat.mod_eq_of_lt (by omega), hg i hi]
  have htail := tail_eq hbyte h.1 h.2
  simp only [hash3X64128, hrest, hblocks, hbody, Bind.bind, Except.bind]
  rw [htail]
  rfl

example : hash3X64128 [89, 101, 115, 32, 87, 101, 32, 97, 114, 101, 32, 104, 101, 114, 101] 0 15 0xFAE =
    .ok (0x65A621C0D6CC7865, 0x7EDC0F9358782055) := rfl

/-- Two keys of length `n` with the same blocks, whose tails differ, have different hashes exactly
when the tails differ in one of their first ten bytes. -/
theorem hash3X64128_distinguishes_iff {key key' : List UInt8} {offset offset' n : Nat}
    (seed : BitVec 64) (hkey : offset + n ≤ key.length) (h32 : offset + n ≤ 2 ^ 32)
    (hkey' : offset' + n ≤ key'.length) (h32' : offset' + n ≤ 2 ^ 32)
    (hblocks : ∀ i < 16 * (n / 16), key[offset + i]? = key'[offset' + i]?)
    (hdiffer : ∃ i < n % 16,
      key[offset + 16 * (n / 16) + i]? ≠ key'[offset' + 16 * (n / 16) + i]?) :
    (∃ r r', hash3X64128 key offset n seed = .ok r ∧ hash3X64128 key' offset' n seed = .ok r' ∧
        r ≠ r') ↔
      ∃ i < n % 16, i < 10 ∧
        key[offset + 16 * (n / 16) + i]? ≠ key'[offset' + 16 * (n / 16) + i]? := by
  obtain ⟨h, hbody⟩ := @body_returns key offset (n / 16) 0 seed seed (by omega) (by omega)
  have hbody' : body key' offset' (n / 16) 0 seed seed = .ok h := by
    rw [← hbody]
    exact (body_congr _ _ _ _ (by simpa using hblocks) (by omega) (by omega)).symm
  have hbytes : ∀ {key : List UInt8} {offset : Nat}, offset + n ≤ key.length → ∀ i < n % 16,
      key[offset + 16 * (n / 16) + i]? = some (key.getD (offset + 16 * (n / 16) + i) 0) := by
    intro key offset hkey i hi
    rw [List.getD_eq_getElem?_getD, List.getElem?_eq_getElem (by omega), Option.getD_some]
  have hhash := hash3X64128_eq hbody h32 (hbytes hkey)
  have hhash' := hash3X64128_eq hbody' h32' (hbytes hkey')
  have hrest : 1 ≤ n % 16 := by
    obtain ⟨i, hi, -⟩ := hdiffer
    omega
  -- The hashes are the same exactly when the words of the tails are.
  have hequal : hash3X64128 key offset n seed = hash3X64128 key' offset' n seed ↔
      ∀ i < min (n % 16) 10, key.getD (offset + 16 * (n / 16) + i) 0 =
        key'.getD (offset' + 16 * (n / 16) + i) 0 := by
    rw [hhash, hhash', Except.ok.injEq, finalization_inj, ← assemble_inj, if_pos hrest, if_pos hrest,
      BitVec.xor_right_inj, mixK1_inj]
    refine and_congr_right (fun _ => ?_)
    by_cases h9 : 9 ≤ n % 16
    · rw [if_pos h9, if_pos h9, BitVec.xor_right_inj, mixK2_inj]
      simp [h9]
    · simp [h9]
  constructor
  · rintro ⟨r, r', hr, hr', hne⟩
    by_contra hsame
    refine hne (Except.ok.inj (hr.symm.trans ((hequal.mpr (fun i hi => ?_)).trans hr')))
    by_contra hbyte
    refine hsame ⟨i, by omega, by omega, ?_⟩
    rw [hbytes hkey i (by omega), hbytes hkey' i (by omega)]
    exact fun h => hbyte (Option.some.inj h)
  · rintro ⟨i, hi, h10, hbyte⟩
    refine ⟨_, _, hhash, hhash', fun hr => hbyte ?_⟩
    have hsame := hequal.mp (by rw [hhash, hhash', hr]) i (by omega)
    rw [hbytes hkey i hi, hbytes hkey' i hi, hsame]

/-- Keys of a block and eight bytes behind it, the second one from the middle of a text. -/
theorem hash3X64128_distinguishes_users :
    ∃ r r', hash3X64128 (text "partition-key-of-user-17") 0 24 0 = .ok r ∧
      hash3X64128 (text "k=partition-key-of-user-18;") 2 24 0 = .ok r' ∧ r ≠ r' := by
  have hblocks : ∀ i < 16 * (24 / 16), (text "partition-key-of-user-17")[0 + i]? =
      (text "k=partition-key-of-user-18;")[2 + i]? := by decide
  exact (hash3X64128_distinguishes_iff 0 (by decide) (by decide) (by decide) (by decide) hblocks
    ⟨7, by decide, by decide⟩).mpr ⟨7, by decide, by decide, by decide⟩

/-- Two keys of eleven bytes that differ in the last one. -/
theorem hash3X64128_same_hash :
    ([0, 1, 2, 3, 4, 5, 6, 7, 8, 9, 10] : List UInt8)[10]? ≠
        ([0, 1, 2, 3, 4, 5, 6, 7, 8, 9, 11] : List UInt8)[10]? ∧
      ¬∃ r r', hash3X64128 [0, 1, 2, 3, 4, 5, 6, 7, 8, 9, 10] 0 11 0 = .ok r ∧
        hash3X64128 [0, 1, 2, 3, 4, 5, 6, 7, 8, 9, 11] 0 11 0 = .ok r' ∧ r ≠ r' := by
  refine ⟨by decide, ?_⟩
  rintro ⟨r, r', hr, hr', hne⟩
  exact hne (Except.ok.inj (hr.symm.trans (Eq.trans rfl hr')))

end MurmurHash

end Dibibase
