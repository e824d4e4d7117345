import Dibibase.Db.SSTable
import Mathlib.Data.Finset.Card

/-!
# Pages that are read back

Admission to an index page or a summary is decided by a byte budget, and the decoder is
driven by a one-byte count. The two agree when the keys are long enough that 256 of them
exceed the budget, or when at most 255 of them are offered.
-/

namespace Dibibase

open Library TableBuilder

lemma decode_returns {α : Type} {P : α → Prop} {m : BufferM α} (hm : Returns P m)
    {buf : List UInt8} {a : α} (h : decode m buf = .ok a) : P a := by
  unfold decode at h
  obtain ⟨r, hrun, h⟩ := except_bind_eq_ok h
  cases h
  exact hm _ _ _ hrun

namespace IndexPage

/-- The page after calls of `push_back`, starting from an empty one. -/
def pushCalls (t : DataType) (calls : List (Data × BitVec 64)) : Except Exception IndexPage :=
  calls.foldlM (fun p c => return (← p.pushBack c.1 c.2).2) ⟨[], t⟩

/-- The page that the calls build is written to 4096 bytes and read back as it was. -/
def ReadsBack (t : DataType) (calls : List (Data × BitVec 64)) : Prop :=
  ∃ p buf, pushCalls t calls = .ok p ∧ serialise 4096 p.bytes = .ok buf ∧
    decode IndexPage.from buf = .ok p

/-- The number of different keys among the calls. -/
def distinctKeys (calls : List (Data × BitVec 64)) : Nat := (calls.map Prod.fst).toFinset.card

/-- A call with the key is made while the keys offered before leave room for it. -/
def Admitted (n : Nat) (calls : List (Data × BitVec 64)) (key : Data) : Prop :=
  ∃ before c after, calls = before ++ c :: after ∧ Fits n (distinctKeys before) ∧ c.1 = key

/-- What a page holds after the calls. -/
structure Pushed (t : DataType) (calls : List (Data × BitVec 64)) (p : IndexPage) : Prop where
  type : p.type = t
  entries : Entries t p.sortKeys
  size : 6 + p.sortKeys.length * (t.length.toNat + 8) ≤ 4096
  keys : ∀ k, k ∈ p.sortKeys.map Prod.fst ↔ Admitted t.length.toNat calls k
  full : Fits t.length.toNat p.sortKeys.length → ∀ c ∈ calls, c.1 ∈ p.sortKeys.map Prod.fst

lemma admitted_append {n : Nat} {calls : List (Data × BitVec 64)} {c : Data × BitVec 64}
    {key : Data} : Admitted n (calls ++ [c]) key ↔
      Admitted n calls key ∨ (Fits n (distinctKeys calls) ∧ c.1 = key) := by
  constructor
  · rintro ⟨before, d, after, heq, hfit, hkey⟩
    rcases List.eq_nil_or_concat after with rfl | ⟨after', x, rfl⟩
    · obtain ⟨rfl, hd⟩ := List.append_inj' heq rfl
      obtain rfl : c = d := by simpa using hd
      exact .inr ⟨hfit, hkey⟩
    · have hsplit : calls ++ [c] = (before ++ d :: after') ++ [x] := by simpa using heq
      exact .inl ⟨before, d, after', (List.append_inj' hsplit rfl).1, hfit, hkey⟩
  · rintro (⟨before, d, after, heq, hfit, hkey⟩ | ⟨hfit, hkey⟩)
    · exact ⟨before, d, after ++ [c], by simp [heq], hfit, hkey⟩
    · exact ⟨calls, c, [], rfl, hfit, hkey⟩

namespace Pushed

variable {t : DataType} {calls : List (Data × BitVec 64)} {p : IndexPage}

lemma length_eq (h : Pushed t calls p) :
    p.sortKeys.length = (p.sortKeys.map Prod.fst).toFinset.card := by
  have hnodup := OrderedMap.nodup_keys (Data.ordersOn_compare h.entries.comparable)
    h.entries.keysIn h.entries.sorted
  rw [List.toFinset_card_of_nodup hnodup, List.length_map]

lemma subset (h : Pushed t calls p) :
    (p.sortKeys.map Prod.fst).toFinset ⊆ (calls.map Prod.fst).toFinset := by
  intro k hk
  obtain ⟨before, c, after, rfl, -, rfl⟩ := (h.keys k).mp (List.mem_toFinset.mp hk)
  simp

/-- The page has room exactly when all keys offered so far leave room. -/
lemma fits_iff (h : Pushed t calls p) :
    Fits t.length.toNat p.sortKeys.length ↔ Fits t.length.toNat (distinctKeys calls) := by
  constructor
  · intro hfit
    have hle : distinctKeys calls ≤ p.sortKeys.length := by
      rw [h.length_eq]
      apply Finset.card_le_card
      intro k hk
      obtain ⟨c, hc, rfl⟩ := List.mem_map.mp (List.mem_toFinset.mp hk)
      exact List.mem_toFinset.mpr (h.full hfit c hc)
    have hmul := Nat.mul_le_mul_right (t.length.toNat + 8) hle
    unfold Fits at hfit ⊢
    omega
  · intro hfit
    have hle : p.sortKeys.length ≤ distinctKeys calls := by
      rw [h.length_eq]
      exact Finset.card_le_card h.subset
    have hmul := Nat.mul_le_mul_right (t.length.toNat + 8) hle
    unfold Fits at hfit ⊢
    omega

/-- One more call. -/
lemma pushBack (h : Pushed t calls p) {c : Data × BitVec 64} (hc : c.1.type = t) :
    ∃ b p', p.pushBack c.1 c.2 = .ok (b, p') ∧ Pushed t (calls ++ [c]) p' := by
  have hcond : p.size + p.type.length.toNat + 8 > 4096 ↔
      ¬Fits t.length.toNat p.sortKeys.length := by
    rw [IndexPage.size, h.type]
    simp only [DataType.size, Fits]
    omega
  have hkey : c.1 ∈ Data.ofType t := Data.mem_ofType.mpr hc
  by_cases hfit : Fits t.length.toNat p.sortKeys.length
  · have hclone : c.1.clone = c.1 := Data.clone_of_comparable (hc ▸ h.entries.comparable)
    obtain ⟨m, hassign, hsorted, hkeys⟩ := OrderedMap.assign_keys
      (Data.ordersOn_compare h.entries.comparable) hkey c.2 p.sortKeys h.entries.keysIn
      h.entries.sorted
    refine ⟨true, { p with sortKeys := m }, ?_, h.type,
      ⟨h.entries.comparable, h.entries.keysIn.of_keys hkey hkeys, hsorted⟩, ?_, ?_, ?_⟩
    · rw [IndexPage.pushBack, if_neg (by simpa only [hcond, not_not] using hfit), hclone, hassign]
      rfl
    · have hlen := (OrderedMap.assign_bounds hassign).1
      have hmul := Nat.mul_le_mul_right (t.length.toNat + 8) hlen
      unfold Fits at hfit
      rw [Nat.add_mul, Nat.one_mul] at hmul
      change 6 + m.length * (t.length.toNat + 8) ≤ 4096
      omega
    · intro k
      rw [hkeys, admitted_append, h.keys, ← h.fits_iff]
      constructor
      · rintro (rfl | hk)
        · exact .inr ⟨hfit, rfl⟩
        · exact .inl hk
      · rintro (hk | ⟨-, rfl⟩)
        · exact .inr hk
        · exact .inl rfl
    · intro _ d hd
      rw [hkeys]
      rcases List.mem_append.mp hd with hd | hd
      · exact .inr (h.full hfit d hd)
      · exact .inl (by rw [List.mem_singleton.mp hd])
  · refine ⟨false, p, ?_, h.type, h.entries, h.size, ?_, fun hroom => absurd hroom hfit⟩
    · rw [IndexPage.pushBack, if_pos (hcond.mpr hfit)]
    · intro k
      rw [admitted_append, h.keys, ← h.fits_iff]
      simp [hfit]

end Pushed

/-- Calls with keys of one type never throw. -/
lemma exists_pushed {t : DataType} (ht : t.Comparable) (calls : List (Data × BitVec 64))
    (hk : ∀ c ∈ calls, c.1.type = t) : ∃ p, pushCalls t calls = .ok p ∧ Pushed t calls p := by
  induction calls using List.reverseRecOn with
  | nil =>
    refine ⟨⟨[], t⟩, rfl, rfl, ⟨ht, by simp [OrderedMap.KeysIn], by simp [OrderedMap.Sorted]⟩,
      by simp, ?_, by simp⟩
    intro k
    simp [Admitted]
  | append_singleton calls c ih =>
    obtain ⟨p, hrun, hp⟩ := ih (fun d hd => hk d (by simp [hd]))
    obtain ⟨b, p', hpush, hp'⟩ := hp.pushBack (hk c (by simp))
    refine ⟨p', ?_, hp'⟩
    unfold pushCalls at hrun ⊢
    rw [List.foldlM_append, hrun]
    simp [Bind.bind, Except.bind, hpush, Pure.pure, Except.pure]

/-- The count byte suffices when 256 keys do not fit or are not offered. -/
lemma Pushed.length_le_iff {t : DataType} {calls : List (Data × BitVec 64)} {p : IndexPage}
    (h : Pushed t calls p) :
    p.sortKeys.length ≤ 255 ↔ 8 ≤ t.length.toNat ∨ distinctKeys calls ≤ 255 := by
  have hle : p.sortKeys.length ≤ distinctKeys calls := by
    rw [h.length_eq]
    exact Finset.card_le_card h.subset
  constructor
  · intro hlen
    by_cases hn : 8 ≤ t.length.toNat
    · exact .inl hn
    · right
      have hfit : Fits t.length.toNat p.sortKeys.length := by
        have hmul : p.sortKeys.length * (t.length.toNat + 8) ≤ 255 * 15 :=
          Nat.mul_le_mul hlen (by omega)
        unfold Fits
        omega
      calc distinctKeys calls ≤ (p.sortKeys.map Prod.fst).toFinset.card := by
            apply Finset.card_le_card
            intro k hk
            obtain ⟨c, hc, rfl⟩ := List.mem_map.mp (List.mem_toFinset.mp hk)
            exact List.mem_toFinset.mpr (h.full hfit c hc)
        _ = p.sortKeys.length := h.length_eq.symm
        _ ≤ 255 := hlen
  · rintro (hn | hfew)
    · have hmul : p.sortKeys.length * 16 ≤ p.sortKeys.length * (t.length.toNat + 8) :=
        Nat.mul_le_mul_left _ (by omega)
      have hsize := h.size
      omega
    · omega

lemma readsBack_iff {t : DataType} (ht : t.Comparable) (calls : List (Data × BitVec 64))
    (hk : ∀ c ∈ calls, c.1.type = t) :
    ReadsBack t calls ↔ (8 ≤ t.length.toNat ∨ distinctKeys calls ≤ 255) ∧
      ∀ key, Admitted t.length.toNat calls key → key.Sized := by
  obtain ⟨p, hrun, hp⟩ := exists_pushed ht calls hk
  have heta : (⟨p.sortKeys, t⟩ : IndexPage) = p := by rw [← hp.type]
  have hser := hp.entries.listed.serialise_page hp.size
  have hsized : (∀ e ∈ p.sortKeys, e.1.Sized) ↔
      ∀ key, Admitted t.length.toNat calls key → key.Sized := by
    simp only [← hp.keys, List.mem_map]
    constructor
    · rintro h key ⟨e, he, rfl⟩
      exact h e he
    · intro h e he
      exact h e.1 ⟨e, he, rfl⟩
  rw [← hp.length_le_iff, ← hsized]
  constructor
  · rintro ⟨p', buf, hrun', hser', hdecode⟩
    obtain rfl : p' = p := by simpa [hrun'] using hrun
    exact decode_returns returns_from hdecode
  · rintro ⟨hlen, hs⟩
    refine ⟨p, pageImage ⟨p.sortKeys, t⟩, hrun, by rw [← hser, heta], ?_⟩
    rw [TableManager.decode_pageImage hp.entries hs hp.size,
      Nat.mod_eq_of_lt (by omega), List.take_length, heta]

end IndexPage

namespace Summary

/-- The summary after calls of `push_back`, starting from an empty one. -/
def pushCalls (t : DataType) (keys : List Data) : Summary :=
  keys.foldl (fun s key => (s.pushBack key).2) ⟨[], t⟩

/-- The summary that the calls build is written to 4096 bytes and read back as it was. -/
def ReadsBack (t : DataType) (keys : List Data) : Prop :=
  ∃ buf, serialise 4096 (pushCalls t keys).bytes = .ok buf ∧
    decode Summary.from buf = .ok (pushCalls t keys)

/-- The key is offered while the keys before it leave room. -/
def Admitted (n : Nat) (keys : List Data) (key : Data) : Prop :=
  ∃ i, keys[i]? = some key ∧ 6 + (i + 1) * n ≤ 4096

/-- What a summary holds after the calls. -/
structure Pushed (t : DataType) (keys : List Data) (s : Summary) : Prop where
  type : s.type = t
  taken : s.sortKeys = keys.take s.sortKeys.length
  size : 6 + s.sortKeys.length * t.length.toNat ≤ 4096
  accepted : ∀ i < keys.length, i < s.sortKeys.length ↔ 6 + (i + 1) * t.length.toNat ≤ 4096

namespace Pushed

variable {t : DataType} {keys : List Data} {s : Summary}

lemma length_le (h : Pushed t keys s) : s.sortKeys.length ≤ keys.length := by
  have hlen := congrArg List.length h.taken
  rw [List.length_take] at hlen
  omega

lemma pushBack (h : Pushed t keys s) (ht : t.Comparable) {key : Data} (hkey : key.type = t) :
    Pushed t (keys ++ [key]) (s.pushBack key).2 := by
  have hclone : key.clone = key := Data.clone_of_comparable (hkey ▸ ht)
  have hle := h.length_le
  have hsize : s.size + s.type.length.toNat =
      6 + (s.sortKeys.length + 1) * t.length.toNat := by
    rw [Summary.size, h.type, DataType.size, Nat.add_mul]
    omega
  unfold Summary.pushBack
  by_cases hfull : s.size + s.type.length.toNat > 4096
  · rw [if_pos hfull]
    refine ⟨h.type, ?_, h.size, ?_⟩
    · rw [List.take_append_of_le_length hle]
      exact h.taken
    · intro i hi
      rw [List.length_append, List.length_singleton] at hi
      by_cases hlast : i < keys.length
      · exact h.accepted i hlast
      · have hmul := Nat.mul_le_mul_right t.length.toNat (show s.sortKeys.length + 1 ≤ i + 1 by omega)
        constructor
        · intro hlt
          exact absurd hlt (by change ¬i < s.sortKeys.length; omega)
        · intro hroom
          omega
  · rw [if_neg hfull, hclone]
    -- All keys so far have been accepted.
    have hall : s.sortKeys.length = keys.length := by
      by_contra hne
      have hlt : s.sortKeys.length < keys.length := by omega
      have hnext := (h.accepted _ hlt).mpr (by omega)
      omega
    have hkeys : s.sortKeys = keys := by
      rw [h.taken, hall, List.take_length]
    refine ⟨h.type, ?_, ?_, ?_⟩
    · simp [hkeys]
    · simp only [List.length_append, List.length_singleton]
      omega
    · intro i hi
      simp only [List.length_append, List.length_singleton, hall] at hi ⊢
      have hmul := Nat.mul_le_mul_right t.length.toNat (show i + 1 ≤ keys.length + 1 by omega)
      rw [hall] at hsize
      constructor
      · intro _
        omega
      · intro _
        exact hi

end Pushed

lemma pushed_pushCalls {t : DataType} (ht : t.Comparable) (keys : List Data)
    (hk : ∀ k ∈ keys, k.type = t) : Pushed t keys (pushCalls t keys) := by
  induction keys using List.reverseRecOn with
  | nil => exact ⟨rfl, rfl, by simp [pushCalls], by simp⟩
  | append_singleton keys key ih =>
    have hrest := ih (fun k hmem => hk k (by simp [hmem]))
    unfold pushCalls at hrest ⊢
    rw [List.foldl_append]
    exact hrest.pushBack ht (hk key (by simp))

/-- The count byte suffices when 256 keys do not fit or are not offered. -/
lemma Pushed.length_le_iff {t : DataType} {keys : List Data} {s : Summary} (h : Pushed t keys s) :
    s.sortKeys.length ≤ 255 ↔ 16 ≤ t.length.toNat ∨ keys.length ≤ 255 := by
  have hle := h.length_le
  constructor
  · intro hlen
    by_contra hnot
    rw [not_or] at hnot
    have hnext := (h.accepted 255 (by omega)).mpr (by omega)
    omega
  · rintro (hn | hfew)
    · have hmul := Nat.mul_le_mul_left s.sortKeys.length hn
      have hsize := h.size
      omega
    · omega

lemma Pushed.sized_iff {t : DataType} {keys : List Data} {s : Summary} (h : Pushed t keys s) :
    (∀ k ∈ s.sortKeys, k.Sized) ↔ ∀ key, Admitted t.length.toNat keys key → key.Sized := by
  have hmem : ∀ key, key ∈ s.sortKeys ↔ Admitted t.length.toNat keys key := by
    intro key
    rw [h.taken, List.mem_take_iff_getElem]
    constructor
    · rintro ⟨i, hi, rfl⟩
      refine ⟨i, by simp, ?_⟩
      exact (h.accepted i (by omega)).mp (by omega)
    · rintro ⟨i, hi, hroom⟩
      obtain ⟨hlt, rfl⟩ := List.getElem?_eq_some_iff.mp hi
      have htaken := (h.accepted i hlt).mpr hroom
      exact ⟨i, by omega, rfl⟩
  simp only [hmem]

lemma readsBack_iff {t : DataType} (ht : t.Comparable) (keys : List Data)
    (hk : ∀ k ∈ keys, k.type = t) :
    ReadsBack t keys ↔ (16 ≤ t.length.toNat ∨ keys.length ≤ 255) ∧
      ∀ key, Admitted t.length.toNat keys key → key.Sized := by
  have hp := pushed_pushCalls ht keys hk
  rw [← hp.length_le_iff, ← hp.sized_iff]
  unfold ReadsBack
  generalize pushCalls t keys = s at hp
  have htype : ∀ k ∈ s.sortKeys, k.type = s.type := by
    intro k hmem
    rw [hp.taken] at hmem
    rw [hp.type]
    exact hk k (List.mem_of_mem_take hmem)
  have hlen : s.encode.length ≤ 4096 := by
    rw [length_encode htype, Summary.size, hp.type]
    exact hp.size
  constructor
  · rintro ⟨buf, -, hdecode⟩
    exact ⟨decode_returns returns_length hdecode, decode_returns returns_sized hdecode⟩
  · rintro ⟨hcount, hs⟩
    refine ⟨_, serialise_of_writes s.writes_bytes hlen (by norm_num), ?_⟩
    apply decode_of_reads (reads_from htype hs hcount)
    rw [List.length_append, List.length_replicate]
    omega

end Summary

/-- Index pages and summaries are read back as they were built exactly when the keys are
long enough for the count byte, or few enough, and no accepted key is too large. -/
theorem pages_readBack_iff {t : DataType} (ht : t.Comparable) :
    (∀ calls : List (Data × BitVec 64), (∀ c ∈ calls, c.1.type = t) →
      (IndexPage.ReadsBack t calls ↔
        (8 ≤ t.length.toNat ∨ IndexPage.distinctKeys calls ≤ 255) ∧
          ∀ key, IndexPage.Admitted t.length.toNat calls key → key.Sized)) ∧
    (∀ keys : List Data, (∀ k ∈ keys, k.type = t) →
      (Summary.ReadsBack t keys ↔ (16 ≤ t.length.toNat ∨ keys.length ≤ 255) ∧
        ∀ key, Summary.Admitted t.length.toNat keys key → key.Sized)) :=
  ⟨fun calls hk => IndexPage.readsBack_iff ht calls hk,
    fun keys hk => Summary.readsBack_iff ht keys hk⟩

/-- An INT page with two entries and an INT summary with one key. -/
theorem pages_readBack_int :
    IndexPage.ReadsBack ⟨.int, 4⟩ [(.int 1, 0), (.int 2, 8)] ∧
      Summary.ReadsBack ⟨.int, 4⟩ [.int 1] := by
  have hback := pages_readBack_iff (t := ⟨.int, 4⟩) (.inl (by decide))
  have hsized : ∀ d : Data, d.type = ⟨.int, 4⟩ → d.Sized := by
    intro d hd
    apply Data.sized_of_id
    simp [hd]
  constructor
  · apply (hback.1 [(.int 1, 0), (.int 2, 8)] (by decide)).mpr
    refine ⟨.inr (by decide), ?_⟩
    rintro key ⟨before, c, after, hcalls, -, rfl⟩
    have hmem : c ∈ [(Data.int 1, (0 : BitVec 64)), (.int 2, 8)] := by
      rw [hcalls]
      simp
    simp only [List.mem_cons, List.not_mem_nil, or_false] at hmem
    rcases hmem with rfl | rfl <;> exact hsized _ rfl
  · apply (hback.2 [.int 1] (by decide)).mpr
    refine ⟨.inr (by decide), ?_⟩
    rintro key ⟨i, hi, -⟩
    obtain rfl : key = .int 1 := by simpa using List.mem_of_getElem? hi
    exact hsized _ rfl

/-- All 256 TINYINT keys are accepted by a page, whose count byte is then zero. -/
theorem not_readsBack_tinyints :
    ¬IndexPage.ReadsBack ⟨.tinyint, 1⟩
      ((List.range 256).map (fun i => (.tinyint (BitVec.ofNat 8 i), BitVec.ofNat 64 i))) := by
  intro h
  have hiff := IndexPage.readsBack_iff (t := ⟨.tinyint, 1⟩) (.inl (by decide))
    ((List.range 256).map (fun i => (.tinyint (BitVec.ofNat 8 i), BitVec.ofNat 64 i))) (by
      intro c hc
      obtain ⟨i, -, rfl⟩ := List.mem_map.mp hc
      rfl)
  have hcount : IndexPage.distinctKeys
      ((List.range 256).map (fun i => (.tinyint (BitVec.ofNat 8 i), BitVec.ofNat 64 i))) = 256 := by
    unfold IndexPage.distinctKeys
    rw [List.toFinset_card_of_nodup, List.length_map, List.length_map, List.length_range]
    rw [List.map_map]
    apply List.Nodup.map_on _ List.nodup_range
    intro i hi j hj heq
    have hnat := congrArg BitVec.toNat (Data.tinyint.inj heq)
    rw [List.mem_range] at hi hj
    rw [BitVec.toNat_ofNat, BitVec.toNat_ofNat] at hnat
    omega
  rcases (hiff.mp h).1 with hn | hfew
  · exact absurd hn (by decide)
  · omega

end Dibibase
