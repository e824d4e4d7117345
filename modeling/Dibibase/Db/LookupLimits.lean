import Dibibase.Db.SSTable

/-!
# Limits of the lookup in one SSTable

The summary is in descending order, and `find_page_number` searches it as if it were in
ascending order. So the keys of an SSTable with several pages are looked up in the wrong
ones, and every SSTable that is not one page of at most 255 entries has a key that is not
found.
-/

namespace Dibibase

open Library TableBuilder

namespace TableManager

variable {t : DataType} {es : List (Data × BitVec 64)}

variable (es) in
lemma pagesOf_flatten (h0 : Fits t.length.toNat 0) : (pagesOf t es).flatten = es := by
  simpa [pagesOf] using layout_flatten t.length.toNat h0 [] es

/-- No key stands in two pages. -/
lemma ne_of_pages_ne (he : Entries t es) (h0 : Fits t.length.toNat 0) {i j : Nat}
    {p q : List (Data × BitVec 64)} (hp : (pagesOf t es)[i]? = some p)
    (hq : (pagesOf t es)[j]? = some q) (hij : i ≠ j) {e f : Data × BitVec 64} (hep : e ∈ p)
    (hfq : f ∈ q) : e.1 ≠ f.1 := by
  have hord := Data.ordersOn_compare he.comparable
  have hkeys : ∀ {k : Nat} {l : Data × BitVec 64} {page : List (Data × BitVec 64)},
      (pagesOf t es)[k]? = some page → l ∈ page → l.1 ∈ Data.ofType t := by
    intro k l page hpage hl
    exact he.keysIn l ((pagesOf_sublist (List.mem_of_getElem? hpage)).1.subset hl)
  have hpair : (pagesOf t es).Pairwise
      (fun a b => ∀ x ∈ a, ∀ y ∈ b, Data.compare x.1 y.1 = .ok true) := by
    have hsorted := he.sorted
    rw [← pagesOf_flatten es h0] at hsorted
    exact (List.pairwise_flatten.mp hsorted).2
  obtain ⟨hi, rfl⟩ := List.getElem?_eq_some_iff.mp hp
  obtain ⟨hj, rfl⟩ := List.getElem?_eq_some_iff.mp hq
  rcases Nat.lt_or_gt_of_ne hij with hlt | hgt
  · exact hord.ne (hkeys hp hep) (List.pairwise_iff_getElem.mp hpair i j hi hj hlt e hep f hfq)
  · exact (hord.ne (hkeys hq hfq)
      (List.pairwise_iff_getElem.mp hpair j i hj hi hgt f hfq e hep)).symm

lemma scan_of_not_greater (key : Data) (last : Nat) (ks : List Data) (i : Nat)
    (h : ∀ k ∈ ks, k.compare key = .ok false) :
    Summary.scan key last ks i = .ok (BitVec.ofNat 8 last) := by
  induction ks generalizing i with
  | nil => rfl
  | cons k ks ih =>
    rw [Summary.scan, h k (by simp)]
    exact ih (i + 1) (fun k hk => h k (by simp [hk]))

/-- The lookup of a key goes wrong: it throws, or the page it turns to lacks the key. -/
def Misses (t : DataType) (es : List (Data × BitVec 64)) (key : Data) : Prop :=
  (∃ e, (builtSummary t es).findPageNumber key = .error e) ∨
    ∃ number page, (builtSummary t es).findPageNumber key = .ok number ∧
      (pagesOf t es)[number.toNat]? = some page ∧
      (page.take (page.length % 256)).lookup key = none

lemma lookup_take_eq_none {page : List (Data × BitVec 64)} {key : Data} (n : Nat)
    (h : ∀ f ∈ page, key ≠ f.1) : (page.take n).lookup key = none := by
  rw [List.lookup_eq_none_iff]
  intro f hf
  exact bne_iff_ne.mpr (h f (List.mem_of_mem_take hf))

lemma misses_of_page (he : Entries t es) (h0 : Fits t.length.toNat 0) {i : Nat}
    {p : List (Data × BitVec 64)} {e : Data × BitVec 64} (hp : (pagesOf t es)[i]? = some p)
    (hep : e ∈ p) {number : BitVec 8}
    (hnumber : (builtSummary t es).findPageNumber e.1 = .ok number) (hne : i ≠ number.toNat)
    (hlt : number.toNat < (pagesOf t es).length) : Misses t es e.1 := by
  refine .inr ⟨number, (pagesOf t es)[number.toNat], hnumber, List.getElem?_eq_getElem hlt, ?_⟩
  exact lookup_take_eq_none _ (fun f hf =>
    ne_of_pages_ne he h0 hp (List.getElem?_eq_getElem hlt) hne hep hf)

/-- A page with more than 255 entries loses those behind its count byte. -/
lemma misses_of_count (he : Entries t es) (hcount : 256 ≤ es.length)
    (hpages : pagesOf t es = [es]) (hnumber : ∀ key, (builtSummary t es).findPageNumber key = .ok 0) :
    ∃ e ∈ es, Misses t es e.1 := by
  have hlt : es.length % 256 < es.length := by omega
  refine ⟨es[es.length % 256], List.getElem_mem hlt, .inr ⟨0, es, hnumber _, by simp [hpages], ?_⟩⟩
  rw [List.lookup_eq_none_iff]
  intro f hf
  have hsplit : es = es.take (es.length % 256) ++ es.drop (es.length % 256) :=
    (List.take_append_drop _ _).symm
  have hsorted := he.sorted
  rw [OrderedMap.Sorted, hsplit] at hsorted
  have hbefore := (List.pairwise_append.mp hsorted).2.2 f hf (es[es.length % 256])
    (List.mem_drop_iff_getElem.mpr ⟨0, by simpa using hlt, by simp⟩)
  exact bne_iff_ne.mpr ((Data.ordersOn_compare he.comparable).ne
    (he.keysIn f (List.mem_of_mem_take hf)) hbefore).symm

lemma findPageNumber_of_several (hm : 2 ≤ (builtSummary t es).sortKeys.length) (key : Data) :
    (builtSummary t es).findPageNumber key = Summary.scan key
      ((builtSummary t es).sortKeys.length - 1) (builtSummary t es).sortKeys 0 := by
  rw [Summary.findPageNumber, if_neg (by omega), if_neg (by omega)]

/-- The number of the last page is cut to eight bits. If it is not 0 then, the first key is sent there. -/
lemma misses_first {first : Data × BitVec 64} {rest : List (Data × BitVec 64)}
    (he : Entries t (first :: rest)) (h0 : Fits t.length.toNat 0)
    (hm : 2 ≤ (builtSummary t (first :: rest)).sortKeys.length)
    (hmod : ((builtSummary t (first :: rest)).sortKeys.length - 1) % 256 ≠ 0) :
    Misses t (first :: rest) first.1 := by
  have hord := Data.ordersOn_compare he.comparable
  have hfirst : first.1 ∈ Data.ofType t := he.keysIn first List.mem_cons_self
  have hafter : ∀ e ∈ rest, Data.compare first.1 e.1 = .ok true :=
    (List.pairwise_cons.mp he.sorted).1
  obtain ⟨hpages, -⟩ := length_builtSummary he
  obtain ⟨more, hhead⟩ := layout_head t.length.toNat [first] rest
  have hpage : (pagesOf t (first :: rest))[0]? = some ([first] ++ more) := by
    rw [pagesOf, show layout t.length.toNat [] (first :: rest) = layout t.length.toNat [first] rest by
      simp [layout, h0]]
    exact hhead
  have hnumber : (builtSummary t (first :: rest)).findPageNumber first.1 =
      .ok (BitVec.ofNat 8 ((builtSummary t (first :: rest)).sortKeys.length - 1)) := by
    rw [findPageNumber_of_several hm]
    apply scan_of_not_greater
    intro k hk
    obtain ⟨e, hmem, rfl⟩ := mem_builtSummary he hk
    rcases List.mem_cons.mp hmem with rfl | hmem
    · exact hord.irrefl _ hfirst
    · exact hord.asymm hfirst (he.keysIn e (by simp [hmem])) (hafter e hmem)
  refine misses_of_page he h0 hpage (by simp) hnumber ?_ ?_
  · rw [BitVec.toNat_ofNat]
    exact fun h => hmod h.symm
  · rw [BitVec.toNat_ofNat]
    have hcut := Nat.mod_le ((builtSummary t (first :: rest)).sortKeys.length - 1) (2 ^ 8)
    omega

/-- If the number of the last page is cut to 0, the second key is sent to page 255. -/
lemma misses_second {first second : Data × BitVec 64} {rest : List (Data × BitVec 64)}
    (he : Entries t (first :: second :: rest)) (h0 : Fits t.length.toNat 0)
    (hm : 2 ≤ (builtSummary t (first :: second :: rest)).sortKeys.length)
    (hmod : ((builtSummary t (first :: second :: rest)).sortKeys.length - 1) % 256 = 0) :
    Misses t (first :: second :: rest) second.1 := by
  obtain ⟨hpages, hsize⟩ := length_builtSummary he
  have hafter : Data.compare first.1 second.1 = .ok true :=
    (List.pairwise_cons.mp he.sorted).1 second List.mem_cons_self
  obtain ⟨j, hj⟩ := builtSummary_sortKeys he.listed
  have hcons : ∃ ks, (builtSummary t (first :: second :: rest)).sortKeys = first.1 :: ks := by
    rcases j with _ | j
    · rw [hj] at hm
      simp at hm
    · exact ⟨_, by simpa using hj⟩
  obtain ⟨ks, hks⟩ := hcons
  have hnumber : (builtSummary t (first :: second :: rest)).findPageNumber second.1 =
      .ok 255 := by
    rw [findPageNumber_of_several hm, hks, Summary.scan, hafter]
    rfl
  generalize (builtSummary t (first :: second :: rest)).sortKeys.length = m at *
  have hn : t.length.toNat ≤ 15 := by
    have hkeys : 257 * t.length.toNat ≤ m * t.length.toNat := Nat.mul_le_mul_right _ (by omega)
    omega
  have h1 : Fits t.length.toNat 1 := by
    simp only [Fits]
    omega
  obtain ⟨more, hhead⟩ := layout_head t.length.toNat [first, second] rest
  have hpage : (pagesOf t (first :: second :: rest))[0]? = some ([first, second] ++ more) := by
    rw [pagesOf, show layout t.length.toNat [] (first :: second :: rest) =
      layout t.length.toNat [first, second] rest by simp [layout, h0, h1]]
    exact hhead
  refine misses_of_page he h0 hpage (by simp) hnumber (by decide) ?_
  have hlast : (255 : BitVec 8).toNat = 255 := rfl
  omega

/-- A summary of several keys sends the first or the second key to a page behind its own. -/
lemma misses_of_several (he : Entries t es) (h0 : Fits t.length.toNat 0)
    (hm : 2 ≤ (builtSummary t es).sortKeys.length) : ∃ e ∈ es, Misses t es e.1 := by
  obtain ⟨hpages, -⟩ := length_builtSummary he
  have hmany : (layout t.length.toNat [] es).1 ≠ [] := by
    intro hnil
    simp only [pagesOf, hnil, List.nil_append, List.length_singleton] at hpages
    omega
  rcases es with _ | ⟨first, rest⟩
  · exact absurd rfl hmany
  by_cases hmod : ((builtSummary t (first :: rest)).sortKeys.length - 1) % 256 = 0
  · rcases rest with _ | ⟨second, rest⟩
    · simp [layout, h0] at hmany
    · exact ⟨second, by simp, misses_second he h0 hm hmod⟩
  · exact ⟨first, by simp, misses_first he h0 hm hmod⟩

/-- A summary of one key sends every key to the first page. -/
lemma misses_of_single (he : Entries t es) (h0 : Fits t.length.toNat 0)
    (h : ¬OnePage t es.length)
    (hnumber : ∀ key, (builtSummary t es).findPageNumber key = .ok 0) :
    ∃ e ∈ es, Misses t es e.1 := by
  have hflat := layout_flatten t.length.toNat h0 [] es
  have hone := layout_fst_eq_nil t.length.toNat [] es (by norm_num)
  simp only [List.length_nil, Nat.zero_add] at hone
  cases hfull : (layout t.length.toNat [] es).1 with
  | nil =>
    have hall : pagesOf t es = [es] := by
      rw [hfull] at hflat
      simpa [pagesOf, hfull] using hflat
    refine misses_of_count he ?_ hall hnumber
    by_contra hcount
    exact h ⟨by omega, hone.mp hfull⟩
  | cons p ps =>
    rcases es with _ | ⟨e, rest⟩
    · simp [layout] at hfull
    have hlayout : layout t.length.toNat [] (e :: rest) = layout t.length.toNat [e] rest := by
      simp [layout, h0]
    have hnonempty := layout_ne_nil t.length.toNat h0 [e] rest (by simp)
    rw [← hlayout, hfull] at hnonempty
    have hsecond : ∃ q, (pagesOf t (e :: rest))[1]? = some q ∧ q ≠ [] := by
      rcases ps with _ | ⟨q, ps⟩
      · exact ⟨_, by simp [pagesOf, hfull], hnonempty.2⟩
      · exact ⟨q, by simp [pagesOf, hfull], hnonempty.1 q (by simp)⟩
    obtain ⟨q, hq, hqne⟩ := hsecond
    obtain ⟨f, hf⟩ := List.exists_mem_of_ne_nil q hqne
    have hmem : f ∈ e :: rest := by
      rw [← pagesOf_flatten (e :: rest) h0]
      exact List.mem_flatten.mpr ⟨q, List.mem_of_getElem? hq, hf⟩
    refine ⟨f, hmem, misses_of_page he h0 hq hf (hnumber _) (by decide) ?_⟩
    simp [pagesOf]

/-- An SSTable that is not one page of at most 255 entries has a key that is not found. -/
theorem exists_misses (he : Entries t es) (hne : es ≠ []) (h : ¬OnePage t es.length) :
    ∃ e ∈ es, Misses t es e.1 := by
  obtain ⟨hpages, hsize⟩ := length_builtSummary he
  obtain ⟨first, hfirst⟩ := List.exists_mem_of_ne_nil es hne
  have hthrow : (builtSummary t es).sortKeys.length = 0 → ∃ e ∈ es, Misses t es e.1 := by
    intro hm
    refine ⟨first, hfirst, .inl ⟨.invalidArgument "Summary is empty", ?_⟩⟩
    rw [Summary.findPageNumber, if_pos hm]
  have hzero : (builtSummary t es).sortKeys.length = 1 →
      ∀ key, (builtSummary t es).findPageNumber key = .ok 0 := by
    intro hm key
    rw [Summary.findPageNumber, if_neg (by omega), if_pos hm]
  by_cases h0 : Fits t.length.toNat 0
  · rcases Nat.lt_or_ge (builtSummary t es).sortKeys.length 2 with hm | hm
    · rcases Nat.eq_zero_or_pos (builtSummary t es).sortKeys.length with hm0 | hm1
      · exact hthrow hm0
      · exact misses_of_single he h0 h (hzero (by omega))
    · exact misses_of_several he h0 hm
  · -- No entry fits into any page: all pages are empty.
    obtain ⟨hempty, hlast⟩ := layout_eq_nil t.length.toNat h0 es
    have hn : 4083 ≤ t.length.toNat := by
      simp only [Fits] at h0
      omega
    have hm : (builtSummary t es).sortKeys.length ≤ 1 := by
      by_contra hgt
      have : 2 * t.length.toNat ≤ (builtSummary t es).sortKeys.length * t.length.toNat :=
        Nat.mul_le_mul_right _ (by omega)
      omega
    rcases Nat.eq_zero_or_pos (builtSummary t es).sortKeys.length with hm0 | hm1
    · exact hthrow hm0
    · have hpage : (pagesOf t es)[0]? = some [] := by
        rw [pagesOf, hlast]
        cases hfull : (layout t.length.toNat [] es).1 with
        | nil => rfl
        | cons p ps =>
          rw [hempty p (by simp [hfull])]
          rfl
      exact ⟨first, hfirst, .inr ⟨0, [], hzero (by omega) _, hpage, rfl⟩⟩

/-! ### Flushing and looking up -/

variable {s : Posix Path} {base table : List UInt8} {sstableId : Nat} {schema : Schema}
  {records : List (Data × Record)}

/-- The files of the SSTable are written from the map, and then every key of the sort-key
type is looked up on disk with the result that the map gives. -/
def LookupsAgree (base table : List UInt8) (schema : Schema) (sstableId : Nat) (t : DataType)
    (records : List (Data × Record)) (s : Posix Path) : Prop :=
  ∃ summary s', build base table schema sstableId records s = .ok summary s' ∧
    ∀ key, key.type = t → ∃ s'',
      readSstable base table schema sstableId summary key s' = .ok (records.lookup key) s''

/-- A map whose lookups agree has one page, and its records fit their types. -/
lemma onePage_of_lookupsAgree (hw : s.WritesSucceed) (ht : t.Comparable)
    (hm : Memtable schema t records) (hne : records ≠ [])
    (h : LookupsAgree base table schema sstableId t records s) :
    (∀ p ∈ records, p.2.Sized) ∧ OnePage t records.length := by
  have hord := Data.ordersOn_compare ht
  obtain ⟨summary, s', hbuild, hlook⟩ := h
  have hsized : ∀ p ∈ records, p.2.Sized := by
    intro p hp
    obtain ⟨s'', hread⟩ := hlook p.1 (hm.keysIn p hp)
    rw [OrderedMap.lookup_of_mem hord (v := p.2) records hm.keysIn hm.sorted hp] at hread
    exact readSstable_sized hread
  refine ⟨hsized, ?_⟩
  by_contra hone
  have he := hm.entries ht
  have hlength := length_entriesFrom schema.recordSize 0 records
  obtain ⟨e, hmem, hmiss⟩ := exists_misses he (by
    rw [← List.length_pos_iff, hlength]
    exact List.length_pos_iff.mpr hne) (by rwa [hlength])
  obtain ⟨hsummary, rows, hst⟩ := build_stored hw ht hm hne hbuild
  obtain ⟨p, hp, hpe⟩ := mem_entriesFrom hmem
  have htype : e.1.type = t := he.keysIn e hmem
  obtain ⟨s'', hread⟩ := hlook e.1 htype
  rw [← hpe, OrderedMap.lookup_of_mem hord (v := p.2) records hm.keysIn hm.sorted hp, hpe,
    hsummary] at hread
  rcases hmiss with ⟨ex, hthrow⟩ | ⟨number, page, hnumber, hpage, hnone⟩
  · rw [readSstable, bind_of_error (Process.ofExcept_error hthrow _)] at hread
    cases hread
  · obtain ⟨s₁, hmissing, -⟩ := readSstable_missing schema hst.rows he
      (hm.entries_sized hsized) htype hnumber hpage hnone
    rw [hmissing] at hread
    cases hread

/-- Flushing is invisible to lookups only for maps of one page whose records fit their
types, and for these whenever the rows have fewer than `2 ^ 31` bytes. -/
theorem lookupsAgree_onePage (hw : s.WritesSucceed) (ht : t.Comparable)
    (hm : Memtable schema t records) (hne : records ≠ []) :
    (LookupsAgree base table schema sstableId t records s →
      (∀ p ∈ records, p.2.Sized) ∧ OnePage t records.length) ∧
    (schema.recordSize < 2 ^ 31 → (∀ p ∈ records, p.2.Sized) ∧ OnePage t records.length →
      LookupsAgree base table schema sstableId t records s) := by
  refine ⟨onePage_of_lookupsAgree hw ht hm hne, ?_⟩
  rintro hsize ⟨hsized, hone⟩
  obtain ⟨files, hbuild, hst, -⟩ := build_of_lt hw base table sstableId ht hm hne hsize
  refine ⟨_, _, hbuild, fun key hkey => ?_⟩
  obtain ⟨s'', hread, -⟩ := readSstable_onePage (s := { s with files := files }) hm ht hne hsized
    hsize hone hst.rows hkey
  exact ⟨s'', hread⟩

/-- A map of one row in a table of one column. -/
lemma memtable_single (d : Data) :
    Memtable ⟨0, 0, [⟨[99], d.type⟩]⟩ d.type [(d, ⟨[d]⟩)] where
  verified := by simp [Schema.verify]
  sortKey := by simp
  keysIn := by simp [OrderedMap.KeysIn, Data.ofType]
  sorted := by simp [OrderedMap.Sorted]

/-- Three rows of a table of two columns, on one page. -/
def threeRows : List (Data × Record) :=
  [(.int 300, ⟨[.int 300, .int 3]⟩), (.int 8, ⟨[.int 8, .int 80]⟩), (.int 7, ⟨[.int 7, .int 70]⟩)]

lemma memtable_threeRows :
    Memtable ⟨0, 0, [⟨[107], ⟨.int, 4⟩⟩, ⟨[118], ⟨.int, 4⟩⟩]⟩ ⟨.int, 4⟩ threeRows where
  verified := by decide
  sortKey := by decide
  keysIn := by simp [OrderedMap.KeysIn, threeRows, Data.ofType, Data.type]
  sorted := by
    simp only [OrderedMap.Sorted, threeRows]
    decide

theorem lookupsAgree_threeRows :
    LookupsAgree [47] [116] ⟨0, 0, [⟨[107], ⟨.int, 4⟩⟩, ⟨[118], ⟨.int, 4⟩⟩]⟩ 0 ⟨.int, 4⟩ threeRows
      (Posix.start (fun _ => 0)) := by
  have hsized : ∀ p ∈ threeRows, p.2.Sized := by simp [threeRows, Record.Sized, Data.Sized]
  exact (lookupsAgree_onePage (Posix.writesSucceed_start _) (by decide) memtable_threeRows
    (by simp [threeRows])).2 (by decide) ⟨hsized, by decide⟩

/-- The key of a single row of type ASCII(4083) fits into no index page. -/
theorem not_lookupsAgree_longKey :
    ¬LookupsAgree [47] [116] ⟨0, 0, [⟨[99], ⟨.ascii, 4083⟩⟩]⟩ 0 ⟨.ascii, 4083⟩
      [(.ascii (List.replicate 4083 97), ⟨[.ascii (List.replicate 4083 97)]⟩)]
      (Posix.start (fun _ => 0)) := by
  intro h
  have htype : (Data.ascii (List.replicate 4083 97)).type = ⟨.ascii, 4083⟩ := by
    rw [Data.type, List.length_replicate]
    rfl
  have hm := memtable_single (.ascii (List.replicate 4083 97))
  rw [htype] at hm
  have hone := (onePage_of_lookupsAgree (Posix.writesSucceed_start _) (.inr rfl) hm
    (List.cons_ne_nil _ _) h).2
  exact absurd hone.2 (by decide)

end TableManager

end Dibibase
