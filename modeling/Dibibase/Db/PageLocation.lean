import Dibibase.Db.BuilderOutput

/-!
# Locating the page of a key

The map order is descending, and `find_page_number` scans the first keys as if they
ascended: every key below the first one is sent to page 255, and the first one to the last
page. The scan is right only for an SSTable of a single page, which it does not reach.
-/

namespace Dibibase

open Library TableBuilder

/-- Every stored key is sent to its page, and no key of the type to a page that is not
there. -/
structure Locates (summary : Summary) (t : DataType) (pages : List (List (Data × BitVec 64))) :
    Prop where
  stored : ∀ i page, pages[i]? = some page → ∀ e ∈ page,
    ∃ number, summary.findPageNumber e.1 = .ok number ∧ number.toNat = i
  bounded : ∀ key, key.type = t →
    ∃ number, summary.findPageNumber key = .ok number ∧ number.toNat < pages.length

section Location

variable {summary : Summary} {t : DataType} {pages : List (List (Data × BitVec 64))}

/-- The keys of the summary are the first keys of the pages, as far as they were accepted. -/
def Summarises (summary : Summary) (pages : List (List (Data × BitVec 64))) : Prop :=
  ∃ accepted,
    summary.sortKeys.map some = (pages.map (fun page => page.head?.map Prod.fst)).take accepted

lemma Summarises.cons {first : Data × BitVec 64} {page : List (Data × BitVec 64)}
    (h : Summarises summary ((first :: page) :: pages)) (hne : summary.sortKeys ≠ []) :
    ∃ keys, summary.sortKeys = first.1 :: keys := by
  obtain ⟨accepted, hkeys⟩ := h
  obtain ⟨k, keys, hsort⟩ := List.exists_cons_of_ne_nil hne
  rw [hsort, List.map_cons, List.map_cons] at hkeys
  cases accepted with
  | zero => simp at hkeys
  | succ n =>
    rw [List.take_succ_cons, List.cons.injEq] at hkeys
    have hk : k = first.1 := by simpa using hkeys.1
    exact ⟨keys, by rw [hsort, hk]⟩

/-- With one page there is one key, and the scan is not made. -/
lemma locates_single {page : List (Data × BitVec 64)} (hpage : page ≠ [])
    (h : Summarises summary [page]) (hne : summary.sortKeys ≠ []) : Locates summary t [page] := by
  obtain ⟨first, rest, rfl⟩ := List.exists_cons_of_ne_nil hpage
  obtain ⟨keys, hkeys⟩ := h.cons hne
  have hone : summary.sortKeys.length = 1 := by
    obtain ⟨accepted, htake⟩ := h
    have hlen := congrArg List.length htake
    rw [List.length_map, hkeys, List.length_cons, List.length_take, List.length_map,
      List.length_singleton] at hlen
    rw [hkeys, List.length_cons]
    omega
  have hnumber : ∀ key, summary.findPageNumber key = .ok 0 := by
    intro key
    unfold Summary.findPageNumber
    rw [if_neg (by omega), if_pos hone]
  constructor
  · intro i page hi e _
    have hlt := (List.getElem?_eq_some_iff.mp hi).1
    rw [List.length_singleton] at hlt
    exact ⟨0, hnumber e.1, by simp; omega⟩
  · intro key _
    exact ⟨0, hnumber key, by simp⟩

/-- The first key of the second page is sent to page 0 or to page 255. -/
lemma not_locates_several {first second : Data × BitVec 64} {page page' : List (Data × BitVec 64)}
    (hsorted : OrderedMap.Sorted Data.compare
      ((first :: page) :: (second :: page') :: pages).flatten)
    (h : Summarises summary ((first :: page) :: (second :: page') :: pages))
    (hne : summary.sortKeys ≠ []) :
    ¬Locates summary t ((first :: page) :: (second :: page') :: pages) := by
  intro hlocates
  obtain ⟨number, hfind, hone⟩ := hlocates.stored 1 (second :: page') rfl second (by simp)
  obtain ⟨keys, hkeys⟩ := h.cons hne
  have hgreater : Data.compare first.1 second.1 = .ok true := by
    have hpair := (List.pairwise_cons.mp hsorted).1
    exact hpair second (by simp)
  unfold Summary.findPageNumber at hfind
  rw [hkeys, List.length_cons] at hfind
  by_cases hsingle : keys.length + 1 = 1
  · rw [if_neg (by omega), if_pos hsingle, Except.ok.injEq] at hfind
    rw [← hfind] at hone
    exact absurd hone (by decide)
  · rw [if_neg (by omega), if_neg hsingle, Summary.scan, hgreater] at hfind
    have hlast : (255 : BitVec 8) = number := by
      simpa [Bind.bind, Except.bind, Pure.pure, Except.pure] using hfind
    rw [← hlast] at hone
    exact absurd hone (by decide)

/-- Pages are located exactly in SSTables of one page, whatever the pages hold and however
many of their first keys the summary has accepted. -/
theorem locates_iff (hpages : ∀ page ∈ pages, page ≠ [])
    (hsorted : OrderedMap.Sorted Data.compare pages.flatten) (h : Summarises summary pages)
    (hne : summary.sortKeys ≠ []) : Locates summary t pages ↔ pages.length = 1 := by
  rcases pages with _ | ⟨p, _ | ⟨q, pages⟩⟩
  · obtain ⟨accepted, hkeys⟩ := h
    exact absurd (by simpa using hkeys) hne
  · constructor
    · intro _
      rfl
    · intro _
      exact locates_single (hpages p (by simp)) h hne
  · obtain ⟨first, page, rfl⟩ := List.exists_cons_of_ne_nil (hpages p (by simp))
    obtain ⟨second, page', rfl⟩ := List.exists_cons_of_ne_nil (hpages q (by simp))
    constructor
    · intro hlocates
      exact absurd hlocates (not_locates_several hsorted h hne)
    · intro hlen
      simp at hlen

end Location

/-- The builder's summary has the first keys of the builder's pages. -/
lemma summarises_builtSummary {t : DataType} {es : List (Data × BitVec 64)} (he : Listed t es)
    (hfit : Fits t.length.toNat 0) (hne : es ≠ []) : Summarises (builtSummary t es) (pagesOf t es) := by
  obtain ⟨j, hj⟩ := builtSummary_sortKeys he
  have hheads : (pagesOf t es).map (fun page => page.head?.map Prod.fst) =
      (((pagesOf t es).filterMap List.head?).map Prod.fst).map some := by
    have hnonempty := pagesOf_ne_nil hfit hne
    generalize pagesOf t es = pages at hnonempty
    induction pages with
    | nil => rfl
    | cons page pages ih =>
      obtain ⟨e, rest, rfl⟩ := List.exists_cons_of_ne_nil (hnonempty page (by simp))
      simpa using ih (fun page hpage => hnonempty page (List.mem_cons_of_mem _ hpage))
  rw [pagesOf_heads hfit hne] at hheads
  refine ⟨j, ?_⟩
  rw [hheads, ← List.map_take, hj]

/-- Three rows of 8 bytes, on one page. -/
def threeEntries : List (Data × BitVec 64) := [(.int 300, 0), (.int 8, 8), (.int 7, 16)]

theorem locates_threeRows :
    Locates (builtSummary ⟨.int, 4⟩ threeEntries) ⟨.int, 4⟩ (pagesOf ⟨.int, 4⟩ threeEntries) := by
  have hsorted : OrderedMap.Sorted Data.compare (pagesOf ⟨.int, 4⟩ threeEntries).flatten := by
    have hpages : (pagesOf ⟨.int, 4⟩ threeEntries).flatten = threeEntries := by decide
    rw [hpages]
    simp only [OrderedMap.Sorted, threeEntries]
    decide
  exact (locates_iff (by decide) hsorted ⟨1, by decide⟩ (by decide)).mpr (by decide)

/-- Two keys of 2038 bytes, each of which fills a page of its own. -/
theorem not_locates_twoPages :
    ¬Locates
      (builtSummary ⟨.ascii, 2038⟩
        [(.ascii (List.replicate 2038 98), 0), (.ascii (List.replicate 2038 97), 2038)])
      ⟨.ascii, 2038⟩
      (pagesOf ⟨.ascii, 2038⟩
        [(.ascii (List.replicate 2038 98), 0), (.ascii (List.replicate 2038 97), 2038)]) := by
  have hpages : ∀ e f : Data × BitVec 64, pagesOf ⟨.ascii, 2038⟩ [e, f] = [[e], [f]] := by
    intro e f
    simp [pagesOf, layout, Fits]
  have hb : (Data.ascii (List.replicate 2038 98)).type = ⟨.ascii, 2038⟩ := by
    rw [Data.type, List.length_replicate]
    rfl
  have ha : (Data.ascii (List.replicate 2038 97)).type = ⟨.ascii, 2038⟩ := by
    rw [Data.type, List.length_replicate]
    rfl
  have hgreater : Data.compare (.ascii (List.replicate 2038 98)) (.ascii (List.replicate 2038 97)) =
      .ok true := by
    rw [List.replicate_succ, List.replicate_succ]
    rfl
  generalize Data.ascii (List.replicate 2038 98) = b at hb hgreater
  generalize Data.ascii (List.replicate 2038 97) = a at ha hgreater
  have he : Entries ⟨.ascii, 2038⟩ [(b, 0), (a, 2038)] := by
    refine ⟨.inr rfl, ?_, ?_⟩
    · simp [OrderedMap.KeysIn, Data.mem_ofType, ha, hb]
    · simpa [OrderedMap.Sorted] using hgreater
  have hsummary := summarises_builtSummary he.listed (by decide) (by simp)
  have hne : (builtSummary ⟨.ascii, 2038⟩ [(b, 0), (a, 2038)]).sortKeys ≠ [] := by
    simp [builtSummary, offered, Fits, pushAll, Summary.pushBack, Summary.size, DataType.size]
  rw [hpages] at hsummary ⊢
  exact not_locates_several (by simpa [OrderedMap.Sorted] using hgreater) hsummary hne

end Dibibase
