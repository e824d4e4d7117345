import Dibibase.Db.FailedFlush
import Dibibase.Db.LookupLimits

/-!
# How long a sort key may be

An SSTable has two records, and both are found only if their keys stand in one index page. Keys of
more than 2037 bytes do not, and then a table loses a record as soon as it flushes: it answers as a
layered store only as long as all its records have one key.
-/

namespace Dibibase

open Library TableBuilder

namespace TableManager

variable {tm : TableManager} {s : Posix Path} {t : DataType} {store : LayeredStore Data Record}

/-- Lookups, with keys of any type, give back the records that the store has, and no others. -/
def Answers (st : TableManager × Posix Path) (store : LayeredStore Data Record) : Prop :=
  ∀ key record, answer st key = .ok record ↔ store.read key = some record

lemma found_eq_ok {result : Option Record} {record : Record} :
    found result = .ok record ↔ result = some record := by
  cases result <;> simp [found]

/-- Two keys that share a page are found, and keys of other types are not. -/
lemma answers_of_onePage (ht : t.Comparable) (hone : OnePage t 2)
    (hsize : tm.schema.recordSize < 2 ^ 31) (h : Represents t (tm, s) store) :
    Answers (tm, s) store := by
  intro key record
  obtain ⟨layers, hfrozen, hlayers⟩ := h.frozen
  have hholding : Holding t (tm, s) layers := ⟨h.memtable, h.sized, h.small, hfrozen.frozenRows⟩
  by_cases hkey : key.type = t
  · have hcontents : contents tm layers key = store.read key := by
      rw [contents, LayeredStore.read, h.top, hlayers]
    rw [answer_holding ht (fun _ => hone) hsize hholding hkey, hcontents, found_eq_ok]
  · rw [h.read_otherType hkey]
    simpa using answer_ne_ok_of_otherType ht hone hholding hkey record

/-- Without SSTables only the memtable is asked. -/
lemma answers_of_unfrozen (ht : t.Comparable) (h : Represents t (tm, s) store)
    (hfrozen : store.frozen = []) : Answers (tm, s) store := by
  intro key record
  have hid : tm.currentSstableId = 0 := by rw [h.id, hfrozen, List.length_nil]
  have hread : store.read key = tm.memtable.lookup key := by
    rw [LayeredStore.read, hfrozen, h.top]
    exact Option.or_none
  rw [hread]
  unfold answer readRecord
  rw [hid]
  cases hfind : OrderedMap.find Data.compare key tm.memtable with
  | error e =>
    rw [outcome_bind_of_error (Process.ofExcept_error rfl s)]
    refine iff_of_false (by simp) (fun hlookup => ?_)
    have hkey : key.type = t := by
      by_contra hother
      rw [lookup_otherType h.memtable.keysIn hother] at hlookup
      cases hlookup
    rw [OrderedMap.find_eq_lookup (Data.ordersOn_compare ht) (Data.mem_ofType.mpr hkey) _
      h.memtable.keysIn h.memtable.sorted] at hfind
    cases hfind
  | ok found =>
    rw [outcome_bind_of_ok (Process.ofExcept_ok rfl s)]
    by_cases hkey : key.type = t
    · rw [OrderedMap.find_eq_lookup (Data.ordersOn_compare ht) (Data.mem_ofType.mpr hkey) _
        h.memtable.keysIn h.memtable.sorted, Except.ok.injEq] at hfind
      rw [hfind]
      cases found with
      | none => exact iff_of_false (by simp [readSstables, outcome]) (by simp)
      | some old => simp [outcome]
    · rw [lookup_otherType h.memtable.keysIn hkey]
      cases found with
      | none => exact iff_of_false (by simp [readSstables, outcome]) (by simp)
      | some old =>
        obtain ⟨k, hk, hbefore, hafter⟩ := OrderedMap.find_eq_some_bounds hfind
        have hktype : k.type = t := h.memtable.keysIn _ hk
        have heq := Data.eq_of_not_compare (hktype ▸ ht) hbefore hafter
        exact absurd (heq ▸ hktype) hkey

/-- Behind the first flush of keys that do not share a page one of them is lost. -/
lemma not_answers_of_flushed (ht : t.Comparable) (hone : ¬OnePage t 2)
    (h : Represents t (tm, s) store) (htop : ∀ key, store.top key = none)
    (hfrozen : store.frozen.length = 1) : ¬Answers (tm, s) store := by
  intro hanswers
  have hid := h.id
  obtain ⟨layers, hlayers, hmaps⟩ := h.frozen
  have hlength : layers.length = 1 := by rw [← hfrozen, hmaps, List.length_map]
  obtain ⟨m, rfl⟩ := List.length_eq_one_iff.mp hlength
  have hm := hlayers.memtable m List.mem_cons_self
  have hsized := hlayers.sized m List.mem_cons_self
  have htwo := hlayers.two m List.mem_cons_self
  have hentries := length_entriesFrom tm.schema.recordSize 0 m
  obtain ⟨e, hmem, hmiss⟩ := exists_misses (hm.entries ht) (by
    rw [← List.length_pos_iff, hentries, htwo]
    norm_num) (by rwa [hentries, htwo])
  obtain ⟨p, hp, hpe⟩ := mem_entriesFrom hmem
  have htype : e.1.type = t := (hm.entries ht).keysIn e hmem
  have hlookup := OrderedMap.lookup_of_mem (Data.ordersOn_compare ht) (v := p.2) m hm.keysIn hm.sorted hp
  have hread : store.read e.1 = some p.2 := by
    rw [LayeredStore.read, htop, hmaps, ← hpe]
    simpa [LayeredStore.newest] using hlookup
  have hanswer := (hanswers e.1 p.2).mpr hread
  have hfind : OrderedMap.find Data.compare e.1 tm.memtable = .ok none := by
    rw [OrderedMap.find_eq_lookup (Data.ordersOn_compare ht) (Data.mem_ofType.mpr htype) _
      h.memtable.keysIn h.memtable.sorted, ← congrFun h.top e.1, htop]
  have hsummary : tm.summaries[0]? = some (builtSummary t (entriesFrom tm.schema.recordSize 0 m)) := by
    rw [hlayers.summaries]
    rfl
  unfold answer readRecord at hanswer
  rw [outcome_bind_of_ok (Process.ofExcept_ok hfind s), hid, hfrozen] at hanswer
  simp only [readSstables, hsummary] at hanswer
  rcases hmiss with ⟨ex, hthrow⟩ | ⟨number, page, hnumber, hpage, hnone⟩
  · rw [readSstable, outcome_bind_of_error (bind_of_error (Process.ofExcept_error hthrow s))] at hanswer
    cases hanswer
  · obtain ⟨s', hmissing, -⟩ := readSstable_missing tm.schema (hlayers.frozenRows.rows 0 m rfl)
      (hm.entries ht) (hm.entries_sized hsized) htype hnumber hpage hnone
    rw [outcome_bind_of_ok hmissing] at hanswer
    cases hanswer

lemma onePage_two_iff : OnePage t 2 ↔ t.length.toNat ≤ 2037 := by
  unfold OnePage
  omega

/-! ### Runs -/

section Runs

variable {base table : List UInt8} {schema : Schema} {records : List Record}

/-- A run that writes two keys has a first record with a second key. -/
lemma exists_second_key (hkeys : 2 ≤ (LayeredStore.keys (accepted schema records)).card) :
    ∃ before record, before ++ [record] <+: records ∧
      (LayeredStore.keys (accepted schema before)).card < 2 ∧
      2 ≤ (LayeredStore.keys (accepted schema (before ++ [record]))).card := by
  induction records using List.reverseRecOn with
  | nil => simp [accepted, LayeredStore.keys] at hkeys
  | append_singleton records record ih =>
    rcases Nat.lt_or_ge (LayeredStore.keys (accepted schema records)).card 2 with hlt | hge
    · exact ⟨records, record, List.prefix_refl _, hlt, hkeys⟩
    · obtain ⟨before, r, hprefix, hbefore, hafter⟩ := ih hge
      exact ⟨before, r, hprefix.trans (List.prefix_append _ _), hbefore, hafter⟩

/-- The record with the second key is accepted and flushed with one of the first key. -/
lemma not_answers_of_second_key (hkey : schema.HasSortKey t) (ht : t.Comparable) (hw : s.WritesSucceed)
    (base table : List UInt8) {before : List Record} {record : Record}
    (hfit : Fitting schema (before ++ [record])) (hone : ¬OnePage t 2)
    (hbefore : (LayeredStore.keys (accepted schema before)).card < 2)
    (hafter : 2 ≤ (LayeredStore.keys (accepted schema (before ++ [record]))).card) :
    ¬Answers (writeAll (before ++ [record]) (new base table schema [], s))
      (LayeredStore.run 2 (accepted schema (before ++ [record]))) := by
  obtain ⟨-, hrep⟩ := writeAll_stores hkey ht hw base table hfit
  have hv : schema.verify record = true := by
    by_contra hrefused
    rw [accepted_append_refused (by simpa using hrefused)] at hafter
    omega
  obtain ⟨key, hk, -⟩ := Schema.verify_sortKey hv hkey
  rw [accepted_append hv hk] at hafter hrep ⊢
  rw [LayeredStore.run_append, (LayeredStore.unfrozen_run hbefore).freezes key record hbefore hafter]
    at hrep ⊢
  exact not_answers_of_flushed ht hone hrep (fun _ => rfl) rfl

lemma keys_accepted_mono {before : List Record} (h : before <+: records) :
    LayeredStore.keys (accepted schema before) ⊆ LayeredStore.keys (accepted schema records) := by
  intro key hmem
  simp only [LayeredStore.keys, List.mem_toFinset] at hmem ⊢
  exact ((h.filterMap _).map Prod.fst).subset hmem

/-- A table answers as the layered store throughout a run of writes exactly when its sort keys have
at most 2037 bytes or the run writes the records of one key only. -/
theorem answers_throughout_iff (hkey : schema.HasSortKey t) (ht : t.Comparable) (hw : s.WritesSucceed)
    (hfit : Fitting schema records) :
    (∀ before, before <+: records →
      Answers (writeAll before (new base table schema [], s))
        (LayeredStore.run 2 (accepted schema before))) ↔
      t.length.toNat ≤ 2037 ∨
        ∀ w ∈ accepted schema records, ∀ w' ∈ accepted schema records, w.1 = w'.1 := by
  have hcard : (∀ w ∈ accepted schema records, ∀ w' ∈ accepted schema records, w.1 = w'.1) ↔
      (LayeredStore.keys (accepted schema records)).card ≤ 1 := by
    rw [Finset.card_le_one]
    simp [LayeredStore.keys]
  rw [hcard, ← onePage_two_iff]
  constructor
  · intro h
    by_contra hnot
    obtain ⟨hone, htwo⟩ := not_or.mp hnot
    obtain ⟨before, record, hprefix, hbefore, hafter⟩ := exists_second_key (Nat.lt_of_not_le htwo)
    exact not_answers_of_second_key hkey ht hw base table (hfit.mono hprefix) hone hbefore hafter
      (h _ hprefix)
  · rintro h before hprefix
    obtain ⟨hschema, hrep⟩ := writeAll_stores hkey ht hw base table (hfit.mono hprefix)
    rcases h with hone | hsame
    · exact answers_of_onePage ht hone (hschema.symm ▸ hfit.row) hrep
    · have hroom : (LayeredStore.keys (accepted schema before)).card < 2 :=
        Nat.lt_succ_of_le ((Finset.card_le_card (keys_accepted_mono hprefix)).trans hsame)
      exact answers_of_unfrozen ht hrep (LayeredStore.unfrozen_run hroom).frozen

/-- A table with one column, which is of type ASCII. -/
def asciiKeys (length : Nat) : Schema := ⟨0, 0, [⟨[107], ⟨.ascii, BitVec.ofNat 32 length⟩⟩]⟩

/-- Two keys of one length, the second of which is the smaller one. -/
def asciiPair (length : Nat) : List Record :=
  [⟨[.ascii (List.replicate length 98)]⟩, ⟨[.ascii (List.replicate length 97)]⟩]

lemma fitting_asciiPair {length : Nat} (hlength : length < 2 ^ 31) :
    Fitting (asciiKeys length) (asciiPair length) := by
  constructor
  · simp [asciiKeys, Schema.recordSize]
    omega
  · intro r hr _ v hv
    simp only [asciiPair, List.mem_cons, List.not_mem_nil, or_false] at hr
    rcases hr with rfl | rfl
    all_goals
      obtain rfl := List.mem_singleton.mp hv
      simp only [Data.Sized, List.length_replicate]
      omega

lemma accepted_asciiPair (length : Nat) : accepted (asciiKeys length) (asciiPair length) =
    [(.ascii (List.replicate length 98), ⟨[.ascii (List.replicate length 98)]⟩),
      (.ascii (List.replicate length 97), ⟨[.ascii (List.replicate length 97)]⟩)] := by
  have hverify : ∀ c : UInt8,
      (asciiKeys length).verify ⟨[.ascii (List.replicate length c)]⟩ = true := by
    intro c
    rw [Schema.verify_iff]
    simp [asciiKeys, Data.type]
  simp only [accepted, asciiPair, List.filterMap_cons, hverify, if_true, List.filterMap_nil]
  rfl

/-- Keys of 2037 bytes are the longest that a table can have. -/
theorem answers_throughout_longest :
    (∀ before, before <+: asciiPair 2037 →
      Answers (writeAll before (new [47] [116] (asciiKeys 2037) [], Posix.start (fun _ => 0)))
        (LayeredStore.run 2 (accepted (asciiKeys 2037) before))) ∧
      ¬∀ before, before <+: asciiPair 2038 →
        Answers (writeAll before (new [47] [116] (asciiKeys 2038) [], Posix.start (fun _ => 0)))
          (LayeredStore.run 2 (accepted (asciiKeys 2038) before)) := by
  constructor
  · exact (answers_throughout_iff ⟨_, rfl, rfl⟩ (.inr rfl) (Posix.writesSucceed_start _)
      (fitting_asciiPair (by norm_num))).mpr (.inl (by decide))
  · intro h
    rcases (answers_throughout_iff ⟨_, rfl, rfl⟩ (.inr rfl) (Posix.writesSucceed_start _)
      (fitting_asciiPair (by norm_num))).mp h with hlength | hsame
    · exact absurd hlength (by decide)
    · rw [accepted_asciiPair] at hsame
      have hne := hsame _ List.mem_cons_self _ (List.mem_cons_of_mem _ List.mem_cons_self)
      rw [Data.ascii.injEq, List.replicate_right_inj (by norm_num)] at hne
      exact absurd hne (by decide)

end Runs

end TableManager

end Dibibase
