import Dibibase.Io.TableBuilder

/-!
# Execution of the SSTable builder

When all writes succeed and every record can be serialised, the builder writes exactly the
records, the pages of `layout` and the summary, and closes its files again. Whatever
happens, it changes no file but the three of its own SSTable.
-/

namespace Dibibase

open Library

namespace TableBuilder

/-- The bytes written so far to the three files. -/
structure Output where
  summary : List UInt8 := []
  index : List UInt8 := []
  data : List UInt8 := []

/-- The files after the bytes of `out` have been written over those of one SSTable. -/
def filesAfter (files : Path → Option (List UInt8)) (base table : List UInt8) (sstableId : Nat)
    (out : Output) : Path → Option (List UInt8) :=
  Function.update (Function.update (Function.update files
    (.summary base table sstableId)
      (some (overwrite ((files (.summary base table sstableId)).getD []) 0 out.summary)))
    (.index base table sstableId)
      (some (overwrite ((files (.index base table sstableId)).getD []) 0 out.index)))
    (.data base table sstableId)
      (some (overwrite ((files (.data base table sstableId)).getD []) 0 out.data))

/-- A run of the builder: the state it started from and the descriptors it was given. -/
structure Session where
  start : Posix Path
  base : List UInt8
  table : List UInt8
  sstableId : Nat
  summaryFd : Nat
  indexFd : Nat
  dataFd : Nat
  succeed : start.WritesSucceed
  summary_fresh : summaryFd ∉ start.descriptors.map Prod.fst
  index_fresh : indexFd ∉ summaryFd :: start.descriptors.map Prod.fst
  data_fresh : dataFd ∉ indexFd :: summaryFd :: start.descriptors.map Prod.fst

namespace Session

variable (S : Session)

def fds : Files := ⟨some S.summaryFd, some S.indexFd, some S.dataFd⟩

abbrev summaryPath : Path := .summary S.base S.table S.sstableId
abbrev indexPath : Path := .index S.base S.table S.sstableId
abbrev dataPath : Path := .data S.base S.table S.sstableId

/-- The contents of a file before the run. -/
abbrev before (path : Path) : List UInt8 := (S.start.files path).getD []

/-- The state while the files are open. -/
def after (out : Output) : Posix Path :=
  { S.start with
    files := filesAfter S.start.files S.base S.table S.sstableId out
    descriptors := (S.dataFd, ⟨S.dataPath, out.data.length⟩) ::
      (S.indexFd, ⟨S.indexPath, out.index.length⟩) ::
      (S.summaryFd, ⟨S.summaryPath, out.summary.length⟩) :: S.start.descriptors }

lemma fds_ne : S.indexFd ≠ S.summaryFd ∧ S.dataFd ≠ S.indexFd ∧ S.dataFd ≠ S.summaryFd := by
  have hi := S.index_fresh
  have hd := S.data_fresh
  simp only [List.mem_cons, not_or] at hi hd
  exact ⟨hi.1, hd.1, hd.2.1⟩

lemma write_data (out : Output) (bs : List UInt8) :
    Posix.write (ε := Exception) S.fds.data bs (S.after out) =
      .ok true (S.after { out with data := out.data ++ bs }) := by
  obtain ⟨his, hdi, hds⟩ := S.fds_ne
  have hfile : (S.after out).files S.dataPath =
      some (overwrite (S.before S.dataPath) 0 out.data) := by simp [after, filesAfter]
  have hfresh : S.dataFd ∉ S.start.descriptors.map Prod.fst := by
    intro h
    exact S.data_fresh (by simp only [List.mem_cons]; exact .inr (.inr h))
  rw [show S.fds.data = some S.dataFd from rfl, Posix.write_executes (s := S.after out)
    (f := ⟨S.dataPath, out.data.length⟩) S.succeed (by simp [after]) hfile]
  congr 1
  have hover : overwrite (overwrite (S.before S.dataPath) 0 out.data) out.data.length bs =
      overwrite (S.before S.dataPath) 0 (out.data ++ bs) := by
    simpa using overwrite_overwrite (S.before S.dataPath) 0 out.data bs
  simp [after, filesAfter, Posix.setPosition_cons, Posix.setPosition_of_notMem _ _ _ hfresh,
    hdi.symm, hds.symm, hover]

lemma write_index (out : Output) (bs : List UInt8) :
    Posix.write (ε := Exception) S.fds.index bs (S.after out) =
      .ok true (S.after { out with index := out.index ++ bs }) := by
  obtain ⟨his, hdi, hds⟩ := S.fds_ne
  have hne : S.indexPath ≠ S.dataPath := by simp [indexPath, dataPath]
  have hfile : (S.after out).files S.indexPath =
      some (overwrite (S.before S.indexPath) 0 out.index) := by 
    simp [after, filesAfter]
  have hfresh : S.indexFd ∉ S.start.descriptors.map Prod.fst := by
    intro h
    exact S.index_fresh (by simp only [List.mem_cons]; exact .inr h)
  have hlookup : (S.after out).descriptors.lookup S.indexFd =
      some ⟨S.indexPath, out.index.length⟩ := by
    have hbeq : (S.indexFd == S.dataFd) = false := by simpa using hdi.symm
    simp [after, List.lookup_cons, hbeq]
  rw [show S.fds.index = some S.indexFd from rfl, Posix.write_executes (s := S.after out)
    (f := ⟨S.indexPath, out.index.length⟩) S.succeed hlookup hfile]
  congr 1
  have hover : overwrite (overwrite (S.before S.indexPath) 0 out.index) out.index.length bs =
      overwrite (S.before S.indexPath) 0 (out.index ++ bs) := by
    simpa using overwrite_overwrite (S.before S.indexPath) 0 out.index bs
  simp [after, filesAfter, Posix.setPosition_cons, Posix.setPosition_of_notMem _ _ _ hfresh,
    hdi, his.symm, hover, Function.update_comm hne.symm]

lemma write_summary (out : Output) (bs : List UInt8) :
    Posix.write (ε := Exception) S.fds.summary bs (S.after out) =
      .ok true (S.after { out with summary := out.summary ++ bs }) := by
  obtain ⟨his, hdi, hds⟩ := S.fds_ne
  have hne : S.summaryPath ≠ S.dataPath := by simp [summaryPath, dataPath]
  have hne' : S.summaryPath ≠ S.indexPath := by simp [summaryPath, indexPath]
  have hfile : (S.after out).files S.summaryPath =
      some (overwrite (S.before S.summaryPath) 0 out.summary) := by
    simp [after, filesAfter]
  have hlookup : (S.after out).descriptors.lookup S.summaryFd =
      some ⟨S.summaryPath, out.summary.length⟩ := by
    have hbeq : (S.summaryFd == S.dataFd) = false := by simpa using hds.symm
    have hbeq' : (S.summaryFd == S.indexFd) = false := by simpa using his.symm
    simp [after, List.lookup_cons, hbeq, hbeq']
  rw [show S.fds.summary = some S.summaryFd from rfl, Posix.write_executes (s := S.after out)
    (f := ⟨S.summaryPath, out.summary.length⟩) S.succeed hlookup hfile]
  congr 1
  have hover : overwrite (overwrite (S.before S.summaryPath) 0 out.summary) out.summary.length
      bs = overwrite (S.before S.summaryPath) 0 (out.summary ++ bs) := by
    simpa using overwrite_overwrite (S.before S.summaryPath) 0 out.summary bs
  simp [after, filesAfter, Posix.setPosition_cons,
    Posix.setPosition_of_notMem _ _ _ S.summary_fresh, his, hds, hover,
    Function.update_comm hne.symm, Function.update_comm hne'.symm]

end Session

/-! ### Layout of the index file -/

/-- One more entry fits into a page that has `count` entries with keys of `n` bytes. -/
def Fits (n count : Nat) : Prop := 6 + count * (n + 8) + n + 8 ≤ 4096

instance (n count : Nat) : Decidable (Fits n count) := by
  unfold Fits
  infer_instance

/-- The pages that the loop completes and the page it ends with, from the entries `c` of
the current page and the entries still to come. -/
def layout {E : Type} (n : Nat) : List E → List E → List (List E) × List E
  | c, [] => ([], c)
  | c, e :: es =>
    if Fits n c.length then layout n (c ++ [e]) es
    else
      let rest := layout n (if Fits n 0 then [e] else []) es
      (c :: rest.1, rest.2)

/-- The entries whose keys are offered to the summary, one for each completed page. -/
def offered {E : Type} (n : Nat) : List E → List E → List E
  | _, [] => []
  | c, e :: es =>
    if Fits n c.length then offered n (c ++ [e]) es
    else e :: offered n (if Fits n 0 then [e] else []) es

/-- The keys of the records with their offsets in the data file. -/
def entriesFrom (recordSize : Nat) : BitVec 64 → List (Data × Record) → List (Data × BitVec 64)
  | _, [] => []
  | offset, (key, _) :: records =>
    (key, offset) :: entriesFrom recordSize (offset + BitVec.ofNat 64 recordSize) records

/-- What is written for a page: its bytes, padded with zeros. -/
def pageImage (p : IndexPage) : List UInt8 :=
  p.encode ++ List.replicate (4096 - p.encode.length) 0

def summaryImage (s : Summary) : List UInt8 :=
  s.encode ++ List.replicate (4096 - s.encode.length) 0

/-- The summary after the keys of the entries have been offered to it. -/
def pushAll (summary : Summary) (es : List (Data × BitVec 64)) : Summary :=
  es.foldl (fun s e => (s.pushBack e.1).2) summary

/-- Keys of type `t` in map order, which are copied as they are. -/
structure Listed (t : DataType) (es : List (Data × BitVec 64)) : Prop where
  keysIn : OrderedMap.KeysIn (Data.ofType t) es
  sorted : OrderedMap.Sorted Data.compare es
  copied : ∀ e ∈ es, e.1.clone = e.1

/-- The entries of a page of type `t` together with those that are to follow: keys of the
type, in map order. -/
structure Entries (t : DataType) (es : List (Data × BitVec 64)) : Prop where
  comparable : t.Comparable
  keysIn : OrderedMap.KeysIn (Data.ofType t) es
  sorted : OrderedMap.Sorted Data.compare es

namespace Entries

variable {t : DataType} {es fs : List (Data × BitVec 64)}

lemma sublist (h : Entries t es) (hsub : fs.Sublist es) : Entries t fs where
  comparable := h.comparable
  keysIn e he := h.keysIn e (hsub.subset he)
  sorted := List.Pairwise.sublist hsub h.sorted

lemma wellFormed (h : Entries t es) : IndexPage.WellFormed ⟨es, t⟩ :=
  ⟨h.comparable, h.keysIn, h.sorted⟩

lemma listed (h : Entries t es) : Listed t es where
  keysIn := h.keysIn
  sorted := h.sorted
  copied e he := by
    apply Data.clone_of_comparable
    rw [Data.mem_ofType.mp (h.keysIn e he)]
    exact h.comparable

end Entries

namespace Listed

variable {t : DataType} {es fs : List (Data × BitVec 64)}

lemma sublist (h : Listed t es) (hsub : fs.Sublist es) : Listed t fs where
  keysIn e he := h.keysIn e (hsub.subset he)
  sorted := List.Pairwise.sublist hsub h.sorted
  copied e he := h.copied e (hsub.subset he)

lemma length_encode (h : Listed t es) :
    (IndexPage.mk es t).encode.length = 6 + es.length * (t.length.toNat + 8) := by
  rw [IndexPage.length_encode h.keysIn]
  simp [IndexPage.size, DataType.size]

lemma serialise_page (h : Listed t es) (hsize : 6 + es.length * (t.length.toNat + 8) ≤ 4096) :
    serialise 4096 (IndexPage.mk es t).bytes = .ok (pageImage ⟨es, t⟩) :=
  serialise_of_writes (IndexPage.writes_bytes _) (by rwa [h.length_encode]) (by norm_num)

/-- An entry that comes after those of the page is appended if it fits. -/
lemma pushBack {c : List (Data × BitVec 64)} {key : Data} {offset : BitVec 64}
    (h : Listed t (c ++ (key, offset) :: es)) :
    (IndexPage.mk c t).pushBack key offset =
      if Fits t.length.toNat c.length then .ok (true, ⟨c ++ [(key, offset)], t⟩)
      else .ok (false, ⟨c, t⟩) := by
  have hclone : key.clone = key := h.copied (key, offset) (by simp)
  have hafter : ∀ e ∈ c, e.1.compare key = .ok true := by
    intro e he
    exact (List.pairwise_append.mp h.sorted).2.2 e he (key, offset) (by simp)
  have hcond : (IndexPage.mk c t).size + t.length.toNat + 8 > 4096 ↔
      ¬Fits t.length.toNat c.length := by
    simp only [IndexPage.size, DataType.size, Fits]
    omega
  by_cases hfit : Fits t.length.toNat c.length
  · rw [IndexPage.pushBack, if_neg (by simpa only [hcond, not_not] using hfit), if_pos hfit, hclone,
      OrderedMap.assign_of_after offset c hafter]
    rfl
  · rw [IndexPage.pushBack, if_pos (hcond.mpr hfit), if_neg hfit]

end Listed

lemma writeIndexFile_executes (S : Session) {t : DataType} {c : List (Data × BitVec 64)}
    (hc : Listed t c) (hsize : 6 + c.length * (t.length.toNat + 8) ≤ 4096) (out : Output) :
    writeIndexFile S.fds ⟨c, t⟩ (S.after out) =
      .ok true (S.after { out with index := out.index ++ pageImage ⟨c, t⟩ }) := by
  rw [writeIndexFile, bind_of_ok (Process.ofExcept_ok (hc.serialise_page hsize) _)]
  exact S.write_index out _

/-- The loop writes every record and every page that becomes full. -/
theorem writeRecords_executes (S : Session) (schema : Schema) (enc : Record → List UInt8)
    (t : DataType) (records : List (Data × Record))
    (hrec : ∀ p ∈ records, serialise schema.recordSize p.2.bytes = .ok (enc p.2))
    (offset : BitVec 64) (summary : Summary) (c : List (Data × BitVec 64)) (out : Output)
    (he : Listed t (c ++ entriesFrom schema.recordSize offset records))
    (hsize : 6 + c.length * (t.length.toNat + 8) ≤ 4096) :
    let es := entriesFrom schema.recordSize offset records
    let pages := layout t.length.toNat c es
    writeRecords schema S.fds records offset summary ⟨c, t⟩ (S.after out) =
      .ok (true, pushAll summary (offered t.length.toNat c es), ⟨pages.2, t⟩)
        (S.after { out with
          data := out.data ++ records.flatMap (fun p => enc p.2)
          index := out.index ++ pages.1.flatMap (fun es => pageImage ⟨es, t⟩) }) := by
  dsimp only
  induction records generalizing offset summary c out with
  | nil => simp [writeRecords, entriesFrom, layout, offered, pushAll, Pure.pure, EStateM.pure]
  | cons p records ih =>
    obtain ⟨key, record⟩ := p
    have hser := hrec (key, record) (by simp)
    have hrec' : ∀ p ∈ records, serialise schema.recordSize p.2.bytes = .ok (enc p.2) :=
      fun p hp => hrec p (by simp [hp])
    rw [entriesFrom] at he ⊢
    rw [writeRecords, layout, offered, bind_of_ok (Process.ofExcept_ok hser _),
      bind_of_ok (S.write_data _ _)]
    simp only [Bool.not_true, Bool.false_eq_true, if_false]
    by_cases hfit : Fits t.length.toNat c.length
    · -- The entry joins the current page.
      have hsize' : 6 + (c ++ [(key, offset)]).length * (t.length.toNat + 8) ≤ 4096 := by
        simp only [List.length_append, List.length_singleton, Fits] at hfit ⊢
        rw [Nat.add_mul]
        omega
      rw [bind_of_ok (Process.ofExcept_ok (he.pushBack.trans (if_pos hfit)) _)]
      simp only [hfit, if_true]
      rw [ih hrec' _ _ _ _ (by simpa using he) hsize']
      simp
    · -- The page is written and the entry starts the next one, if it fits into any.
      have hempty : Listed t ([] ++ (key, offset) ::
          entriesFrom schema.recordSize (offset + BitVec.ofNat 64 schema.recordSize) records) :=
        he.sublist (by simp)
      rw [bind_of_ok (Process.ofExcept_ok (he.pushBack.trans (if_neg hfit)) _)]
      simp only [hfit, if_false, Bool.false_eq_true]
      rw [bind_of_ok (writeIndexFile_executes S (he.sublist (by simp)) hsize _)]
      simp only [Bool.not_true, Bool.false_eq_true, if_false]
      by_cases h0 : Fits t.length.toNat 0
      · have hsize' : 6 + [(key, offset)].length * (t.length.toNat + 8) ≤ 4096 := by
          simp only [Fits] at h0
          simp only [List.length_singleton]
          omega
        rw [IndexPage.clear, bind_of_ok (Process.ofExcept_ok (hempty.pushBack.trans (if_pos h0)) _)]
        simp only [h0, if_true, List.nil_append]
        rw [ih hrec' _ _ _ _ hempty hsize']
        simp [pushAll]
      · rw [IndexPage.clear, bind_of_ok (Process.ofExcept_ok (hempty.pushBack.trans (if_neg h0)) _)]
        simp only [h0, if_false]
        rw [ih hrec' _ _ _ _ (hempty.sublist (by simp)) (by simp)]
        simp [pushAll]

/-! ### The summary -/

/-- A summary of the type `t` that fits into its page. -/
structure SummaryOk (t : DataType) (s : Summary) : Prop where
  type : s.type = t
  keys : ∀ k ∈ s.sortKeys, k.type = t
  size : s.size ≤ 4096

namespace SummaryOk

variable {t : DataType} {s : Summary}

lemma empty (t : DataType) : SummaryOk t ⟨[], t⟩ := by
  refine ⟨rfl, by simp, ?_⟩
  simp [Summary.size, DataType.size]

lemma pushBack (h : SummaryOk t s) {key : Data} (hkey : key.type = t) :
    SummaryOk t (s.pushBack key).2 := by
  unfold Summary.pushBack
  split
  · exact h
  · next hroom =>
    refine ⟨h.type, ?_, ?_⟩
    · intro k hk
      rcases List.mem_append.mp hk with hk | hk
      · exact h.keys k hk
      · rw [List.mem_singleton.mp hk, Data.type_clone, hkey]
    · simp only [Summary.size, List.length_append, List.length_singleton, Nat.add_mul] at hroom ⊢
      omega

lemma pushAll (h : SummaryOk t s) (es : List (Data × BitVec 64))
    (hk : ∀ e ∈ es, e.1.type = t) :
    SummaryOk t (pushAll s es) := by
  induction es generalizing s with
  | nil => exact h
  | cons e es ih =>
    exact ih (h.pushBack (hk e (by simp))) (fun e he => hk e (by simp [he]))

lemma length_encode (h : SummaryOk t s) : s.encode.length ≤ 4096 := by
  rw [Summary.length_encode (fun k hk => by rw [h.keys k hk, h.type])]
  exact h.size

end SummaryOk

/-- The summary of an SSTable with the given entries: its first key and then the first key
of every further page, as far as they fit. -/
def builtSummary (t : DataType) (es : List (Data × BitVec 64)) : Summary :=
  pushAll ⟨[], t⟩ (es.take 1 ++ offered t.length.toNat [] es)

/-- All pages of the index file. -/
def pagesOf (t : DataType) (es : List (Data × BitVec 64)) : List (List (Data × BitVec 64)) :=
  (layout t.length.toNat [] es).1 ++ [(layout t.length.toNat [] es).2]

lemma offered_sublist {E : Type} (n : Nat) (c es : List E) : (offered n c es).Sublist es := by
  induction es generalizing c with
  | nil => exact List.Sublist.refl _
  | cons e es ih =>
    rw [offered]
    split
    · exact (ih _).cons e
    · exact (ih _).cons_cons e

/-- Every page is a part of the entries, in their order. -/
lemma layout_sublist {E : Type} (n : Nat) (c es : List E) :
    (∀ page ∈ (layout n c es).1, page.Sublist (c ++ es)) ∧ (layout n c es).2.Sublist (c ++ es) := by
  induction es generalizing c with
  | nil => simp [layout]
  | cons e es ih =>
    rw [layout]
    split
    · simpa using ih (c ++ [e])
    · have hsub : ((if Fits n 0 then [e] else []) ++ es).Sublist (c ++ e :: es) := by
        refine List.Sublist.trans ?_ (List.sublist_append_right c (e :: es))
        split <;> simp
      obtain ⟨hfull, hlast⟩ := ih (if Fits n 0 then [e] else [])
      refine ⟨?_, hlast.trans hsub⟩
      intro page hpage
      rcases List.mem_cons.mp hpage with rfl | hpage
      · simp
      · exact (hfull page hpage).trans hsub

/-- No page outgrows its 4096 bytes. -/
lemma layout_size {E : Type} (n : Nat) (c es : List E) (hc : 6 + c.length * (n + 8) ≤ 4096) :
    (∀ page ∈ (layout n c es).1, 6 + page.length * (n + 8) ≤ 4096) ∧
      6 + (layout n c es).2.length * (n + 8) ≤ 4096 := by
  induction es generalizing c with
  | nil => simpa [layout] using hc
  | cons e es ih =>
    rw [layout]
    split
    · next hfit =>
      apply ih
      simp only [Fits, List.length_append, List.length_singleton, Nat.add_mul] at hfit ⊢
      omega
    · obtain ⟨hfull, hlast⟩ := ih (if Fits n 0 then [e] else []) (by
        split
        · next h0 =>
          simp only [Fits] at h0
          simp only [List.length_singleton]
          omega
        · simp)
      refine ⟨?_, hlast⟩
      intro page hpage
      rcases List.mem_cons.mp hpage with rfl | hpage
      · exact hc
      · exact hfull page hpage

lemma builtSummary_ok {t : DataType} {es : List (Data × BitVec 64)}
    (hk : OrderedMap.KeysIn (Data.ofType t) es) : SummaryOk t (builtSummary t es) := by
  have hmem : ∀ e ∈ es.take 1 ++ offered t.length.toNat [] es, e ∈ es := by
    intro e hmem
    rcases List.mem_append.mp hmem with hmem | hmem
    · exact List.mem_of_mem_take hmem
    · exact (offered_sublist _ _ _).subset hmem
  exact (SummaryOk.empty t).pushAll _ (fun e h => hk e (hmem e h))

/-! ### The whole run -/

lemma entriesFrom_keys (recordSize : Nat) (offset : BitVec 64) (records : List (Data × Record)) :
    (entriesFrom recordSize offset records).map Prod.fst = records.map Prod.fst := by
  induction records generalizing offset with
  | nil => rfl
  | cons p records ih => simp [entriesFrom, ih]

lemma mem_entriesFrom {recordSize : Nat} {offset : BitVec 64} {records : List (Data × Record)}
    {e : Data × BitVec 64} (he : e ∈ entriesFrom recordSize offset records) :
    ∃ p ∈ records, p.1 = e.1 := by
  have hkey := List.mem_map_of_mem (f := Prod.fst) he
  rw [entriesFrom_keys] at hkey
  simpa using hkey

lemma keysIn_entriesFrom {t : DataType} (recordSize : Nat) (offset : BitVec 64)
    {records : List (Data × Record)} (hk : OrderedMap.KeysIn (Data.ofType t) records) :
    OrderedMap.KeysIn (Data.ofType t) (entriesFrom recordSize offset records) := by
  intro e he
  obtain ⟨p, hp, heq⟩ := mem_entriesFrom he
  rw [← heq]
  exact hk p hp

lemma sorted_entriesFrom (recordSize : Nat) (offset : BitVec 64) {records : List (Data × Record)}
    (hs : OrderedMap.Sorted Data.compare records) :
    OrderedMap.Sorted Data.compare (entriesFrom recordSize offset records) := by
  have hpair : (records.map Prod.fst).Pairwise (fun a b => Data.compare a b = .ok true) :=
    List.pairwise_map.mpr hs
  rw [← entriesFrom_keys recordSize offset] at hpair
  exact List.pairwise_map.mp hpair

/-- The keys of a memtable and their offsets make the entries of an index. -/
lemma entries_of_records {t : DataType} (ht : t.Comparable) (recordSize : Nat) (offset : BitVec 64)
    (records : List (Data × Record)) (hk : OrderedMap.KeysIn (Data.ofType t) records)
    (hs : OrderedMap.Sorted Data.compare records) :
    Entries t (entriesFrom recordSize offset records) :=
  ⟨ht, keysIn_entriesFrom _ _ hk, sorted_entriesFrom _ _ hs⟩

/-- The files are opened one after the other. -/
def Session.begin (s : Posix Path) (h : s.WritesSucceed) (base table : List UInt8)
    (sstableId : Nat) : Session :=
  let used := s.descriptors.map Prod.fst
  let summaryFd := Posix.lowestUnused used
  let indexFd := Posix.lowestUnused (summaryFd :: used)
  { start := s, base := base, table := table, sstableId := sstableId
    summaryFd := summaryFd, indexFd := indexFd
    dataFd := Posix.lowestUnused (indexFd :: summaryFd :: used)
    succeed := h
    summary_fresh := Posix.lowestUnused_notMem _
    index_fresh := Posix.lowestUnused_notMem _
    data_fresh := Posix.lowestUnused_notMem _ }

/-- All descriptors of the session are closed again. -/
lemma Session.close_executes (S : Session) (out : Output) (a : Summary) :
    (do
      Posix.close S.fds.summary
      Posix.close S.fds.index
      Posix.close S.fds.data
      return a : Process Summary) (S.after out) =
      .ok a { S.start with files := filesAfter S.start.files S.base S.table S.sstableId out } := by
  obtain ⟨his, hdi, hds⟩ := S.fds_ne
  have hi : S.indexFd ∉ S.start.descriptors.map Prod.fst := by
    intro h
    exact S.index_fresh (by simp only [List.mem_cons]; exact .inr h)
  have hd : S.dataFd ∉ S.start.descriptors.map Prod.fst := by
    intro h
    exact S.data_fresh (by simp only [List.mem_cons]; exact .inr (.inr h))
  have hsum := Posix.filter_of_notMem _ _ S.summary_fresh
  have hidx := Posix.filter_of_notMem _ _ hi
  have hdat := Posix.filter_of_notMem _ _ hd
  simp only [ne_eq, Option.some.injEq, decide_not] at hsum hidx hdat
  simp [Session.fds, Session.after, Posix.close, Bind.bind, EStateM.bind, his, hdi, hds, hsum, hidx,
    hdat]

/-- The constructor opens the files and runs the loop; the destructor closes them. -/
lemma build_eq {s : Posix Path} (hw : s.WritesSucceed) (base table : List UInt8) (schema : Schema)
    (sstableId : Nat) (records : List (Data × Record)) :
    let S := Session.begin s hw base table sstableId
    build base table schema sstableId records s =
      (do
        let summary ← constructSstableFiles schema records S.fds
        Posix.close S.fds.summary
        Posix.close S.fds.index
        Posix.close S.fds.data
        return summary : Process Summary) (S.after {}) := by
  simp [build, Posix.openFile, Bind.bind, EStateM.bind, Session.begin, Session.fds, Session.after,
    filesAfter]

/-- The builder writes the records, the pages and the summary, and nothing else changes. -/
theorem build_executes {s : Posix Path} (hw : s.WritesSucceed) (base table : List UInt8)
    (schema : Schema) (sstableId : Nat) (enc : Record → List UInt8) {t : DataType}
    (records : List (Data × Record)) (hne : records ≠ [])
    (hrec : ∀ p ∈ records, serialise schema.recordSize p.2.bytes = .ok (enc p.2))
    (he : Listed t (entriesFrom schema.recordSize 0 records)) :
    let es := entriesFrom schema.recordSize 0 records
    build base table schema sstableId records s =
      .ok (builtSummary t es) { s with
        files := filesAfter s.files base table sstableId
          { summary := summaryImage (builtSummary t es)
            index := (pagesOf t es).flatMap (fun page => pageImage ⟨page, t⟩)
            data := records.flatMap (fun p => enc p.2) } } := by
  dsimp only
  let S := Session.begin s hw base table sstableId
  obtain ⟨⟨key, record⟩, rest, rfl⟩ := List.exists_cons_of_ne_nil hne
  have hkey : key.type = t := he.keysIn (key, 0) (by simp [entriesFrom])
  set es := entriesFrom schema.recordSize 0 ((key, record) :: rest) with hes
  have hfirst : es.take 1 = [(key, 0)] := by simp [hes, entriesFrom]
  -- The summary starts with the first key, as `pushAll` has it.
  have hstart : pushAll ((Summary.mk [] t).pushBack key).2 (offered t.length.toNat [] es) =
      builtSummary t es := by
    rw [builtSummary, hfirst]
    rfl
  have hloop := writeRecords_executes S schema enc t ((key, record) :: rest) hrec 0
    ((Summary.mk [] t).pushBack key).2 [] {} he (by norm_num)
  dsimp only at hloop
  rw [← hes, hstart] at hloop
  have hlast := layout_sublist t.length.toNat [] es
  have hsize := layout_size t.length.toNat [] es (by norm_num)
  have hok := builtSummary_ok he.keysIn
  have hsummary : serialise 4096 (builtSummary t es).bytes =
      .ok (summaryImage (builtSummary t es)) :=
    serialise_of_writes (Summary.writes_bytes _) hok.length_encode (by norm_num)
  have hconstruct : ∀ out, out = ({ summary := summaryImage (builtSummary t es)
                                    index := (pagesOf t es).flatMap (fun page => pageImage ⟨page, t⟩)
                                    data := ((key, record) :: rest).flatMap (fun p => enc p.2) } :
      Output) → constructSstableFiles schema ((key, record) :: rest) S.fds (S.after {}) =
        .ok (builtSummary t es) (S.after out) := by
    rintro out rfl
    rw [constructSstableFiles]
    simp only [hkey]
    rw [bind_of_ok hloop]
    simp only [Bool.not_true, Bool.false_eq_true, if_false]
    rw [bind_of_ok (writeIndexFile_executes S (he.sublist hlast.2) hsize.2 _)]
    simp only [Bool.not_true, Bool.false_eq_true, if_false, writeSummaryFile]
    rw [bind_of_ok (bind_of_ok (Process.ofExcept_ok hsummary _) |>.trans (S.write_summary _ _))]
    simp [pagesOf]
  rw [build_eq hw, bind_of_ok (hconstruct _ rfl)]
  exact S.close_executes _ _

/-! ### Records that cannot be serialised -/

/-- The loop ends without an exception only if every record fits into its buffer. -/
lemma writeRecords_ok_serialises (S : Session) (schema : Schema) (records : List (Data × Record))
    (offset : BitVec 64) (summary : Summary) (page : IndexPage) (out : Output)
    {result : Bool × Summary × IndexPage} {s' : Posix Path}
    (h : writeRecords schema S.fds records offset summary page (S.after out) = .ok result s') :
    ∀ p ∈ records, ∃ bs, serialise schema.recordSize p.2.bytes = .ok bs := by
  induction records generalizing offset summary page out with
  | nil => simp
  | cons p records ih =>
    obtain ⟨key, record⟩ := p
    rw [writeRecords] at h
    obtain ⟨bs, hser, h⟩ := Process.ofExcept_bind_eq_ok h
    rw [bind_of_ok (S.write_data _ _)] at h
    simp only [Bool.not_true, Bool.false_eq_true, if_false] at h
    have htail : ∀ p ∈ records, ∃ bs, serialise schema.recordSize p.2.bytes = .ok bs := by
      obtain ⟨⟨fits, page'⟩, -, h⟩ := Process.ofExcept_bind_eq_ok h
      cases fits with
      | true => exact ih _ _ _ _ h
      | false =>
        simp only [Bool.false_eq_true, if_false] at h
        obtain ⟨written, s₁, hindex, h⟩ := bind_eq_ok h
        obtain ⟨image, -, hwrite⟩ := Process.ofExcept_bind_eq_ok hindex
        rw [S.write_index] at hwrite
        cases hwrite
        simp only [Bool.not_true, Bool.false_eq_true, if_false] at h
        obtain ⟨pushed, -, h⟩ := Process.ofExcept_bind_eq_ok h
        exact ih _ _ _ _ h
    intro p hp
    rcases List.mem_cons.mp hp with rfl | hp
    · exact ⟨bs, hser⟩
    · exact htail p hp

/-- The builder returns only if every record fits into its buffer. -/
lemma build_ok_serialises {s s' : Posix Path} (hw : s.WritesSucceed) {base table : List UInt8}
    {schema : Schema} {sstableId : Nat} {records : List (Data × Record)} {summary : Summary}
    (h : build base table schema sstableId records s = .ok summary s') :
    ∀ p ∈ records, ∃ bs, serialise schema.recordSize p.2.bytes = .ok bs := by
  rw [build_eq hw] at h
  cases records with
  | nil => simp
  | cons p rest =>
    obtain ⟨summary', s₁, hconstruct, -⟩ := bind_eq_ok h
    rw [constructSstableFiles] at hconstruct
    obtain ⟨result, s₂, hloop, -⟩ := bind_eq_ok hconstruct
    exact writeRecords_ok_serialises _ _ _ _ _ _ _ hloop

/-! ### Files that a run may change -/

/-- The states of a session while its files are open. -/
def Session.Open (S : Session) (s : Posix Path) : Prop := ∃ out, s = S.after out

lemma preserves_ofExcept {α : Type} (I : Posix Path → Prop) (x : Except Exception α) :
    Preserves I (Process.ofExcept x) := by
  cases x with
  | ok a => exact Preserves.pure a
  | error e => exact Preserves.throw e

lemma preserves_bind_of_ok {α β : Type} {I : Posix Path → Prop} {x : Except Exception α} {a : α}
    {f : α → Process β} (h : x = .ok a) (hf : Preserves I (f a)) :
    Preserves I (Process.ofExcept x >>= f) := by
  intro s hs
  rw [bind_of_ok (Process.ofExcept_ok h s)]
  exact hf s hs

lemma Session.preserves_write {S : Session} {fd : Option Nat} {bs : List UInt8}
    (h : ∀ out, ∃ out', Posix.write (ε := Exception) fd bs (S.after out) = .ok true (S.after out')) :
    Preserves S.Open (Posix.write fd bs : Process Bool) := by
  rintro s ⟨out, rfl⟩
  obtain ⟨out', hwrite⟩ := h out
  rw [hwrite]
  constructor
  · intro a s' hs
    cases hs
    exact ⟨out', rfl⟩
  · intro e s' hs
    cases hs

section Invariants

variable {I : Posix Path → Prop} {fds : Files}

lemma preserves_writeIndexFile
    (hindex : ∀ bs, Preserves I (Posix.write fds.index bs : Process Bool)) (page : IndexPage) :
    Preserves I (writeIndexFile fds page) :=
  (preserves_ofExcept _ _).bind (fun _ => hindex _)

lemma preserves_writeRecords
    (hindex : ∀ bs, Preserves I (Posix.write fds.index bs : Process Bool))
    (hdata : ∀ bs, Preserves I (Posix.write fds.data bs : Process Bool)) (schema : Schema)
    (records : List (Data × Record)) (offset : BitVec 64) (summary : Summary) (page : IndexPage) :
    Preserves I (writeRecords schema fds records offset summary page) := by
  induction records generalizing offset summary page with
  | nil => exact Preserves.pure _
  | cons p records ih =>
    rw [writeRecords]
    refine (preserves_ofExcept _ _).bind (fun bs => ?_)
    refine (hdata _).bind (fun written => ?_)
    split
    · exact Preserves.pure _
    · refine (preserves_ofExcept _ _).bind ?_
      rintro ⟨pushed, page'⟩
      cases pushed with
      | true => exact ih _ _ _
      | false =>
        refine (preserves_writeIndexFile hindex _).bind (fun written => ?_)
        split
        · exact Preserves.pure _
        · exact (preserves_ofExcept _ _).bind (fun _ => ih _ _ _)

/-- The builder keeps what the writes to its three files keep. -/
lemma preserves_constructSstableFiles
    (hsummary : ∀ bs, Preserves I (Posix.write fds.summary bs : Process Bool))
    (hindex : ∀ bs, Preserves I (Posix.write fds.index bs : Process Bool))
    (hdata : ∀ bs, Preserves I (Posix.write fds.data bs : Process Bool)) (schema : Schema)
    (records : List (Data × Record)) : Preserves I (constructSstableFiles schema records fds) := by
  cases records with
  | nil => exact Preserves.throw _
  | cons p records =>
    rw [constructSstableFiles]
    refine (preserves_writeRecords hindex hdata _ _ _ _ _).bind ?_
    rintro ⟨finished, summary, page⟩
    cases finished with
    | false => exact Preserves.pure _
    | true =>
      refine (preserves_writeIndexFile hindex _).bind (fun written => ?_)
      split
      · exact Preserves.pure _
      · exact ((preserves_ofExcept _ _).bind (fun _ => hsummary _)).bind (fun _ => Preserves.pure _)

end Invariants

/-- Whether it returns or throws, the builder writes to no file but those of its SSTable. -/
theorem build_frame {s : Posix Path} (hw : s.WritesSucceed) (base table : List UInt8)
    (schema : Schema) (sstableId : Nat) (records : List (Data × Record)) :
    (∀ summary s', build base table schema sstableId records s = .ok summary s' →
      ∃ out, s' = { s with files := filesAfter s.files base table sstableId out }) ∧
    (∀ e s', build base table schema sstableId records s = .error e s' →
      ∃ out, s'.files = filesAfter s.files base table sstableId out ∧ s'.writes = s.writes) := by
  rw [build_eq hw]
  set S := Session.begin s hw base table sstableId
  have hopen := preserves_constructSstableFiles
    (fun _ => S.preserves_write (fun _ => ⟨_, S.write_summary _ _⟩))
    (fun _ => S.preserves_write (fun _ => ⟨_, S.write_index _ _⟩))
    (fun _ => S.preserves_write (fun _ => ⟨_, S.write_data _ _⟩)) schema records (S.after {})
    ⟨{}, rfl⟩
  cases hrun : constructSstableFiles schema records S.fds (S.after {}) with
  | error e s₁ =>
    obtain ⟨out, rfl⟩ := hopen.2 e s₁ hrun
    rw [bind_of_error hrun]
    constructor
    · intro summary s' h
      cases h
    · intro e' s' h
      cases h
      exact ⟨out, rfl, rfl⟩
  | ok summary s₁ =>
    obtain ⟨out, rfl⟩ := hopen.1 summary s₁ hrun
    rw [bind_of_ok hrun, S.close_executes]
    constructor
    · intro summary' s' h
      cases h
      exact ⟨out, rfl⟩
    · intro e' s' h
      cases h

end TableBuilder

end Dibibase
