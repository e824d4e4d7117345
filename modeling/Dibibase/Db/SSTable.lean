import Dibibase.Io.BuilderExecution
import Dibibase.Db.TableManager

/-!
# Lookups in one SSTable

`Stored` says what the builder leaves on disk for a memtable. A lookup finds the records
of a memtable whose entries make one index page of at most 255 entries, and in a larger
SSTable it misses some key.
-/

namespace Dibibase

open Library TableBuilder

/-- The entries of a memtable: accepted records under their own sort keys, in map order. -/
structure Memtable (schema : Schema) (t : DataType) (records : List (Data × Record)) : Prop where
  verified : ∀ p ∈ records, schema.verify p.2 = true
  sortKey : ∀ p ∈ records, p.2.values[schema.sortKeyIndex.toNat]? = some p.1
  keysIn : OrderedMap.KeysIn (Data.ofType t) records
  sorted : OrderedMap.Sorted Data.compare records

namespace Memtable

variable {schema : Schema} {t : DataType} {records : List (Data × Record)}

lemma nil (schema : Schema) (t : DataType) : Memtable schema t [] where
  verified := by simp
  sortKey := by simp
  keysIn := by simp [OrderedMap.KeysIn]
  sorted := by simp [OrderedMap.Sorted]

lemma key_sized (h : Memtable schema t records) {p : Data × Record} (hp : p ∈ records)
    (hs : p.2.Sized) : p.1.Sized :=
  hs p.1 (List.mem_of_getElem? (h.sortKey p hp))

/-- A record under a new key is put at its place. -/
lemma insert (h : Memtable schema t records) (ht : t.Comparable) {key : Data} {record : Record}
    (hv : schema.verify record = true)
    (hkey : record.values[schema.sortKeyIndex.toNat]? = some key) (htype : key.type = t)
    (hnone : records.lookup key = none) :
    ∃ m, OrderedMap.insert Data.compare key record records = .ok m ∧ Memtable schema t m ∧
      m.length = records.length + 1 ∧ (∀ p ∈ m, p ∈ records ∨ p = (key, record)) ∧
      (fun k => m.lookup k) = Function.update (fun k => records.lookup k) key (some record) := by
  obtain ⟨l, r, rfl, hins, hsorted⟩ := OrderedMap.insert_of_lookup_eq_none
    (Data.ordersOn_compare ht) htype record records h.keysIn h.sorted hnone
  have hmem : ∀ p ∈ l ++ (key, record) :: r, p ∈ l ++ r ∨ p = (key, record) := by
    intro p hp
    simp only [List.mem_append, List.mem_cons] at hp ⊢
    tauto
  refine ⟨_, hins, ⟨?_, ?_, ?_, hsorted⟩, by simp [Nat.add_assoc], hmem, ?_⟩
  · intro p hp
    rcases hmem p hp with hp | rfl
    · exact h.verified p hp
    · exact hv
  · intro p hp
    rcases hmem p hp with hp | rfl
    · exact h.sortKey p hp
    · exact hkey
  · intro p hp
    rcases hmem p hp with hp | rfl
    · exact h.keysIn p hp
    · exact htype
  · funext k
    by_cases hk : k = key
    · subst hk
      rw [List.lookup_append] at hnone
      simp [List.lookup_append, (Option.or_eq_none_iff.mp hnone).1]
    · have hbeq : (k == key) = false := by simpa using hk
      simp [List.lookup_append, List.lookup_cons, hbeq, hk]

lemma entries (h : Memtable schema t records) (ht : t.Comparable) :
    Entries t (entriesFrom schema.recordSize 0 records) :=
  entries_of_records ht _ _ _ h.keysIn h.sorted

lemma entries_sized (h : Memtable schema t records) (hs : ∀ p ∈ records, p.2.Sized) :
    ∀ e ∈ entriesFrom schema.recordSize 0 records, e.1.Sized := by
  intro e he
  obtain ⟨p, hp, hkey⟩ := mem_entriesFrom he
  exact hkey ▸ h.key_sized hp (hs p hp)

end Memtable

/-- The files of one SSTable. -/
def IsSstable (base table : List UInt8) (sstableId : Nat) (path : Path) : Prop :=
  path = .summary base table sstableId ∨ path = .index base table sstableId ∨
    path = .data base table sstableId

/-- SSTables of different tables or different numbers share no file. -/
lemma IsSstable.unique {base base' table table' : List UInt8} {i j : Nat} {path : Path}
    (h : IsSstable base table i path) (h' : IsSstable base' table' j path) :
    base = base' ∧ table = table' ∧ i = j := by
  rcases h with rfl | rfl | rfl <;> simpa [IsSstable] using h'

/-- The files of an SSTable as its builder leaves them. Older contents may follow. -/
structure Stored (files : Path → Option (List UInt8)) (base table : List UInt8) (sstableId : Nat)
    (t : DataType) (es : List (Data × BitVec 64)) (rows : List (List UInt8)) : Prop where
  summary : ∃ tail, files (.summary base table sstableId) =
    some (summaryImage (builtSummary t es) ++ tail)
  index : ∃ tail, files (.index base table sstableId) =
    some ((pagesOf t es).flatMap (fun page => pageImage ⟨page, t⟩) ++ tail)
  data : ∃ tail, files (.data base table sstableId) = some (rows.flatten ++ tail)

/-- The two files of an SSTable that a lookup reads. -/
structure Rows (files : Path → Option (List UInt8)) (base table : List UInt8) (sstableId : Nat)
    (t : DataType) (es : List (Data × BitVec 64)) (rows : List (List UInt8)) : Prop where
  index : ∃ tail, files (.index base table sstableId) =
    some ((pagesOf t es).flatMap (fun page => pageImage ⟨page, t⟩) ++ tail)
  data : ∃ tail, files (.data base table sstableId) = some (rows.flatten ++ tail)

lemma Stored.rows {files : Path → Option (List UInt8)} {base table : List UInt8}
    {sstableId : Nat} {t : DataType} {es : List (Data × BitVec 64)} {rows : List (List UInt8)}
    (h : Stored files base table sstableId t es rows) : Rows files base table sstableId t es rows :=
  ⟨h.index, h.data⟩

/-- What the builder writes is stored. -/
lemma Stored.of_filesAfter (files : Path → Option (List UInt8)) (base table : List UInt8)
    (sstableId : Nat) (t : DataType) (es : List (Data × BitVec 64)) (rows : List (List UInt8)) :
    Stored (filesAfter files base table sstableId
      { summary := summaryImage (builtSummary t es)
        index := (pagesOf t es).flatMap (fun page => pageImage ⟨page, t⟩)
        data := rows.flatten }) base table sstableId t es rows where
  summary := by simp [filesAfter, overwrite_zero]
  index := by simp [filesAfter, overwrite_zero]
  data := by simp [filesAfter, overwrite_zero]

lemma Stored.congr {files files' : Path → Option (List UInt8)} {base table : List UInt8}
    {sstableId : Nat} {t : DataType} {es : List (Data × BitVec 64)} {rows : List (List UInt8)}
    (h : Stored files base table sstableId t es rows)
    (hfiles : ∀ path, IsSstable base table sstableId path → files' path = files path) :
    Stored files' base table sstableId t es rows where
  summary := by rw [hfiles _ (.inl rfl)]; exact h.summary
  index := by rw [hfiles _ (.inr (.inl rfl))]; exact h.index
  data := by rw [hfiles _ (.inr (.inr rfl))]; exact h.data

lemma Rows.congr {files files' : Path → Option (List UInt8)} {base table : List UInt8}
    {sstableId : Nat} {t : DataType} {es : List (Data × BitVec 64)} {rows : List (List UInt8)}
    (h : Rows files base table sstableId t es rows)
    (hfiles : ∀ path, IsSstable base table sstableId path → files' path = files path) :
    Rows files' base table sstableId t es rows where
  index := by rw [hfiles _ (.inr (.inl rfl))]; exact h.index
  data := by rw [hfiles _ (.inr (.inr rfl))]; exact h.data

namespace TableManager

variable {s : Posix Path} {base table : List UInt8} {sstableId : Nat} {schema : Schema}
  {t : DataType} {es : List (Data × BitVec 64)} {rows : List (List UInt8)}

lemma pagesOf_sublist {page : List (Data × BitVec 64)} (hp : page ∈ pagesOf t es) :
    page.Sublist es ∧ 6 + page.length * (t.length.toNat + 8) ≤ 4096 := by
  obtain ⟨hfull, hlast⟩ := layout_sublist t.length.toNat [] es
  obtain ⟨hfull', hlast'⟩ := layout_size t.length.toNat [] es (by norm_num)
  rcases List.mem_append.mp hp with hp | hp
  · exact ⟨hfull page hp, hfull' page hp⟩
  · rw [List.mem_singleton.mp hp]
    exact ⟨hlast, hlast'⟩

lemma length_pageImage (he : Entries t es) {page : List (Data × BitVec 64)}
    (hp : page ∈ pagesOf t es) : (pageImage ⟨page, t⟩).length = 4096 := by
  obtain ⟨hsub, hsize⟩ := pagesOf_sublist hp
  rw [pageImage, List.length_append, List.length_replicate, (he.sublist hsub).listed.length_encode]
  omega

/-- Reading a page back gives as many of its entries as the count byte says. -/
lemma decode_pageImage {page : List (Data × BitVec 64)} (hpage : Entries t page)
    (hsized : ∀ e ∈ page, e.1.Sized) (hsize : 6 + page.length * (t.length.toNat + 8) ≤ 4096) :
    decode IndexPage.from (pageImage ⟨page, t⟩) = .ok ⟨page.take (page.length % 256), t⟩ := by
  have hread := IndexPage.reads_from hpage.wellFormed hsized
  have hsplit : pageImage ⟨page, t⟩ =
      (leBytes 1 (BitVec.ofNat 8 page.length).toNat ++
        (t.encode ++ (page.take (page.length % 256)).flatMap IndexPage.encodeEntry)) ++
      ((page.drop (page.length % 256)).flatMap IndexPage.encodeEntry ++
        List.replicate (4096 - (IndexPage.mk page t).encode.length) 0) := by
    have hentries : page.flatMap IndexPage.encodeEntry =
        (page.take (page.length % 256)).flatMap IndexPage.encodeEntry ++
          (page.drop (page.length % 256)).flatMap IndexPage.encodeEntry := by
      rw [← List.flatMap_append, List.take_append_drop]
    rw [pageImage]
    generalize List.replicate (4096 - (IndexPage.mk page t).encode.length) (0 : UInt8) = padding
    simp only [IndexPage.encode, hentries, List.append_assoc]
  have hlen : (pageImage ⟨page, t⟩).length = 4096 := by
    rw [pageImage, List.length_append, List.length_replicate, hpage.listed.length_encode]
    omega
  rw [hsplit] at hlen ⊢
  exact decode_of_reads hread _ (by rw [hlen]; norm_num)

lemma loadIndexPage_stored (hst : Rows s.files base table sstableId t es rows)
    (he : Entries t es) (hsized : ∀ e ∈ es, e.1.Sized) {pageNumber : BitVec 8}
    {page : List (Data × BitVec 64)} (hp : (pagesOf t es)[pageNumber.toNat]? = some page) :
    ∃ s', DiskManager.loadIndexPage base table sstableId pageNumber s =
        .ok ⟨page.take (page.length % 256), t⟩ s' ∧
      s'.files = s.files ∧ s'.writes = s.writes := by
  obtain ⟨tail, hfile⟩ := hst.index
  have hmem := List.mem_of_getElem? hp
  have huniform : ∀ q ∈ pagesOf t es, (pageImage ⟨q, t⟩).length = 4096 :=
    fun q hq => length_pageImage he hq
  have hlt : pageNumber.toNat < (pagesOf t es).length := by
    by_contra hge
    simp [List.getElem?_eq_none (Nat.le_of_not_lt hge)] at hp
  have hoff : ((pageNumber.toNat : Int) * 4096).toNat = pageNumber.toNat * 4096 := by omega
  obtain ⟨s', hread, hframe⟩ := DiskManager.readFile_decode IndexPage.from
    ((pageNumber.toNat : Int) * 4096) 4096 hfile (by
      rw [hoff, List.length_append, length_flatMap_of_uniform _ huniform]
      omega)
  refine ⟨s', ?_, hframe⟩
  obtain ⟨hsub, hsize⟩ := pagesOf_sublist hmem
  have hdecode := decode_pageImage (he.sublist hsub) (fun e he => hsized e (hsub.subset he)) hsize
  rw [hoff, take_drop_flatMap _ huniform hp, Process.ofExcept_ok hdecode] at hread
  exact hread

/-- A record that is found in an SSTable has no value too large for its type. -/
lemma readSstable_sized {summary : Summary} {key : Data} {record : Record} {s' : Posix Path}
    (h : readSstable base table schema sstableId summary key s = .ok (some record) s') :
    record.Sized := by
  rw [readSstable] at h
  obtain ⟨number, -, h⟩ := Process.ofExcept_bind_eq_ok h
  obtain ⟨page, s₁, -, h⟩ := bind_eq_ok h
  obtain ⟨offset, -, h⟩ := Process.ofExcept_bind_eq_ok h
  split at h
  · cases h
  · obtain ⟨r, s₂, hget, h⟩ := bind_eq_ok h
    cases h
    exact DiskManager.readFile_returns (Record.returns_sized schema) hget

lemma findOffset_eq (he : Entries t es) {key : Data} (hkey : key.type = t) :
    (IndexPage.mk es t).findOffset key.clone = .ok ((es.lookup key).getD (-1)) := by
  have hfind := OrderedMap.find_eq_lookup (Data.ordersOn_compare he.comparable)
    (Data.mem_ofType.mpr hkey) es he.keysIn he.sorted
  rw [Data.clone_of_comparable (hkey ▸ he.comparable), IndexPage.findOffset, hfind]
  rfl

variable (schema) in
/-- A key that is not among the entries read from its page is reported missing. -/
lemma readSstable_missing (hst : Rows s.files base table sstableId t es rows)
    (he : Entries t es) (hsized : ∀ e ∈ es, e.1.Sized) {key : Data} (hkey : key.type = t)
    {summary : Summary} {pageNumber : BitVec 8} (hnumber : summary.findPageNumber key = .ok pageNumber)
    {page : List (Data × BitVec 64)} (hp : (pagesOf t es)[pageNumber.toNat]? = some page)
    (hmiss : (page.take (page.length % 256)).lookup key = none) :
    ∃ s', readSstable base table schema sstableId summary key s = .ok none s' ∧
      s'.files = s.files ∧ s'.writes = s.writes := by
  obtain ⟨s', hload, hframe⟩ := loadIndexPage_stored hst he hsized hp
  have hpage := he.sublist (pagesOf_sublist (List.mem_of_getElem? hp)).1
  have hoffset := findOffset_eq (hpage.sublist (List.take_sublist (page.length % 256) page)) hkey
  rw [hmiss] at hoffset
  refine ⟨s', ?_, hframe⟩
  rw [readSstable, bind_of_ok (Process.ofExcept_ok hnumber s), bind_of_ok hload,
    bind_of_ok (Process.ofExcept_ok hoffset s')]
  rfl

lemma getRecordFromData_stored (hst : Rows s.files base table sstableId t es rows)
    (hrows : ∀ row ∈ rows, row.length = schema.recordSize) {i : Nat} {row : List UInt8}
    (hi : rows[i]? = some row) (hoff : i * schema.recordSize < 2 ^ 63) :
    ∃ s', DiskManager.getRecordFromData base table sstableId schema
        (BitVec.ofNat 64 (i * schema.recordSize)) s =
        Process.ofExcept (decode (Record.from schema) row) s' ∧
      s'.files = s.files ∧ s'.writes = s.writes := by
  obtain ⟨tail, hfile⟩ := hst.data
  have hoffset : (BitVec.ofNat 64 (i * schema.recordSize)).toInt.toNat = i * schema.recordSize := by
    rw [BitVec.toInt_eq_toNat_of_lt] <;> simp only [BitVec.toNat_ofNat] <;> omega
  have hlt : i < rows.length := by
    by_contra hge
    simp [List.getElem?_eq_none (Nat.le_of_not_lt hge)] at hi
  have hroom : (i + 1) * schema.recordSize ≤ rows.length * schema.recordSize :=
    Nat.mul_le_mul_right _ hlt
  rw [← List.flatMap_id] at hfile
  obtain ⟨s', hread, hframe⟩ := DiskManager.readFile_decode (Record.from schema)
    (BitVec.ofNat 64 (i * schema.recordSize)).toInt schema.recordSize hfile (by
      rw [hoffset, List.length_append, length_flatMap_of_uniform (f := id) rows hrows]
      rw [Nat.add_mul] at hroom
      omega)
  refine ⟨s', ?_, hframe⟩
  rw [hoffset, take_drop_flatMap (f := id) rows hrows hi] at hread
  exact hread

end TableManager

/-! ### Offsets -/

section Offsets

variable {recordSize : Nat} {key : Data}

lemma entriesFrom_lookup_none (records : List (Data × Record)) (offset : BitVec 64)
    (h : records.lookup key = none) : (entriesFrom recordSize offset records).lookup key = none := by
  induction records generalizing offset with
  | nil => rfl
  | cons p records ih =>
    obtain ⟨k, r⟩ := p
    rw [List.lookup_cons] at h
    rw [entriesFrom, List.lookup_cons]
    cases hk : key == k with
    | true => simp [hk] at h
    | false =>
      rw [hk] at h
      exact ih _ h

variable (recordSize) in
lemma entriesFrom_lookup_some {record : Record} (records : List (Data × Record))
    (offset : BitVec 64) (h : records.lookup key = some record) :
    ∃ i, (entriesFrom recordSize offset records).lookup key =
        some (offset + BitVec.ofNat 64 (i * recordSize)) ∧ records[i]? = some (key, record) := by
  induction records generalizing offset with
  | nil => simp at h
  | cons p records ih =>
    obtain ⟨k, r⟩ := p
    rw [List.lookup_cons] at h
    rw [entriesFrom, List.lookup_cons]
    cases hk : key == k with
    | true =>
      obtain rfl : key = k := by simpa using hk
      refine ⟨0, by simp, ?_⟩
      simpa using h
    | false =>
      rw [hk] at h
      obtain ⟨i, hlookup, hi⟩ := ih (offset + BitVec.ofNat 64 recordSize) h
      refine ⟨i + 1, ?_, by simpa using hi⟩
      rw [hlookup, BitVec.add_assoc, ← BitVec.ofNat_add, Nat.add_mul, Nat.one_mul,
        Nat.add_comm recordSize]

end Offsets

/-! ### Layout of the pages -/

section Layout

variable {E : Type}

lemma layout_fst_eq_nil (n : Nat) (c es : List E) (hc : 6 + c.length * (n + 8) ≤ 4096) :
    (layout n c es).1 = [] ↔ 6 + (c.length + es.length) * (n + 8) ≤ 4096 := by
  induction es generalizing c with
  | nil => simpa [layout] using hc
  | cons e es ih =>
    rw [layout]
    split
    · next hfit =>
      rw [ih (c ++ [e]) (by
        simp only [Fits, List.length_append, List.length_singleton, Nat.add_mul] at hfit ⊢
        omega)]
      simp only [List.length_append, List.length_cons, List.length_nil]
      rw [show c.length + (0 + 1) + es.length = c.length + (es.length + 1) by omega]
    · next hfit =>
      simp only [reduceCtorEq, List.length_cons, false_iff, not_le]
      simp only [Fits, not_le] at hfit
      rw [Nat.add_mul, Nat.add_mul, Nat.one_mul]
      omega

/-- When an entry fits into an empty page, the pages hold all entries in their order. -/
lemma layout_flatten (n : Nat) (h0 : Fits n 0) (c es : List E) :
    (layout n c es).1.flatten ++ (layout n c es).2 = c ++ es := by
  induction es generalizing c with
  | nil => simp [layout]
  | cons e es ih =>
    rw [layout]
    split
    · simpa using ih (c ++ [e])
    · simpa [h0] using ih [e]

lemma layout_ne_nil (n : Nat) (h0 : Fits n 0) (c es : List E) (hc : c ≠ []) :
    (∀ page ∈ (layout n c es).1, page ≠ []) ∧ (layout n c es).2 ≠ [] := by
  induction es generalizing c with
  | nil => simpa [layout] using hc
  | cons e es ih =>
    rw [layout]
    split
    · exact ih (c ++ [e]) (by simp)
    · obtain ⟨hfull, hlast⟩ := ih [e] (by simp)
      refine ⟨?_, hlast⟩
      intro page hpage
      rcases List.mem_cons.mp hpage with rfl | hpage
      · exact hc
      · exact hfull page hpage

/-- The first page starts with the entries it has already. -/
lemma layout_head (n : Nat) (c es : List E) :
    ∃ more, ((layout n c es).1 ++ [(layout n c es).2])[0]? = some (c ++ more) := by
  induction es generalizing c with
  | nil => exact ⟨[], by simp [layout]⟩
  | cons e es ih =>
    rw [layout]
    split
    · obtain ⟨more, h⟩ := ih (c ++ [e])
      exact ⟨e :: more, by simpa using h⟩
    · exact ⟨[], by simp⟩

/-- When an entry fits into no page, all pages stay empty. -/
lemma layout_eq_nil (n : Nat) (h0 : ¬Fits n 0) (es : List E) :
    (∀ page ∈ (layout n [] es).1, page = []) ∧ (layout n [] es).2 = [] := by
  induction es with
  | nil => simp [layout]
  | cons e es ih => simpa [layout, h0] using ih

lemma length_offered (n : Nat) (c es : List E) :
    (offered n c es).length = (layout n c es).1.length := by
  induction es generalizing c with
  | nil => rfl
  | cons e es ih =>
    rw [offered, layout]
    split
    · exact ih _
    · simpa using ih _

end Layout

/-! ### Keys of the summary -/

section SummaryKeys

variable {t : DataType} {es : List (Data × BitVec 64)}

/-- The keys are taken in their order until the summary is full. -/
lemma pushAll_sortKeys (es : List (Data × BitVec 64)) (hk : ∀ e ∈ es, e.1.clone = e.1)
    (summary : Summary) :
    ∃ j, (pushAll summary es).sortKeys = summary.sortKeys ++ (es.map Prod.fst).take j := by
  induction es generalizing summary with
  | nil => exact ⟨0, by simp [pushAll]⟩
  | cons e es ih =>
    have hclone : e.1.clone = e.1 := hk e (by simp)
    have hrest := ih (fun e he => hk e (by simp [he]))
    by_cases hfull : summary.size + summary.type.length.toNat > 4096
    · -- A full summary refuses this key and all that follow.
      have hstay : ∀ fs : List (Data × BitVec 64), pushAll summary fs = summary := by
        intro fs
        induction fs with
        | nil => rfl
        | cons f fs ihf =>
          rw [pushAll, List.foldl_cons, Summary.pushBack, if_pos hfull]
          exact ihf
      exact ⟨0, by simp [hstay]⟩
    · obtain ⟨j, hj⟩ := hrest (summary.pushBack e.1).2
      refine ⟨j + 1, ?_⟩
      rw [pushAll, List.foldl_cons]
      refine hj.trans ?_
      rw [Summary.pushBack, if_neg hfull, hclone]
      simp

lemma builtSummary_sortKeys (he : Listed t es) :
    ∃ j, (builtSummary t es).sortKeys =
      ((es.take 1 ++ offered t.length.toNat [] es).map Prod.fst).take j := by
  have hk : ∀ e ∈ es.take 1 ++ offered t.length.toNat [] es, e.1.clone = e.1 := by
    intro e hmem
    rcases List.mem_append.mp hmem with hmem | hmem
    · exact he.copied e (List.mem_of_mem_take hmem)
    · exact he.copied e ((offered_sublist _ _ _).subset hmem)
  obtain ⟨j, hj⟩ := pushAll_sortKeys _ hk ⟨[], t⟩
  exact ⟨j, hj⟩

/-- Every key of the summary is the key of an entry. -/
lemma mem_builtSummary (he : Entries t es) {key : Data}
    (hmem : key ∈ (builtSummary t es).sortKeys) : ∃ e ∈ es, e.1 = key := by
  obtain ⟨j, hj⟩ := builtSummary_sortKeys he.listed
  rw [hj] at hmem
  obtain ⟨e, he', rfl⟩ := List.mem_map.mp (List.mem_of_mem_take hmem)
  refine ⟨e, ?_, rfl⟩
  rcases List.mem_append.mp he' with he' | he'
  · exact List.mem_of_mem_take he'
  · exact (offered_sublist _ _ _).subset he'

/-- There are no more keys than pages, and together they fit into 4096 bytes. -/
lemma length_builtSummary (he : Entries t es) :
    (builtSummary t es).sortKeys.length ≤ (pagesOf t es).length ∧
      6 + (builtSummary t es).sortKeys.length * t.length.toNat ≤ 4096 := by
  constructor
  · obtain ⟨j, hj⟩ := builtSummary_sortKeys he.listed
    have hone : (es.take 1).length ≤ 1 := by simp
    rw [hj, List.length_take, List.length_map, List.length_append, length_offered, pagesOf,
      List.length_append, List.length_singleton]
    omega
  · have hok := builtSummary_ok he.keysIn
    have hsize := hok.size
    simpa [Summary.size, DataType.size, hok.type] using hsize

end SummaryKeys

/-! ### SSTables of one page -/

/-- The entries make one index page, and their number fits into its count byte. -/
def OnePage (t : DataType) (count : Nat) : Prop :=
  count ≤ 255 ∧ 6 + count * (t.length.toNat + 8) ≤ 4096

instance (t : DataType) (count : Nat) : Decidable (OnePage t count) := by
  unfold OnePage
  infer_instance

lemma length_entriesFrom (recordSize : Nat) (offset : BitVec 64) (records : List (Data × Record)) :
    (entriesFrom recordSize offset records).length = records.length := by
  simpa using congrArg List.length (entriesFrom_keys recordSize offset records)

namespace TableManager

variable {s : Posix Path} {base table : List UInt8} {sstableId : Nat} {schema : Schema}
  {t : DataType} {es : List (Data × BitVec 64)} {records : List (Data × Record)}

lemma pagesOf_onePage (h : OnePage t es.length) : pagesOf t es = [es] := by
  have hnil : (layout t.length.toNat [] es).1 = [] :=
    (layout_fst_eq_nil _ _ _ (by norm_num)).mpr (by simpa using h.2)
  have hzero : es = [] ∨ Fits t.length.toNat 0 := by
    rcases es with _ | ⟨e, es⟩
    · exact .inl rfl
    · have hsize := h.2
      simp only [List.length_cons, Nat.add_mul] at hsize
      right
      simp only [Fits]
      omega
  rw [pagesOf, hnil]
  rcases hzero with rfl | hzero
  · rfl
  · simpa [hnil] using layout_flatten t.length.toNat hzero [] es

/-- The summary of one page has one key. -/
lemma builtSummary_onePage {e : Data × BitVec 64} (h : OnePage t (e :: es).length) :
    builtSummary t (e :: es) = ((Summary.mk [] t).pushBack e.1).2 := by
  have hnil : (layout t.length.toNat [] (e :: es)).1 = [] :=
    (layout_fst_eq_nil _ _ _ (by norm_num)).mpr (by simpa using h.2)
  have hoffered : offered t.length.toNat [] (e :: es) = [] := by
    rw [← List.length_eq_zero_iff, length_offered, hnil, List.length_nil]
  simp [builtSummary, hoffered, pushAll]

lemma findPageNumber_onePage (hne : es ≠ []) (h : OnePage t es.length) (key : Data) :
    (builtSummary t es).findPageNumber key = .ok 0 := by
  obtain ⟨e, rest, rfl⟩ := List.exists_cons_of_ne_nil hne
  have hroom : ¬(Summary.mk [] t).size + t.length.toNat > 4096 := by
    have hsize := h.2
    simp only [List.length_cons, Nat.add_mul] at hsize
    simp only [Summary.size, DataType.size, List.length_nil]
    omega
  simp [builtSummary_onePage h, Summary.pushBack, hroom, Summary.findPageNumber]

/-- Every key of the type is found in an SSTable of one page as it is in the memtable. -/
theorem readSstable_onePage (hm : Memtable schema t records) (ht : t.Comparable)
    (hne : records ≠ []) (hs : ∀ p ∈ records, p.2.Sized) (hsize : schema.recordSize < 2 ^ 31)
    (hone : OnePage t records.length)
    (hst : Rows s.files base table sstableId t (entriesFrom schema.recordSize 0 records)
      (records.map (fun p => p.2.encode))) {key : Data} (hkey : key.type = t) :
    ∃ s', readSstable base table schema sstableId
        (builtSummary t (entriesFrom schema.recordSize 0 records)) key s =
        .ok (records.lookup key) s' ∧ s'.files = s.files ∧ s'.writes = s.writes := by
  have he := hm.entries ht
  have hsized := hm.entries_sized hs
  have hlength := length_entriesFrom schema.recordSize 0 records
  set es := entriesFrom schema.recordSize 0 records with hes
  have hone' : OnePage t es.length := by rwa [hlength]
  have hnonempty : es ≠ [] := by
    rw [← List.length_pos_iff, hlength]
    exact List.length_pos_iff.mpr hne
  have hnumber := findPageNumber_onePage hnonempty hone' key
  have hpage : (pagesOf t es)[(0 : BitVec 8).toNat]? = some es := by simp [pagesOf_onePage hone']
  have hall : es.take (es.length % 256) = es := by
    rw [Nat.mod_eq_of_lt (by have := hone'.1; omega), List.take_length]
  cases hlookup : records.lookup key with
  | none =>
    exact readSstable_missing schema hst he hsized hkey hnumber hpage
      (by rw [hall]; exact entriesFrom_lookup_none records 0 hlookup)
  | some record =>
    obtain ⟨i, hentry, hi⟩ := entriesFrom_lookup_some schema.recordSize records 0
      hlookup
    rw [zero_add, ← hes] at hentry
    have hmem : (key, record) ∈ records := List.mem_of_getElem? hi
    have hi255 : i < 255 := by
      have hlt : i < records.length := by
        by_contra hge
        simp [List.getElem?_eq_none (Nat.le_of_not_lt hge)] at hi
      have := hone.1
      omega
    have hbound : i * schema.recordSize < 2 ^ 63 := by
      calc i * schema.recordSize ≤ 255 * 2 ^ 31 := Nat.mul_le_mul (by omega) (by omega)
        _ < 2 ^ 63 := by norm_num
    obtain ⟨s₁, hload, hfiles₁, hwrites₁⟩ := loadIndexPage_stored hst he hsized hpage
    rw [hall] at hload
    have hoffset := findOffset_eq he hkey
    rw [hentry, Option.getD_some] at hoffset
    have hnot : ¬BitVec.ofNat 64 (i * schema.recordSize) = -1 := by
      intro heq
      have hnat := congrArg BitVec.toNat heq
      rw [BitVec.toNat_ofNat, show (-1 : BitVec 64).toNat = 2 ^ 64 - 1 from rfl] at hnat
      omega
    have hrows : ∀ row ∈ records.map (fun p => p.2.encode), row.length = schema.recordSize := by
      intro row hrow
      obtain ⟨p, hp, rfl⟩ := List.mem_map.mp hrow
      exact Record.length_encode (hm.verified p hp)
    obtain ⟨s₂, hget, hfiles₂, hwrites₂⟩ := getRecordFromData_stored (s := s₁) (hfiles₁ ▸ hst) hrows
      (i := i) (show _ = some record.encode by simp [hi]) hbound
    have hdecode : decode (Record.from schema) record.encode = .ok record := by
      have hread := decode_of_reads (Record.reads_from (hm.verified _ hmem) (hs _ hmem)) [] (by
        rw [List.append_nil, Record.length_encode (hm.verified _ hmem)]
        exact hsize)
      rwa [List.append_nil] at hread
    rw [Process.ofExcept_ok hdecode] at hget
    refine ⟨s₂, ?_, hfiles₂.trans hfiles₁, hwrites₂.trans hwrites₁⟩
    rw [readSstable, bind_of_ok (Process.ofExcept_ok hnumber s), bind_of_ok hload,
      bind_of_ok (Process.ofExcept_ok hoffset s₁), if_neg hnot, bind_of_ok hget]
    rfl

end TableManager

/-! ### The builder on rows of moderate size -/

lemma filesAfter_of_not_isSstable {files : Path → Option (List UInt8)} {base table : List UInt8}
    {sstableId : Nat} {path : Path} (h : ¬IsSstable base table sstableId path) (out : Output) :
    filesAfter files base table sstableId out path = files path := by
  simp only [IsSstable, not_or] at h
  simp [filesAfter, h]

/-- Rows of fewer than `2 ^ 31` bytes are stored as an SSTable, and no other file changes. -/
theorem build_of_lt {s : Posix Path} (hw : s.WritesSucceed) (base table : List UInt8)
    (sstableId : Nat) {schema : Schema} {t : DataType} {records : List (Data × Record)}
    (ht : t.Comparable) (hm : Memtable schema t records) (hne : records ≠ [])
    (hsize : schema.recordSize < 2 ^ 31) :
    ∃ files, build base table schema sstableId records s =
        .ok (builtSummary t (entriesFrom schema.recordSize 0 records)) { s with files := files } ∧
      Stored files base table sstableId t (entriesFrom schema.recordSize 0 records)
        (records.map (fun p => p.2.encode)) ∧
      ∀ path, ¬IsSstable base table sstableId path → files path = s.files path := by
  have hrec : ∀ p ∈ records, serialise schema.recordSize p.2.bytes = .ok p.2.encode := by
    intro p hp
    have hlen := Record.length_encode (hm.verified p hp)
    simpa [hlen] using serialise_of_writes p.2.writes_bytes hlen.le hsize
  have hrun := build_executes hw base table schema sstableId Record.encode records hne hrec
    (hm.entries ht).listed
  dsimp only at hrun
  rw [List.flatMap_def (l := records)] at hrun
  exact ⟨_, hrun, Stored.of_filesAfter _ _ _ _ _ _ _,
    fun path hpath => filesAfter_of_not_isSstable hpath _⟩

/-- The builder has stored the SSTable if it returns at all. -/
lemma build_stored {s s' : Posix Path} (hw : s.WritesSucceed) {base table : List UInt8}
    {sstableId : Nat} {schema : Schema} {t : DataType} {records : List (Data × Record)}
    (ht : t.Comparable) (hm : Memtable schema t records) (hne : records ≠ []) {summary : Summary}
    (h : build base table schema sstableId records s = .ok summary s') :
    summary = builtSummary t (entriesFrom schema.recordSize 0 records) ∧
      ∃ rows, Stored s'.files base table sstableId t (entriesFrom schema.recordSize 0 records)
        rows := by
  have hrec : ∀ p ∈ records, serialise schema.recordSize p.2.bytes =
      .ok ((serialise schema.recordSize p.2.bytes).toOption.getD []) := by
    intro p hp
    obtain ⟨bs, hbs⟩ := build_ok_serialises hw h p hp
    simp [hbs, Except.toOption]
  have hrun := build_executes hw base table schema sstableId
    (fun r => (serialise schema.recordSize r.bytes).toOption.getD []) records hne hrec
    (hm.entries ht).listed
  dsimp only at hrun
  rw [h, List.flatMap_def (l := records)] at hrun
  cases hrun
  exact ⟨rfl, _, Stored.of_filesAfter _ _ _ _ _ _ _⟩

end Dibibase
