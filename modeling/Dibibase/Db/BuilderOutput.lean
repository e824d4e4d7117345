import Mathlib.Algebra.Order.BigOperators.Group.List
import Dibibase.Db.RoundTrip

/-!
# The files that the builder leaves

The pages of the index file hold every key of the map once, in map order and with the
offset of its record, and the summary is offered the first key of every page. The data
file holds the records, unless a column is too long for the `int` sizes of the buffer that
serialises it. A row that one `write` cannot move whole is no longer the builder's alone.
-/

namespace Dibibase

open Library TableBuilder

/-! ### Rows of any size -/

namespace Record

lemma keepsSize_bytes (r : Record) : KeepsSize r.bytes :=
  KeepsSize.forM r.values Data.keepsSize_bytes

lemma lengths_of_verify {schema : Schema} {r : Record} (hv : schema.verify r = true) :
    (∀ v ∈ r.values, v.type.length.toNat < 2 ^ 31) ↔
      ∀ f ∈ schema.fields, f.type.length.toNat < 2 ^ 31 := by
  have hvalues : (∀ v ∈ r.values, v.type.length.toNat < 2 ^ 31) ↔
      ∀ t ∈ r.values.map Data.type, t.length.toNat < 2 ^ 31 := by simp
  have hfields : (∀ f ∈ schema.fields, f.type.length.toNat < 2 ^ 31) ↔
      ∀ t ∈ schema.fields.map Field.type, t.length.toNat < 2 ^ 31 := by simp
  rw [hvalues, hfields, Schema.verify_iff.mp hv]

/-- The bytes of a record that the loop of `MemoryBuffer::bytes` does not reach. -/
def uncopied (schema : Schema) (r : Record) : List UInt8 :=
  r.encode.drop (toInt schema.recordSize).toNat

/-- A row is serialised as it is exactly when no column is too long and the bytes that
are not copied are zero anyway. -/
theorem serialise_eq_encode_iff {schema : Schema} {r : Record} (hv : schema.verify r = true)
    (hsize : schema.recordSize < 2 ^ 63) :
    serialise schema.recordSize r.bytes = .ok r.encode ↔
      (∀ f ∈ schema.fields, f.type.length.toNat < 2 ^ 31) ∧ ∀ b ∈ r.uncopied schema, b = 0 := by
  have hlen := length_encode hv
  rw [← lengths_of_verify hv]
  by_cases hshort : ∀ v ∈ r.values, v.type.length.toNat < 2 ^ 31
  · have hwrites : WritesUpTo (2 ^ 63) r.bytes r.encode :=
      WritesUpTo.forM r.values (fun v hmem => Data.writesUpTo_bytes le_rfl (hshort v hmem))
    have hnew : (MemoryBuffer.new schema.recordSize).size = schema.recordSize := by
      simp [MemoryBuffer.new, MemoryBuffer.size]
    have hrun := hwrites (MemoryBuffer.new schema.recordSize)
      (by rw [hnew, hlen]; simp [MemoryBuffer.new]) (by rwa [hnew])
    rw [MemoryBuffer.new_append, hlen, Nat.sub_self, List.replicate_zero, List.append_nil] at hrun
    have hser : serialise schema.recordSize r.bytes =
        .ok (MemoryBuffer.mk r.encode schema.recordSize).bytes := by
      simp [serialise, hrun, Bind.bind, Except.bind, Pure.pure, Except.pure]
    have hbytes : (MemoryBuffer.mk r.encode schema.recordSize).bytes =
        r.encode.take (toInt schema.recordSize).toNat ++
          List.replicate (r.uncopied schema).length 0 := by
      rw [MemoryBuffer.bytes, MemoryBuffer.size, hlen, uncopied, List.length_drop, hlen]
    have hsplit : r.encode = r.encode.take (toInt schema.recordSize).toNat ++ r.uncopied schema :=
      (List.take_append_drop _ _).symm
    rw [hser, Except.ok.injEq, hbytes]
    constructor
    · intro heq
      refine ⟨hshort, ?_⟩
      have htail : List.replicate (r.uncopied schema).length 0 = r.uncopied schema :=
        List.append_cancel_left (heq.trans hsplit)
      intro b hb
      rw [← htail] at hb
      exact List.eq_of_mem_replicate hb
    · rintro ⟨-, hzero⟩
      rw [← List.eq_replicate_of_mem hzero]
      exact hsplit.symm
  · constructor
    · intro hser
      simp only [not_forall, not_lt] at hshort
      obtain ⟨v, hmem, hlong⟩ := hshort
      obtain ⟨e, herror⟩ := Throws.forM hmem (Data.throws_bytes hlong)
        (MemoryBuffer.new schema.recordSize)
      have hthrow : serialise schema.recordSize r.bytes = .error e := by
        simp only [serialise, bytes, herror, Bind.bind, Except.bind]
      rw [hthrow] at hser
      cases hser
    · intro h
      exact absurd h.1 hshort

end Record

/-! ### Copies of keys -/

section Copies

@[simp] lemma IndexPage.pushBack_clone (p : IndexPage) (key : Data) (offset : BitVec 64) :
    p.pushBack key.clone offset = p.pushBack key offset := by
  unfold IndexPage.pushBack
  rw [Data.clone_clone]

@[simp] lemma Summary.pushBack_clone (s : Summary) (key : Data) :
    s.pushBack key.clone = s.pushBack key := by
  unfold Summary.pushBack
  rw [Data.clone_clone]

/-- The map with copies of its keys. -/
def copyKeys (records : List (Data × Record)) : List (Data × Record) :=
  records.map (fun p => (p.1.clone, p.2))

lemma writeRecords_copyKeys (schema : Schema) (fds : Files) (records : List (Data × Record))
    (offset : BitVec 64) (summary : Summary) (page : IndexPage) :
    writeRecords schema fds (copyKeys records) offset summary page =
      writeRecords schema fds records offset summary page := by
  induction records generalizing offset summary page with
  | nil => rfl
  | cons p records ih =>
    unfold copyKeys at ih ⊢
    simp only [List.map_cons, writeRecords, IndexPage.pushBack_clone, Summary.pushBack_clone, ih]

/-- The builder only sees copies of the keys. -/
lemma build_copyKeys (base table : List UInt8) (schema : Schema) (sstableId : Nat)
    (records : List (Data × Record)) :
    build base table schema sstableId (copyKeys records) =
      build base table schema sstableId records := by
  have hconstruct : ∀ fds, constructSstableFiles schema (copyKeys records) fds =
      constructSstableFiles schema records fds := by
    intro fds
    cases records with
    | nil => rfl
    | cons p records =>
      have hloop := writeRecords_copyKeys schema fds (p :: records)
      unfold copyKeys at hloop ⊢
      simp only [List.map_cons] at hloop
      simp only [List.map_cons, constructSstableFiles, Data.type_clone, Summary.pushBack_clone, hloop]
  simp only [build, hconstruct]

/-- The entry with a copy of its key. -/
def copyKey (e : Data × BitVec 64) : Data × BitVec 64 := (e.1.clone, e.2)

lemma entriesFrom_copyKeys (recordSize : Nat) (offset : BitVec 64) (records : List (Data × Record)) :
    entriesFrom recordSize offset (copyKeys records) =
      (entriesFrom recordSize offset records).map copyKey := by
  induction records generalizing offset with
  | nil => rfl
  | cons p records ih =>
    unfold copyKeys at ih ⊢
    simp only [List.map_cons, entriesFrom, ih, copyKey]

lemma layout_map {E F : Type} (f : E → F) (n : Nat) (c es : List E) :
    layout n (c.map f) (es.map f) =
      ((layout n c es).1.map (List.map f), (layout n c es).2.map f) := by
  induction es generalizing c with
  | nil => simp [layout]
  | cons e es ih =>
    rw [List.map_cons, layout, layout, List.length_map]
    by_cases hfit : Fits n c.length
    · rw [if_pos hfit, if_pos hfit, ← ih]
      simp
    · have hnext : (if Fits n 0 then [f e] else []) = (if Fits n 0 then [e] else []).map f := by
        split <;> rfl
      rw [if_neg hfit, if_neg hfit, hnext, ih]
      rfl

lemma offered_map {E F : Type} (f : E → F) (n : Nat) (c es : List E) :
    offered n (c.map f) (es.map f) = (offered n c es).map f := by
  induction es generalizing c with
  | nil => rfl
  | cons e es ih =>
    rw [List.map_cons, offered, offered, List.length_map]
    by_cases hfit : Fits n c.length
    · rw [if_pos hfit, if_pos hfit, ← ih]
      simp
    · have hnext : (if Fits n 0 then [f e] else []) = (if Fits n 0 then [e] else []).map f := by
        split <;> rfl
      rw [if_neg hfit, if_neg hfit, hnext, ih, List.map_cons]

lemma pagesOf_copyKey (t : DataType) (es : List (Data × BitVec 64)) :
    pagesOf t (es.map copyKey) = (pagesOf t es).map (List.map copyKey) := by
  have hlayout := layout_map copyKey t.length.toNat [] es
  rw [List.map_nil] at hlayout
  rw [pagesOf, pagesOf, hlayout, List.map_append, List.map_singleton]

lemma builtSummary_copyKey (t : DataType) (es : List (Data × BitVec 64)) :
    builtSummary t (es.map copyKey) = builtSummary t es := by
  have hoffered := offered_map copyKey t.length.toNat [] es
  rw [List.map_nil] at hoffered
  unfold builtSummary pushAll
  rw [hoffered, ← List.map_take, ← List.map_append, List.foldl_map]
  simp only [copyKey, Summary.pushBack_clone]

/-- A page is written as if its keys had not been copied. -/
lemma pageImage_copyKey {t : DataType} {page : List (Data × BitVec 64)}
    (hk : OrderedMap.KeysIn (Data.ofType t) page) (ht : t.length.toNat < 2 ^ 31) :
    pageImage ⟨page.map copyKey, t⟩ = pageImage ⟨page, t⟩ := by
  have hentries : (page.map copyKey).flatMap IndexPage.encodeEntry =
      page.flatMap IndexPage.encodeEntry := by
    rw [List.flatMap_map]
    apply List.flatMap_congr
    intro e he
    rw [copyKey, IndexPage.encodeEntry, IndexPage.encodeEntry, Data.encode_clone]
    rwa [Data.mem_ofType.mp (hk e he)]
  have hencode : (IndexPage.mk (page.map copyKey) t).encode = (IndexPage.mk page t).encode := by
    simp only [IndexPage.encode, hentries, List.length_map]
  rw [pageImage, pageImage, hencode]

lemma listed_copyKey {t : DataType} {es : List (Data × BitVec 64)}
    (hk : OrderedMap.KeysIn (Data.ofType t) es) (hs : OrderedMap.Sorted Data.compare es) :
    Listed t (es.map copyKey) where
  keysIn e he := by
    obtain ⟨d, hd, rfl⟩ := List.mem_map.mp he
    exact (Data.type_clone d.1).trans (hk d hd)
  sorted := by
    apply List.pairwise_map.mpr
    apply List.Pairwise.imp _ hs
    intro a b hab
    exact (Data.compare_clone a.1 b.1).trans hab
  copied e he := by
    obtain ⟨d, hd, rfl⟩ := List.mem_map.mp he
    exact Data.clone_clone d.1

end Copies

/-! ### Pages and summary -/

section Pages

variable {t : DataType} {es : List (Data × BitVec 64)}

lemma layout_heads {E : Type} (n : Nat) (h0 : Fits n 0) (c es : List E) (hc : c ≠ []) :
    ((layout n c es).1 ++ [(layout n c es).2]).filterMap List.head? =
      c.head?.toList ++ offered n c es := by
  induction es generalizing c with
  | nil =>
    obtain ⟨e, c, rfl⟩ := List.exists_cons_of_ne_nil hc
    simp [layout, offered]
  | cons e es ih =>
    rw [layout, offered]
    by_cases hfit : Fits n c.length
    · rw [if_pos hfit, if_pos hfit, ih (c ++ [e]) (by simp), List.head?_append_of_ne_nil _ hc]
    · have hrest := ih [e] (by simp)
      obtain ⟨d, c, rfl⟩ := List.exists_cons_of_ne_nil hc
      rw [if_neg hfit, if_neg hfit, if_pos h0]
      simpa using hrest

/-- The first keys of the pages are the keys offered to the summary. -/
lemma pagesOf_heads (h0 : Fits t.length.toNat 0) (hne : es ≠ []) :
    (pagesOf t es).filterMap List.head? = es.take 1 ++ offered t.length.toNat [] es := by
  obtain ⟨e, rest, rfl⟩ := List.exists_cons_of_ne_nil hne
  have hlayout : layout t.length.toNat [] (e :: rest) = layout t.length.toNat [e] rest := by
    simp [layout, h0]
  have hoffered : offered t.length.toNat [] (e :: rest) = offered t.length.toNat [e] rest := by
    simp [offered, h0]
  rw [pagesOf, hlayout, hoffered, layout_heads _ h0 [e] rest (by simp)]
  rfl

lemma pagesOf_ne_nil (h0 : Fits t.length.toNat 0) (hne : es ≠ []) :
    ∀ page ∈ pagesOf t es, page ≠ [] := by
  obtain ⟨e, rest, rfl⟩ := List.exists_cons_of_ne_nil hne
  have hlayout : layout t.length.toNat [] (e :: rest) = layout t.length.toNat [e] rest := by
    simp [layout, h0]
  obtain ⟨hfull, hlast⟩ := layout_ne_nil t.length.toNat h0 [e] rest (by simp)
  intro page hpage
  rw [pagesOf, hlayout, List.mem_append, List.mem_singleton] at hpage
  rcases hpage with hpage | rfl
  · exact hfull page hpage
  · exact hlast

lemma getElem?_entriesFrom (recordSize : Nat) (offset : BitVec 64) (records : List (Data × Record))
    (i : Nat) : (entriesFrom recordSize offset records)[i]? =
      records[i]?.map (fun p => (p.1, offset + BitVec.ofNat 64 (i * recordSize))) := by
  induction records generalizing offset i with
  | nil => rfl
  | cons p records ih =>
    rw [entriesFrom]
    cases i with
    | zero => simp
    | succ i =>
      rw [List.getElem?_cons_succ, List.getElem?_cons_succ, ih, BitVec.add_assoc,
        ← BitVec.ofNat_add, Nat.add_mul, Nat.one_mul, Nat.add_comm recordSize]

end Pages

/-! ### What the builder must leave -/

/-- The first keys of the pages. -/
def firstKeys (pages : List IndexPage) : List Data :=
  pages.filterMap (fun p => p.sortKeys.head?.map Prod.fst)

/-- The pages hold the keys of the map, each once, in map order and with the offset of its
record, and the data file holds the records. -/
structure Complete (base table : List UInt8) (schema : Schema) (sstableId : Nat) (t : DataType)
    (records : List (Data × Record)) (pages : List IndexPage) (summary : Summary)
    (s' : Posix Path) : Prop where
  index : ∃ tail, s'.files (.index base table sstableId) = some (pages.flatMap pageImage ++ tail)
  page : ∀ p ∈ pages, p.type = t ∧ p.sortKeys ≠ [] ∧ p.size ≤ 4096
  keys : (pages.flatMap IndexPage.sortKeys).map Prod.fst = records.map Prod.fst
  offsets : ∀ (i : Nat) (e : Data × BitVec 64), (pages.flatMap IndexPage.sortKeys)[i]? = some e →
    e.2.toInt = ((i * schema.recordSize : Nat) : Int)
  data : ∀ i p, records[i]? = some p →
    s'.fileBytes (.data base table sstableId) (i * schema.recordSize) schema.recordSize = p.2.encode
  summary : summary = Summary.pushCalls t (firstKeys pages)

/-- The builder returns and leaves complete files. -/
def BuildsCompletely (base table : List UInt8) (schema : Schema) (sstableId : Nat) (t : DataType)
    (records : List (Data × Record)) (s : Posix Path) : Prop :=
  ∃ pages summary s', build base table schema sstableId records s = .ok summary s' ∧
    Complete base table schema sstableId t records pages summary s'

section Builder

variable {s : Posix Path} {base table : List UInt8} {sstableId : Nat} {schema : Schema}
  {t : DataType} {records : List (Data × Record)}

variable (base table sstableId) in
/-- The run of the builder on keys of any type. -/
lemma build_runs (hw : s.WritesSucceed) (enc : Record → List UInt8) (hne : records ≠ [])
    (hk : OrderedMap.KeysIn (Data.ofType t) records)
    (hs : OrderedMap.Sorted Data.compare records) (ht : t.length.toNat < 2 ^ 31)
    (hrec : ∀ p ∈ records, serialise schema.recordSize p.2.bytes = .ok (enc p.2)) :
    build base table schema sstableId records s =
      .ok (builtSummary t (entriesFrom schema.recordSize 0 records)) { s with
        files := filesAfter s.files base table sstableId
          { summary := summaryImage (builtSummary t (entriesFrom schema.recordSize 0 records))
            index := (pagesOf t (entriesFrom schema.recordSize 0 records)).flatMap
              (fun page => pageImage ⟨page, t⟩)
            data := records.flatMap (fun p => enc p.2) } } := by
  have hkeys := keysIn_entriesFrom schema.recordSize 0 hk
  have hsorted := sorted_entriesFrom schema.recordSize 0 hs
  have hrec' : ∀ p ∈ copyKeys records, serialise schema.recordSize p.2.bytes = .ok (enc p.2) := by
    intro p hp
    obtain ⟨q, hq, rfl⟩ := List.mem_map.mp hp
    exact hrec q hq
  have hrun := build_executes hw base table schema sstableId enc (copyKeys records)
    (by simpa [copyKeys] using hne) hrec' (t := t)
    (by rw [entriesFrom_copyKeys]; exact listed_copyKey hkeys hsorted)
  dsimp only at hrun
  have hpages : (pagesOf t ((entriesFrom schema.recordSize 0 records).map copyKey)).flatMap
      (fun page => pageImage ⟨page, t⟩) =
      (pagesOf t (entriesFrom schema.recordSize 0 records)).flatMap
        (fun page => pageImage ⟨page, t⟩) := by
    rw [pagesOf_copyKey, List.flatMap_map]
    apply List.flatMap_congr
    intro page hpage
    apply pageImage_copyKey _ ht
    intro e he
    exact hkeys e ((TableManager.pagesOf_sublist hpage).1.subset he)
  have hdata : (copyKeys records).flatMap (fun p => enc p.2) = records.flatMap (fun p => enc p.2) := by
    rw [copyKeys, List.flatMap_map]
  rw [build_copyKeys, entriesFrom_copyKeys, builtSummary_copyKey, hpages, hdata] at hrun
  exact hrun

/-- The bytes of one row in the data file. -/
lemma fileBytes_filesAfter (files : Path → Option (List UInt8)) (out : Output)
    (enc : Record → List UInt8) (hout : out.data = records.flatMap (fun p => enc p.2))
    (henc : ∀ p ∈ records, (enc p.2).length = schema.recordSize) {i : Nat} {p : Data × Record}
    (hi : records[i]? = some p) :
    Posix.fileBytes { s with files := filesAfter files base table sstableId out }
      (.data base table sstableId) (i * schema.recordSize) schema.recordSize = enc p.2 := by
  unfold Posix.fileBytes
  simp only [filesAfter, Function.update_self, Option.getD_some, overwrite_zero, hout]
  exact take_drop_flatMap records henc hi _

/-- Complete files, if every row is serialised as it is. -/
lemma complete_of_serialised (hw : s.WritesSucceed) (hne : records ≠ [])
    (hk : OrderedMap.KeysIn (Data.ofType t) records)
    (hs : OrderedMap.Sorted Data.compare records) (hfit : Fits t.length.toNat 0)
    (hv : ∀ p ∈ records, schema.verify p.2 = true)
    (hlen : records.length * schema.recordSize < 2 ^ 63)
    (hrec : ∀ p ∈ records, serialise schema.recordSize p.2.bytes = .ok p.2.encode) :
    BuildsCompletely base table schema sstableId t records s := by
  have ht : t.length.toNat < 2 ^ 31 := by
    unfold Fits at hfit
    omega
  have hrun := build_runs base table sstableId hw Record.encode hne hk hs ht hrec
  have hnonempty : entriesFrom schema.recordSize 0 records ≠ [] := by
    rw [← List.length_pos_iff, length_entriesFrom]
    exact List.length_pos_iff.mpr hne
  set es := entriesFrom schema.recordSize 0 records with hes
  have hflat : ((pagesOf t es).map (fun page => IndexPage.mk page t)).flatMap IndexPage.sortKeys =
      es := by
    rw [List.flatMap_map, List.flatMap_id']
    simpa [pagesOf] using layout_flatten t.length.toNat hfit [] es
  refine ⟨(pagesOf t es).map (fun page => ⟨page, t⟩), _, _, hrun, ?_, ?_, ?_, ?_, ?_, ?_⟩
  · rw [List.flatMap_map]
    simp [filesAfter, overwrite_zero]
  · intro p hp
    obtain ⟨page, hpage, rfl⟩ := List.mem_map.mp hp
    refine ⟨rfl, pagesOf_ne_nil hfit hnonempty page hpage, ?_⟩
    exact (TableManager.pagesOf_sublist hpage).2
  · rw [hflat, hes, entriesFrom_keys]
  · intro i e he
    rw [hflat, hes, getElem?_entriesFrom, Option.map_eq_some_iff] at he
    obtain ⟨p, hp, rfl⟩ := he
    have hi : i < records.length := (List.getElem?_eq_some_iff.mp hp).1
    have hmul := Nat.mul_le_mul_right schema.recordSize hi
    rw [Nat.succ_mul] at hmul
    rw [zero_add, BitVec.toInt_eq_toNat_of_lt, BitVec.toNat_ofNat, Nat.mod_eq_of_lt (by omega)]
    rw [BitVec.toNat_ofNat]
    omega
  · intro i p hi
    exact fileBytes_filesAfter _ _ _ rfl (fun q hq => Record.length_encode (hv q hq)) hi
  · have hheads : firstKeys ((pagesOf t es).map (fun page => ⟨page, t⟩)) =
        ((pagesOf t es).filterMap List.head?).map Prod.fst := by
      rw [firstKeys, List.filterMap_map, List.map_filterMap]
      rfl
    rw [hheads, pagesOf_heads hfit hnonempty, builtSummary, pushAll, Summary.pushCalls,
      List.foldl_map]

/-- Complete files hold rows that have been serialised as they are. -/
lemma serialised_of_complete (hw : s.WritesSucceed) (hne : records ≠ [])
    (hk : OrderedMap.KeysIn (Data.ofType t) records)
    (hs : OrderedMap.Sorted Data.compare records) (ht : t.length.toNat < 2 ^ 31)
    (h : BuildsCompletely base table schema sstableId t records s) :
    ∀ p ∈ records, serialise schema.recordSize p.2.bytes = .ok p.2.encode := by
  obtain ⟨pages, summary, s', hbuild, hcomplete⟩ := h
  set enc : Record → List UInt8 :=
    fun r => (serialise schema.recordSize r.bytes).toOption.getD [] with henc
  have hrec : ∀ q ∈ records, serialise schema.recordSize q.2.bytes = .ok (enc q.2) := by
    intro q hq
    obtain ⟨bs, hbs⟩ := build_ok_serialises hw hbuild q hq
    simp [henc, hbs, Except.toOption]
  have hlength : ∀ q ∈ records, (enc q.2).length = schema.recordSize := by
    intro q hq
    obtain ⟨b, hb, hbytes⟩ := serialise_keepsSize q.2.keepsSize_bytes (hrec q hq)
    rw [← hbytes, MemoryBuffer.length_bytes, hb]
  have hrun := build_runs base table sstableId hw enc hne hk hs ht hrec
  rw [hbuild, EStateM.Result.ok.injEq] at hrun
  intro p hp
  obtain ⟨i, hi⟩ := List.mem_iff_getElem?.mp hp
  have hrow := hcomplete.data i p hi
  rw [hrun.2, fileBytes_filesAfter _ _ enc rfl hlength hi] at hrow
  rw [hrec p hp, hrow]

/-- The bytes of rows that one `write` can move are all copied. -/
lemma serialises_of_le {p : Data × Record} (hv : schema.verify p.2 = true)
    (hrow : schema.recordSize ≤ Posix.writeLimit) :
    serialise schema.recordSize p.2.bytes = .ok p.2.encode := by
  unfold Posix.writeLimit at hrow
  have hlength : ∀ f ∈ schema.fields, f.type.length.toNat ≤ schema.recordSize := by
    intro f hf
    exact List.le_sum_of_mem (List.mem_map_of_mem (f := fun f : Field => f.type.length.toNat) hf)
  refine (Record.serialise_eq_encode_iff hv (by omega)).mpr ⟨fun f hf => ?_, ?_⟩
  · have hle := hlength f hf
    omega
  · rw [Record.uncopied, toInt_of_lt (by omega), Int.toNat_natCast, List.drop_of_length_le
      (Record.length_encode hv).le]
    simp

/-- The builder loses and duplicates nothing exactly when a row is not longer than one `write` can move.
Longer rows are those with a column of `2 ^ 31` bytes or more, which are not written at all: any others are
cut by the system. A data file is shorter than `2 ^ 63` bytes, as the positions in it are values of type
`off_t`. -/
theorem buildsCompletely_iff (hw : s.WritesSucceed) (hne : records ≠ [])
    (hk : OrderedMap.KeysIn (Data.ofType t) records)
    (hs : OrderedMap.Sorted Data.compare records) (hfit : t.length.toNat + 8 + 6 ≤ 4096)
    (hv : ∀ p ∈ records, schema.verify p.2 = true)
    (hlen : records.length * schema.recordSize < 2 ^ 63)
    (hrow : schema.recordSize ≤ Posix.writeLimit ∨ ∃ f ∈ schema.fields, 2 ^ 31 ≤ f.type.length.toNat) :
    BuildsCompletely base table schema sstableId t records s ↔
      schema.recordSize ≤ Posix.writeLimit := by
  have hpos : 0 < records.length := List.length_pos_iff.mpr hne
  have hsize : schema.recordSize < 2 ^ 63 := by
    have hmul := Nat.mul_le_mul_right schema.recordSize hpos
    omega
  constructor
  · intro h
    rcases hrow with hrow | ⟨f, hf, hlong⟩
    · exact hrow
    · have hrec := serialised_of_complete hw hne hk hs (by omega) h
      obtain ⟨p, hp⟩ := List.exists_mem_of_ne_nil records hne
      have hshort := ((Record.serialise_eq_encode_iff (hv p hp) hsize).mp (hrec p hp)).1 f hf
      omega
  · intro hle
    exact complete_of_serialised hw hne hk hs (by unfold Fits; omega) hv hlen
      (fun p hp => serialises_of_le (hv p hp) hle)

end Builder

theorem buildsCompletely_intPairs :
    BuildsCompletely [47] [116] ⟨0, 0, [⟨[107], ⟨.int, 4⟩⟩, ⟨[118], ⟨.int, 4⟩⟩]⟩ 0 ⟨.int, 4⟩
      [(.int 2, ⟨[.int 2, .int 20]⟩), (.int 1, ⟨[.int 1, .int 10]⟩)] (Posix.start (fun _ => 0)) := by
  apply (buildsCompletely_iff (Posix.writesSucceed_start _) (by simp) ?_ ?_ (by decide) (by decide)
    (by decide) (.inl (by decide))).mpr
  · decide
  · intro p hp
    simp only [List.mem_cons, List.not_mem_nil, or_false] at hp
    rcases hp with rfl | rfl <;> rfl
  · unfold OrderedMap.Sorted
    decide

/-- An INT key and a column of `2 ^ 31` bytes. -/
def longRows : Schema := ⟨0, 0, [⟨[107], ⟨.int, 4⟩⟩, ⟨[118], ⟨.ascii, 2147483648⟩⟩]⟩

lemma not_buildsCompletely_of_length {data : List UInt8} (hdata : data.length = 2 ^ 31) :
    longRows.verify ⟨[.int 1, .ascii data]⟩ = true ∧
      ¬BuildsCompletely [47] [116] longRows 0 ⟨.int, 4⟩ [(.int 1, ⟨[.int 1, .ascii data]⟩)]
        (Posix.start (fun _ => 0)) := by
  have hverify : longRows.verify ⟨[.int 1, .ascii data]⟩ = true := by
    rw [Schema.verify_iff]
    simp only [longRows, List.map_cons, List.map_nil, Data.type, hdata]
    decide
  have hsize : longRows.recordSize = 2147483652 := by decide
  refine ⟨hverify, fun h => ?_⟩
  have hrec := serialised_of_complete (Posix.writesSucceed_start _) (by simp)
    (by simp [OrderedMap.KeysIn, Data.mem_ofType, Data.type]) (by simp [OrderedMap.Sorted])
    (by decide) h _ (List.mem_singleton_self _)
  have hshort := ((Record.serialise_eq_encode_iff hverify (by rw [hsize]; norm_num)).mp hrec).1
    ⟨[118], ⟨.ascii, 2147483648⟩⟩ (by simp [longRows])
  exact absurd hshort (by decide)

/-- A value of `2 ^ 31` bytes is accepted, and cannot be put into the buffer. -/
theorem not_buildsCompletely_longRow :
    longRows.verify ⟨[.int 1, .ascii (List.replicate (2 ^ 31) 97)]⟩ = true ∧
      ¬BuildsCompletely [47] [116] longRows 0 ⟨.int, 4⟩
        [(.int 1, ⟨[.int 1, .ascii (List.replicate (2 ^ 31) 97)]⟩)] (Posix.start (fun _ => 0)) :=
  not_buildsCompletely_of_length List.length_replicate

end Dibibase
