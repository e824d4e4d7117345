import Dibibase.Db.Database
import Dibibase.Db.WriteHistory

/-!
# Flushes whose writes fail

The builder stops at the first `write` that fails, and the flush goes on as if nothing had
happened: it appends the summary, takes the next id and clears the memtable. Only the last
write of a flush, that of the summary file, may fail without a loss, since lookups use the
summary in memory.
-/

namespace Dibibase

open Library TableBuilder

namespace TableBuilder

/-! ### Runs of the builder on one page -/

namespace Session

variable (S : Session) (out : Output) (bs : List UInt8) {w : Nat → Bool}

/-- The state while the files are open, with the outcomes of the writes still to come. -/
def running (out : Output) (w : Nat → Bool) : Posix Path := { S.after out with writes := w }

lemma running_data (hw : w 0 = true) :
    Posix.write (ε := Exception) S.fds.data bs (S.running out w) =
      .ok true (S.running { out with data := out.data ++ bs } (fun i => w (i + 1))) :=
  Posix.write_of_succeeds (S.write_data out bs) hw

lemma running_index (hw : w 0 = true) :
    Posix.write (ε := Exception) S.fds.index bs (S.running out w) =
      .ok true (S.running { out with index := out.index ++ bs } (fun i => w (i + 1))) :=
  Posix.write_of_succeeds (S.write_index out bs) hw

variable (w) in
/-- The summary is written or not. -/
lemma running_summary : ∃ b summary,
    Posix.write (ε := Exception) S.fds.summary bs (S.running out w) =
      .ok b (S.running { out with summary := summary } (fun i => w (i + 1))) := by
  cases hw : w 0 with
  | true => exact ⟨true, _, Posix.write_of_succeeds (S.write_summary out bs) hw⟩
  | false => exact ⟨false, out.summary, Posix.write_of_fails hw⟩

lemma close_running (w : Nat → Bool) (a : Summary) :
    (do
      Posix.close S.fds.summary
      Posix.close S.fds.index
      Posix.close S.fds.data
      return a : Process Summary) (S.running out w) =
      .ok a { S.start with
        files := filesAfter S.start.files S.base S.table S.sstableId out, writes := w } := by
  have hclose := S.close_executes out a
  simp only [Posix.close, Bind.bind, EStateM.bind, Pure.pure, EStateM.pure, EStateM.Result.ok.injEq,
    true_and, after] at hclose
  simp only [running, after, Posix.close, Bind.bind, EStateM.bind, Pure.pure, EStateM.pure,
    EStateM.Result.ok.injEq, true_and]
  have hdescriptors := congrArg Posix.descriptors hclose
  simp only at hdescriptors
  rw [hdescriptors]

end Session

/-- The loop, while all entries fit into the current page and the rows are written. -/
lemma writeRecords_onePage (S : Session) (schema : Schema) (enc : Record → List UInt8)
    (t : DataType) (records : List (Data × Record))
    (hrec : ∀ p ∈ records, serialise schema.recordSize p.2.bytes = .ok (enc p.2))
    (offset : BitVec 64) (summary : Summary) (c : List (Data × BitVec 64)) (out : Output)
    (he : Listed t (c ++ entriesFrom schema.recordSize offset records))
    (hsize : 6 + (c.length + records.length) * (t.length.toNat + 8) ≤ 4096) (w : Nat → Bool)
    (hw : ∀ i < records.length, w i = true) :
    writeRecords schema S.fds records offset summary ⟨c, t⟩ (S.running out w) =
      .ok (true, summary, ⟨c ++ entriesFrom schema.recordSize offset records, t⟩)
        (S.running { out with data := out.data ++ records.flatMap (fun p => enc p.2) }
          (fun i => w (i + records.length))) := by
  induction records generalizing offset c out w with
  | nil => simp [writeRecords, entriesFrom, Pure.pure, EStateM.pure]
  | cons p records ih =>
    obtain ⟨key, record⟩ := p
    have hser := hrec (key, record) (by simp)
    have hfit : Fits t.length.toNat c.length := by
      rw [List.length_cons, Nat.add_mul, Nat.add_mul] at hsize
      unfold Fits
      omega
    rw [entriesFrom] at he ⊢
    rw [writeRecords, bind_of_ok (Process.ofExcept_ok hser _),
      bind_of_ok (S.running_data _ _ (hw 0 (by simp)))]
    simp only [Bool.not_true, Bool.false_eq_true, if_false]
    rw [bind_of_ok (Process.ofExcept_ok (he.pushBack.trans (if_pos hfit)) _)]
    simp only [if_true]
    rw [ih (fun p hp => hrec p (by simp [hp])) _ _ _ (by simpa using he) (by
        rw [List.length_append, List.length_singleton]
        rw [List.length_cons] at hsize
        rwa [Nat.add_assoc, Nat.add_comm 1]) _ (fun i hi => hw (i + 1) (by simpa using hi))]
    simp only [List.append_assoc, List.singleton_append, List.flatMap_cons, List.length_cons]
    congr 2

/-- The three files of a map of one page, when its rows and its page are written. -/
lemma constructSstableFiles_onePage (S : Session) (schema : Schema) {t : DataType}
    (ht : t.Comparable) {records : List (Data × Record)} (hm : Memtable schema t records)
    (hne : records ≠ []) (hone : OnePage t records.length) (hsize : schema.recordSize < 2 ^ 31)
    (writes : Nat → Bool) (hw : ∀ i ≤ records.length, writes i = true) :
    ∃ image, constructSstableFiles schema records S.fds (S.running {} writes) =
      .ok (builtSummary t (entriesFrom schema.recordSize 0 records)) (S.running
        { summary := image
          index := pageImage ⟨entriesFrom schema.recordSize 0 records, t⟩
          data := records.flatMap (fun p => p.2.encode) }
        (fun i => writes (i + 1 + 1 + records.length))) := by
  set es := entriesFrom schema.recordSize 0 records with hes
  have hrec : ∀ p ∈ records, serialise schema.recordSize p.2.bytes = .ok p.2.encode := by
    intro p hp
    have hlen := Record.length_encode (hm.verified p hp)
    simpa [hlen] using serialise_of_writes p.2.writes_bytes hlen.le hsize
  have hlisted := (hm.entries ht).listed
  have hloop := writeRecords_onePage S schema Record.encode t records hrec 0
    (builtSummary t es) [] {} hlisted (by simpa using hone.2) writes (fun i hi => hw i hi.le)
  have hpage : 6 + es.length * (t.length.toNat + 8) ≤ 4096 := by
    rw [hes, length_entriesFrom]
    exact hone.2
  have hwrite : ∀ out, writeIndexFile S.fds ⟨es, t⟩
      (S.running out (fun i => writes (i + records.length))) =
      .ok true (S.running { out with index := out.index ++ pageImage ⟨es, t⟩ }
        (fun i => writes (i + 1 + records.length))) := by
    intro out
    rw [writeIndexFile, bind_of_ok (Process.ofExcept_ok (hlisted.serialise_page hpage) _)]
    exact S.running_index _ _ (by simpa using hw records.length le_rfl)
  have hsummary : serialise 4096 (builtSummary t es).bytes = .ok (summaryImage (builtSummary t es)) :=
    serialise_of_writes (Summary.writes_bytes _) (builtSummary_ok hlisted.keysIn).length_encode
      (by norm_num)
  obtain ⟨b, image, hlast⟩ := S.running_summary
    { index := pageImage ⟨es, t⟩, data := records.flatMap (fun p => p.2.encode) }
    (summaryImage (builtSummary t es)) (fun i => writes (i + 1 + records.length))
  refine ⟨image, ?_⟩
  obtain ⟨⟨key, record⟩, rest, rfl⟩ := List.exists_cons_of_ne_nil hne
  have hkey : key.type = t := hm.keysIn (key, record) (by simp)
  have hstart : ((Summary.mk [] t).pushBack key).2 = builtSummary t es := by
    rw [hes, entriesFrom, TableManager.builtSummary_onePage]
    simpa [length_entriesFrom] using hone
  unfold constructSstableFiles
  simp only [hkey, hstart]
  rw [bind_of_ok hloop]
  simp only [Bool.not_true, Bool.false_eq_true, if_false, List.nil_append]
  rw [bind_of_ok (hwrite _)]
  simp only [Bool.not_true, Bool.false_eq_true, if_false, writeSummaryFile, List.nil_append]
  rw [bind_of_ok (bind_of_ok (Process.ofExcept_ok hsummary _) |>.trans hlast)]
  rfl

/-- The builder on a map of one page whose rows and page are written. -/
lemma build_onePage {s : Posix Path} (base table : List UInt8) (schema : Schema) (sstableId : Nat)
    {t : DataType} (ht : t.Comparable) {records : List (Data × Record)}
    (hm : Memtable schema t records) (hne : records ≠ []) (hone : OnePage t records.length)
    (hsize : schema.recordSize < 2 ^ 31) (hw : ∀ i ≤ records.length, s.writes i = true) :
    ∃ s', build base table schema sstableId records s =
        .ok (builtSummary t (entriesFrom schema.recordSize 0 records)) s' ∧
      Rows s'.files base table sstableId t (entriesFrom schema.recordSize 0 records)
        (records.map (fun p => p.2.encode)) ∧
      ∀ path, ¬IsSstable base table sstableId path → s'.files path = s.files path := by
  set S := Session.begin { s with writes := fun _ => true } (fun _ => rfl) base table sstableId
    with hS
  set es := entriesFrom schema.recordSize 0 records with hes
  have hpages : pagesOf t es = [es] := by
    apply TableManager.pagesOf_onePage
    rwa [hes, length_entriesFrom]
  obtain ⟨image, hconstruct⟩ :=
    constructSstableFiles_onePage S schema ht hm hne hone hsize s.writes hw
  have hrun : build base table schema sstableId records s = .ok (builtSummary t es) { s with
      files := filesAfter s.files base table sstableId
        { summary := image, index := pageImage ⟨es, t⟩, data := records.flatMap (fun p => p.2.encode) }
      writes := fun i => s.writes (i + 1 + 1 + records.length) } := by
    have hopen : build base table schema sstableId records s = (do
        let summary ← constructSstableFiles schema records S.fds
        Posix.close S.fds.summary
        Posix.close S.fds.index
        Posix.close S.fds.data
        return summary : Process Summary) (S.running {} s.writes) := by
      simp [build, Posix.openFile, Bind.bind, EStateM.bind, hS, Session.begin, Session.fds,
        Session.running, Session.after, filesAfter]
    rw [hopen, bind_of_ok hconstruct]
    exact S.close_running _ _ _
  refine ⟨_, hrun, ⟨?_, ?_⟩, fun path hpath => filesAfter_of_not_isSstable hpath _⟩
  · simp [hpages, filesAfter, overwrite_zero]
  · rw [← List.flatMap_def]
    simp [filesAfter, overwrite_zero]

end TableBuilder

namespace TableManager

variable {tm : TableManager} {s : Posix Path} {t : DataType}
  {layers : List (List (Data × Record))} {key : Data} {record : Record}

/-! ### Keys of other types -/

/-- A map of values of one kind has no entry under a key of another type, if it is compared at all. -/
lemma find_otherType {β : Type} {m : List (Data × β)} (hm : OrderedMap.KeysIn (Data.ofType t) m)
    (ht : m ≠ [] → t.Comparable) (hkey : key.type ≠ t) (hkind : key.type.id = t.id) :
    OrderedMap.find Data.compare key m = .ok none := by
  have hcmp : ∀ p ∈ m, ∃ b c, p.1.compare key = .ok b ∧ key.compare p.1 = .ok c := by
    intro p hp
    have hid : p.1.type.id = t.id := by rw [Data.mem_ofType.mp (hm p hp)]
    have hordered := (ht (List.ne_nil_of_mem hp)).ordered
    obtain ⟨b, hb⟩ := Data.compare_returns (a := p.1) (hkind.trans hid.symm) (hid.symm ▸ hordered)
    obtain ⟨c, hc⟩ := Data.compare_returns (a := key) (hid.trans hkind.symm) (hkind.symm ▸ hordered)
    exact ⟨b, c, hb, hc⟩
  obtain ⟨found, hfind⟩ := OrderedMap.find_returns hcmp
  cases found with
  | none => exact hfind
  | some value =>
    obtain ⟨k, hk, hbefore, hafter⟩ := OrderedMap.find_eq_some_bounds hfind
    have hktype : k.type = t := hm _ hk
    have heq := Data.eq_of_not_compare (hktype ▸ ht (List.ne_nil_of_mem hk)) hbefore hafter
    exact absurd (heq ▸ hktype) hkey

/-- A comparison with a key of another kind throws. -/
lemma find_otherKind {β : Type} {m : List (Data × β)} (hm : OrderedMap.KeysIn (Data.ofType t) m)
    (hne : m ≠ []) (hkind : key.type.id ≠ t.id) :
    ∃ e, OrderedMap.find Data.compare key m = .error e ∧ e.Incomparable := by
  obtain ⟨p, rest, rfl⟩ := List.exists_cons_of_ne_nil hne
  have hid : p.1.type.id = t.id := by rw [Data.mem_ofType.mp (hm p List.mem_cons_self)]
  obtain ⟨e, he, hthrown⟩ := Data.compare_throws (a := p.1) (b := key)
    (fun h => hkind (h.1.trans hid))
  exact ⟨e, OrderedMap.find_of_error rest he, hthrown⟩

/-! ### What lookups answer -/

/-- What a lookup returns or throws. -/
def answer (st : TableManager × Posix Path) (key : Data) : Except Exception Record :=
  outcome (st.1.readRecord key) st.2

/-- The memtable and the SSTables of the table hold well-formed maps. -/
structure Holding (t : DataType) (st : TableManager × Posix Path)
    (layers : List (List (Data × Record))) : Prop where
  memtable : Memtable st.1.schema t st.1.memtable
  sized : ∀ p ∈ st.1.memtable, p.2.Sized
  small : st.1.memtable.length < 2
  frozen : FrozenRows st.2.files st.1 t layers

/-- The record of a key in the newest map that has it. -/
def contents (tm : TableManager) (layers : List (List (Data × Record))) (key : Data) :
    Option Record :=
  (tm.memtable.lookup key).or (LayeredStore.newest (layers.map (fun m k => m.lookup k)) key)

lemma answer_holding (ht : t.Comparable) (hone : layers ≠ [] → OnePage t 2)
    (hsize : tm.schema.recordSize < 2 ^ 31) (h : Holding t (tm, s) layers) (hkey : key.type = t) :
    answer (tm, s) key = found (contents tm layers key) := by
  have hfind := OrderedMap.find_eq_lookup (Data.ordersOn_compare ht) (k := key) hkey
    tm.memtable h.memtable.keysIn h.memtable.sorted
  have hid : tm.currentSstableId = layers.length := h.frozen.id
  unfold answer contents readRecord
  cases hlookup : tm.memtable.lookup key with
  | some record =>
    rw [hlookup] at hfind
    exact outcome_bind_of_ok (Process.ofExcept_ok hfind s)
  | none =>
    rw [hlookup] at hfind
    rw [Option.none_or, outcome_bind_of_ok (Process.ofExcept_ok hfind s), hid]
    by_cases hnone : layers = []
    · subst hnone
      rfl
    · have hloop := readSstables_frozen ht (hone hnone) hsize hkey layers.length le_rfl s h.frozen
      rwa [List.take_length] at hloop

/-- What a lookup under a key of another type ends with: it throws if it compares the key with one of
another kind, and finds nothing otherwise. -/
def FindsNothing (e : Exception) (alike : Prop) : Prop :=
  alike ∧ e = .nonExistentRecord ∨ ¬alike ∧ e.Incomparable

lemma readSstable_otherType (ht : t.Comparable) (hone : OnePage t 2)
    (h : FrozenRows s.files tm t layers) (hkey : key.type ≠ t) {i : Nat}
    {m : List (Data × Record)} (hi : layers[i]? = some m) :
    (key.type.id ≠ t.id ∧ ∃ e s', readSstable tm.basePath tm.tableName tm.schema i
        (builtSummary t (entriesFrom tm.schema.recordSize 0 m)) key s = .error e s' ∧
        e.Incomparable) ∨
      (key.type.id = t.id ∧ ∃ s', readSstable tm.basePath tm.tableName tm.schema i
        (builtSummary t (entriesFrom tm.schema.recordSize 0 m)) key s = .ok none s' ∧
        s'.files = s.files) := by
  have hmem : m ∈ layers := List.mem_of_getElem? hi
  have he := (h.memtable m hmem).entries ht
  have hsized := (h.memtable m hmem).entries_sized (h.sized m hmem)
  have hlength : (entriesFrom tm.schema.recordSize 0 m).length = 2 := by
    rw [length_entriesFrom, h.two m hmem]
  have hrows := h.rows i m hi
  set es := entriesFrom tm.schema.recordSize 0 m with hes
  have hone' : OnePage t es.length := by rwa [hlength]
  have hne : es ≠ [] := by
    rw [← List.length_pos_iff, hlength]
    norm_num
  have hpage : (pagesOf t es)[(0 : BitVec 8).toNat]? = some es := by simp [pagesOf_onePage hone']
  obtain ⟨s', hload, hfiles, -⟩ := loadIndexPage_stored hrows he hsized hpage
  have hall : es.take (es.length % 256) = es := by simp [hlength]
  rw [hall] at hload
  unfold readSstable
  rw [bind_of_ok (Process.ofExcept_ok (findPageNumber_onePage hne hone' key) s), bind_of_ok hload]
  have hclone : key.clone.type ≠ t := by rwa [Data.type_clone]
  by_cases hkind : key.type.id = t.id
  · right
    have hfind := find_otherType he.keysIn (fun _ => ht) hclone (by rwa [Data.type_clone])
    have hoffset : (IndexPage.mk es t).findOffset key.clone = .ok (-1) := by
      simp [IndexPage.findOffset, hfind, Bind.bind, Except.bind, Pure.pure, Except.pure]
    refine ⟨hkind, s', ?_, hfiles⟩
    rw [bind_of_ok (Process.ofExcept_ok hoffset s')]
    rfl
  · left
    have hother : key.clone.type.id ≠ t.id := by rwa [Data.type_clone]
    obtain ⟨e, hfind, hthrown⟩ := find_otherKind he.keysIn hne hother
    refine ⟨hkind, e, s', bind_of_error (Process.ofExcept_error ?_ s'), hthrown⟩
    simp [IndexPage.findOffset, hfind, Bind.bind, Except.bind]

lemma readSstables_otherType (ht : t.Comparable) (hone : OnePage t 2) (hkey : key.type ≠ t)
    (n : Nat) (hn : n ≤ layers.length) (s : Posix Path) (h : FrozenRows s.files tm t layers) :
    ∃ e, outcome (tm.readSstables key n) s = .error e ∧ FindsNothing e (n = 0 ∨ key.type.id = t.id) := by
  induction n generalizing s with
  | zero => exact ⟨_, rfl, .inl ⟨.inl rfl, rfl⟩⟩
  | succ n ih =>
    have hlayer : layers[n]? = some layers[n] := List.getElem?_eq_getElem hn
    have hsummary : tm.summaries[n]? =
        some (builtSummary t (entriesFrom tm.schema.recordSize 0 layers[n])) := by
      rw [h.summaries, List.getElem?_map, hlayer]
      rfl
    simp only [readSstables, hsummary]
    rcases readSstable_otherType ht hone h hkey hlayer with
      ⟨hkind, e, s', hread, hthrown⟩ | ⟨hkind, s', hread, hfiles⟩
    · rw [outcome_bind_of_error hread]
      exact ⟨e, rfl, .inr ⟨by simpa using hkind, hthrown⟩⟩
    · rw [outcome_bind_of_ok hread]
      obtain ⟨e, houtcome, hmisses⟩ := ih (by omega) s' (by rwa [hfiles])
      refine ⟨e, houtcome, .inl ⟨.inr hkind, ?_⟩⟩
      rcases hmisses with ⟨-, he⟩ | ⟨hnot, -⟩
      · exact he
      · exact absurd (.inr hkind) hnot

/-- Keys of other types than the sort key's are never answered with a record. Only where the table has
no record at all they are not compared with one. -/
lemma answer_otherType (hlayers : layers ≠ [] → t.Comparable ∧ OnePage t 2)
    (hmemtable : tm.memtable ≠ [] → key.type.id = t.id → t.Comparable)
    (h : Holding t (tm, s) layers) (hkey : key.type ≠ t) :
    ∃ e, answer (tm, s) key = .error e ∧
      FindsNothing e ((tm.memtable = [] ∧ layers = []) ∨ key.type.id = t.id) := by
  have hkeys : OrderedMap.KeysIn (Data.ofType t) tm.memtable := h.memtable.keysIn
  have hid : tm.currentSstableId = layers.length := h.frozen.id
  unfold answer readRecord
  by_cases hcompared : tm.memtable ≠ [] ∧ key.type.id ≠ t.id
  · obtain ⟨e, hfind, hthrown⟩ := find_otherKind hkeys hcompared.1 hcompared.2
    refine ⟨e, outcome_bind_of_error (Process.ofExcept_error hfind s), .inr ⟨?_, hthrown⟩⟩
    rintro (hempty | hkind)
    · exact hcompared.1 hempty.1
    · exact hcompared.2 hkind
  · have hfind : OrderedMap.find Data.compare key tm.memtable = .ok none := by
      by_cases hempty : tm.memtable = []
      · rw [hempty]
        rfl
      · have hkind : key.type.id = t.id := by
          by_contra hkind
          exact hcompared ⟨hempty, hkind⟩
        exact find_otherType hkeys (fun _ => hmemtable hempty hkind) hkey hkind
    rw [outcome_bind_of_ok (Process.ofExcept_ok hfind s)]
    dsimp only
    rw [hid]
    by_cases hnone : layers = []
    · subst hnone
      refine ⟨_, rfl, .inl ⟨?_, rfl⟩⟩
      by_cases hkind : key.type.id = t.id
      · exact .inr hkind
      · exact .inl ⟨not_not.mp (fun hne => hcompared ⟨hne, hkind⟩), rfl⟩
    · obtain ⟨ht, hone⟩ := hlayers hnone
      obtain ⟨e, houtcome, hmisses⟩ := readSstables_otherType ht hone hkey _ le_rfl s h.frozen
      refine ⟨e, houtcome, ?_⟩
      have hzero : ¬layers.length = 0 := by simpa using hnone
      simpa [FindsNothing, hzero, hnone] using hmisses

lemma answer_ne_ok_of_otherType (ht : t.Comparable) (hone : OnePage t 2)
    (h : Holding t (tm, s) layers) (hkey : key.type ≠ t) (record : Record) :
    answer (tm, s) key ≠ .ok record := by
  obtain ⟨e, hanswer, -⟩ := answer_otherType (fun _ => ⟨ht, hone⟩) (fun _ _ => ht) h hkey
  rw [hanswer]
  simp

/-! ### Writes that lose nothing -/

/-- The write fills the memtable: it adds the record of a new key to that of another one. -/
def Flushes (tm : TableManager) (record : Record) : Prop :=
  tm.schema.verify record = true ∧ tm.memtable.length = 1 ∧
    ∀ key, record.values[tm.schema.sortKeyIndex.toNat]? = some key → tm.memtable.lookup key = none

/-- The values fit their types, no other record of the key waits in the memtable, and a flush
writes its rows and its index page. -/
structure Harmless (st : TableManager × Posix Path) (record : Record) : Prop where
  sized : st.1.schema.verify record = true → record.Sized
  same : st.1.schema.verify record = true →
    ∀ key, record.values[st.1.schema.sortKeyIndex.toNat]? = some key →
      ∀ old, st.1.memtable.lookup key = some old → old = record
  writes : Flushes st.1 record → ∀ i < 3, st.2.writes i = true

/-- Every key that was answered still is, the record written is, and nothing else has
happened to either. -/
structure LosesNothing (st : TableManager × Posix Path) (record : Record) : Prop where
  kept : ∀ key old, answer st key = .ok old →
    answer ((writeRecord record).after st) key = .ok old ∨
      record.values[st.1.schema.sortKeyIndex.toNat]? = some key ∧
        answer ((writeRecord record).after st) key = .ok record
  written : (∃ e st', writeRecord record st = .error e st') ∨
    ∃ key, record.values[st.1.schema.sortKeyIndex.toNat]? = some key ∧
      answer ((writeRecord record).after st) key = .ok record

/-- What a write that succeeds makes of the table. -/
structure Wrote (t : DataType) (key : Data) (record : Record) (st st' : TableManager × Posix Path)
    (layers layers' : List (List (Data × Record))) : Prop where
  holding : Holding t st' layers'
  schema : st'.1.schema = st.1.schema
  contents : ∀ k, st'.1.contents layers' k = if k = key then some record else st.1.contents layers k

variable (tm) in
/-- A flush whose rows and page are written changes the place of the records only. -/
lemma flush_holding (ht : t.Comparable) (hone : OnePage t 2)
    (hsize : tm.schema.recordSize < 2 ^ 31) (hm : Memtable tm.schema t tm.memtable)
    (hs : ∀ p ∈ tm.memtable, p.2.Sized) (htwo : tm.memtable.length = 2)
    (hf : FrozenRows s.files tm t layers) (hw : ∀ i < 3, s.writes i = true) :
    ∃ st', flush (tm, s) = .ok () st' ∧ Holding t st' (layers ++ [tm.memtable]) ∧
      st'.1.schema = tm.schema ∧
      ∀ k, st'.1.contents (layers ++ [tm.memtable]) k = tm.contents layers k := by
  have hne : tm.memtable ≠ [] := by
    rw [← List.length_pos_iff, htwo]
    norm_num
  obtain ⟨s', hbuild, hrows, hframe⟩ := build_onePage tm.basePath tm.tableName tm.schema
    tm.currentSstableId ht hm hne (by rwa [htwo]) hsize (fun i hi => hw i (by omega))
  rw [hf.id] at hrows hframe
  refine ⟨_, flush_ok tm hbuild, ⟨Memtable.nil _ _, by simp, by simp, ?_⟩, rfl, fun k => ?_⟩
  · exact hf.push hm hs htwo hrows hframe
  · unfold contents
    rw [List.map_append, List.map_singleton, LayeredStore.newest_append, List.lookup_nil,
      Option.none_or]

/-- One call: a record that is refused changes nothing, and any other one is added. -/
lemma writeRecord_holding (hkey : tm.schema.HasSortKey t) (ht : t.Comparable) (hone : OnePage t 2)
    (hsize : tm.schema.recordSize < 2 ^ 31) (h : Holding t (tm, s) layers)
    (hr : Harmless (tm, s) record) :
    writeRecord record (tm, s) = .error .schemaMismatch (tm, s) ∨
      ∃ key st' layers', record.values[tm.schema.sortKeyIndex.toNat]? = some key ∧ key.type = t ∧
        writeRecord record (tm, s) = .ok () st' ∧ Wrote t key record (tm, s) st' layers layers' := by
  have hmemtable : Memtable tm.schema t tm.memtable := h.memtable
  have hsmall : tm.memtable.length < 2 := h.small
  by_cases hv : tm.schema.verify record = true
  · obtain ⟨key, hk, htype⟩ := Schema.verify_sortKey hv hkey
    refine .inr ⟨key, ?_⟩
    cases hlookup : tm.memtable.lookup key with
    | some old =>
      have hins := OrderedMap.insert_of_lookup_eq_some (Data.ordersOn_compare ht) (k := key)
        htype record old tm.memtable hmemtable.keysIn hmemtable.sorted hlookup
      have hold : old = record := hr.same hv key hk old hlookup
      have hwrite : writeRecord record (tm, s) = .ok () (tm, s) := by
        rw [writeRecord_accepted tm hv hk hins, if_neg (by omega)]
      refine ⟨(tm, s), layers, hk, htype, hwrite, h, rfl, fun k => ?_⟩
      by_cases hkk : k = key
      · subst hkk
        simp [contents, hlookup, hold]
      · rw [if_neg hkk]
    | none =>
      obtain ⟨m, hins, hm, hlen, hmem, hfun⟩ := hmemtable.insert ht hv hk htype hlookup
      have hms : ∀ p ∈ m, p.2.Sized := by
        intro p hp
        rcases hmem p hp with hp | rfl
        · exact h.sized p hp
        · exact hr.sized hv
      have hf : FrozenRows s.files { tm with memtable := m } t layers :=
        ⟨h.frozen.id, h.frozen.summaries, h.frozen.memtable, h.frozen.sized, h.frozen.two,
          h.frozen.rows⟩
      have hcontents : ∀ k, contents { tm with memtable := m } layers k =
          if k = key then some record else tm.contents layers k := by
        intro k
        have hk' := congrFun hfun k
        simp only [Function.update_apply] at hk'
        by_cases hkk : k = key
        · subst hkk
          simp [contents, hk']
        · simp [contents, hk', hkk]
      have hwrite := writeRecord_accepted tm (s := s) hv hk hins
      by_cases htwo : m.length = 2
      · have hflushes : Flushes tm record := by
          refine ⟨hv, by omega, fun key' hk' => ?_⟩
          rw [hk] at hk'
          rwa [← Option.some.inj hk']
        obtain ⟨st', hflush, hholding, hschema, hsame⟩ := flush_holding { tm with memtable := m } ht
          hone hsize hm hms htwo hf (hr.writes hflushes)
        refine ⟨st', layers ++ [m], hk, htype, ?_, hholding, hschema, fun k => ?_⟩
        · rw [hwrite, if_pos htwo.ge, hflush]
        · rw [hsame, hcontents]
      · refine ⟨({ tm with memtable := m }, s), layers, hk, htype, ?_, ⟨hm, hms, ?_, hf⟩, rfl,
          hcontents⟩
        · rw [hwrite, if_neg (by omega)]
        · change m.length < 2
          omega
  · left
    exact writeRecord_refused (by simpa using hv)

lemma losesNothing_of_holding (hkey : tm.schema.HasSortKey t) (ht : t.Comparable)
    (hone : OnePage t 2) (hsize : tm.schema.recordSize < 2 ^ 31) (h : Holding t (tm, s) layers)
    (hr : Harmless (tm, s) record) : LosesNothing (tm, s) record := by
  rcases writeRecord_holding hkey ht hone hsize h hr with
    herror | ⟨key, ⟨tm', s'⟩, layers', hk, htype, hok, hwrote⟩
  · have hafter : (writeRecord record).after (tm, s) = (tm, s) := by simp [Method.after, herror]
    refine ⟨fun k old hold => .inl ?_, .inl ⟨_, _, herror⟩⟩
    rwa [hafter]
  · have hafter : (writeRecord record).after (tm, s) = (tm', s') := by simp [Method.after, hok]
    have hsize' : tm'.schema.recordSize < 2 ^ 31 := by
      rw [show tm'.schema = tm.schema from hwrote.schema]
      exact hsize
    have hanswer : ∀ k, k.type = t → answer (tm', s') k =
        found (if k = key then some record else tm.contents layers k) := by
      intro k hktype
      rw [answer_holding ht (fun _ => hone) hsize' hwrote.holding hktype]
      exact congrArg found (hwrote.contents k)
    have hown : answer (tm', s') key = .ok record := by
      rw [hanswer key htype, if_pos rfl]
      rfl
    refine ⟨fun k old hold => ?_, .inr ⟨key, hk, by rwa [hafter]⟩⟩
    rw [hafter]
    by_cases hktype : k.type = t
    · by_cases hkk : k = key
      · subst hkk
        exact .inr ⟨hk, hown⟩
      · left
        rw [hanswer k hktype, if_neg hkk, ← answer_holding ht (fun _ => hone) hsize h hktype]
        exact hold
    · exact absurd hold (answer_ne_ok_of_otherType ht hone h hktype old)

/-! ### Runs -/

/-- The states of a table over any history: a new table, writes that meet the condition, calls
elsewhere that leave the files of its SSTables alone, and a restart that loads the summaries
which the table has. -/
inductive Reached (base table : List UInt8) (schema : Schema) : TableManager × Posix Path → Prop
  | create (s : Posix Path) : Reached base table schema (new base table schema [], s)
  | write {st : TableManager × Posix Path} {record : Record} :
      Reached base table schema st → Harmless st record →
        Reached base table schema ((writeRecord record).after st)
  | elsewhere {st : TableManager × Posix Path} {s : Posix Path} : Reached base table schema st →
      (∀ i < st.1.currentSstableId, ∀ path, IsSstable st.1.basePath st.1.tableName i path →
        s.files path = st.2.files path) → Reached base table schema (st.1, s)
  | restart {st : TableManager × Posix Path} : Reached base table schema st →
      outcome (Database.loadSummaries base table 0 st.1.currentSstableId) st.2 =
        .ok st.1.summaries →
      Reached base table schema
        (new st.1.basePath st.1.tableName st.1.schema st.1.summaries, st.2)

lemma Reached.holding {base table : List UInt8} {schema : Schema} (hkey : schema.HasSortKey t)
    (ht : t.Comparable) (hone : OnePage t 2) (hsize : schema.recordSize < 2 ^ 31)
    {st : TableManager × Posix Path} (h : Reached base table schema st) :
    st.1.schema = schema ∧ ∃ layers, Holding t st layers := by
  induction h with
  | create s =>
    exact ⟨rfl, [], Memtable.nil _ _, by simp [new], by simp [new],
      ⟨rfl, rfl, by simp, by simp, by simp, by simp⟩⟩
  | @write st record _ hr ih =>
    obtain ⟨tm, s⟩ := st
    obtain ⟨hschema, layers, hholding⟩ := ih
    have hschema' : tm.schema = schema := hschema
    subst hschema'
    rcases writeRecord_holding hkey ht hone hsize hholding hr with
      herror | ⟨key, st', layers', -, -, hok, hwrote⟩
    · have hafter : (writeRecord record).after (tm, s) = (tm, s) := by simp [Method.after, herror]
      rw [hafter]
      exact ⟨rfl, layers, hholding⟩
    · have hafter : (writeRecord record).after (tm, s) = st' := by simp [Method.after, hok]
      rw [hafter]
      exact ⟨hwrote.schema, layers', hwrote.holding⟩
  | @elsewhere st s _ hfiles ih =>
    obtain ⟨hschema, layers, hholding⟩ := ih
    have hf := hholding.frozen
    refine ⟨hschema, layers, hholding.memtable, hholding.sized, hholding.small,
      ⟨hf.id, hf.summaries, hf.memtable, hf.sized, hf.two, fun i m hi => ?_⟩⟩
    have hlt : i < st.1.currentSstableId := by
      rw [hf.id]
      exact (List.getElem?_eq_some_iff.mp hi).1
    exact (hf.rows i m hi).congr (hfiles i hlt)
  | @restart st _ _ ih =>
    obtain ⟨hschema, layers, hholding⟩ := ih
    have hf := hholding.frozen
    have hid : (new st.1.basePath st.1.tableName st.1.schema st.1.summaries).currentSstableId =
        layers.length := by
      simp [new, hf.summaries]
    exact ⟨hschema, layers, Memtable.nil _ _, by simp [new], by simp [new],
      ⟨hid, hf.summaries, hf.memtable, hf.sized, hf.two, hf.rows⟩⟩

/-- In every state that a table reaches by harmless writes, a harmless write loses nothing. -/
theorem failedFlush_losesNothing {base table : List UInt8} {schema : Schema}
    (hkey : schema.HasSortKey t) (ht : t.Comparable) (hone : OnePage t 2)
    (hsize : schema.recordSize < 2 ^ 31) {st : TableManager × Posix Path}
    (h : Reached base table schema st) (hr : Harmless st record) : LosesNothing st record := by
  obtain ⟨tm, s⟩ := st
  obtain ⟨hschema, layers, hholding⟩ := h.holding hkey ht hone hsize
  have hschema' : tm.schema = schema := hschema
  subst hschema'
  exact losesNothing_of_holding hkey ht hone hsize hholding hr

/-- An empty directory, in which one of the writes to come fails. -/
def failing (n : Nat) : Posix Path :=
  { Posix.start (fun _ => 0) with writes := fun i => decide (i ≠ n) }

/-- A table with one record in its memtable. -/
def oneRecord (n : Nat) : TableManager × Posix Path :=
  ({ new [47] [116] intPairs [] with memtable := [(.int 1, ⟨[.int 1, .int 10]⟩)] }, failing n)

lemma reached_oneRecord (n : Nat) : Reached [47] [116] intPairs (oneRecord n) := by
  have hfirst : Harmless (new [47] [116] intPairs [], failing n) ⟨[.int 1, .int 10]⟩ := by
    refine ⟨(intPairs_fitting [⟨[.int 1, .int 10]⟩]).sized _ (by simp), ?_, ?_⟩
    · intro _ _ _ old hold
      simp [new] at hold
    · intro hflushes
      exact absurd hflushes.2.1 (by simp [new])
  exact Reached.write (Reached.create (failing n)) hfirst

theorem failedFlush_losesNothing_summary :
    Harmless (oneRecord 3) ⟨[.int 2, .int 20]⟩ ∧ LosesNothing (oneRecord 3) ⟨[.int 2, .int 20]⟩ := by
  have hsecond : Harmless (oneRecord 3) ⟨[.int 2, .int 20]⟩ := by
    refine ⟨(intPairs_fitting [⟨[.int 2, .int 20]⟩]).sized _ (by simp), ?_, ?_⟩
    · intro _ key hkey old hold
      obtain rfl : Data.int 2 = key := Option.some.inj hkey
      have hnone : (oneRecord 3).1.memtable.lookup (.int 2) = none := by decide
      rw [hnone] at hold
      cases hold
    · intro _ i hi
      simpa [oneRecord, failing] using hi.ne
  refine ⟨hsecond, ?_⟩
  apply failedFlush_losesNothing _ _ _ _ (reached_oneRecord 3) hsecond
  · exact ⟨.int, 4⟩
  · exact ⟨_, rfl, rfl⟩
  · exact .inl (by decide)
  · decide
  · decide

/-- The first row is not written: the call reports nothing, and both keys are missing. -/
theorem not_losesNothing_row : Reached [47] [116] intPairs (oneRecord 0) ∧
    ¬LosesNothing (oneRecord 0) ⟨[.int 2, .int 20]⟩ := by
  refine ⟨reached_oneRecord 0, fun h => ?_⟩
  have hbefore : answer (oneRecord 0) (.int 1) = .ok ⟨[.int 1, .int 10]⟩ := rfl
  have hafter : answer ((writeRecord ⟨[.int 2, .int 20]⟩).after (oneRecord 0)) (.int 1) =
      .error .nonExistentRecord := by decide +kernel
  rcases h.kept _ _ hbefore with hkept | ⟨hkey, -⟩
  · rw [hafter] at hkept
    cases hkept
  · exact absurd hkey (by decide)

end TableManager

end Dibibase
