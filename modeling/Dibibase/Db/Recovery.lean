import Dibibase.Db.SSTable
import Dibibase.Db.Database

/-!
# Recovery of a table from its summaries

The summary file of every SSTable decodes to the summary that the table keeps in memory,
in every state that writes can reach, whether or not their flushes succeed. A table rebuilt
from the files is the table with an empty memtable.
-/

namespace Dibibase

open Library TableBuilder

namespace TableManager

/-- The summary file holds the summary, and what is read back from it is the same. -/
structure SummaryStored (files : Path → Option (List UInt8)) (base table : List UInt8)
    (sstableId : Nat) (t : DataType) (summary : Summary) : Prop where
  file : ∃ tail, files (.summary base table sstableId) = some (summaryImage summary ++ tail)
  ok : SummaryOk t summary
  sized : ∀ k ∈ summary.sortKeys, k.Sized
  count : summary.sortKeys.length ≤ 255

/-- What writes keep true of a table with sort keys of type `t`. When a flush fails, a record
that cannot be serialised stays in the memtable and makes every later flush fail. -/
structure Recoverable (t : DataType) (st : TableManager × Posix Path) : Prop where
  succeed : st.2.WritesSucceed
  hasSortKey : st.1.schema.HasSortKey t
  memtable : Memtable st.1.schema t st.1.memtable
  sized : ∀ p ∈ st.1.memtable, p.1.Sized
  id : st.1.currentSstableId = st.1.summaries.length
  stored : ∀ i summary, st.1.summaries[i]? = some summary →
    SummaryStored st.2.files st.1.basePath st.1.tableName i t summary
  stuck : st.1.memtable.length < 2 ∨
    ∃ p ∈ st.1.memtable, ∀ bs, serialise st.1.schema.recordSize p.2.bytes ≠ .ok bs

variable {t : DataType} {tm : TableManager} {s : Posix Path}

lemma recoverable_new (base table : List UInt8) {schema : Schema} (hkey : schema.HasSortKey t)
    (hw : s.WritesSucceed) : Recoverable t (new base table schema [], s) where
  succeed := hw
  hasSortKey := hkey
  memtable := Memtable.nil schema t
  sized := by simp [new]
  id := rfl
  stored := by simp [new]
  stuck := .inl (by simp [new])

/-- The summary of two records is read back from its file. -/
lemma summaryStored_build {files : Path → Option (List UInt8)} {base table : List UInt8}
    {sstableId : Nat} {records : List (Data × Record)} {schema : Schema} (ht : t.Comparable)
    (hm : Memtable schema t records) (hs : ∀ p ∈ records, p.1.Sized) (hlen : records.length ≤ 2)
    {rows : List (List UInt8)}
    (hst : Stored files base table sstableId t (entriesFrom schema.recordSize 0 records) rows) :
    SummaryStored files base table sstableId t
      (builtSummary t (entriesFrom schema.recordSize 0 records)) where
  file := hst.summary
  ok := builtSummary_ok (hm.entries ht).keysIn
  sized := by
    intro k hk
    obtain ⟨e, he, rfl⟩ := mem_builtSummary (hm.entries ht) hk
    obtain ⟨p, hp, hkey⟩ := mem_entriesFrom he
    exact hkey ▸ hs p hp
  count := by
    obtain ⟨j, hj⟩ := builtSummary_sortKeys (hm.entries ht).listed
    have hone : ((entriesFrom schema.recordSize 0 records).take 1).length ≤ 1 := by simp
    have hoffered := (offered_sublist t.length.toNat []
      (entriesFrom schema.recordSize 0 records)).length_le
    rw [length_entriesFrom] at hoffered
    rw [hj, List.length_take, List.length_map, List.length_append]
    omega

lemma SummaryStored.congr {files files' : Path → Option (List UInt8)} {base table : List UInt8}
    {sstableId : Nat} {summary : Summary} (h : SummaryStored files base table sstableId t summary)
    (hfile : files' (.summary base table sstableId) = files (.summary base table sstableId)) :
    SummaryStored files' base table sstableId t summary :=
  ⟨by rw [hfile]; exact h.file, h.ok, h.sized, h.count⟩

/-- The builder fails only on a record that cannot be serialised. -/
lemma build_error_unserialisable {base table : List UInt8} {sstableId : Nat} {schema : Schema}
    {records : List (Data × Record)} (hw : s.WritesSucceed) (ht : t.Comparable)
    (hm : Memtable schema t records) (hne : records ≠ []) {e : Exception} {s' : Posix Path}
    (h : build base table schema sstableId records s = .error e s') :
    ∃ p ∈ records, ∀ bs, serialise schema.recordSize p.2.bytes ≠ .ok bs := by
  by_contra hall
  have hrec : ∀ p ∈ records, serialise schema.recordSize p.2.bytes =
      .ok ((serialise schema.recordSize p.2.bytes).toOption.getD []) := by
    intro p hp
    by_contra hne
    refine hall ⟨p, hp, fun bs hbs => hne ?_⟩
    simp [hbs, Except.toOption]
  have hrun := build_executes hw base table schema sstableId
    (fun r => (serialise schema.recordSize r.bytes).toOption.getD []) records hne hrec
    (hm.entries ht).listed
  dsimp only at hrun
  rw [h] at hrun
  cases hrun

/-- A flush of a memtable that may be stuck. -/
lemma flush_recoverable (ht : t.Comparable) (hw : s.WritesSucceed)
    (hkey : tm.schema.HasSortKey t) (hm : Memtable tm.schema t tm.memtable)
    (hs : ∀ p ∈ tm.memtable, p.1.Sized) (hid : tm.currentSstableId = tm.summaries.length)
    (hst : ∀ i summary, tm.summaries[i]? = some summary →
      SummaryStored s.files tm.basePath tm.tableName i t summary)
    (htwo : 2 ≤ tm.memtable.length)
    (hstuck : tm.memtable.length = 2 ∨
      ∃ p ∈ tm.memtable, ∀ bs, serialise tm.schema.recordSize p.2.bytes ≠ .ok bs) :
    Recoverable t (flush.after (tm, s)) := by
  have hne : tm.memtable ≠ [] := by
    rw [← List.length_pos_iff]
    omega
  obtain ⟨hframe, hframe'⟩ := build_frame hw tm.basePath tm.tableName tm.schema
    tm.currentSstableId tm.memtable
  -- The summaries of the older SSTables are in other files.
  have hold : ∀ out i summary, tm.summaries[i]? = some summary →
      SummaryStored (filesAfter s.files tm.basePath tm.tableName tm.currentSstableId out)
        tm.basePath tm.tableName i t summary := by
    intro out i summary hi
    refine (hst i summary hi).congr (filesAfter_of_not_isSstable ?_ out)
    intro hpath
    have heq : i = tm.currentSstableId := (IsSstable.unique (.inl rfl) hpath).2.2
    have hlt : i < tm.summaries.length := (List.getElem?_eq_some_iff.mp hi).1
    omega
  cases hbuild : build tm.basePath tm.tableName tm.schema tm.currentSstableId tm.memtable s with
  | error e s' =>
    obtain ⟨out, hfiles, hwrites⟩ := hframe' e s' hbuild
    rw [Method.after, flush_error _ hbuild]
    exact ⟨fun i => by simp only; rw [hwrites]; exact hw i, hkey, hm, hs, hid,
      fun i summary hi => by simp only; rw [hfiles]; exact hold out i summary hi,
      .inr (build_error_unserialisable hw ht hm hne hbuild)⟩
  | ok summary s' =>
    have hlen : tm.memtable.length = 2 := by
      rcases hstuck with hlen | ⟨p, hp, hbad⟩
      · exact hlen
      · obtain ⟨bs, hbs⟩ := build_ok_serialises hw hbuild p hp
        exact absurd hbs (hbad bs)
    obtain ⟨out, hs'⟩ := hframe summary s' hbuild
    obtain ⟨rfl, rows, hstored⟩ := build_stored hw ht hm hne hbuild
    rw [Method.after, flush_ok _ hbuild]
    refine ⟨fun i => by rw [hs']; exact hw i, hkey, Memtable.nil _ _, by simp, by simp, ?_,
      .inl (by simp)⟩
    intro i summary hi
    change (tm.summaries ++ [_])[i]? = some summary at hi
    rcases Nat.lt_or_ge i tm.summaries.length with hlt | hge
    · rw [List.getElem?_append_left hlt] at hi
      rw [hs']
      exact hold out i summary hi
    · rw [List.getElem?_append_right hge] at hi
      obtain ⟨hzero, rfl⟩ : i - tm.summaries.length = 0 ∧
          builtSummary t (entriesFrom tm.schema.recordSize 0 tm.memtable) = summary := by
        cases hsub : i - tm.summaries.length with
        | zero => simpa [hsub] using hi
        | succ n => simp [hsub] at hi
      obtain rfl : i = tm.currentSstableId := by omega
      exact summaryStored_build ht hm hs hlen.le hstored

/-- Every call of `write_record` keeps the summary files and the summaries in step. -/
theorem writeRecord_recoverable (ht : t.Comparable) {st : TableManager × Posix Path}
    (h : Recoverable t st) (record : Record)
    (hs : st.1.schema.verify record = true → ∀ key,
      record.values[st.1.schema.sortKeyIndex.toNat]? = some key → key.Sized) :
    Recoverable t ((writeRecord record).after st) := by
  obtain ⟨tm, s⟩ := st
  have hmemtable : Memtable tm.schema t tm.memtable := h.memtable
  cases hv : tm.schema.verify record with
  | false =>
    rw [Method.after, writeRecord_refused hv]
    exact h
  | true =>
    obtain ⟨key, hk, htype⟩ := Schema.verify_sortKey hv h.hasSortKey
    -- The memtable after the insertion, which may have kept an old entry.
    obtain ⟨m, hins, hm, hsub, hmem, hlen⟩ : ∃ m,
        OrderedMap.insert Data.compare key record tm.memtable = .ok m ∧
        Memtable tm.schema t m ∧ (∀ p ∈ tm.memtable, p ∈ m) ∧
        (∀ p ∈ m, p ∈ tm.memtable ∨ p = (key, record)) ∧ m.length ≤ tm.memtable.length + 1 := by
      cases hlookup : tm.memtable.lookup key with
      | some old =>
        exact ⟨tm.memtable, OrderedMap.insert_of_lookup_eq_some (Data.ordersOn_compare ht) (k := key)
          htype record old _ hmemtable.keysIn hmemtable.sorted hlookup, hmemtable, fun p hp => hp,
          fun p hp => .inl hp, by omega⟩
      | none =>
        obtain ⟨l, r, hlr, hins, -⟩ := OrderedMap.insert_of_lookup_eq_none
          (Data.ordersOn_compare ht) (k := key) htype record _ hmemtable.keysIn hmemtable.sorted
          hlookup
        obtain ⟨m, hins', hm, hlen, hmem, -⟩ := hmemtable.insert ht hv hk htype hlookup
        obtain rfl : l ++ (key, record) :: r = m := Except.ok.inj (hins.symm.trans hins')
        refine ⟨_, hins', hm, fun p hp => ?_, hmem, hlen.le⟩
        rw [hlr] at hp
        simp only [List.mem_append, List.mem_cons] at hp ⊢
        tauto
    have hsized : ∀ p ∈ m, p.1.Sized := by
      intro p hp
      rcases hmem p hp with hp | rfl
      · exact h.sized p hp
      · exact hs hv key hk
    have hwrite := writeRecord_accepted tm (s := s) hv hk hins
    by_cases htwo : 2 ≤ m.length
    · rw [if_pos htwo] at hwrite
      have hafter : (writeRecord record).after (tm, s) = flush.after ({ tm with memtable := m }, s) := by
        rw [Method.after, hwrite, Method.after]
      rw [hafter]
      refine flush_recoverable ht h.succeed h.hasSortKey hm hsized h.id h.stored htwo ?_
      rcases h.stuck with hsmall | ⟨p, hp, hbad⟩
      · left
        change tm.memtable.length < 2 at hsmall
        change m.length = 2
        omega
      · exact .inr ⟨p, hsub p hp, hbad⟩
    · rw [if_neg htwo] at hwrite
      rw [Method.after, hwrite]
      exact ⟨h.succeed, h.hasSortKey, hm, hsized, h.id, h.stored, .inl (by simpa using htwo)⟩

/-- A write changes neither the path nor the schema of a table. -/
lemma writeRecord_identity (record : Record) (st : TableManager × Posix Path) :
    ((writeRecord record).after st).1 = { st.1 with
      currentSstableId := ((writeRecord record).after st).1.currentSstableId
      summaries := ((writeRecord record).after st).1.summaries
      memtable := ((writeRecord record).after st).1.memtable } := by
  obtain ⟨tm, s⟩ := st
  have hflush : ∀ m, (flush.after ({ tm with memtable := m }, s)).1 = { tm with
      currentSstableId := (flush.after ({ tm with memtable := m }, s)).1.currentSstableId
      summaries := (flush.after ({ tm with memtable := m }, s)).1.summaries
      memtable := (flush.after ({ tm with memtable := m }, s)).1.memtable } := by
    intro m
    cases hbuild : build tm.basePath tm.tableName tm.schema tm.currentSstableId m s with
    | ok summary s' => rw [Method.after, flush_ok { tm with memtable := m } hbuild]
    | error e s' => rw [Method.after, flush_error { tm with memtable := m } hbuild]
  rcases writeRecord_cases tm s record with ⟨e, hthrow⟩ | ⟨key, m, -, -, -, hwrite⟩
  · rw [Method.after, hthrow]
  · split at hwrite
    · have hafter : (writeRecord record).after (tm, s) =
          flush.after ({ tm with memtable := m }, s) := by
        rw [Method.after, hwrite, Method.after]
      rw [hafter]
      exact hflush m
    · rw [Method.after, hwrite]

/-! ### Loading the summaries -/

/-- A stored summary is loaded as it is, and no file changes. -/
lemma loadSummary_stored {base table : List UInt8} {sstableId : Nat} {summary : Summary}
    (h : SummaryStored s.files base table sstableId t summary) :
    ∃ s', DiskManager.loadSummary base table sstableId s = .ok summary s' ∧
      s'.files = s.files ∧ s'.writes = s.writes := by
  obtain ⟨tail, hfile⟩ := h.file
  have hkeys : ∀ k ∈ summary.sortKeys, k.type = summary.type := by
    intro k hk
    rw [h.ok.keys k hk, h.ok.type]
  have hlen : (summaryImage summary).length = 4096 := by
    have := h.ok.length_encode
    rw [summaryImage, List.length_append, List.length_replicate]
    omega
  have hdecode : decode Summary.from (summaryImage summary) = .ok summary :=
    decode_of_reads (Summary.reads_from hkeys h.sized h.count) _ (by
      rw [← summaryImage, hlen]
      norm_num)
  obtain ⟨s', hread, hframe⟩ := DiskManager.readFile_decode Summary.from 0 4096 hfile (by
      rw [List.length_append, hlen]
      simp)
  refine ⟨s', ?_, hframe⟩
  have hfirst : ((summaryImage summary ++ tail).drop (0 : Int).toNat).take 4096 =
      summaryImage summary := by
    rw [Int.toNat_zero, List.drop_zero, List.take_append_of_le_length hlen.ge, ← hlen,
      List.take_length]
  rw [hfirst, Process.ofExcept_ok hdecode] at hread
  exact hread

/-- The constructor of a database loads the summaries of a table in their order. -/
lemma loadSummaries_stored (base table : List UInt8) (summaries : List Summary) (i : Nat)
    (h : ∀ j summary, summaries[j]? = some summary →
      SummaryStored s.files base table (i + j) t summary) :
    ∃ s', Database.loadSummaries base table i summaries.length s = .ok summaries s' ∧
      s'.files = s.files ∧ s'.writes = s.writes := by
  induction summaries generalizing i s with
  | nil => exact ⟨s, rfl, rfl, rfl⟩
  | cons summary summaries ih =>
    obtain ⟨s₁, hload, hfiles, hwrites⟩ := loadSummary_stored (h 0 summary rfl)
    rw [Nat.add_zero] at hload
    obtain ⟨s₂, hrest, hfiles', hwrites'⟩ := ih (s := s₁) (i + 1) (by
      intro j summary' hj
      rw [hfiles, Nat.add_assoc, Nat.add_comm 1]
      exact h (j + 1) summary' (by simpa using hj))
    refine ⟨s₂, ?_, hfiles'.trans hfiles, hwrites'.trans hwrites⟩
    rw [List.length_cons, Database.loadSummaries, bind_of_ok hload, bind_of_ok hrest]
    rfl

lemma writeAll_recoverable (ht : t.Comparable) (base table : List UInt8) {schema : Schema}
    (hkey : schema.HasSortKey t) (hw : s.WritesSucceed) (records : List Record)
    (hs : ∀ r ∈ records, schema.verify r = true → ∀ key,
      r.values[schema.sortKeyIndex.toNat]? = some key → key.Sized) :
    Recoverable t (writeAll records (new base table schema [], s)) ∧
      (writeAll records (new base table schema [], s)).1 =
        { (writeAll records (new base table schema [], s)).1 with
          basePath := base, tableName := table, schema := schema } := by
  induction records using List.reverseRecOn with
  | nil => exact ⟨recoverable_new base table hkey hw, rfl⟩
  | append_singleton records record ih =>
    obtain ⟨hrec, hid⟩ := ih (fun r hr => hs r (by simp [hr]))
    have happend : writeAll (records ++ [record]) (new base table schema [], s) =
        (writeRecord record).after (writeAll records (new base table schema [], s)) := by
      simp [writeAll]
    have hschema : (writeAll records (new base table schema [], s)).1.schema = schema := by
      rw [hid]
    rw [happend]
    constructor
    · refine writeRecord_recoverable ht hrec record ?_
      rw [hschema]
      exact hs record (by simp)
    · have hstep := writeRecord_identity record (writeAll records (new base table schema [], s))
      rw [hid] at hstep
      rw [hstep]

/-- In every reachable state the summary files hold the summaries of the table, so a table
rebuilt from them is the table with an empty memtable. -/
theorem recovery_rebuilds (ht : t.Comparable) {base table : List UInt8} {schema : Schema}
    (hkey : schema.HasSortKey t) (hw : s.WritesSucceed) {records : List Record}
    (hs : ∀ r ∈ records, schema.verify r = true → ∀ key,
      r.values[schema.sortKeyIndex.toNat]? = some key → key.Sized) :
    let st := writeAll records (new base table schema [], s)
    st.1.currentSstableId = st.1.summaries.length ∧
      (∀ i summary, st.1.summaries[i]? = some summary →
        outcome (DiskManager.loadSummary base table i) st.2 = .ok summary) ∧
      ∃ loaded s', Database.loadSummaries base table 0 st.1.currentSstableId st.2 = .ok loaded s' ∧
        (new base table schema loaded).currentSstableId = st.1.currentSstableId ∧
        ∀ key, (new base table schema loaded).readRecord key =
          TableManager.readRecord { st.1 with memtable := [] } key := by
  dsimp only
  obtain ⟨hrec, hid⟩ := writeAll_recoverable ht base table hkey hw records hs
  have hbase : (writeAll records (new base table schema [], s)).1.basePath = base := by rw [hid]
  have htable : (writeAll records (new base table schema [], s)).1.tableName = table := by rw [hid]
  have hstored := hrec.stored
  rw [hbase, htable] at hstored
  refine ⟨hrec.id, ?_, ?_⟩
  · intro i summary hi
    obtain ⟨s', hload, -⟩ := loadSummary_stored (hstored i summary hi)
    rw [outcome, hload]
  · obtain ⟨s', hload, -⟩ := loadSummaries_stored _ _ _ 0 (fun j summary hj => by
      rw [Nat.zero_add]
      exact hstored j summary hj)
    refine ⟨_, s', by rw [hrec.id]; exact hload, hrec.id.symm, fun key => ?_⟩
    have hnew : new base table schema (writeAll records (new base table schema [], s)).1.summaries =
        { (writeAll records (new base table schema [], s)).1 with memtable := [] } := by
      rw [hid, new]
      simp only [TableManager.mk.injEq, true_and, and_true]
      exact hrec.id.symm
    rw [hnew]

theorem recovery_rebuilds_int :
    (writeAll [⟨[.int 1]⟩, ⟨[.int 2]⟩]
      (new [47] [116] ⟨0, 0, [⟨[107], ⟨.int, 4⟩⟩]⟩ [], Posix.start (fun _ => 0))).1.currentSstableId =
      (writeAll [⟨[.int 1]⟩, ⟨[.int 2]⟩]
        (new [47] [116] ⟨0, 0, [⟨[107], ⟨.int, 4⟩⟩]⟩ [],
          Posix.start (fun _ => 0))).1.summaries.length :=
  (recovery_rebuilds (t := ⟨.int, 4⟩) (by decide) ⟨_, rfl, rfl⟩ (Posix.writesSucceed_start _) (by
    intro r hr _ key hk
    rcases List.mem_cons.mp hr with rfl | hr
    · cases hk
      trivial
    · rw [List.mem_singleton.mp hr] at hk
      cases hk
      trivial)).1

/-- Of two keys of type ASCII(0) the greater has `2 ^ 32` bytes, and comes first. -/
lemma not_recovers_of_oversized (base table : List UInt8) (hw : s.WritesSucceed) {x : UInt8}
    {xs : List UInt8} (hlen : (x :: xs).length = 2 ^ 32) :
    ∃ summary, (writeAll [⟨[.ascii (x :: xs)]⟩, ⟨[.ascii []]⟩]
        (new base table ⟨0, 0, [⟨[107], ⟨.ascii, 0⟩⟩]⟩ [], s)).1.summaries[0]? = some summary ∧
      outcome (DiskManager.loadSummary base table 0)
        (writeAll [⟨[.ascii (x :: xs)]⟩, ⟨[.ascii []]⟩]
          (new base table ⟨0, 0, [⟨[107], ⟨.ascii, 0⟩⟩]⟩ [], s)).2 ≠ .ok summary := by
  set schema : Schema := ⟨0, 0, [⟨[107], ⟨.ascii, 0⟩⟩]⟩ with hschema
  set first : Record := ⟨[.ascii (x :: xs)]⟩ with hfirst
  set second : Record := ⟨[.ascii []]⟩ with hsecond
  have htype : (Data.ascii (x :: xs)).type = ⟨.ascii, 0⟩ := by
    rw [Data.type, hlen]
    rfl
  have hv : schema.verify first = true := by
    rw [Schema.verify_iff]
    simp [hschema, hfirst, htype]
  have hv' : schema.verify second = true := by decide
  have hm : Memtable schema ⟨.ascii, 0⟩
      [(.ascii (x :: xs), first), (.ascii [], second)] := by
    refine ⟨?_, ?_, ?_, ?_⟩
    · simpa using ⟨hv, hv'⟩
    · simp [hschema, hfirst, hsecond]
    · simpa [OrderedMap.KeysIn, Data.mem_ofType] using ⟨htype, rfl⟩
    · simp [OrderedMap.Sorted, Data.compare, stringLe]
  have hone : (writeRecord first).after (new base table schema [], s) =
      ({ new base table schema [] with memtable := [(.ascii (x :: xs), first)] }, s) := by
    rw [Method.after, @writeRecord_accepted _ s _ (.ascii (x :: xs)) [(.ascii (x :: xs), first)] hv
      rfl rfl]
    rfl
  obtain ⟨files, hbuild, hstored, -⟩ := build_of_lt hw base table 0 (.inr rfl) hm (by simp)
    (by decide)
  have hst : writeAll [first, second] (new base table schema [], s) =
      ({ new base table schema [] with
        currentSstableId := 1
        summaries := [builtSummary ⟨.ascii, 0⟩ (entriesFrom schema.recordSize 0
          [(.ascii (x :: xs), first), (.ascii [], second)])] }, { s with files := files }) := by
    change (writeRecord second).after ((writeRecord first).after _) = _
    rw [hone, Method.after, @writeRecord_accepted { new base table schema [] with
      memtable := [(.ascii (x :: xs), first)] } s _ (.ascii [])
      [(.ascii (x :: xs), first), (.ascii [], second)] hv' rfl rfl,
      if_pos (by simp), flush_ok { new base table schema [] with
        memtable := [(.ascii (x :: xs), first), (.ascii [], second)] } hbuild]
    rfl
  rw [hst]
  refine ⟨_, rfl, ?_⟩
  intro hload
  -- The summary in memory has the long key; what is read from the file has short keys only.
  have hmem : Data.ascii (x :: xs) ∈ (builtSummary ⟨.ascii, 0⟩ (entriesFrom schema.recordSize 0
      [(.ascii (x :: xs), first), (.ascii [], second)])).sortKeys := by
    simp [builtSummary, pushAll, entriesFrom, offered, Fits, Summary.pushBack, Summary.size,
      DataType.size, Data.clone]
  cases hrun : DiskManager.loadSummary base table 0 { s with files := files } with
  | error e s' =>
    rw [outcome, hrun] at hload
    cases hload
  | ok summary s' =>
    rw [outcome, hrun] at hload
    cases hload
    have hsized : (x :: xs).length < 2 ^ 32 :=
      DiskManager.readFile_returns Summary.returns_sized hrun _ hmem
    omega

/-- A key of `2 ^ 32` bytes passes for one of type ASCII(0), and its summary file is not read
back as the summary in memory. -/
theorem not_recovers_oversized :
    ∃ summary, (writeAll [⟨[.ascii (97 :: List.replicate (2 ^ 32 - 1) 97)]⟩, ⟨[.ascii []]⟩]
        (new [47] [116] ⟨0, 0, [⟨[107], ⟨.ascii, 0⟩⟩]⟩ [],
          Posix.start (fun _ => 0))).1.summaries[0]? = some summary ∧
      outcome (DiskManager.loadSummary [47] [116] 0)
        (writeAll [⟨[.ascii (97 :: List.replicate (2 ^ 32 - 1) 97)]⟩, ⟨[.ascii []]⟩]
          (new [47] [116] ⟨0, 0, [⟨[107], ⟨.ascii, 0⟩⟩]⟩ [],
            Posix.start (fun _ => 0))).2 ≠ .ok summary :=
  not_recovers_of_oversized [47] [116] (Posix.writesSucceed_start _)
    (by rw [List.length_cons, List.length_replicate]; norm_num)

end TableManager

end Dibibase
