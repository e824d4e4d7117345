import Dibibase.Db.TableRefinement

/-!
# Histories of writes

What a table answers after any sequence of writes from an empty table. The run of the
table is the run of the layered store over the accepted records; the last write of a key
wins as long as no write meets another record of its key in the memtable.
-/

namespace Dibibase

open Library TableBuilder

namespace TableManager

/-- The records that pass the check against the schema, under their sort keys. -/
def accepted (schema : Schema) (records : List Record) : List (Data × Record) :=
  records.filterMap (fun r =>
    if schema.verify r then (r.values[schema.sortKeyIndex.toNat]?).map (fun key => (key, r))
    else none)

/-- Rows and the values of accepted records keep the sizes that the buffers can handle. -/
structure Fitting (schema : Schema) (records : List Record) : Prop where
  row : schema.recordSize < 2 ^ 31
  sized : ∀ r ∈ records, schema.verify r = true → r.Sized

variable {base table : List UInt8} {schema : Schema} {t : DataType} {s : Posix Path}
  {records : List Record}

lemma writeAll_append (records : List Record) (record : Record) (st : TableManager × Posix Path) :
    writeAll (records ++ [record]) st = (writeRecord record).after (writeAll records st) := by
  simp [writeAll]

lemma accepted_append_refused {record : Record} (h : schema.verify record = false)
    (records : List Record) : accepted schema (records ++ [record]) = accepted schema records := by
  simp [accepted, h]

lemma accepted_append {record : Record} {key : Data} (h : schema.verify record = true)
    (hkey : record.values[schema.sortKeyIndex.toNat]? = some key) (records : List Record) :
    accepted schema (records ++ [record]) = accepted schema records ++ [(key, record)] := by
  simp [accepted, h, hkey]

lemma mem_accepted {p : Data × Record} :
    p ∈ accepted schema records ↔ p.2 ∈ records ∧ schema.verify p.2 = true ∧
      p.2.values[schema.sortKeyIndex.toNat]? = some p.1 := by
  obtain ⟨key, record⟩ := p
  simp only [accepted, List.mem_filterMap, Option.ite_none_right_eq_some, Option.map_eq_some_iff,
    Prod.mk.injEq]
  constructor
  · rintro ⟨r, hr, hv, k, hk, rfl, rfl⟩
    exact ⟨hr, hv, hk⟩
  · rintro ⟨hr, hv, hk⟩
    exact ⟨record, hr, hv, key, hk, rfl, rfl⟩

lemma Fitting.mono {before : List Record} (h : Fitting schema records) (hsub : before <+: records) :
    Fitting schema before :=
  ⟨h.row, fun r hr => h.sized r (hsub.subset hr)⟩

/-- One call: a refused record changes nothing, an accepted one is written to the store. -/
lemma writeAll_step {store : LayeredStore Data Record} {st : TableManager × Posix Path}
    (hkey : st.1.schema.HasSortKey t) (ht : t.Comparable) (h : Represents t st store)
    (record : Record) (hrow : st.1.schema.recordSize < 2 ^ 31)
    (hs : st.1.schema.verify record = true → record.Sized) :
    ((writeRecord record).after st).1.schema = st.1.schema ∧
      ((st.1.schema.verify record = false ∧ (writeRecord record).after st = st) ∨
        ∃ key, st.1.schema.verify record = true ∧
          record.values[st.1.schema.sortKeyIndex.toNat]? = some key ∧ key.type = t ∧
          Represents t ((writeRecord record).after st) (store.write 2 key record)) := by
  obtain ⟨tm, s⟩ := st
  cases hv : tm.schema.verify record with
  | false =>
    have hstay : (writeRecord record).after (tm, s) = (tm, s) := by
      rw [Method.after, writeRecord_refused hv]
    exact ⟨by rw [hstay], .inl ⟨rfl, hstay⟩⟩
  | true =>
    obtain ⟨key, hk, htype⟩ := Schema.verify_sortKey hv hkey
    obtain ⟨tm', files, hwrite, htm', hrep, -⟩ := writeRecord_stores ht hrow h hv hk htype (hs hv)
    have hafter : (writeRecord record).after (tm, s) = (tm', { s with files := files }) := by
      rw [Method.after, hwrite]
    rw [hafter]
    exact ⟨by rw [htm'], .inr ⟨key, rfl, hk, htype, hrep⟩⟩

/-- The run of the table is the run of the layered store over the accepted records. -/
lemma writeAll_stores (hkey : schema.HasSortKey t) (ht : t.Comparable) (hw : s.WritesSucceed)
    (base table : List UInt8) (hfit : Fitting schema records) :
    (writeAll records (new base table schema [], s)).1.schema = schema ∧
      Represents t (writeAll records (new base table schema [], s))
        (LayeredStore.run 2 (accepted schema records)) := by
  induction records using List.reverseRecOn with
  | nil => exact ⟨rfl, represents_new base table schema t hw⟩
  | append_singleton records record ih =>
    obtain ⟨hschema, hrep⟩ := ih (hfit.mono (List.prefix_append _ _))
    have hstep := writeAll_step (by rwa [hschema]) ht hrep record (by rw [hschema]; exact hfit.row)
      (by rw [hschema]; exact hfit.sized record (by simp))
    rw [hschema] at hstep
    rw [writeAll_append]
    refine ⟨hstep.1, ?_⟩
    rcases hstep.2 with ⟨hv, hstay⟩ | ⟨key, hv, hk, -, hrep'⟩
    · rwa [accepted_append_refused hv, hstay]
    · rwa [accepted_append hv hk, LayeredStore.run_append]

theorem writeAll_represents (hkey : schema.HasSortKey t) (ht : t.IsInteger) (hw : s.WritesSucceed)
    (base table : List UInt8) (hfit : Fitting schema records) :
    (writeAll records (new base table schema [], s)).1.schema = schema ∧
      Represents t (writeAll records (new base table schema [], s))
        (LayeredStore.run 2 (accepted schema records)) :=
  writeAll_stores hkey (.inl ht) hw base table hfit

/-- Two integer columns, the first of which is the sort key. -/
def intPairs : Schema := ⟨0, 0, [⟨[107], ⟨.int, 4⟩⟩, ⟨[118], ⟨.int, 4⟩⟩]⟩

lemma intPairs_fitting (records : List Record) : Fitting intPairs records := by
  refine ⟨by decide, fun r _ hv v hmem => ?_⟩
  have htypes := Schema.verify_iff.mp hv
  have hid : v.type ∈ r.values.map Data.type := List.mem_map_of_mem hmem
  rw [htypes] at hid
  simp only [intPairs, List.map_cons, List.map_nil, List.mem_cons, List.not_mem_nil, or_false,
    or_self] at hid
  exact Data.sized_of_id (by rw [hid]; decide)

/-- What a read returns or throws in the state after a sequence of writes. -/
def readAfter (base table : List UInt8) (schema : Schema) (s : Posix Path) (records : List Record)
    (key : Data) : Except Exception Record :=
  outcome ((writeAll records (new base table schema [], s)).1.readRecord key)
    (writeAll records (new base table schema [], s)).2

lemma readAfter_eq (hkey : schema.HasSortKey t) (ht : t.IsInteger) (hw : s.WritesSucceed)
    (hfit : Fitting schema records) {key : Data} (htype : key.type = t) :
    readAfter base table schema s records key =
      found ((LayeredStore.run 2 (accepted schema records)).read key) := by
  obtain ⟨hschema, hrep⟩ := writeAll_represents hkey ht hw base table hfit
  exact readRecord_represents ht (by rw [hschema]; exact hfit.row) hrep htype

/-- The stack of SSTables refines the layered store in every reachable state. -/
theorem sstables_refine_layeredStore (hkey : schema.HasSortKey t) (ht : t.IsInteger)
    (hw : s.WritesSucceed) (hfit : Fitting schema records) :
    let tm := (writeAll records (new base table schema [], s)).1
    let store := LayeredStore.run 2 (accepted schema records)
    tm.currentSstableId = tm.summaries.length ∧ tm.summaries.length = store.frozen.length ∧
      tm.memtable.length < 2 ∧ (store.top = fun key => tm.memtable.lookup key) ∧
      (∀ key, key.type = t → readAfter base table schema s records key = found (store.read key)) ∧
      ∀ record, (schema.verify record = true → record.Sized) → ∀ key, key.type = t →
        record.values[schema.sortKeyIndex.toNat]? ≠ some key →
        readAfter base table schema s (records ++ [record]) key =
          readAfter base table schema s records key := by
  dsimp only
  obtain ⟨hschema, hrep⟩ := writeAll_represents hkey ht hw base table hfit
  obtain ⟨layers, hf, hlayers⟩ := hrep.frozen
  have hsummaries := congrArg List.length hf.summaries
  rw [List.length_map] at hsummaries
  refine ⟨by rw [hf.id, hsummaries], by rw [hlayers, hsummaries, List.length_map], hrep.small,
    hrep.top, fun key htype => readAfter_eq hkey ht hw hfit htype, ?_⟩
  intro record hs key htype hne
  have hfit' : Fitting schema (records ++ [record]) := by
    refine ⟨hfit.row, fun r hr => ?_⟩
    rcases List.mem_append.mp hr with hr | hr
    · exact hfit.sized r hr
    · rw [List.mem_singleton.mp hr]
      exact hs
  rw [readAfter_eq hkey ht hw hfit' htype, readAfter_eq hkey ht hw hfit htype]
  cases hv : schema.verify record with
  | false => rw [accepted_append_refused hv]
  | true =>
    obtain ⟨k, hk, -⟩ := Schema.verify_sortKey hv hkey
    have hkne : ¬(key = k ∧ (LayeredStore.run 2 (accepted schema records)).top k = none) := by
      rintro ⟨rfl, -⟩
      exact hne hk
    rw [accepted_append hv hk, LayeredStore.run_append, LayeredStore.read_write, if_neg hkne]

theorem sstables_refine_layeredStore_intPairs :
    (writeAll [⟨[.int 1, .int 10]⟩, ⟨[.int 2, .int 20]⟩]
        (new [47] [116] intPairs [], Posix.start (fun _ => 0))).1.memtable.length < 2 ∧
      readAfter [47] [116] intPairs (Posix.start (fun _ => 0))
        [⟨[.int 1, .int 10]⟩, ⟨[.int 2, .int 20]⟩] (.int 1) = .ok ⟨[.int 1, .int 10]⟩ := by
  have hrefine := @sstables_refine_layeredStore [47] [116] _ ⟨.int, 4⟩ _ _ ⟨_, rfl, rfl⟩ (by decide)
    (Posix.writesSucceed_start (fun _ => 0)) (intPairs_fitting [⟨[.int 1, .int 10]⟩, ⟨[.int 2, .int 20]⟩])
  exact ⟨hrefine.2.2.1, (hrefine.2.2.2.2.1 (.int 1) rfl).trans (by decide)⟩

lemma readSstables_sized {tm : TableManager} {key : Data} (n : Nat) (s : Posix Path)
    {record : Record} (h : outcome (tm.readSstables key n) s = .ok record) : record.Sized := by
  induction n generalizing s with
  | zero => cases h
  | succ n ih =>
    rw [readSstables] at h
    cases hsummary : tm.summaries[n]? with
    | none =>
      rw [hsummary] at h
      cases h
    | some summary =>
      rw [hsummary] at h
      cases hread : readSstable tm.basePath tm.tableName tm.schema n summary key s with
      | error e s' =>
        simp [outcome, bind_of_error hread] at h
      | ok result s' =>
        rw [outcome_bind_of_ok hread] at h
        cases result with
        | none => exact ih s' h
        | some r =>
          cases h
          exact readSstable_sized hread

/-- A record with an oversized value is lost by the flush, or the flush fails. -/
lemma not_refine_of_not_sized (hkey : schema.HasSortKey t) (ht : t.IsInteger)
    {first second : Record} {key key' : Data} (hv : schema.verify first = true)
    (hv' : schema.verify second = true)
    (hk : first.values[schema.sortKeyIndex.toNat]? = some key)
    (hk' : second.values[schema.sortKeyIndex.toNat]? = some key') (hne : key ≠ key')
    (hs : ¬first.Sized) :
    ¬((writeAll [first, second] (new base table schema [], s)).1.memtable.length < 2 ∧
      ∀ k, k.type = t → readAfter base table schema s [first, second] k =
        found ((LayeredStore.run 2 (accepted schema [first, second])).read k)) := by
  rintro ⟨hsmall, hread⟩
  have htype : key.type = t := by
    obtain ⟨k, hk₁, htype⟩ := Schema.verify_sortKey hv hkey
    rw [hk] at hk₁
    exact Option.some.inj hk₁ ▸ htype
  have htype' : key'.type = t := by
    obtain ⟨k, hk₁, htype⟩ := Schema.verify_sortKey hv' hkey
    rw [hk'] at hk₁
    exact Option.some.inj hk₁ ▸ htype
  -- The store still has the first record.
  have hstore : (LayeredStore.run 2 (accepted schema [first, second])).read key = some first := by
    have hall : accepted schema [first, second] = [(key, first)] ++ [(key', second)] := by
      simp [accepted, hv, hv', hk, hk']
    rw [hall, LayeredStore.run_append, LayeredStore.read_write, if_neg (by simp [hne])]
    rw [← List.nil_append [(key, first)], LayeredStore.run_append, LayeredStore.read_write,
      if_pos ⟨rfl, rfl⟩]
  have hanswer := hread key htype
  rw [hstore, readAfter] at hanswer
  -- The table has tried to flush both records.
  have hone : (writeRecord first).after (new base table schema [], s) =
      ({ new base table schema [] with memtable := [(key, first)] }, s) := by
    rw [Method.after, @writeRecord_accepted _ s _ key [(key, first)] hv hk rfl]
    rfl
  have hmem : Memtable schema t [(key, first)] := by
    refine ⟨by simpa using hv, by simpa using hk, ?_, by simp [OrderedMap.Sorted]⟩
    simpa [OrderedMap.KeysIn, Data.mem_ofType] using htype
  obtain ⟨m, hins, -, hlen, -⟩ := hmem.insert (.inl ht) hv' hk' htype' (by
    have hbeq : (key' == key) = false := by simpa using hne.symm
    simp [List.lookup_cons, hbeq])
  have hflush : writeAll [first, second] (new base table schema [], s) =
      flush.after ({ new base table schema [] with memtable := m }, s) := by
    change (writeRecord second).after ((writeRecord first).after _) = _
    rw [hone, Method.after, writeRecord_accepted { new base table schema [] with
      memtable := [(key, first)] } hv' hk' hins, if_pos (by rw [hlen]; simp), Method.after]
  rw [hflush] at hsmall hanswer
  cases hbuild : build base table schema 0 m s with
  | error e s' =>
    rw [Method.after, flush_error { new base table schema [] with memtable := m } hbuild,
      hlen] at hsmall
    simp at hsmall
  | ok summary s' =>
    rw [Method.after, flush_ok { new base table schema [] with memtable := m } hbuild]
      at hanswer
    exact hs (readSstables_sized _ _ hanswer)

/-- An INT key and a column of type ASCII(0), which accepts a string of `2 ^ 32` bytes. -/
theorem not_refine_oversized :
    ¬((writeAll [⟨[.int 1, .ascii (List.replicate (2 ^ 32) 97)]⟩, ⟨[.int 2, .ascii []]⟩]
        (new [47] [116] ⟨0, 0, [⟨[107], ⟨.int, 4⟩⟩, ⟨[118], ⟨.ascii, 0⟩⟩]⟩ [],
          Posix.start (fun _ => 0))).1.memtable.length < 2 ∧
      ∀ k, k.type = ⟨.int, 4⟩ →
        readAfter [47] [116] ⟨0, 0, [⟨[107], ⟨.int, 4⟩⟩, ⟨[118], ⟨.ascii, 0⟩⟩]⟩
            (Posix.start (fun _ => 0))
            [⟨[.int 1, .ascii (List.replicate (2 ^ 32) 97)]⟩, ⟨[.int 2, .ascii []]⟩] k =
          found ((LayeredStore.run 2 (accepted ⟨0, 0, [⟨[107], ⟨.int, 4⟩⟩, ⟨[118], ⟨.ascii, 0⟩⟩]⟩
            [⟨[.int 1, .ascii (List.replicate (2 ^ 32) 97)]⟩,
              ⟨[.int 2, .ascii []]⟩])).read k)) := by
  have hlen : (List.replicate (2 ^ 32) (97 : UInt8)).length = 2 ^ 32 := List.length_replicate
  generalize List.replicate (2 ^ 32) (97 : UInt8) = data at hlen
  have hverify : Schema.verify ⟨0, 0, [⟨[107], ⟨.int, 4⟩⟩, ⟨[118], ⟨.ascii, 0⟩⟩]⟩
      ⟨[.int 1, .ascii data]⟩ = true := by
    rw [Schema.verify_iff]
    simp [Data.type, hlen]
  refine @not_refine_of_not_sized _ _ _ ⟨.int, 4⟩ _ ⟨_, rfl, rfl⟩ (by decide) ⟨[.int 1, .ascii data]⟩
    ⟨[.int 2, .ascii []]⟩ (.int 1) (.int 2) hverify (by decide) rfl rfl (by decide) ?_
  intro hs
  have hsized : data.length < 2 ^ 32 := hs (.ascii data) (by simp)
  omega

/-! ### The last write of a key -/

/-- No accepted write of the run meets another record of its key in the memtable. -/
def NoStaleMemtable (base table : List UInt8) (schema : Schema) (s : Posix Path)
    (records : List Record) : Prop :=
  ∀ before record after key old, records = before ++ record :: after →
    schema.verify record = true → record.values[schema.sortKeyIndex.toNat]? = some key →
    (writeAll before (new base table schema [], s)).1.memtable.lookup key = some old → old = record

lemma noStaleTop_accepted (hkey : schema.HasSortKey t) (ht : t.IsInteger) (hw : s.WritesSucceed)
    (hfit : Fitting schema records) :
    LayeredStore.NoStaleTop 2 (accepted schema records) ↔
      NoStaleMemtable base table schema s records := by
  have htop : ∀ before, before <+: records → ∀ key,
      (LayeredStore.run 2 (accepted schema before)).top key =
        (writeAll before (new base table schema [], s)).1.memtable.lookup key := by
    intro before hbefore key
    exact congrFun (writeAll_represents hkey ht hw base table (hfit.mono hbefore)).2.top key
  constructor
  · intro h before record after key old hrecords hv hk hold
    refine h (accepted schema before) key record (accepted schema after) ?_ old ?_
    · simp [hrecords, accepted, hv, hk]
    · rwa [htop before ⟨record :: after, hrecords.symm⟩]
  · intro h before key record after haccepted old hold
    obtain ⟨l, r, rfl, rfl, hr⟩ := List.filterMap_eq_append_iff.mp haccepted
    obtain ⟨l', r', rest, rfl, hnone, hsome, -⟩ := List.filterMap_eq_cons_iff.mp hr
    simp only [Option.ite_none_right_eq_some, Option.map_eq_some_iff, Prod.mk.injEq] at hsome
    obtain ⟨hv, k, hk, rfl, rfl⟩ := hsome
    have hskip : accepted schema (l ++ l') = accepted schema l := by
      rw [accepted, List.filterMap_append, List.filterMap_eq_nil_iff.mpr hnone, List.append_nil]
      rfl
    refine h (l ++ l') r' rest k old (by simp) hv hk ?_
    rw [← htop (l ++ l') ⟨r' :: rest, by simp⟩, hskip]
    exact hold

lemma found_inj {a b : Option Record} : found a = found b ↔ a = b := by
  cases a <;> cases b <;> simp [found]

/-- The last accepted write of each key wins throughout a run exactly when no accepted write
meets another record of its key in the memtable. -/
theorem lastWrite_wins_iff (hkey : schema.HasSortKey t) (ht : t.IsInteger) (hw : s.WritesSucceed)
    (hfit : Fitting schema records) :
    (∀ before, before <+: records → ∀ key, key.type = t →
      readAfter base table schema s before key =
        found (LayeredStore.lastWrite (accepted schema before) key)) ↔
      NoStaleMemtable base table schema s records := by
  rw [← noStaleTop_accepted hkey ht hw hfit,
    ← LayeredStore.read_run_eq_lastWrite_iff 2 (accepted schema records) (Data.ofType t) (by
      intro w hmem
      obtain ⟨-, hv, hk⟩ := mem_accepted.mp hmem
      obtain ⟨key, hk', htype⟩ := Schema.verify_sortKey hv hkey
      rw [hk'] at hk
      exact Option.some.inj hk ▸ htype)]
  constructor
  · intro h ws hws key htype
    obtain ⟨before, hbefore, rfl⟩ := List.prefix_filterMap_iff.mp hws
    have hread := h before hbefore key htype
    rw [readAfter_eq hkey ht hw (hfit.mono hbefore) htype] at hread
    exact found_inj.mp hread
  · intro h before hbefore key htype
    rw [readAfter_eq hkey ht hw (hfit.mono hbefore) htype, found_inj]
    exact h _ (hbefore.filterMap _) key htype

/-- A key is written, the flush comes with another key, and the key is written again. -/
def rewritten : List Record := [⟨[.int 1, .int 10]⟩, ⟨[.int 2, .int 7]⟩, ⟨[.int 1, .int 20]⟩]

lemma noStaleTop_rewritten : LayeredStore.NoStaleTop 2 (accepted intPairs rewritten) := by
  intro before key record after haccepted old hold
  have hwrites : accepted intPairs rewritten =
      [(.int 1, ⟨[.int 1, .int 10]⟩), (.int 2, ⟨[.int 2, .int 7]⟩), (.int 1, ⟨[.int 1, .int 20]⟩)] := by
    decide
  rw [hwrites] at haccepted
  -- In front of each write there is nothing in the top map, or only the other key.
  rcases before with _ | ⟨w₁, _ | ⟨w₂, _ | ⟨w₃, rest⟩⟩⟩
  · cases hold
  · obtain ⟨rfl, h⟩ := List.cons.inj haccepted
    obtain ⟨h, -⟩ := List.cons.inj h
    cases h
    have hother : (LayeredStore.run 2 [((Data.int 1), (⟨[.int 1, .int 10]⟩ : Record))]).top (.int 2) =
        none := by decide
    rw [hother] at hold
    cases hold
  · obtain ⟨rfl, h⟩ := List.cons.inj haccepted
    obtain ⟨rfl, -⟩ := List.cons.inj h
    cases hold
  · have hlength := congrArg List.length haccepted
    simp only [List.length_cons, List.length_append, List.cons_append, List.length_nil] at hlength
    omega

theorem lastWrite_wins_rewritten :
    readAfter [47] [116] intPairs (Posix.start (fun _ => 0)) rewritten (.int 1) =
      .ok ⟨[.int 1, .int 20]⟩ := by
  have hfit : Fitting intPairs rewritten := intPairs_fitting rewritten
  have hwrites : (Posix.start (P := Path) (fun _ => 0)).WritesSucceed :=
    Posix.writesSucceed_start (fun _ => 0)
  have hkey : intPairs.HasSortKey ⟨.int, 4⟩ := ⟨_, rfl, rfl⟩
  have hstale : NoStaleMemtable [47] [116] intPairs (Posix.start (fun _ => 0)) rewritten :=
    (noStaleTop_accepted hkey (by decide) hwrites hfit).mp noStaleTop_rewritten
  have hwins := (@lastWrite_wins_iff [47] [116] _ _ _ _ hkey (by decide) hwrites hfit).mpr hstale
  exact hwins _ (List.prefix_refl _) (.int 1) rfl

/-- A write that follows another of its key in the memtable is lost. -/
theorem lastWrite_loses :
    readAfter [47] [116] intPairs (Posix.start (fun _ => 0))
        [⟨[.int 1, .int 10]⟩, ⟨[.int 1, .int 20]⟩] (.int 1) = .ok ⟨[.int 1, .int 10]⟩ ∧
      found (LayeredStore.lastWrite (accepted intPairs
        [⟨[.int 1, .int 10]⟩, ⟨[.int 1, .int 20]⟩]) (.int 1)) = .ok ⟨[.int 1, .int 20]⟩ := by
  decide

end TableManager

end Dibibase
