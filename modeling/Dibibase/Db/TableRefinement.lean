import Dibibase.Library.LayeredStore
import Dibibase.Db.SSTable

/-!
# A table is a layered store

The state of a table with an integer sort key represents a layered store of capacity two:
the memtable is its top map, and each SSTable one of its frozen maps. Writes and reads of
the table are those of the store, as long as the records fit their types.
-/

namespace Dibibase

open Library TableBuilder

namespace TableManager

/-- The SSTables of the table hold the given maps, the oldest first. -/
structure Frozen (files : Path → Option (List UInt8)) (tm : TableManager) (t : DataType)
    (layers : List (List (Data × Record))) : Prop where
  id : tm.currentSstableId = layers.length
  summaries : tm.summaries =
    layers.map (fun m => builtSummary t (entriesFrom tm.schema.recordSize 0 m))
  memtable : ∀ m ∈ layers, Memtable tm.schema t m
  sized : ∀ m ∈ layers, ∀ p ∈ m, p.2.Sized
  two : ∀ m ∈ layers, m.length = 2
  stored : ∀ i m, layers[i]? = some m → Stored files tm.basePath tm.tableName i t
    (entriesFrom tm.schema.recordSize 0 m) (m.map (fun p => p.2.encode))

/-- The index and data files of the SSTables hold the given maps, whatever their summary
files hold. -/
structure FrozenRows (files : Path → Option (List UInt8)) (tm : TableManager) (t : DataType)
    (layers : List (List (Data × Record))) : Prop where
  id : tm.currentSstableId = layers.length
  summaries : tm.summaries =
    layers.map (fun m => builtSummary t (entriesFrom tm.schema.recordSize 0 m))
  memtable : ∀ m ∈ layers, Memtable tm.schema t m
  sized : ∀ m ∈ layers, ∀ p ∈ m, p.2.Sized
  two : ∀ m ∈ layers, m.length = 2
  rows : ∀ i m, layers[i]? = some m → Rows files tm.basePath tm.tableName i t
    (entriesFrom tm.schema.recordSize 0 m) (m.map (fun p => p.2.encode))

lemma Frozen.frozenRows {files : Path → Option (List UInt8)} {tm : TableManager} {t : DataType}
    {layers : List (List (Data × Record))} (h : Frozen files tm t layers) :
    FrozenRows files tm t layers :=
  ⟨h.id, h.summaries, h.memtable, h.sized, h.two, fun i m hi => (h.stored i m hi).rows⟩

/-- The table, with its files, is the given layered store. -/
structure Represents (t : DataType) (st : TableManager × Posix Path)
    (store : LayeredStore Data Record) : Prop where
  succeed : st.2.WritesSucceed
  memtable : Memtable st.1.schema t st.1.memtable
  sized : ∀ p ∈ st.1.memtable, p.2.Sized
  small : st.1.memtable.length < 2
  top : store.top = fun k => st.1.memtable.lookup k
  count : store.count = st.1.memtable.length
  frozen : ∃ layers, Frozen st.2.files st.1 t layers ∧
    store.frozen = layers.map (fun m k => m.lookup k)

variable {tm : TableManager} {s : Posix Path} {t : DataType} {store : LayeredStore Data Record}
  {layers : List (List (Data × Record))} {key : Data}

lemma Represents.id (h : Represents t (tm, s) store) :
    tm.currentSstableId = store.frozen.length := by
  obtain ⟨layers, hf, hlayers⟩ := h.frozen
  rw [hlayers, List.length_map]
  exact hf.id

/-- A new table, whatever files its directory holds. -/
lemma represents_new (base table : List UInt8) (schema : Schema) (t : DataType)
    (hw : s.WritesSucceed) : Represents t (new base table schema [], s) LayeredStore.empty where
  succeed := hw
  memtable := Memtable.nil schema t
  sized := by simp [new]
  small := by simp [new]
  top := by
    funext k
    simp [new, LayeredStore.empty]
  count := rfl
  frozen := ⟨[], ⟨rfl, rfl, by simp, by simp, by simp, by simp⟩, rfl⟩

lemma onePage_two (ht : t.IsInteger) : OnePage t 2 := by
  rcases ht with rfl | rfl | rfl | rfl <;> decide

/-! ### Reads -/

/-- The result of a lookup: what is found, or `non_existent_record_error`. -/
def found (record : Option Record) : Except Exception Record :=
  record.elim (.error .nonExistentRecord) .ok

/-- The loop over the SSTables finds the newest of the frozen maps that has the key. -/
lemma readSstables_frozen (ht : t.Comparable) (hone : OnePage t 2)
    (hsize : tm.schema.recordSize < 2 ^ 31) (hkey : key.type = t) (n : Nat)
    (hn : n ≤ layers.length) (s : Posix Path) (hf : FrozenRows s.files tm t layers) :
    outcome (tm.readSstables key n) s =
      found (LayeredStore.newest ((layers.take n).map (fun m k => m.lookup k)) key) := by
  induction n generalizing s with
  | zero => rfl
  | succ n ih =>
    have hlt : n < layers.length := hn
    have hlayer : layers[n]? = some layers[n] := List.getElem?_eq_getElem hlt
    have hmem : layers[n] ∈ layers := List.getElem_mem hlt
    have hlength := hf.two _ hmem
    have hsummary : tm.summaries[n]? =
        some (builtSummary t (entriesFrom tm.schema.recordSize 0 layers[n])) := by
      rw [hf.summaries, List.getElem?_map, hlayer]
      rfl
    obtain ⟨s', hread, hfiles, -⟩ := readSstable_onePage (hf.memtable _ hmem) ht
      (by rw [← List.length_pos_iff, hlength]; norm_num) (hf.sized _ hmem) hsize
      (by rwa [hlength]) (hf.rows n _ hlayer) hkey
    rw [List.take_add_one, hlayer, Option.toList_some, List.map_append, List.map_singleton,
      LayeredStore.newest_append, readSstables, hsummary]
    cases hlookup : layers[n].lookup key with
    | some record =>
      rw [hlookup] at hread
      exact outcome_bind_of_ok hread
    | none =>
      rw [hlookup] at hread
      rw [Option.none_or, ← ih (by omega) s' (by rwa [hfiles])]
      exact outcome_bind_of_ok hread

/-- A read of the table is a read of the store. -/
theorem readRecord_represents (ht : t.IsInteger) (hsize : tm.schema.recordSize < 2 ^ 31)
    (h : Represents t (tm, s) store) (hkey : key.type = t) :
    outcome (tm.readRecord key) s = found (store.read key) := by
  have hfind := OrderedMap.find_eq_lookup (Data.ordersOn_compare (.inl ht)) (k := key) hkey
    tm.memtable h.memtable.keysIn h.memtable.sorted
  obtain ⟨layers, hf, hlayers⟩ := h.frozen
  have htop : store.top key = tm.memtable.lookup key := congrFun h.top key
  rw [readRecord, LayeredStore.read, htop, hlayers]
  cases hlookup : tm.memtable.lookup key with
  | some record =>
    rw [hlookup] at hfind
    exact outcome_bind_of_ok (Process.ofExcept_ok hfind s)
  | none =>
    rw [hlookup] at hfind
    have hloop := readSstables_frozen (.inl ht) (onePage_two ht) hsize hkey layers.length le_rfl s
      hf.frozenRows
    rw [List.take_length] at hloop
    rw [Option.none_or, ← hloop, ← hf.id]
    exact outcome_bind_of_ok (Process.ofExcept_ok hfind s)

lemma lookup_otherType {m : List (Data × Record)} (h : OrderedMap.KeysIn (Data.ofType t) m)
    (hkey : key.type ≠ t) : m.lookup key = none := by
  apply OrderedMap.lookup_eq_none_of_notMem
  intro hmem
  obtain ⟨p, hp, rfl⟩ := List.mem_map.mp hmem
  exact hkey (h p hp)

lemma newest_otherType {ms : List (List (Data × Record))}
    (hms : ∀ m ∈ ms, OrderedMap.KeysIn (Data.ofType t) m) (hkey : key.type ≠ t) :
    LayeredStore.newest (ms.map (fun m k => m.lookup k)) key = none := by
  simp only [LayeredStore.newest, List.findSome?_eq_none_iff, List.mem_reverse, List.mem_map]
  rintro _ ⟨m, hm, rfl⟩
  exact lookup_otherType (hms m hm) hkey

/-- No key of another type than the sort key's is in the store of a table. -/
lemma Represents.read_otherType (h : Represents t (tm, s) store) (hkey : key.type ≠ t) :
    store.read key = none := by
  obtain ⟨layers, hfrozen, hlayers⟩ := h.frozen
  have htop : store.top key = none := by
    rw [h.top]
    exact lookup_otherType h.memtable.keysIn hkey
  rw [LayeredStore.read, htop, hlayers,
    newest_otherType (fun m hm => (hfrozen.memtable m hm).keysIn) hkey]
  rfl

/-! ### Writes -/

/-- The SSTables stay what they are while their files do. -/
lemma Frozen.congr {files files' : Path → Option (List UInt8)} {tm tm' : TableManager}
    (h : Frozen files tm t layers)
    (htm : tm' = { tm with memtable := tm'.memtable })
    (hfiles : ∀ i < layers.length, ∀ path, IsSstable tm.basePath tm.tableName i path →
      files' path = files path) : Frozen files' tm' t layers := by
  rw [htm]
  refine ⟨h.id, h.summaries, h.memtable, h.sized, h.two, fun i m hi => ?_⟩
  have hlt : i < layers.length := (List.getElem?_eq_some_iff.mp hi).1
  exact (h.stored i m hi).congr (hfiles i hlt)

/-- A table is the same store while the files of its SSTables are the same. -/
lemma Represents.congr {s' : Posix Path} (h : Represents t (tm, s) store) (hw : s'.WritesSucceed)
    (hfiles : ∀ i path, IsSstable tm.basePath tm.tableName i path → s'.files path = s.files path) :
    Represents t (tm, s') store := by
  obtain ⟨layers, hf, hlayers⟩ := h.frozen
  exact ⟨hw, h.memtable, h.sized, h.small, h.top, h.count, layers,
    hf.congr rfl (fun i _ => hfiles i), hlayers⟩

lemma getElem?_append_singleton {α : Type} {l : List α} {a b : α} {i : Nat}
    (h : (l ++ [a])[i]? = some b) : l[i]? = some b ∧ i < l.length ∨ i = l.length ∧ b = a := by
  rcases Nat.lt_or_ge i l.length with hlt | hge
  · rw [List.getElem?_append_left hlt] at h
    exact .inl ⟨h, hlt⟩
  · right
    rw [List.getElem?_append_right hge, List.getElem?_singleton] at h
    split at h
    · exact ⟨by omega, (Option.some.inj h).symm⟩
    · cases h

/-- A new SSTable leaves the files of the older ones alone. -/
lemma not_isSstable_of_lt {base table : List UInt8} {i n : Nat} (h : i < n) {path : Path}
    (hpath : IsSstable base table i path) : ¬IsSstable base table n path := by
  intro hpath'
  have := (hpath.unique hpath').2.2
  omega

/-- The table and its SSTables after a flush that has written the rows of a map. -/
lemma FrozenRows.push {files files' : Path → Option (List UInt8)}
    (h : FrozenRows files tm t layers) {m : List (Data × Record)} (hm : Memtable tm.schema t m)
    (hs : ∀ p ∈ m, p.2.Sized) (htwo : m.length = 2)
    (hrows : Rows files' tm.basePath tm.tableName layers.length t
      (entriesFrom tm.schema.recordSize 0 m) (m.map (fun p => p.2.encode)))
    (hframe : ∀ path, ¬IsSstable tm.basePath tm.tableName layers.length path →
      files' path = files path) :
    FrozenRows files' { tm with
      summaries := tm.summaries ++ [builtSummary t (entriesFrom tm.schema.recordSize 0 m)]
      currentSstableId := tm.summaries.length + 1
      memtable := [] } t (layers ++ [m]) := by
  have hold : ∀ m' ∈ layers ++ [m], m' ∈ layers ∨ m' = m := by simp
  refine ⟨by simp [h.summaries], by simp [h.summaries], ?_, ?_, ?_, ?_⟩
  · intro m' hmem
    rcases hold m' hmem with hmem | rfl
    · exact h.memtable m' hmem
    · exact hm
  · intro m' hmem
    rcases hold m' hmem with hmem | rfl
    · exact h.sized m' hmem
    · exact hs
  · intro m' hmem
    rcases hold m' hmem with hmem | rfl
    · exact h.two m' hmem
    · exact htwo
  · intro i m' hi
    rcases getElem?_append_singleton hi with ⟨hi, hlt⟩ | ⟨rfl, rfl⟩
    · exact (h.rows i m' hi).congr (fun path hpath => hframe path (not_isSstable_of_lt hlt hpath))
    · exact hrows

variable (tm) in
/-- A flush of two records adds a frozen map. -/
lemma flush_frozen (ht : t.Comparable) (hw : s.WritesSucceed)
    (hsize : tm.schema.recordSize < 2 ^ 31) (hm : Memtable tm.schema t tm.memtable)
    (hs : ∀ p ∈ tm.memtable, p.2.Sized) (htwo : tm.memtable.length = 2)
    (hf : Frozen s.files tm t layers) :
    ∃ tm' files, flush (tm, s) = .ok () (tm', { s with files := files }) ∧
      tm' = { tm with
        currentSstableId := tm'.currentSstableId, summaries := tm'.summaries, memtable := [] } ∧
      Frozen files tm' t (layers ++ [tm.memtable]) ∧
      ∀ path, ¬IsSstable tm.basePath tm.tableName layers.length path →
        files path = s.files path := by
  have hne : tm.memtable ≠ [] := by
    rw [← List.length_pos_iff, htwo]
    norm_num
  obtain ⟨files, hbuild, hst, hframe⟩ := build_of_lt hw tm.basePath tm.tableName
    tm.currentSstableId ht hm hne hsize
  rw [hf.id] at hst hframe
  refine ⟨_, files, flush_ok _ hbuild, rfl, ?_, hframe⟩
  have hrows := hf.frozenRows.push hm hs htwo hst.rows hframe
  refine ⟨hrows.id, hrows.summaries, hrows.memtable, hrows.sized, hrows.two, ?_⟩
  intro i m hi
  rcases getElem?_append_singleton hi with ⟨hi, hlt⟩ | ⟨rfl, rfl⟩
  · exact (hf.stored i m hi).congr (fun path hpath => hframe path (not_isSstable_of_lt hlt hpath))
  · exact hst

/-- A key that the memtable has stays as it is in the store, too. -/
lemma Represents.write_known (h : Represents t (tm, s) store) {old : Record} (record : Record)
    (hlookup : tm.memtable.lookup key = some old) : store.write 2 key record = store := by
  have htop : store.top key = tm.memtable.lookup key := congrFun h.top key
  have hcount : store.count = tm.memtable.length := h.count
  have hsmall : tm.memtable.length < 2 := h.small
  rw [LayeredStore.write, LayeredStore.insert, htop, hlookup]
  simp only
  rw [if_neg (by omega)]

/-- A new key goes into the top map of the store. -/
lemma Represents.insert_new (h : Represents t (tm, s) store) {record : Record}
    {m : List (Data × Record)} (hlookup : tm.memtable.lookup key = none)
    (hlen : m.length = tm.memtable.length + 1)
    (hfun : (fun k => m.lookup k) =
      Function.update (fun k => tm.memtable.lookup k) key (some record)) :
    store.insert key record = { store with top := fun k => m.lookup k, count := m.length } := by
  have htop : store.top = fun k => tm.memtable.lookup k := h.top
  have hcount : store.count = tm.memtable.length := h.count
  have hnone : store.top key = none := (congrFun htop key).trans hlookup
  rw [LayeredStore.insert, hnone]
  simp only
  rw [hlen, hcount, hfun, htop]

/-- After a flush the memtable is one more frozen map of the store. -/
lemma represents_flushed {tm' : TableManager} {files : Path → Option (List UInt8)}
    {m : List (Data × Record)} (hw : s.WritesSucceed) (hmemtable : tm'.memtable = [])
    (hfrozen : Frozen files tm' t (layers ++ [m]))
    (hlayers : store.frozen = layers.map (fun m k => m.lookup k)) :
    Represents t (tm', { s with files := files })
      ⟨fun _ => none, 0, store.frozen ++ [fun k => m.lookup k]⟩ := by
  refine ⟨hw, ?_, ?_, ?_, ?_, ?_, layers ++ [m], hfrozen, ?_⟩
  · change Memtable tm'.schema t tm'.memtable
    rw [hmemtable]
    exact Memtable.nil _ _
  · simp [hmemtable]
  · simp [hmemtable]
  · simp [hmemtable]
  · simp [hmemtable]
  · simp [hlayers]

/-- An accepted write of the table is a write of the store, whatever type of sort keys it has. -/
lemma writeRecord_stores (ht : t.Comparable) (hsize : tm.schema.recordSize < 2 ^ 31)
    (h : Represents t (tm, s) store) {record : Record} (hv : tm.schema.verify record = true)
    (hkey : record.values[tm.schema.sortKeyIndex.toNat]? = some key) (htype : key.type = t)
    (hs : record.Sized) :
    ∃ tm' files, writeRecord record (tm, s) = .ok () (tm', { s with files := files }) ∧
      tm' = { tm with
        currentSstableId := tm'.currentSstableId, summaries := tm'.summaries,
        memtable := tm'.memtable } ∧
      Represents t (tm', { s with files := files }) (store.write 2 key record) ∧
      ∀ path, (∀ i < tm'.currentSstableId, ¬IsSstable tm.basePath tm.tableName i path) →
        files path = s.files path := by
  obtain ⟨layers, hf, hlayers⟩ := h.frozen
  have hmemtable : Memtable tm.schema t tm.memtable := h.memtable
  have hsmall : tm.memtable.length < 2 := h.small
  cases hlookup : tm.memtable.lookup key with
  | some old =>
    -- The memtable has the key already and stays as it is.
    have hins := OrderedMap.insert_of_lookup_eq_some (Data.ordersOn_compare ht) (k := key)
      htype record old tm.memtable hmemtable.keysIn hmemtable.sorted hlookup
    refine ⟨tm, s.files, ?_, rfl, ?_, fun _ _ => rfl⟩
    · rw [writeRecord_accepted tm hv hkey hins, if_neg (by omega)]
    · rw [h.write_known record hlookup]
      exact h
  | none =>
    obtain ⟨m, hins, hm, hlen, hmem, hfun⟩ := hmemtable.insert ht hv hkey htype hlookup
    have hms : ∀ p ∈ m, p.2.Sized := by
      intro p hp
      rcases hmem p hp with hp | rfl
      · exact h.sized p hp
      · exact hs
    have hinsert := h.insert_new hlookup hlen hfun
    have hwrite := writeRecord_accepted tm (s := s) hv hkey hins
    have hf' : Frozen s.files { tm with memtable := m } t layers :=
      hf.congr rfl (fun _ _ _ _ => rfl)
    by_cases htwo : m.length = 2
    · obtain ⟨tm', files, hflush, htm', hfrozen, hframe⟩ := flush_frozen { tm with
        memtable := m } ht h.succeed hsize hm hms htwo hf'
      have hid : layers.length < tm'.currentSstableId := by
        rw [hfrozen.id, List.length_append, List.length_singleton]
        omega
      have hstore : store.write 2 key record =
          ⟨fun _ => none, 0, store.frozen ++ [fun k => m.lookup k]⟩ := by
        rw [LayeredStore.write, hinsert]
        simp [htwo, LayeredStore.freeze]
      refine ⟨tm', files, ?_, ?_, ?_, fun path hpath => hframe path (hpath _ hid)⟩
      · rw [hwrite, if_pos (by omega), hflush]
      · rw [htm']
      · rw [hstore]
        exact represents_flushed h.succeed (by rw [htm']) hfrozen hlayers
    · have hlt : m.length < 2 := by omega
      have hstore : store.write 2 key record = { store with
          top := fun k => m.lookup k, count := m.length } := by
        rw [LayeredStore.write, hinsert]
        simp only
        rw [if_neg (by omega)]
      refine ⟨{ tm with memtable := m }, s.files, ?_, rfl, ?_, fun _ _ => rfl⟩
      · rw [hwrite, if_neg (by omega)]
      · rw [hstore]
        exact ⟨h.succeed, hm, hms, hlt, rfl, rfl, layers, hf', hlayers⟩

/-- An accepted write of a table with integer sort keys is a write of the store. -/
theorem writeRecord_represents (ht : t.IsInteger) (hsize : tm.schema.recordSize < 2 ^ 31)
    (h : Represents t (tm, s) store) {record : Record} (hv : tm.schema.verify record = true)
    (hkey : record.values[tm.schema.sortKeyIndex.toNat]? = some key) (htype : key.type = t)
    (hs : record.Sized) :
    ∃ tm' files, writeRecord record (tm, s) = .ok () (tm', { s with files := files }) ∧
      tm' = { tm with
        currentSstableId := tm'.currentSstableId, summaries := tm'.summaries,
        memtable := tm'.memtable } ∧
      Represents t (tm', { s with files := files }) (store.write 2 key record) ∧
      ∀ path, (∀ i < tm'.currentSstableId, ¬IsSstable tm.basePath tm.tableName i path) →
        files path = s.files path :=
  writeRecord_stores (.inl ht) hsize h hv hkey htype hs

end TableManager

end Dibibase
