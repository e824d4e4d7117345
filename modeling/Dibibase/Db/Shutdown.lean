import Dibibase.Db.CatalogImage
import Dibibase.Db.DatabaseRefinement
import Dibibase.Db.Recovery

/-!
# A clean shutdown

The destructor of a database writes the metadata file and nothing else: what is in the
memtables is lost, and of the SSTable number of the last table four bytes are left to the
memory that the constructor finds.
-/

namespace Dibibase

open Library TableBuilder

namespace Database

/-! ### A summary that is not there -/

/-- A summary that is read from memory full of the byte 8 has a blob of 134744072 bytes. -/
lemma decode_eights : decode Summary.from (List.replicate 4096 8) = .error .bufferOverflow := by
  set t : DataType := ⟨.blob, 134744072⟩ with ht
  have hbuf : List.replicate 4096 (8 : UInt8) =
      leBytes 1 (8 : BitVec 8).toNat ++ (t.encode ++ List.replicate 4090 8) := by
    have hhead : leBytes 1 (8 : BitVec 8).toNat ++ t.encode = List.replicate 6 8 := by decide
    rw [← List.append_assoc, hhead, List.replicate_append_replicate]
  have hlen : (leBytes 1 (8 : BitVec 8).toNat ++ (t.encode ++ List.replicate 4090 (8 : UInt8))).length =
      4096 := by
    rw [← hbuf, List.length_replicate]
  rw [hbuf]
  generalize List.replicate 4090 (8 : UInt8) = tail at *
  have hcount := Reads.getUint8 8 (MemoryBuffer.ofBytes (leBytes 1 (8 : BitVec 8).toNat ++
    (t.encode ++ tail))) (t.encode ++ tail) (Nat.zero_le _) (by
      simp only [MemoryBuffer.size, MemoryBuffer.ofBytes]
      omega) rfl
  have htype := t.reads_from ⟨leBytes 1 (8 : BitVec 8).toNat ++ (t.encode ++ tail), 1⟩ tail (by
      simp only [MemoryBuffer.size]
      omega) (by
      simp only [MemoryBuffer.size]
      omega) (by simp)
  have hone : (MemoryBuffer.ofBytes (leBytes 1 (8 : BitVec 8).toNat ++ (t.encode ++ tail))).offset +
      (leBytes 1 (8 : BitVec 8).toNat).length = 1 := rfl
  have hsix : 1 + t.encode.length = 6 := by rw [t.length_encode]
  rw [hone] at hcount
  rw [hsix] at htype
  have hblob : Data.from t ⟨leBytes 1 (8 : BitVec 8).toNat ++ (t.encode ++ tail), 6⟩ =
      .error .bufferOverflow := by
    have hsize : toSizeT (toInt (134744072 : BitVec 32).toNat) = 134744072 := by decide
    have hover : (MemoryBuffer.mk (leBytes 1 (8 : BitVec 8).toNat ++ (t.encode ++ tail)) 6).isOverflow
        (toSizeT (toInt (134744072 : BitVec 32).toNat)) = true := by
      rw [MemoryBuffer.isOverflow, MemoryBuffer.size, hlen, hsize]
      rfl
    simp only [ht, Data.from, BufferM.getBlob, Bind.bind, StateT.bind, Except.bind,
      BufferM.checkOverflow]
    rw [if_pos hover]
  have hrun : Summary.from (MemoryBuffer.ofBytes (leBytes 1 (8 : BitVec 8).toNat ++
      (t.encode ++ tail))) = .error .bufferOverflow := by
    have height : (8 : BitVec 8).toNat = 7 + 1 := rfl
    simp only [Summary.from, Bind.bind, StateT.bind, Except.bind]
    rw [hcount]
    dsimp only [MemoryBuffer.ofBytes]
    rw [htype]
    dsimp only
    rw [height, BufferM.replicate]
    simp only [Bind.bind, StateT.bind, Except.bind]
    rw [← height, hblob]
  rw [decode, hrun]
  rfl

/-- Without its file a summary is read from memory. -/
lemma loadSummary_eights {base table : List UInt8} {i : Nat} {s : Posix Path}
    (hf : s.files (.summary base table i) = none) (hs : Posix.Filled 8 s) :
    ∃ s', DiskManager.loadSummary base table i s = .error .bufferOverflow s' := by
  obtain ⟨s', hread, -⟩ := Posix.readFile_executes (ε := Exception) (.summary base table i) 0 4096 s
  have hnone : s.fileBytes (.summary base table i) (0 : Int).toNat 4096 = [] := by
    simp [Posix.fileBytes, hf]
  have hheap : (List.range 4096).map s.heap = List.replicate 4096 8 := by
    rw [List.eq_replicate_iff]
    exact ⟨by rw [List.length_map, List.length_range], fun b hb => by
      obtain ⟨i, -, rfl⟩ := List.mem_map.mp hb
      exact hs i⟩
  rw [hnone, hheap, List.length_nil, List.drop_zero, List.nil_append] at hread
  refine ⟨s', ?_⟩
  rw [DiskManager.loadSummary, bind_of_ok hread]
  exact Process.ofExcept_error decode_eights s'

lemma preserves_filled_loadSummary (b : UInt8) (base table : List UInt8) (i : Nat) :
    Preserves (Posix.Filled b) (DiskManager.loadSummary base table i) :=
  (Posix.preserves_filled_readFile b _ _ _).bind (fun _ => preserves_ofExcept _ _)

lemma preserves_filled_loadSummaries (b : UInt8) (base table : List UInt8) (n i : Nat) :
    Preserves (Posix.Filled b) (loadSummaries base table i n) := by
  induction n generalizing i with
  | zero => exact Preserves.pure _
  | succ n ih =>
    exact (preserves_filled_loadSummary b base table i).bind (fun _ => (ih (i + 1)).bind
      (fun _ => Preserves.pure _))

/-- The loop over more summaries than there are fails at the first that is missing. -/
lemma loadSummaries_missing (base table : List UInt8) {t : DataType} (n : Nat)
    (summaries : List Summary) (i : Nat) {s : Posix Path}
    (h : ∀ j summary, summaries[j]? = some summary →
      TableManager.SummaryStored s.files base table (i + j) t summary)
    (hf : s.files (.summary base table (i + summaries.length)) = none) (hs : Posix.Filled 8 s) :
    ∃ e s', loadSummaries base table i (summaries.length + (n + 1)) s = .error e s' := by
  induction summaries generalizing i s with
  | nil =>
    obtain ⟨s', hload⟩ := loadSummary_eights hf hs
    refine ⟨.bufferOverflow, s', ?_⟩
    rw [List.length_nil, Nat.zero_add, loadSummaries]
    exact bind_of_error hload
  | cons summary summaries ih =>
    obtain ⟨s₁, hload, hfiles, -⟩ := TableManager.loadSummary_stored (h 0 summary rfl)
    rw [Nat.add_zero] at hload
    obtain ⟨e, s₂, hrest⟩ := ih (s := s₁) (i + 1) (by
      intro j summary' hj
      rw [hfiles, Nat.add_assoc, Nat.add_comm 1]
      exact h (j + 1) summary' (by simpa using hj)) (by
      rw [hfiles, Nat.add_assoc, Nat.add_comm 1]
      exact hf) ((preserves_filled_loadSummary 8 base table i s hs).1 _ _ hload)
    refine ⟨e, s₂, ?_⟩
    rw [List.length_cons, Nat.add_right_comm, loadSummaries, bind_of_ok hload]
    exact bind_of_error hrest

/-! ### Loading the tables of a directory -/

/-- The table manager that the constructor makes of a table. -/
def reopened (tm : TableManager) : TableManager := { tm with memtable := [] }

variable {base name : List UInt8} {tm : TableManager} {s : Posix Path} {schema : Schema}
  {store : LayeredStore Data Record}

lemma Managed.summaryStored (h : Managed base name (tm, s) schema store) :
    ∃ t, ∀ i summary, tm.summaries[i]? = some summary →
      TableManager.SummaryStored s.files base name i t summary := by
  obtain ⟨t, -, ht, hrep⟩ := h.represents
  obtain ⟨layers, hf, -⟩ := hrep.frozen
  refine ⟨t, fun i summary hi => ?_⟩
  rw [hf.summaries, List.getElem?_map, Option.map_eq_some_iff] at hi
  obtain ⟨m, hm, rfl⟩ := hi
  have hmem : m ∈ layers := List.mem_of_getElem? hm
  have hst := hf.stored i m hm
  have hbase : tm.basePath = base := h.basePath
  have hname : tm.tableName = name := h.tableName
  rw [hbase, hname] at hst
  exact TableManager.summaryStored_build (.inl ht) (hf.memtable m hmem)
    (fun p hp => (hf.memtable m hmem).key_sized hp (hf.sized m hmem p hp)) (hf.two m hmem).le hst

lemma Managed.id (h : Managed base name (tm, s) schema store) :
    tm.currentSstableId = tm.summaries.length := by
  obtain ⟨t, -, -, hrep⟩ := h.represents
  obtain ⟨layers, hf, -⟩ := hrep.frozen
  rw [hf.summaries, List.length_map]
  exact hf.id

/-- A table that is opened again is its store without the top map. -/
lemma Managed.reopen (h : Managed base name (tm, s) schema store) :
    Managed base name (reopened tm, s) schema store.forget := by
  obtain ⟨t, hkey, ht, hrep⟩ := h.represents
  obtain ⟨layers, hf, hlayers⟩ := hrep.frozen
  refine ⟨h.basePath, h.tableName, h.sameSchema, h.fits, t, hkey, ht, ?_⟩
  refine ⟨hrep.succeed, Memtable.nil _ _, by simp [reopened], by simp [reopened], ?_, rfl, layers,
    hf.congr rfl (fun _ _ _ _ => rfl), hlayers⟩
  funext k
  simp [reopened, LayeredStore.forget]

lemma Managed.storable (h : Managed base name (tm, s) schema store) : (entry (name, tm)).Storable := by
  have hschema : tm.schema = schema := h.sameSchema
  refine ⟨h.fits.name, ?_, ?_⟩
  · rw [entry, hschema]
    exact h.fits.fields
  · rw [entry, hschema]
    exact h.fits.fieldNames

/-- The catalog has an entry for the table, and the summaries are in their files. -/
structure Reloadable (base name : List UInt8) (tm : TableManager) (files : Path → Option (List UInt8)) :
    Prop where
  basePath : tm.basePath = base
  tableName : tm.tableName = name
  id : tm.currentSstableId = tm.summaries.length
  storable : (entry (name, tm)).Storable
  stored : ∃ t, ∀ i summary, tm.summaries[i]? = some summary →
    TableManager.SummaryStored files base name i t summary

lemma Managed.reloadable (h : Managed base name (tm, s) schema store) :
    Reloadable base name tm s.files :=
  ⟨h.basePath, h.tableName, h.id, h.storable, h.summaryStored⟩

lemma Reloadable.new_summaries {files : Path → Option (List UInt8)} (h : Reloadable base name tm files) :
    TableManager.new base name tm.schema tm.summaries = reopened tm := by
  rw [TableManager.new, reopened, ← h.id, ← h.basePath, ← h.tableName]

variable (base) in
/-- One round of the constructor makes the table that comes next in its buffer. -/
lemma loadTables_entry (length rounds : Nat) {buf front back : List UInt8}
    (hlen : buf.length < 2 ^ 31) (hlength : buf.length = length) {name : List UInt8}
    {tm : TableManager} {s : Posix Path} (hp : Reloadable base name tm s.files)
    (hid : tm.currentSstableId < 2 ^ 64) (hbuf : buf = front ++ ((entry (name, tm)).encode ++ back))
    {acc : List (List UInt8 × TableManager)} (hafter : ∀ q ∈ acc, nameLt q.1 name = .ok true) :
    ∃ s', loadTables base length (rounds + 1) ⟨buf, front.length⟩ acc s =
        loadTables base length rounds ⟨buf, front.length + (entry (name, tm)).encode.length⟩
          (acc ++ [(name, reopened tm)]) s' ∧
      s'.files = s.files ∧ s'.writes = s.writes ∧ ∀ b, Posix.Filled b s → Posix.Filled b s' := by
  have hread := (entry (name, tm)).reads_from hp.storable ⟨buf, front.length⟩ back
    (by simp [hbuf, MemoryBuffer.size]) (by simpa [MemoryBuffer.size] using hlen) (by simp [hbuf])
  have hpos := (entry (name, tm)).le_size
  have hlength' := (entry (name, tm)).length_encode
  have hroom : front.length < length := by
    rw [← hlength, hbuf]
    simp only [List.length_append]
    omega
  obtain ⟨t, hst⟩ := hp.stored
  obtain ⟨s₁, hload, hfiles, hwrites⟩ := TableManager.loadSummaries_stored (s := s) base name
    tm.summaries 0 (fun j summary hj => by
      rw [Nat.zero_add]
      exact hst j summary hj)
  have hnumber : (entry (name, tm)).lastSstableId.toNat = tm.summaries.length := by
    rw [← hp.id, entry, BitVec.toNat_ofNat, Nat.mod_eq_of_lt hid]
  have hins := OrderedMap.insert_of_after nameLt (k := name) (reopened tm) acc hafter
  have hname : (entry (name, tm)).name = name := rfl
  have hschema : (entry (name, tm)).schema = tm.schema := rfl
  refine ⟨s₁, ?_, hfiles, hwrites,
    fun b hb => (preserves_filled_loadSummaries b base name _ 0 s hb).1 _ _ hload⟩
  rw [loadTables, if_pos hroom, bind_of_ok (Process.ofExcept_ok hread s)]
  dsimp only
  rw [hnumber, hname, hschema, bind_of_ok hload, hp.new_summaries,
    bind_of_ok (Process.ofExcept_ok hins s₁)]

variable (base) in
/-- The constructor makes the tables that come next in its buffer. -/
lemma loadTables_reloadable (length rounds : Nat) (buf back : List UInt8) (hlen : buf.length < 2 ^ 31)
    (hlength : buf.length = length) (tms : List (List UInt8 × TableManager))
    (hid : ∀ p ∈ tms, p.2.currentSstableId < 2 ^ 64) (front : List UInt8)
    (acc : List (List UInt8 × TableManager)) {s : Posix Path}
    (hm : ∀ p ∈ tms, Reloadable base p.1 p.2 s.files)
    (hbuf : buf = front ++ ((tms.map entry).flatMap Table.encode ++ back))
    (hsorted : (acc.map Prod.fst ++ tms.map Prod.fst).Pairwise (fun a b => nameLt a b = .ok true)) :
    ∃ s', loadTables base length (tms.length + rounds) ⟨buf, front.length⟩ acc s =
        loadTables base length rounds
          ⟨buf, front.length + ((tms.map entry).flatMap Table.encode).length⟩
          (acc ++ tms.map (fun p => (p.1, reopened p.2))) s' ∧
      s'.files = s.files ∧ s'.writes = s.writes ∧ ∀ b, Posix.Filled b s → Posix.Filled b s' := by
  induction tms generalizing front acc s with
  | nil => exact ⟨s, by simp, rfl, rfl, fun _ => id⟩
  | cons p tms ih =>
    obtain ⟨name, tm⟩ := p
    have hp : Reloadable base name tm s.files := hm (name, tm) (by simp)
    have hafter : ∀ q ∈ acc, nameLt q.1 name = .ok true := by
      intro q hq
      exact (List.pairwise_append.mp hsorted).2.2 q.1 (List.mem_map_of_mem hq) name (by simp)
    have hfront : buf = front ++ ((entry (name, tm)).encode ++
        ((tms.map entry).flatMap Table.encode ++ back)) := by
      rw [hbuf, List.map_cons, List.flatMap_cons, List.append_assoc]
    obtain ⟨s₁, hround, hfiles, hwrites, hfill⟩ := loadTables_entry base length
      (tms.length + rounds) hlen hlength hp (hid (name, tm) (by simp)) hfront hafter
    obtain ⟨s₂, hrest, hfiles₂, hwrites₂, hfill₂⟩ := ih (fun p hp => hid p (by simp [hp]))
      (front ++ (entry (name, tm)).encode) (acc ++ [(name, reopened tm)]) (s := s₁)
      (fun q hq => by
        rw [hfiles]
        exact hm q (by simp [hq]))
      (by rw [hfront, List.append_assoc]) (by simpa using hsorted)
    refine ⟨s₂, ?_, hfiles₂.trans hfiles, hwrites₂.trans hwrites,
      fun b hb => hfill₂ b (hfill b hb)⟩
    have hrounds : ((name, tm) :: tms).length + rounds = (tms.length + rounds) + 1 := by
      rw [List.length_cons]
      omega
    rw [List.length_append] at hrest
    rw [hrounds, hround, hrest]
    simp [Nat.add_assoc]

/-- The constructor makes the metadata file and no tables. -/
lemma open_fresh (hm : (s.files (.metadata base)).getD [] = []) :
    ∃ s', «open» base s = .ok ⟨base, []⟩ s' ∧
      s'.files = Function.update s.files (.metadata base) (some []) ∧ s'.writes = s.writes := by
  simp only [«open», Posix.openFile, Posix.read, Bind.bind, EStateM.bind, or_true, if_true,
    Option.bind_some, List.lookup_cons_self, Function.update_self, hm, Option.getD_some,
    List.drop_nil, List.take_nil, List.length_nil, ne_eq, OfNat.zero_ne_ofNat, not_false_eq_true,
    true_or, Pure.pure, EStateM.pure]
  exact ⟨_, rfl, rfl, rfl⟩

/-- What the constructor makes of a directory: nothing of a metadata file without a length, and otherwise
the tables whose catalog entries are in its buffer. The end of this buffer may be older contents of the
memory. -/
inductive Catalogued (base : List UInt8) (s : Posix Path) : Database → Prop
  | empty (h : ∀ content, s.files (.metadata base) = some content →
      content.length < 4 ∨ leValue (content.take 4) = 0) : Catalogued base s ⟨base, []⟩
  | tables {db : Database} {content : List UInt8} (path : db.basePath = base)
      (file : s.files (.metadata base) = some content) (head : 4 ≤ content.length)
      (buffer : metadataBuffer content s.heap = db.tables.flatMap Table.encode)
      (size : totalSize db.tables < 2 ^ 31) (nonempty : db.tableManagers ≠ [])
      (sorted : OrderedMap.Sorted nameLt db.tableManagers)
      (reloadable : ∀ p ∈ db.tableManagers, Reloadable base p.1 p.2 s.files ∧ p.2.memtable = [] ∧
        p.2.currentSstableId < 2 ^ 64) : Catalogued base s db

/-- The constructor returns this database. Where it has tables, no file changes. -/
lemma Catalogued.opens {db : Database} (h : Catalogued base s db) :
    ∃ s', «open» base s = .ok db s' ∧ (db.tableManagers ≠ [] → s'.files = s.files) := by
  cases h with
  | empty h =>
    cases hf : s.files (.metadata base) with
    | none =>
      obtain ⟨s', hopen, -⟩ := @open_fresh base s (by rw [hf]; rfl)
      exact ⟨s', hopen, fun hne => absurd rfl hne⟩
    | some content =>
      obtain ⟨s', hopen, hfiles, -⟩ := open_empty hf (h content hf)
      exact ⟨s', hopen, fun _ => hfiles⟩
  | @tables db content path file head buffer size nonempty sorted reloadable =>
    have hlength := length_metadataBuffer content s.heap
    have hlen := length_flatMap_encode db.tables
    rw [buffer, hlen] at hlength
    have hrounds := length_le_totalSize db.tables
    have hmap : db.tables.length = db.tableManagers.length := by rw [tables_eq, List.length_map]
    have hpos := List.length_pos_of_ne_nil nonempty
    obtain ⟨s₁, hopen, hfiles, -⟩ := open_tables file head (by omega)
    rw [buffer, ← hlength] at hopen
    rw [hmap] at hrounds
    obtain ⟨r, hr⟩ := Nat.exists_eq_add_of_le hrounds
    obtain ⟨s₂, hload, hfiles₂, -⟩ := loadTables_reloadable base (totalSize db.tables) r
      (db.tables.flatMap Table.encode) [] (by rw [hlen]; exact size) hlen db.tableManagers
      (fun p hp => (reloadable p hp).2.2) [] [] (s := s₁)
      (fun p hp => by
        rw [hfiles]
        exact (reloadable p hp).1)
      (by rw [tables_eq, List.nil_append, List.append_nil]) (by simpa using sorted_iff.mp sorted)
    have hsame : db.tableManagers.map (fun p => (p.1, reopened p.2)) = db.tableManagers := by
      conv_rhs => rw [← List.map_id db.tableManagers]
      apply List.map_congr_left
      intro p hp
      have hempty := (reloadable p hp).2.1
      rw [reopened, ← hempty]
      rfl
    have hend : totalSize db.tables ≤ MemoryBuffer.offset ⟨db.tables.flatMap Table.encode,
        ([] : List UInt8).length + ((db.tableManagers.map entry).flatMap Table.encode).length⟩ := by
      rw [← tables_eq, hlen]
      exact Nat.le_add_left _ _
    have hrun := hload.trans (loadTables_end _ r hend _ s₂)
    rw [← hr, List.nil_append, hsame] at hrun
    refine ⟨s₂, ?_, fun _ => hfiles₂.trans hfiles⟩
    rw [hopen]
    refine (bind_of_ok hrun).trans ?_
    rw [← path]
    rfl

/-! ### The destructor and the constructor -/

section Reopen

variable {db : Database} {c : Contents}

lemma Holds.exists_managed (h : Holds (db, s) c) :
    ∀ p ∈ db.tableManagers, ∃ schema store, Managed db.basePath p.1 (p.2, s) schema store := by
  intro p hp
  obtain ⟨schema, store, -, hm⟩ := h.tables p hp
  exact ⟨schema, store, hm⟩

/-- The state after the destructor of a database whose metadata file was empty. -/
def closed (st : Database × Posix Path) (heap : Nat → UInt8) : Posix Path :=
  { st.2 with
    files := Function.update st.2.files (.metadata st.1.basePath) (some (metadataFile st.1.tables))
    heap := heap }

lemma flushMetadata_closed (h : Holds (db, s) c) (hu : Unrecorded (db, s))
    (hlt : totalSize db.tables + 4 < 2 ^ 31) :
    flushMetadata db s = .ok () (closed (db, s) s.heap) := by
  rw [flushMetadata_ok h.succeed hu.metadata (metadataBytes_of_lt hlt), overwrite_zero,
    List.drop_nil, List.append_nil]
  rfl

/-- Only the metadata file is another one, so the tables are what they were. -/
lemma Managed.closed (h : Managed base name (tm, s) schema store) (db : Database)
    (heap : Nat → UInt8) : Managed base name (tm, closed (db, s) heap) schema store := by
  have hw : (Database.closed (db, s) heap).WritesSucceed := by
    obtain ⟨t, -, -, hrep⟩ := h.represents
    exact hrep.succeed
  refine h.congr hw (fun i path hpath => Function.update_of_ne ?_ _ _)
  rintro rfl
  simp [IsSstable] at hpath

lemma garbled_zero {t : Table} (h : t.lastSstableId.toNat < 2 ^ 32) : garbled t [0, 0, 0, 0] = t := by
  have hvalue : leValue (leBytes 4 t.lastSstableId.toNat ++ [0, 0, 0, 0]) = t.lastSstableId.toNat := by
    have hmod : t.lastSstableId.toNat % 256 ^ 4 = t.lastSstableId.toNat :=
      Nat.mod_eq_of_lt (by norm_num at h ⊢; exact h)
    rw [leValue_append, leValue_leBytes, hmod]
    simp [leValue]
  rw [garbled, hvalue]
  simp

lemma exists_garbled_eights (h : Managed base name (tm, s) schema store)
    (hid : tm.currentSstableId < 2 ^ 32) :
    ∃ n, (garbled (entry (name, tm)) [8, 8, 8, 8]).lastSstableId.toNat =
      tm.summaries.length + (n + 1) := by
  have hfour : leValue [8, 8, 8, 8] = 134744072 := by decide
  have hentry : (entry (name, tm)).lastSstableId.toNat = tm.summaries.length := by
    rw [← h.id, entry, BitVec.toNat_ofNat, Nat.mod_eq_of_lt (hid.trans (by norm_num))]
  have hbound : tm.summaries.length < 256 ^ 4 := by
    rw [← h.id]
    norm_num
    exact hid
  apply Nat.exists_eq_add_of_lt
  rw [garbled, leValue_append, leValue_leBytes, length_leBytes, hfour, hentry, BitVec.toNat_ofNat,
    Nat.mod_eq_of_lt hbound]
  omega

/-- A table whose summaries cannot be loaded ends the loop. -/
lemma loadTables_error {length : Nat} (rounds : Nat) {buffer buffer' : MemoryBuffer}
    (hoff : buffer.offset < length) {table : Table} (hread : Table.from buffer = .ok (table, buffer'))
    (acc : List (List UInt8 × TableManager)) {s' : Posix Path} {e : Exception}
    (hload : loadSummaries base table.name 0 table.lastSstableId.toNat s = .error e s') :
    loadTables base length (rounds + 1) buffer acc s = .error e s' := by
  rw [loadTables, if_pos hoff, bind_of_ok (Process.ofExcept_ok hread s)]
  exact bind_of_error hload

/-- The tables can be loaded from the files of the destructor. -/
lemma Holds.reloadable_closed (h : Holds (db, s) c) {heap : Nat → UInt8}
    {files : Path → Option (List UInt8)} (hfiles : files = (closed (db, s) heap).files) :
    ∀ p ∈ db.tableManagers, Reloadable db.basePath p.1 p.2 files := by
  intro p hp
  obtain ⟨schema, store, hm⟩ := h.exists_managed p hp
  rw [hfiles]
  exact (hm.closed db heap).reloadable

/-- The constructor reads the tables from its buffer, the last one with bytes of the memory. -/
lemma open_closed_buffer {init : List (List UInt8 × TableManager)}
    {last : List UInt8 × TableManager} (hlast : db.tableManagers = init ++ [last])
    (hlt : totalSize db.tables + 4 < 2 ^ 31) (heap : Nat → UInt8) :
    ∃ s', «open» db.basePath (closed (db, s) heap) = (do
        let tableManagers ← loadTables db.basePath (totalSize db.tables) (totalSize db.tables)
          (MemoryBuffer.ofBytes ((init.map entry ++ [garbled (entry last)
            (unfilled (totalSize db.tables) heap)]).flatMap Table.encode)) []
        return ⟨db.basePath, tableManagers⟩ : Process Database) s' ∧
      s'.files = (closed (db, s) heap).files ∧ s'.writes = s.writes ∧
      ∀ b, (∀ i, heap i = b) → Posix.Filled b s' := by
  have htables : db.tables = init.map entry ++ [entry last] := by
    rw [tables_eq, hlast, List.map_append, List.map_singleton]
  have hf : (closed (db, s) heap).files (.metadata db.basePath) = some (metadataFile db.tables) :=
    Function.update_self ..
  rw [htables] at hf hlt ⊢
  obtain ⟨hhead, hbuffer⟩ := metadataBuffer_metadataFile hlt heap
  have hle := (entry last).le_size
  have htotal := totalSize_snoc (init.map entry) (entry last)
  obtain ⟨s₁, hopen, hfiles, hwrites, hheap, -⟩ := open_tables hf (by
    rw [metadataFile, List.length_take, List.length_append, length_leBytes, length_flatMap_encode]
    omega) (by omega)
  have hsame : (closed (db, s) heap).heap = heap := rfl
  rw [hhead, hsame, hbuffer] at hopen
  refine ⟨s₁, hopen, hfiles, hwrites, fun b hb i => ?_⟩
  rw [hheap]
  exact hb _

/-- If the memory happens to hold the bytes that are left out, the constructor makes all tables
again, with empty memtables. -/
lemma open_closed (h : Holds (db, s) c) (hlt : totalSize db.tables + 4 < 2 ^ 31)
    (hid : ∀ p ∈ db.tableManagers, p.2.currentSstableId < 2 ^ 32) {heap : Nat → UInt8}
    (hzero : unfilled (totalSize db.tables) heap = [0, 0, 0, 0]) :
    ∃ s', «open» db.basePath (closed (db, s) heap) =
        .ok ⟨db.basePath, db.tableManagers.map (fun p => (p.1, reopened p.2))⟩ s' ∧
      s'.files = (closed (db, s) heap).files ∧ s'.writes = s.writes := by
  obtain hnil | ⟨init, last, hlast⟩ := List.eq_nil_or_concat' db.tableManagers
  · have htables : db.tables = [] := by rw [tables, hnil, List.map_nil]
    have hf : (closed (db, s) heap).files (.metadata db.basePath) = some (metadataFile db.tables) :=
      Function.update_self ..
    obtain ⟨s', hopen, hfiles, hwrites, -⟩ := open_empty hf (.inl (by
      simp [htables, metadataFile, totalSize]))
    refine ⟨s', ?_, hfiles, hwrites⟩
    rw [hopen, hnil, List.map_nil]
  · have hsmall : (entry last).lastSstableId.toNat < 2 ^ 32 := by
      have hbound := hid last (by simp [hlast])
      rw [entry, BitVec.toNat_ofNat, Nat.mod_eq_of_lt (by omega)]
      exact hbound
    have hsame : init.map entry ++ [entry last] = db.tableManagers.map entry := by
      rw [hlast, List.map_append, List.map_singleton]
    obtain ⟨s₁, hopen, hfiles, hwrites, -⟩ := open_closed_buffer (s := s) hlast hlt heap
    have hlen := length_flatMap_encode (db.tableManagers.map entry)
    rw [← tables_eq] at hlen
    rw [hzero, garbled_zero hsmall, hsame, ← tables_eq, ← hlen] at hopen
    rw [tables_eq] at hopen hlen
    have hrounds := length_le_totalSize (db.tableManagers.map entry)
    rw [List.length_map, ← hlen] at hrounds
    obtain ⟨r, hr⟩ := Nat.exists_eq_add_of_le hrounds
    obtain ⟨s₂, hload, hfiles₂, hwrites₂, -⟩ := loadTables_reloadable db.basePath
      ((db.tableManagers.map entry).flatMap Table.encode).length r
      ((db.tableManagers.map entry).flatMap Table.encode) [] (by rw [hlen, ← tables_eq]; omega) rfl
      db.tableManagers
      (fun p hp => (hid p hp).trans (by norm_num)) [] []
      (h.reloadable_closed hfiles) (by simp) (by simpa using sorted_iff.mp h.sorted)
    refine ⟨s₂, ?_, hfiles₂.trans hfiles, hwrites₂.trans hwrites⟩
    rw [hopen]
    have hrun := hload.trans (loadTables_end _ r (by simp) _ s₂)
    rw [← hr] at hrun
    exact bind_of_ok hrun

/-- The summary behind the last one is missing. -/
lemma summary_missing (h : Holds (db, s) c) (hu : Unrecorded (db, s))
    (hmem : (name, tm) ∈ db.tableManagers) (heap : Nat → UInt8) :
    (closed (db, s) heap).files (.summary db.basePath name tm.summaries.length) = none := by
  have hsame : (closed (db, s) heap).files (.summary db.basePath name tm.summaries.length) =
      s.files (.summary db.basePath name tm.summaries.length) := by
    simp [closed]
  obtain ⟨schema, store, hm⟩ := h.exists_managed (name, tm) hmem
  rw [hsame]
  refine hu.unused name _ (fun tm₀ htm₀ => ?_)
  have heq := (find_table h.sorted hmem).symm.trans (find_table h.sorted htm₀)
  simp only [Except.ok.injEq, Option.some.injEq] at heq
  rw [← heq]
  exact hm.id.le

/-- If the memory holds another byte there, the constructor looks for SSTables that were never
written, and throws. -/
lemma open_closed_eights (h : Holds (db, s) c) (hu : Unrecorded (db, s))
    (hlt : totalSize db.tables + 4 < 2 ^ 31)
    (hid : ∀ p ∈ db.tableManagers, p.2.currentSstableId < 2 ^ 32) (hne : db.tableManagers ≠ []) :
    ∃ e s', «open» db.basePath (closed (db, s) (fun _ => 8)) = .error e s' := by
  obtain hnil | ⟨init, ⟨name, tm⟩, hlast⟩ := List.eq_nil_or_concat' db.tableManagers
  · exact absurd hnil hne
  obtain ⟨s₁, hopen, hfiles, hwrites, hfill⟩ := open_closed_buffer (s := s) hlast hlt (fun _ => 8)
  have hmem : (name, tm) ∈ db.tableManagers := by simp [hlast]
  obtain ⟨schema, store, hm⟩ := h.exists_managed (name, tm) hmem
  have hunfilled : unfilled (totalSize db.tables) (fun _ => 8) = [8, 8, 8, 8] := rfl
  obtain ⟨n, hnumber⟩ := exists_garbled_eights hm (hid (name, tm) hmem)
  have hstorable := storable_garbled hm.storable [8, 8, 8, 8]
  have hname : (garbled (entry (name, tm)) [8, 8, 8, 8]).name = name := rfl
  have hsize := size_garbled (entry (name, tm)) [8, 8, 8, 8]
  rw [hunfilled] at hopen
  generalize garbled (entry (name, tm)) [8, 8, 8, 8] = last at *
  have htables : db.tables = init.map entry ++ [entry (name, tm)] := by
    rw [tables_eq, hlast, List.map_append, List.map_singleton]
  have hlen : ((init.map entry ++ [last]).flatMap Table.encode).length = totalSize db.tables := by
    rw [length_flatMap_encode, htables, totalSize_snoc, totalSize_snoc, hsize]
  have hbuf : (init.map entry ++ [last]).flatMap Table.encode =
      [] ++ ((init.map entry).flatMap Table.encode ++ last.encode) := by
    rw [List.nil_append, List.flatMap_append, List.flatMap_singleton]
  have hinit := length_flatMap_encode (init.map entry)
  have hcount := length_le_totalSize (init.map entry)
  have hpos := last.le_size
  have htotal : totalSize db.tables = totalSize (init.map entry) + last.size := by
    rw [htables, totalSize_snoc, hsize]
  rw [List.length_map] at hcount
  obtain ⟨r, hr⟩ : ∃ r, totalSize db.tables = init.length + (r + 1) :=
    ⟨totalSize db.tables - init.length - 1, by omega⟩
  have hsorted := sorted_iff.mp h.sorted
  rw [hlast, List.map_append, List.pairwise_append] at hsorted
  obtain ⟨s₂, hload, hfiles₂, hwrites₂, hfill₂⟩ := loadTables_reloadable db.basePath
    (totalSize db.tables) (r + 1) ((init.map entry ++ [last]).flatMap Table.encode) last.encode
    (by omega) hlen init (fun p hp => (hid p (by simp [hlast, hp])).trans (by norm_num)) [] []
    (fun p hp => h.reloadable_closed hfiles p (by simp [hlast, hp])) hbuf
    (by simpa using hsorted.1)
  have hread := last.reads_from hstorable ⟨(init.map entry ++ [last]).flatMap Table.encode,
    ([] : List UInt8).length + ((init.map entry).flatMap Table.encode).length⟩ []
    (by simp [MemoryBuffer.size]) (by simp only [MemoryBuffer.size]; omega) (by simp)
  have hfiles' : s₂.files = (closed (db, s) (fun _ => 8)).files := hfiles₂.trans hfiles
  obtain ⟨t, hst⟩ := (hm.closed db (fun _ => 8)).summaryStored
  obtain ⟨e, s₃, hmiss⟩ := loadSummaries_missing db.basePath name
    n tm.summaries 0 (s := s₂) (by
      intro j summary hj
      rw [hfiles', Nat.zero_add]
      exact hst j summary hj) (by
      rw [hfiles', Nat.zero_add]
      exact summary_missing h hu hmem (fun _ => 8)) (hfill₂ 8 (hfill 8 (fun _ => rfl)))
  refine ⟨e, s₃, ?_⟩
  rw [← hnumber, ← hname] at hmiss
  rw [← hr, loadTables_error r (by simp only [List.length_nil]; omega) hread _ hmiss] at hload
  rw [hopen]
  exact bind_of_error hload

/-- The contents without what is in the memtables. -/
def Contents.forget (c : Contents) : Contents := fun name => (c name).map (fun p => (p.1, p.2.forget))

/-- A database that is opened again has the contents of its SSTables. -/
lemma Holds.reopen (h : Holds (db, s) c) {heap : Nat → UInt8} {s' : Posix Path}
    (hfiles : s'.files = (closed (db, s) heap).files) (hwrites : s'.writes = s.writes) :
    Holds (⟨db.basePath, db.tableManagers.map (fun p => (p.1, reopened p.2))⟩, s') c.forget := by
  have hw : s'.WritesSucceed := by
    intro i
    rw [hwrites]
    exact h.succeed i
  have hnames : (db.tableManagers.map (fun p => (p.1, reopened p.2))).map Prod.fst =
      db.tableManagers.map Prod.fst := by
    rw [List.map_map]
    rfl
  refine ⟨hw, ?_, ?_, ?_⟩
  · rw [sorted_iff, hnames]
    exact sorted_iff.mp h.sorted
  · intro p hp
    obtain ⟨q, hq, rfl⟩ := List.mem_map.mp hp
    obtain ⟨schema, store, hc, hm⟩ := h.tables q hq
    refine ⟨schema, store.forget, by simp [Contents.forget, hc], ?_⟩
    exact ((hm.closed db heap).congr hw (fun _ _ _ => by rw [hfiles])).reopen
  · intro name hname
    rw [hnames] at hname
    simp [Contents.forget, h.others name hname]

/-- What a database reads after it has been destroyed and constructed again is what it read
before. The new one finds the given memory. -/
def Survives (st : Database × Posix Path) (heap : Nat → UInt8) : Prop :=
  ∃ s', flushMetadata st.1 st.2 = .ok () s' ∧ ∃ db' s'',
    «open» st.1.basePath { s' with heap := heap } = .ok db' s'' ∧
    ∀ name key, (∀ tm, (name, tm) ∈ st.1.tableManagers → tm.schema.HasSortKey key.type) →
      outcome (db'.readRecord name key) s'' = outcome (st.1.readRecord name key) st.2

/-- Every record in a memtable is what the SSTables give under its key. -/
def Contents.NothingPending (c : Contents) : Prop :=
  ∀ name schema store, c name = some (schema, store) → ∀ key record,
    store.top key = some record → LayeredStore.newest store.frozen key = some record

lemma Holds.hasSortKey (h : Holds (db, s) c) {key : Data}
    (hkey : ∀ tm, (name, tm) ∈ db.tableManagers → tm.schema.HasSortKey key.type)
    (hc : c name = some (schema, store)) : schema.HasSortKey key.type := by
  by_cases hname : name ∈ db.tableManagers.map Prod.fst
  · obtain ⟨tm, hmem⟩ := exists_table hname
    obtain ⟨schema', store', hc', hm⟩ := h.managed hmem
    rw [hc, Option.some.injEq, Prod.mk.injEq] at hc'
    have hsame : tm.schema = schema' := hm.sameSchema
    rw [hc'.1, ← hsame]
    exact hkey tm hmem
  · rw [h.others name hname] at hc
    cases hc

/-- A record in a memtable stands under a key of the type of the sort key. -/
lemma Holds.hasSortKey_of_top (h : Holds (db, s) c) (hc : c name = some (schema, store)) {key : Data}
    {record : Record} (htop : store.top key = some record) :
    ∀ tm, (name, tm) ∈ db.tableManagers → tm.schema.HasSortKey key.type := by
  intro tm hmem
  obtain ⟨schema', store', hc', hm⟩ := h.managed hmem
  rw [hc, Option.some.injEq, Prod.mk.injEq] at hc'
  obtain ⟨rfl, rfl⟩ := hc'
  obtain ⟨t, hkey, -, hrep⟩ := hm.represents
  rw [hrep.top] at htop
  obtain ⟨l₁, l₂, hsplit, -⟩ := List.lookup_eq_some_iff.mp htop
  have htype : key.type = t := hrep.memtable.keysIn (key, record) (by
    rw [hsplit]
    simp)
  have hsame : tm.schema = schema := hm.sameSchema
  rw [htype, hsame]
  exact hkey

/-- With the right bytes in memory a shutdown is not seen exactly when nothing is pending. -/
lemma survives_zero_iff (h : Holds (db, s) c) (hu : Unrecorded (db, s))
    (hlt : totalSize db.tables + 4 < 2 ^ 31)
    (hid : ∀ p ∈ db.tableManagers, p.2.currentSstableId < 2 ^ 32) {heap : Nat → UInt8}
    (hzero : unfilled (totalSize db.tables) heap = [0, 0, 0, 0]) :
    Survives (db, s) heap ↔ c.NothingPending := by
  obtain ⟨s'', hopen, hfiles, hwrites⟩ := open_closed h hlt hid hzero
  have hafter := h.reopen hfiles hwrites
  have hflush := flushMetadata_closed h hu hlt
  constructor
  · rintro ⟨s', hrun, db', s₂, hok, hreads⟩ name schema store hc key record htop
    rw [hflush, EStateM.Result.ok.injEq] at hrun
    obtain ⟨-, rfl⟩ := hrun
    have hsame := hopen.symm.trans hok
    rw [EStateM.Result.ok.injEq] at hsame
    obtain ⟨rfl, rfl⟩ := hsame
    have hkey := h.hasSortKey_of_top hc htop
    have hread := hreads name key hkey
    rw [readRecord_holds h name key (fun schema' store' => h.hasSortKey hkey),
      readRecord_holds hafter name key (by
        intro schema' store' hc'
        rw [Contents.forget, hc, Option.map_some, Option.some.injEq, Prod.mk.injEq] at hc'
        rw [← hc'.1]
        exact h.hasSortKey hkey hc)] at hread
    simp only [Contents.read, Contents.forget, hc, Option.map_some] at hread
    exact (LayeredStore.read_forget_eq_iff store key).mp (TableManager.found_inj.mp hread) record htop
  · intro hpending
    refine ⟨_, hflush, _, s'', hopen, fun name key hkey => ?_⟩
    rw [readRecord_holds h name key (fun schema' store' => h.hasSortKey hkey),
      readRecord_holds hafter name key (by
        intro schema' store' hc'
        rw [Contents.forget, Option.map_eq_some_iff] at hc'
        obtain ⟨⟨schema, store⟩, hc, heq⟩ := hc'
        rw [Prod.mk.injEq] at heq
        rw [← heq.1]
        exact h.hasSortKey hkey hc)]
    cases hc : c name with
    | none => simp [Contents.read, Contents.forget, hc]
    | some p =>
      obtain ⟨schema, store⟩ := p
      simp only [Contents.read, Contents.forget, hc, Option.map_some]
      rw [TableManager.found_inj, LayeredStore.read_forget_eq_iff]
      exact hpending name schema store hc key

/-- Without tables nothing can be lost. -/
lemma survives_nil (h : Holds (db, s) c) (hu : Unrecorded (db, s)) (hnil : db.tableManagers = [])
    (heap : Nat → UInt8) : Survives (db, s) heap := by
  have htables : db.tables = [] := by rw [tables, hnil, List.map_nil]
  have hflush := flushMetadata_closed h hu (by simp [htables, totalSize])
  have hf : (closed (db, s) heap).files (.metadata db.basePath) = some (metadataFile db.tables) :=
    Function.update_self ..
  obtain ⟨s', hopen, -⟩ := open_empty hf (.inl (by simp [htables, metadataFile, totalSize]))
  refine ⟨_, hflush, _, s', hopen, fun name key _ => ?_⟩
  simp only [readRecord, hnil]
  rfl

lemma not_survives_eights (h : Holds (db, s) c) (hu : Unrecorded (db, s))
    (hlt : totalSize db.tables + 4 < 2 ^ 31)
    (hid : ∀ p ∈ db.tableManagers, p.2.currentSstableId < 2 ^ 32) (hne : db.tableManagers ≠ []) :
    ¬ Survives (db, s) (fun _ => 8) := by
  rintro ⟨s', hrun, db', s'', hok, -⟩
  obtain ⟨e, s₂, hopen⟩ := open_closed_eights h hu hlt hid hne
  rw [flushMetadata_closed h hu hlt, EStateM.Result.ok.injEq] at hrun
  obtain ⟨-, rfl⟩ := hrun
  have hboth := hopen.symm.trans hok
  cases hboth

end Reopen

/-! ### Runs from an empty directory -/

/-- A directory without tables: the metadata file is missing or empty, and there are no
summaries. -/
structure Fresh (base : List UInt8) (s : Posix Path) : Prop where
  succeed : s.WritesSucceed
  metadata : (s.files (.metadata base)).getD [] = []
  summaries : ∀ table i, s.files (.summary base table i) = none

lemma Fresh.holds (h : Fresh base s) {db : Database} {s' : Posix Path}
    (hopen : «open» base s = .ok db s') :
    db = ⟨base, []⟩ ∧ Holds (db, s') (fun _ => none) ∧ Unrecorded (db, s') := by
  obtain ⟨s₁, hrun, hfiles, hwrites⟩ := open_fresh h.metadata
  have hsame := hrun.symm.trans hopen
  rw [EStateM.Result.ok.injEq] at hsame
  obtain ⟨rfl, rfl⟩ := hsame
  refine ⟨rfl, ⟨?_, by simp [OrderedMap.Sorted], by simp, fun _ _ => rfl⟩, ?_, fun name i _ => ?_⟩
  · intro i
    rw [hwrites]
    exact h.succeed i
  · rw [hfiles]
    exact Function.update_self ..
  · rw [hfiles, Function.update_of_ne (by simp)]
    exact h.summaries name i

/-- After every run the database survives a clean shutdown, whatever the memory holds, exactly
when no table has been created. If the memory holds zeros where the metadata file ends, it
survives exactly when every record in a memtable is also in the newest SSTable with its key. -/
theorem survives_iff (hfresh : Fresh base s) {db : Database} {s₀ : Posix Path}
    (hopen : «open» base s = .ok db s₀) {ops : List Op} (hfits : ∀ op ∈ ops, op.Fits)
    (hlt : totalSize (runAll ops (db, s₀)).1.tables + 4 < 2 ^ 31)
    (hid : ∀ p ∈ (runAll ops (db, s₀)).1.tableManagers, p.2.currentSstableId < 2 ^ 32) :
    ((∀ heap, Survives (runAll ops (db, s₀)) heap) ↔
        ∀ name schema, Op.createTable name schema ∉ ops) ∧
      ∀ heap, unfilled (totalSize (runAll ops (db, s₀)).1.tables) heap = [0, 0, 0, 0] →
        (Survives (runAll ops (db, s₀)) heap ↔ (Contents.ofOps ops).NothingPending) := by
  obtain ⟨rfl, hholds, hun⟩ := hfresh.holds hopen
  have hafter := runAll_holds hholds ops hfits
  have hun' := runAll_unrecorded hholds hun ops hfits
  refine ⟨?_, fun heap hzero => survives_zero_iff hafter hun' hlt hid hzero⟩
  rw [← tableManagers_eq_nil_iff base s₀]
  constructor
  · intro hall
    by_contra hne
    exact not_survives_eights hafter hun' hlt hid hne (hall (fun _ => 8))
  · intro hnil heap
    exact survives_nil hafter hun' hnil heap

/-- A new table with one record. -/
def pendingOps : List Op :=
  [.createTable [116] TableManager.intPairs, .writeRecord [116] ⟨[.int 1, .int 10]⟩]

lemma pendingOps_fits : ∀ op ∈ pendingOps, op.Fits := by
  intro op hop
  rcases List.mem_cons.mp hop with rfl | hop
  · exact ⟨⟨⟨.int, 4⟩, ⟨_, rfl, rfl⟩, by decide⟩, by decide, by decide, by decide, by decide⟩
  · rw [List.mem_singleton.mp hop]
    intro v hv
    simp only [List.mem_cons, List.not_mem_nil, or_false] at hv
    rcases hv with rfl | rfl
    · exact True.intro
    · exact True.intro

lemma fresh_start (base : List UInt8) (heap : Nat → UInt8) : Fresh base (Posix.start heap) :=
  ⟨Posix.writesSucceed_start heap, rfl, fun _ _ => rfl⟩

def pendingDb : Database := ⟨[47], [([116], { TableManager.new [47] [116] TableManager.intPairs [] with
  memtable := [(.int 1, ⟨[.int 1, .int 10]⟩)] })]⟩

lemma runAll_pendingOps (s : Posix Path) : runAll pendingOps (⟨[47], []⟩, s) = (pendingDb, s) := rfl

lemma pendingDb_ids : ∀ p ∈ pendingDb.tableManagers, p.2.currentSstableId < 2 ^ 32 := by
  simp [pendingDb, TableManager.new]

lemma not_nothingPending : ¬ (Contents.ofOps pendingOps).NothingPending := by
  intro h
  have hnew := h [116] TableManager.intPairs (LayeredStore.empty.write 2 (.int 1) ⟨[.int 1, .int 10]⟩)
    rfl (.int 1) ⟨[.int 1, .int 10]⟩ (by decide)
  revert hnew
  decide

theorem survives_iff_pendingOps : ∃ s₀, «open» [47] (Posix.start (fun _ => 0)) = .ok ⟨[47], []⟩ s₀ ∧
    (Survives (runAll pendingOps (⟨[47], []⟩, s₀)) (fun _ => 0) ↔
      (Contents.ofOps pendingOps).NothingPending) := by
  obtain ⟨s₀, hopen, -⟩ := open_fresh (fresh_start [47] (fun _ => 0)).metadata
  refine ⟨s₀, hopen, (survives_iff (fresh_start [47] (fun _ => 0)) hopen pendingOps_fits ?_ ?_).2
    (fun _ => 0) rfl⟩
  · change totalSize pendingDb.tables + 4 < 2 ^ 31
    decide
  · exact pendingDb_ids

/-- A record that was written is gone after a clean shutdown. -/
theorem not_survives_pending : ∃ s₀, «open» [47] (Posix.start (fun _ => 0)) = .ok ⟨[47], []⟩ s₀ ∧
    outcome ((runAll pendingOps (⟨[47], []⟩, s₀)).1.readRecord [116] (.int 1))
      (runAll pendingOps (⟨[47], []⟩, s₀)).2 = .ok ⟨[.int 1, .int 10]⟩ ∧
    ¬ Survives (runAll pendingOps (⟨[47], []⟩, s₀)) (fun _ => 0) := by
  obtain ⟨s₀, hopen, -⟩ := open_fresh (fresh_start [47] (fun _ => 0)).metadata
  obtain ⟨-, hholds, hun⟩ := (fresh_start [47] (fun _ => 0)).holds hopen
  have hholds' := runAll_holds hholds pendingOps pendingOps_fits
  have hun' := runAll_unrecorded hholds hun pendingOps pendingOps_fits
  rw [runAll_pendingOps] at hholds' hun'
  refine ⟨s₀, hopen, rfl, fun h => ?_⟩
  rw [runAll_pendingOps] at h
  exact not_nothingPending ((survives_zero_iff hholds' hun' (by decide) pendingDb_ids rfl).mp h)

end Database

end Dibibase
