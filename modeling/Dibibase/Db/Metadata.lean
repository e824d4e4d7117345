import Dibibase.Db.Database

/-!
# The metadata file

What the constructor of a database reads back from the metadata file that the destructor
writes. The writer leaves out the last four bytes, which belong to the SSTable number of
the last table, and the reader takes them from uninitialised memory.
-/

namespace Dibibase

open Library

lemma ordersOn_nameLt : OrdersOn nameLt Set.univ :=
  OrdersOn.ofLe id (fun a b => stringLe b a) (fun a b => stringLe_total b a)
    (fun a b hab hba => stringLe_antisymm a b hba hab)
    (fun a b c hab hbc => stringLe_trans c b a hbc hab) (fun _ _ _ _ h => h) (fun _ _ _ _ => rfl)

namespace Database

lemma length_flatMap_encode (ts : List Table) : (ts.flatMap Table.encode).length = totalSize ts := by
  rw [List.length_flatMap, totalSize]
  congr 1
  exact List.map_congr_left (fun t _ => t.length_encode)

/-- The catalog entry of a table manager. -/
def entry (p : List UInt8 × TableManager) : Table :=
  ⟨p.1, p.2.schema, BitVec.ofNat 64 p.2.currentSstableId⟩

lemma tables_eq (db : Database) : db.tables = db.tableManagers.map entry := rfl

/-! ### Reading the tables back -/

lemma loadSummaries_length {base table : List UInt8} (n : Nat) {i : Nat} {s s' : Posix Path}
    {summaries : List Summary} (h : loadSummaries base table i n s = .ok summaries s') :
    summaries.length = n := by
  induction n generalizing i s summaries s' with
  | zero =>
    cases h
    rfl
  | succ n ih =>
    rw [loadSummaries] at h
    obtain ⟨summary, s₁, -, h⟩ := bind_eq_ok h
    obtain ⟨rest, s₂, hrest, h⟩ := bind_eq_ok h
    cases h
    rw [List.length_cons, ih hrest]

lemma entry_new (base : List UInt8) (t : Table) {summaries : List Summary}
    (h : summaries.length = t.lastSstableId.toNat) :
    entry (t.name, TableManager.new base t.name t.schema summaries) = t := by
  simp [entry, TableManager.new, h]

/-- What one round of the constructor's loop does when the loop returns. -/
lemma loadTables_eq_ok {base : List UInt8} {length rounds : Nat} {buffer : MemoryBuffer}
    {acc tms : List (List UInt8 × TableManager)} {s s' : Posix Path}
    (hoff : buffer.offset < length)
    (h : loadTables base length (rounds + 1) buffer acc s = .ok tms s') :
    ∃ t buffer' summaries acc' s₁, Table.from buffer = .ok (t, buffer') ∧
      loadSummaries base t.name 0 t.lastSstableId.toNat s = .ok summaries s₁ ∧
      OrderedMap.insert nameLt t.name (TableManager.new base t.name t.schema summaries) acc =
        .ok acc' ∧
      loadTables base length rounds buffer' acc' s₁ = .ok tms s' := by
  rw [loadTables, if_pos hoff] at h
  obtain ⟨⟨t, buffer'⟩, hread, h⟩ := Process.ofExcept_bind_eq_ok h
  obtain ⟨summaries, s₁, hload, h⟩ := bind_eq_ok h
  obtain ⟨acc', hins, h⟩ := Process.ofExcept_bind_eq_ok h
  exact ⟨t, buffer', summaries, acc', s₁, hread, hload, hins, h⟩

/-- The loop ends where the buffer does. -/
lemma loadTables_end {base : List UInt8} (length rounds : Nat) {buffer : MemoryBuffer}
    (hoff : length ≤ buffer.offset) (acc : List (List UInt8 × TableManager)) (s : Posix Path) :
    loadTables base length rounds buffer acc s = .ok acc s := by
  cases rounds with
  | zero => rfl
  | succ rounds =>
    rw [loadTables, if_neg (by omega)]
    rfl

/-- The tables whose encodings follow each other in the buffer, in the order of their names,
are the tables of the map, if the constructor does not throw. -/
lemma loadTables_entries {base : List UInt8} (ts : List Table) (hstorable : ∀ t ∈ ts, t.Storable)
    (rounds : Nat) (front : List UInt8) (tms : List (List UInt8 × TableManager)) (s : Posix Path)
    (hrounds : ts.length ≤ rounds)
    (hsize : (front ++ ts.flatMap Table.encode).length < 2 ^ 31)
    (hsorted : (tms.map Prod.fst ++ ts.map Table.name).Pairwise (fun a b => nameLt a b = .ok true))
    {tms' : List (List UInt8 × TableManager)} {s' : Posix Path}
    (h : loadTables base (front ++ ts.flatMap Table.encode).length rounds
      ⟨front ++ ts.flatMap Table.encode, front.length⟩ tms s = .ok tms' s') :
    tms'.map entry = tms.map entry ++ ts := by
  induction ts generalizing rounds front tms s with
  | nil =>
    rw [loadTables_end _ _ (by simp)] at h
    cases h
    simp
  | cons t ts ih =>
    have hpos := t.le_size
    have hlength := t.length_encode
    cases rounds with
    | zero => simp at hrounds
    | succ rounds =>
      obtain ⟨t', buffer', summaries, tms₁, s₁, hfrom, hload, hins, h⟩ :=
        loadTables_eq_ok (by simp; omega) h
      have hread := t.reads_from (hstorable t (by simp))
        ⟨front ++ (t :: ts).flatMap Table.encode, front.length⟩ (ts.flatMap Table.encode)
        (by simp [MemoryBuffer.size]) (by simpa [MemoryBuffer.size] using hsize) (by simp)
      rw [hread] at hfrom
      cases hfrom
      -- The table is behind those that the map has already.
      have hbefore : ∀ p ∈ tms, nameLt p.1 t.name = .ok true := by
        intro p hp
        exact (List.pairwise_append.mp hsorted).2.2 p.1 (List.mem_map_of_mem hp) t.name (by simp)
      rw [OrderedMap.insert_of_after _ _ tms hbefore] at hins
      cases hins
      have hsplit : front ++ (t :: ts).flatMap Table.encode =
          (front ++ t.encode) ++ ts.flatMap Table.encode := by simp
      have hfront : front.length + t.encode.length = (front ++ t.encode).length := by simp
      dsimp only at h
      rw [hsplit, hfront] at h
      rw [hsplit] at hsize
      have hrest := ih (fun t ht => hstorable t (by simp [ht])) rounds (front ++ t.encode)
        (tms ++ [(t.name, TableManager.new base t.name t.schema summaries)]) s₁
        (by simpa using hrounds) hsize (by simpa using hsorted) h
      rw [hrest, List.map_append, List.map_singleton, entry_new base t (loadSummaries_length _ hload)]
      simp

/-- The tables that the constructor makes are not larger than its buffer. -/
lemma loadTables_totalSize {base : List UInt8} {length : Nat} (hlength : length < 2 ^ 32)
    (rounds : Nat) (buffer : MemoryBuffer) (tms : List (List UInt8 × TableManager))
    (s : Posix Path) (hsize : buffer.size = length) (hoff : buffer.offset ≤ buffer.size)
    (htotal : totalSize (tms.map entry) ≤ buffer.offset)
    {tms' : List (List UInt8 × TableManager)} {s' : Posix Path}
    (h : loadTables base length rounds buffer tms s = .ok tms' s') :
    totalSize (tms'.map entry) ≤ length := by
  induction rounds generalizing buffer tms s with
  | zero =>
    cases h
    omega
  | succ rounds ih =>
    by_cases hlt : buffer.offset < length
    · obtain ⟨t, buffer', summaries, tms₁, s₁, hread, hload, hins, h⟩ := loadTables_eq_ok hlt h
      obtain ⟨hsize', hlow, hhigh⟩ := Table.consumes_from buffer t buffer' (by omega) hoff hread
      refine ih buffer' tms₁ s₁ (by omega) (by omega) ?_ h
      -- The new entry is as large as the table that was read.
      have hentry := entry_new base t (loadSummaries_length _ hload)
      rcases OrderedMap.insert_cases hins with rfl | ⟨l, r, rfl, rfl⟩
      · omega
      · simp only [totalSize, List.map_append, List.map_cons, List.sum_append,
          List.sum_cons, hentry] at htotal ⊢
        omega
    · rw [loadTables_end _ _ (by omega)] at h
      cases h
      omega

/-! ### Opening the file -/

section Open

variable {base content : List UInt8} {s : Posix Path}

/-- What the constructor finds in its buffer: the file behind the length, and the old
contents of the memory where the file is too short. -/
def metadataBuffer (content : List UInt8) (heap : Nat → UInt8) : List UInt8 :=
  let length := leValue (content.take 4)
  (content.drop 4).take length ++
    ((List.range length).map heap).drop ((content.drop 4).take length).length

lemma length_metadataBuffer (content : List UInt8) (heap : Nat → UInt8) :
    (metadataBuffer content heap).length = leValue (content.take 4) := by
  simp only [metadataBuffer, List.length_append, List.length_take, List.length_drop, List.length_map,
    List.length_range]
  omega

/-- The constructor reads the length and then the tables. -/
lemma open_tables (hf : s.files (.metadata base) = some content) (hlen : 4 ≤ content.length)
    (hpos : leValue (content.take 4) ≠ 0) :
    ∃ s', «open» base s = (do
        let tableManagers ← loadTables base (leValue (content.take 4)) (leValue (content.take 4))
          (MemoryBuffer.ofBytes (metadataBuffer content s.heap)) []
        return ⟨base, tableManagers⟩ : Process Database) s' ∧
      s'.files = s.files ∧ s'.writes = s.writes ∧
      (s'.heap = fun i => s.heap (leValue (content.take 4) + i)) ∧
      s'.descriptors = s.descriptors := by
  have htake : (content.take 4).length = 4 := by
    rw [List.length_take]
    omega
  have hlookup : ∀ fd f (ds : List (Nat × OpenFile Path)), List.lookup fd ((fd, f) :: ds) = some f := by
    simp
  rw [«open», bind_of_ok (Posix.openFile_existing hf true)]
  simp only [Posix.read, Posix.readNew, Posix.newBytes, Posix.close, Bind.bind, EStateM.bind,
    Option.bind_some, hlookup, hf, Option.getD_some, List.drop_zero, Posix.setPosition_cons, if_true,
    htake, ne_eq, not_true_eq_false, hpos, or_self, if_false, Pure.pure, EStateM.pure, Nat.zero_add]
  refine ⟨_, rfl, rfl, rfl, rfl, ?_⟩
  have hfresh := Posix.lowestUnused_notMem (s.descriptors.map Prod.fst)
  have hkeep := Posix.filter_of_notMem _ s.descriptors hfresh
  rw [Posix.setPosition_of_notMem _ _ _ hfresh, Posix.setPosition_of_notMem _ _ _ hfresh]
  simpa using hkeep

/-- Without a length there are no tables. -/
lemma open_empty (hf : s.files (.metadata base) = some content)
    (hshort : content.length < 4 ∨ leValue (content.take 4) = 0) :
    ∃ s', «open» base s = .ok ⟨base, []⟩ s' ∧ s'.files = s.files ∧ s'.writes = s.writes ∧
      s'.heap = s.heap := by
  have hcond : (content.take 4).length ≠ 4 ∨ leValue (content.take 4) = 0 := by
    rcases hshort with hshort | hshort
    · left
      rw [List.length_take]
      omega
    · exact .inr hshort
  rw [«open», bind_of_ok (Posix.openFile_existing hf true)]
  simp only [Posix.read, Bind.bind, EStateM.bind, Option.bind_some, List.lookup_cons_self, hf,
    Option.getD_some, List.drop_zero, Posix.setPosition_cons, if_true, hcond, Pure.pure, EStateM.pure]
  exact ⟨_, rfl, rfl, rfl, rfl⟩

end Open

/-! ### Writing the file -/

section Flush

variable {db : Database} {content : List UInt8} {s : Posix Path}

/-- The first bytes of the buffer are written over the file, and nothing else changes. -/
lemma flushMetadata_ok (hw : s.WritesSucceed)
    (hf : s.files (.metadata db.basePath) = some content) {buf : List UInt8}
    (hbuf : metadataBytes db.tables = .ok buf) :
    flushMetadata db s = .ok () { s with
      files := Function.update s.files (.metadata db.basePath)
        (some (overwrite content 0 (buf.take (totalSize db.tables)))) } := by
  have hfresh := Posix.lowestUnused_notMem (s.descriptors.map Prod.fst)
  set fd := Posix.lowestUnused (s.descriptors.map Prod.fst) with hfd
  have hwrite := Posix.write_executes (ε := Exception) (s := { s with
    descriptors := (fd, ⟨.metadata db.basePath, 0⟩) :: s.descriptors }) hw
    (List.lookup_cons_self (k := fd)) hf (buf.take (totalSize db.tables))
  have hkeep := Posix.filter_of_notMem fd s.descriptors hfresh
  rw [flushMetadata, bind_of_ok (Process.ofExcept_ok hbuf s),
    bind_of_ok (Posix.openFile_existing hf false), bind_of_ok hwrite, Posix.close]
  simp only [← hfd, Posix.setPosition_cons, if_true, Posix.setPosition_of_notMem _ _ _ hfresh,
    List.filter_cons, ne_eq, not_true_eq_false, decide_false, Bool.false_eq_true, if_false]
  simp only [ne_eq] at hkeep
  rw [hkeep]

lemma flushMetadata_error (hbuf : ∀ buf, metadataBytes db.tables ≠ .ok buf) (s' : Posix Path) :
    flushMetadata db s ≠ .ok () s' := by
  intro h
  obtain ⟨buf, hrun, -⟩ := Process.ofExcept_bind_eq_ok h
  exact hbuf buf hrun

/-- A buffer of moderate size holds the length and the tables. -/
lemma metadataBytes_of_lt {ts : List Table} (h : totalSize ts + 4 < 2 ^ 31) :
    metadataBytes ts = .ok (leBytes 4 (totalSize ts) ++ ts.flatMap Table.encode) := by
  have hwrites : Writes (do
      BufferM.putUint32 (BitVec.ofNat 32 (totalSize ts))
      ts.forM Table.bytes) (leBytes 4 (totalSize ts) ++ ts.flatMap Table.encode) := by
    have hmod : leBytes 4 (BitVec.ofNat 32 (totalSize ts)).toNat = leBytes 4 (totalSize ts) := by
      rw [BitVec.toNat_ofNat, Nat.mod_eq_of_lt (by omega)]
    rw [← hmod]
    exact (Writes.putFixed _).seq (Writes.forM ts (fun t _ => t.writes_bytes))
  have hlen : (leBytes 4 (totalSize ts) ++ ts.flatMap Table.encode).length = totalSize ts + 4 := by
    rw [List.length_append, length_leBytes, length_flatMap_encode]
    omega
  have hserialise := serialise_of_writes hwrites hlen.le h
  rw [hlen, Nat.sub_self, List.replicate_zero, List.append_nil] at hserialise
  exact hserialise

end Flush

end Database

end Dibibase
