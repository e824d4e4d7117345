import Mathlib.Algebra.Order.BigOperators.Group.List
import Dibibase.Db.Metadata

/-!
# The metadata file as an image of the catalog

The constructor rebuilds the catalog from the metadata file only when there are no tables:
of any other catalog the last four bytes are missing in the file, and a catalog of `2 ^ 31`
bytes or more leaves a length that is too small.
-/

namespace Dibibase

open Library

namespace Database

/-- The tables of `ts` are among those of `ts'`, perhaps with other SSTable numbers. -/
def Extends (ts ts' : List Table) : Prop :=
  (ts.map (fun t => (t.name, t.schema))).Sublist (ts'.map (fun t => (t.name, t.schema)))

/-- Contents of the metadata file: an empty file, or one that `flush_metadata` has written
for the tables over an earlier file. -/
inductive Written (base : List UInt8) : List Table → List UInt8 → Prop
  | empty : Written base [] []
  | flush {ts : List Table} {content content' : List UInt8} {db : Database} {s s' : Posix Path}
      (earlier : Written base ts content) (path : db.basePath = base) (succeed : s.WritesSucceed)
      (before : s.files (.metadata base) = some content) (more : Extends ts db.tables)
      (run : flushMetadata db s = .ok () s') (after : s'.files (.metadata base) = some content') :
      Written base db.tables content'

lemma totalSize_snoc (ts : List Table) (t : Table) :
    totalSize (ts ++ [t]) = totalSize ts + t.size := by
  simp [totalSize]

lemma length_le_totalSize (ts : List Table) : ts.length ≤ totalSize ts := by
  induction ts using List.reverseRecOn with
  | nil => simp
  | append_singleton ts t ih =>
    have := t.le_size
    rw [totalSize_snoc, List.length_append, List.length_singleton]
    omega

lemma Extends.totalSize_le {ts ts' : List Table} (h : Extends ts ts') :
    totalSize ts ≤ totalSize ts' := by
  have hsize : ∀ us : List Table, totalSize us = ((us.map (fun t => (t.name, t.schema))).map
      (fun p => 1 + p.1.length + p.2.size + 8)).sum := by
    intro us
    rw [totalSize, List.map_map]
    rfl
  rw [hsize, hsize]
  exact (h.map _).sum_le_sum (fun _ _ => Nat.zero_le _)

lemma metadataBytes_size {ts : List Table} {buf : List UInt8} (h : metadataBytes ts = .ok buf) :
    ∃ b : MemoryBuffer, b.size = totalSize ts + 4 ∧ b.bytes = buf :=
  serialise_keepsSize ((KeepsSize.putFixed _).bind
    (fun _ => KeepsSize.forM ts Table.keepsSize_bytes)) h

/-- A file for fewer tables is not longer, so the new file is what is written now. -/
lemma flushMetadata_content {db : Database} {content buf : List UInt8}
    (hbuf : metadataBytes db.tables = .ok buf) (hlen : content.length ≤ totalSize db.tables) :
    overwrite content 0 (buf.take (totalSize db.tables)) = buf.take (totalSize db.tables) ∧
      (buf.take (totalSize db.tables)).length = totalSize db.tables := by
  have htake : (buf.take (totalSize db.tables)).length = totalSize db.tables := by
    obtain ⟨b, hsize, rfl⟩ := metadataBytes_size hbuf
    rw [List.length_take, b.length_bytes]
    omega
  refine ⟨?_, htake⟩
  rw [overwrite_zero, htake, List.drop_of_length_le hlen, List.append_nil]

lemma Written.length_le {base content : List UInt8} {ts : List Table}
    (h : Written base ts content) : content.length ≤ totalSize ts := by
  induction h with
  | empty => simp
  | flush earlier path succeed before more run after ih =>
    rename_i ts content content' db s s'
    subst path
    cases hbuf : metadataBytes db.tables with
    | error e => exact absurd run (flushMetadata_error (by simp [hbuf]) s')
    | ok buf =>
      have hle := ih.trans more.totalSize_le
      obtain ⟨hover, hlen⟩ := flushMetadata_content hbuf hle
      rw [flushMetadata_ok succeed before hbuf] at run
      cases run
      simp only [Function.update_self, Option.some.injEq] at after
      rw [← after, hover]
      exact hlen.le

/-! ### Catalogs of moderate size -/

/-- The table with the last four bytes of its encoding replaced. -/
def garbled (t : Table) (bytes : List UInt8) : Table :=
  { t with lastSstableId := BitVec.ofNat 64 (leValue (leBytes 4 t.lastSstableId.toNat ++ bytes)) }

lemma size_garbled (t : Table) (bytes : List UInt8) : (garbled t bytes).size = t.size := rfl

lemma name_garbled (t : Table) (bytes : List UInt8) : (garbled t bytes).name = t.name := rfl

lemma storable_garbled {t : Table} (h : t.Storable) (bytes : List UInt8) :
    (garbled t bytes).Storable :=
  ⟨h.name, h.fields, h.fieldNames⟩

/-- The old contents of the last four bytes of the constructor's buffer. -/
def unfilled (length : Nat) (heap : Nat → UInt8) : List UInt8 :=
  (List.range 4).map (fun i => heap (length - 4 + i))

lemma encode_garbled (t : Table) {bytes : List UInt8} (h : bytes.length = 4) :
    (garbled t bytes).encode = t.encode.take (t.size - 4) ++ bytes := by
  have hlen : (leBytes 4 t.lastSstableId.toNat ++ bytes).length = 8 := by simp [h]
  have hbound := leValue_lt (leBytes 4 t.lastSstableId.toNat ++ bytes)
  have hid : leBytes 8 (garbled t bytes).lastSstableId.toNat =
      leBytes 4 t.lastSstableId.toNat ++ bytes := by
    have hback := leBytes_leValue (leBytes 4 t.lastSstableId.toNat ++ bytes)
    rw [hlen] at hback hbound
    rw [garbled, BitVec.toNat_ofNat, Nat.mod_eq_of_lt (by norm_num at hbound ⊢; exact hbound), hback]
  have hsplit : leBytes 8 t.lastSstableId.toNat =
      leBytes 4 t.lastSstableId.toNat ++ leBytes 4 (t.lastSstableId.toNat / 256 ^ 4) :=
    leBytes_add 4 4 _
  -- All but the last four bytes of the encoding.
  have hfront : (leBytes 1 (BitVec.ofNat 8 t.name.length).toNat ++ (t.name ++ (t.schema.encode ++
      leBytes 4 t.lastSstableId.toNat))).length = t.size - 4 := by
    simp only [List.length_append, length_leBytes, Schema.length_encode, Table.size]
    omega
  have hencode : t.encode = (leBytes 1 (BitVec.ofNat 8 t.name.length).toNat ++ (t.name ++
      (t.schema.encode ++ leBytes 4 t.lastSstableId.toNat))) ++
        leBytes 4 (t.lastSstableId.toNat / 256 ^ 4) := by
    rw [Table.encode, hsplit]
    simp only [List.append_assoc]
  rw [hencode, ← hfront, List.take_left, Table.encode, hid]
  simp only [garbled, List.append_assoc]

/-- The bytes that `flush_metadata` writes for a catalog of moderate size. -/
def metadataFile (ts : List Table) : List UInt8 :=
  (leBytes 4 (totalSize ts) ++ ts.flatMap Table.encode).take (totalSize ts)

variable {init : List Table} {last : Table}

lemma metadataFile_eq : metadataFile (init ++ [last]) = leBytes 4 (totalSize (init ++ [last])) ++
    (init.flatMap Table.encode ++ last.encode.take (last.size - 4)) := by
  have hle := last.le_size
  have hinit := length_flatMap_encode init
  have htotal := totalSize_snoc init last
  have hrest : totalSize (init ++ [last]) - 4 - totalSize init = last.size - 4 := by omega
  rw [metadataFile, List.take_append, List.take_of_length_le (by rw [length_leBytes]; omega),
    length_leBytes, List.flatMap_append, List.flatMap_singleton, List.take_append,
    List.take_of_length_le (by omega), hinit, hrest]

/-- The constructor reads every table but the last as it was, and of the last one the bytes
that the file has. -/
lemma metadataBuffer_metadataFile (h : totalSize (init ++ [last]) + 4 < 2 ^ 31)
    (heap : Nat → UInt8) :
    leValue ((metadataFile (init ++ [last])).take 4) = totalSize (init ++ [last]) ∧
      metadataBuffer (metadataFile (init ++ [last])) heap =
        (init ++ [garbled last (unfilled (totalSize (init ++ [last])) heap)]).flatMap
          Table.encode := by
  have hle := last.le_size
  have hinit := length_flatMap_encode init
  have htotal := totalSize_snoc init last
  set T := totalSize (init ++ [last]) with hT
  have hfour : (leBytes 4 T).length = 4 := length_leBytes _ _
  have hhead : leValue ((metadataFile (init ++ [last])).take 4) = T := by
    rw [metadataFile_eq, ← hT, List.take_append_of_le_length hfour.ge,
      List.take_of_length_le hfour.le, leValue_leBytes, Nat.mod_eq_of_lt (by omega)]
  refine ⟨hhead, ?_⟩
  have hrest : (metadataFile (init ++ [last])).drop 4 =
      init.flatMap Table.encode ++ last.encode.take (last.size - 4) := by
    rw [metadataFile_eq, ← hT, List.drop_append_of_le_length hfour.ge,
      List.drop_of_length_le hfour.le, List.nil_append]
  have hlen : (init.flatMap Table.encode ++ last.encode.take (last.size - 4)).length = T - 4 := by
    rw [List.length_append, List.length_take, last.length_encode, hinit]
    omega
  have hheap : ((List.range T).map heap).drop (T - 4) = unfilled T heap := by
    have hsplit : List.range T = List.range (T - 4) ++ (List.range 4).map (fun i => T - 4 + i) := by
      rw [← List.range_add]
      congr 1
      omega
    rw [hsplit, List.map_append, List.drop_append_of_le_length (by simp),
      List.drop_of_length_le (by simp), List.nil_append, List.map_map]
    rfl
  have hfull : (init.flatMap Table.encode ++ last.encode.take (last.size - 4)).take T =
      init.flatMap Table.encode ++ last.encode.take (last.size - 4) :=
    List.take_of_length_le (by omega)
  rw [metadataBuffer, hhead, hrest, hfull, hlen, hheap, List.flatMap_append, List.flatMap_singleton,
    encode_garbled last (by simp [unfilled]), List.append_assoc]

/-- What the constructor finds behind a catalog of moderate size, if it does not throw. -/
lemma open_metadataFile {base : List UInt8} {s : Posix Path}
    (hf : s.files (.metadata base) = some (metadataFile (init ++ [last])))
    (h : totalSize (init ++ [last]) + 4 < 2 ^ 31)
    (hstorable : ∀ t ∈ init ++ [last], t.Storable)
    (hsorted : ((init ++ [last]).map Table.name).Pairwise (fun a b => nameLt a b = .ok true))
    {db : Database} {s' : Posix Path} (hopen : «open» base s = .ok db s') :
    db.tables = init ++ [garbled last (unfilled (totalSize (init ++ [last])) s.heap)] := by
  obtain ⟨hhead, hbuffer⟩ := metadataBuffer_metadataFile h s.heap
  have hle := last.le_size
  have htotal := totalSize_snoc init last
  have hsame := size_garbled last (unfilled (totalSize (init ++ [last])) s.heap)
  have hname := name_garbled last (unfilled (totalSize (init ++ [last])) s.heap)
  have hstorable' := storable_garbled (hstorable last (by simp))
    (unfilled (totalSize (init ++ [last])) s.heap)
  generalize garbled last (unfilled (totalSize (init ++ [last])) s.heap) = last' at *
  have hlen : (metadataFile (init ++ [last])).length = totalSize (init ++ [last]) := by
    rw [metadataFile, List.length_take, List.length_append, length_leBytes, length_flatMap_encode]
    omega
  obtain ⟨s₁, hrun, -⟩ := open_tables hf (by omega) (by omega)
  rw [hhead, hbuffer] at hrun
  rw [hrun] at hopen
  have hsize : ((init ++ [last']).flatMap Table.encode).length = totalSize (init ++ [last]) := by
    rw [length_flatMap_encode, totalSize_snoc, htotal, hsame]
  rw [← hsize] at hopen
  obtain ⟨tms, s₂, hload, hopen⟩ := bind_eq_ok hopen
  cases hopen
  have hcount : (init ++ [last']).length ≤ ((init ++ [last']).flatMap Table.encode).length := by
    rw [length_flatMap_encode]
    exact length_le_totalSize _
  have hnames : (init ++ [last']).map Table.name = (init ++ [last]).map Table.name := by
    simp [hname]
  have hall : ∀ t ∈ init ++ [last'], t.Storable := by
    intro t ht
    rcases List.mem_append.mp ht with ht | ht
    · exact hstorable t (by simp [ht])
    · rw [List.mem_singleton.mp ht]
      exact hstorable'
  exact loadTables_entries (init ++ [last']) hall _ [] [] s₁ hcount (by
    rw [List.nil_append, hsize]
    omega) (by simpa [hnames] using hsorted) hload

/-! ### Catalogs of any size -/

/-- At most three bytes of a buffer between `2 ^ 31` and `2 ^ 32 + 3` bytes are copied. -/
lemma toNat_toInt_le_three {n : Nat} (hge : 2 ^ 31 ≤ n) (hlt : n < 2 ^ 32 + 4) :
    (toInt n).toNat ≤ 3 := by
  unfold toInt Int.bmod
  dsimp only
  split <;> omega

/-- The length that a catalog of `2 ^ 31` bytes or more leaves in the file is too small. -/
lemma leValue_lt_totalSize {ts : List Table} {buf : List UInt8} (hbuf : metadataBytes ts = .ok buf)
    (h : 2 ^ 31 ≤ totalSize ts + 4) : leValue (buf.take 4) < totalSize ts := by
  obtain ⟨b, hsize, rfl⟩ := metadataBytes_size hbuf
  have hbound := leValue_lt (b.bytes.take 4)
  have htake : (b.bytes.take 4).length = 4 := by
    rw [List.length_take, b.length_bytes]
    omega
  rw [htake] at hbound
  rcases Nat.lt_or_ge (totalSize ts) (2 ^ 32) with hlt | hge
  · -- The bytes that are not copied are zero.
    have hcopied := toNat_toInt_le_three (n := b.size) (by omega) (by omega)
    have hfirst : b.bytes.take 4 = b.buf.take (toInt b.size).toNat ++
        List.replicate (4 - (toInt b.size).toNat) 0 := by
      have hlong : 4 ≤ b.buf.length := by
        simp only [MemoryBuffer.size] at hsize
        omega
      have hbytes : b.bytes = b.buf.take (toInt b.size).toNat ++
          List.replicate (b.buf.length - (toInt b.size).toNat) 0 := rfl
      generalize (toInt b.size).toNat = c at *
      rw [hbytes, List.take_append, List.length_take, Nat.min_eq_left (by omega),
        List.take_of_length_le (by rw [List.length_take]; omega), List.take_replicate,
        Nat.min_eq_left (by omega)]
    have hsmall := leValue_lt (b.buf.take (toInt b.size).toNat)
    have hpow : 256 ^ (b.buf.take (toInt b.size).toNat).length ≤ 256 ^ 3 := by
      apply Nat.pow_le_pow_right (by norm_num)
      rw [List.length_take]
      omega
    rw [hfirst, leValue_append, leValue_replicate_zero, Nat.mul_zero, Nat.add_zero]
    omega
  · omega

/-- A constructor that finds a smaller length makes smaller tables. -/
lemma totalSize_le_of_open {base content : List UInt8} {s : Posix Path}
    (hf : s.files (.metadata base) = some content) {db : Database} {s' : Posix Path}
    (hopen : «open» base s = .ok db s') : totalSize db.tables ≤ leValue (content.take 4) := by
  by_cases hshort : content.length < 4 ∨ leValue (content.take 4) = 0
  · obtain ⟨s₁, hrun, -⟩ := open_empty hf hshort
    rw [hrun] at hopen
    cases hopen
    simp [tables, totalSize]
  · obtain ⟨hlen, hpos⟩ := not_or.mp hshort
    obtain ⟨s₁, hrun, -⟩ := open_tables hf (by omega) hpos
    rw [hrun] at hopen
    have hbound := leValue_lt (content.take 4)
    have htake : (content.take 4).length = 4 := by
      rw [List.length_take]
      omega
    rw [htake] at hbound
    have hbuffer : (MemoryBuffer.ofBytes (metadataBuffer content s.heap)).size =
        leValue (content.take 4) := length_metadataBuffer content s.heap
    generalize leValue (content.take 4) = length at *
    obtain ⟨tms, s₂, hload, hopen⟩ := bind_eq_ok hopen
    cases hopen
    exact loadTables_totalSize (by norm_num at hbound ⊢; exact hbound) _ _ _ _ hbuffer
      (Nat.zero_le _) (by simp [totalSize]) hload

/-! ### The image -/

/-- The destructor leaves a file from which the constructor rebuilds the same tables,
whatever its memory held before. -/
def Rebuilds (db : Database) (s : Posix Path) : Prop :=
  ∃ s', flushMetadata db s = .ok () s' ∧ ∀ heap, ∃ db' s'',
    «open» db.basePath { s' with heap := heap } = .ok db' s'' ∧ db'.tables = db.tables

section Image

variable {db : Database} {earlier : List Table} {content : List UInt8} {s : Posix Path}

/-- The destructor leaves the first bytes of its buffer and nothing of the earlier file. -/
lemma flushMetadata_leaves (hw : s.WritesSucceed) (hwritten : Written db.basePath earlier content)
    (hmore : Extends earlier db.tables) (hf : s.files (.metadata db.basePath) = some content)
    {s' : Posix Path} (hrun : flushMetadata db s = .ok () s') :
    ∃ buf, metadataBytes db.tables = .ok buf ∧
      s'.files (.metadata db.basePath) = some (buf.take (totalSize db.tables)) := by
  cases hbuf : metadataBytes db.tables with
  | error e => exact absurd hrun (flushMetadata_error (by simp [hbuf]) s')
  | ok buf =>
    obtain ⟨hover, -⟩ := flushMetadata_content hbuf (hwritten.length_le.trans hmore.totalSize_le)
    rw [flushMetadata_ok hw hf hbuf] at hrun
    cases hrun
    refine ⟨buf, rfl, ?_⟩
    dsimp only
    rw [Function.update_self, hover]

lemma garbled_injective (t : Table) {bs cs : List UInt8} (hb : bs.length = 4) (hc : cs.length = 4)
    (h : garbled t bs = garbled t cs) : bs = cs := by
  have hencode := congrArg Table.encode h
  rw [encode_garbled t hb, encode_garbled t hc] at hencode
  exact List.append_cancel_left hencode

lemma not_rebuilds (hw : s.WritesSucceed) (hwritten : Written db.basePath earlier content)
    (hmore : Extends earlier db.tables) (hf : s.files (.metadata db.basePath) = some content)
    (hstorable : ∀ t ∈ db.tables, t.Storable)
    (hsorted : (db.tables.map Table.name).Pairwise (fun a b => nameLt a b = .ok true))
    (hne : db.tables ≠ []) : ¬ Rebuilds db s := by
  rintro ⟨s', hrun, hopen⟩
  obtain ⟨buf, hbuf, hf'⟩ := flushMetadata_leaves hw hwritten hmore hf hrun
  obtain hnil | ⟨init, last, htables⟩ := List.eq_nil_or_concat' db.tables
  · exact hne hnil
  rw [htables] at hbuf hf' hstorable hsorted hopen
  have hle := last.le_size
  have htotal := totalSize_snoc init last
  rcases Nat.lt_or_ge (totalSize (init ++ [last]) + 4) (2 ^ 31) with hlt | hge
  · -- Two memories give two SSTable numbers of the last table.
    rw [metadataBytes_of_lt hlt, Except.ok.injEq] at hbuf
    subst hbuf
    have hlast : ∀ heap, garbled last (unfilled (totalSize (init ++ [last])) heap) = last := by
      intro heap
      obtain ⟨db', s'', hok, hsame⟩ := hopen heap
      have hread := open_metadataFile (s := { s' with heap := heap }) hf' hlt hstorable hsorted hok
      rw [hsame] at hread
      simpa using (List.append_cancel_left hread).symm
    have heq := garbled_injective last (by simp [unfilled]) (by simp [unfilled])
      ((hlast (fun _ => 0)).trans (hlast (fun _ => 1)).symm)
    simp [unfilled] at heq
  · -- The tables that are read back are too small.
    obtain ⟨db', s'', hok, hsame⟩ := hopen (fun _ => 0)
    have hread := totalSize_le_of_open (s := { s' with heap := fun _ => 0 }) hf' hok
    have hsmall := leValue_lt_totalSize hbuf hge
    rw [hsame, List.take_take, Nat.min_eq_left (by omega)] at hread
    omega

lemma rebuilds_nil (hw : s.WritesSucceed) (hwritten : Written db.basePath earlier content)
    (hmore : Extends earlier db.tables) (hf : s.files (.metadata db.basePath) = some content)
    (hnil : db.tables = []) : Rebuilds db s := by
  have hlen := hwritten.length_le.trans hmore.totalSize_le
  rw [hnil] at hlen
  have hcontent : content = [] := List.eq_nil_of_length_eq_zero (by simpa [totalSize] using hlen)
  obtain ⟨buf, hbuf⟩ : ∃ buf, metadataBytes db.tables = .ok buf := by
    rw [hnil]
    exact ⟨_, metadataBytes_of_lt (by simp [totalSize])⟩
  have hfile : overwrite content 0 (buf.take (totalSize db.tables)) = [] := by
    simp [hnil, totalSize, hcontent]
  refine ⟨_, flushMetadata_ok hw hf hbuf, fun heap => ?_⟩
  rw [hfile]
  obtain ⟨s'', hok, -⟩ := @open_empty db.basePath [] { s with
    files := Function.update s.files (.metadata db.basePath) (some []), heap := heap }
    (Function.update_self ..) (by simp)
  exact ⟨_, s'', hok, by rw [hnil]; rfl⟩

/-- The metadata file is a faithful image of the catalog only if there are no tables. -/
theorem rebuilds_iff (hw : s.WritesSucceed) (hwritten : Written db.basePath earlier content)
    (hmore : Extends earlier db.tables) (hf : s.files (.metadata db.basePath) = some content)
    (hstorable : ∀ t ∈ db.tables, t.Storable)
    (hsorted : (db.tables.map Table.name).Pairwise (fun a b => nameLt a b = .ok true)) :
    Rebuilds db s ↔ db.tableManagers = [] := by
  have htables : db.tables = [] ↔ db.tableManagers = [] := by simp [tables]
  constructor
  · intro h
    by_contra hne
    exact not_rebuilds hw hwritten hmore hf hstorable hsorted (fun h => hne (htables.mp h)) h
  · intro h
    exact rebuilds_nil hw hwritten hmore hf (htables.mpr h)

end Image

/-- A new table with one integer column. -/
def oneTable : Database :=
  ⟨[47], [([116], TableManager.new [47] [116] ⟨0, 0, [⟨[107], ⟨.int, 4⟩⟩]⟩ [])]⟩

/-- A directory in which the constructor has made the metadata file. -/
def newDirectory : Posix Path :=
  { Posix.start (fun _ => 0) with files := fun p => if p = .metadata [47] then some [] else none }

lemma oneTable_storable : ∀ t ∈ oneTable.tables, t.Storable := by
  intro t ht
  obtain rfl : t = ⟨[116], ⟨0, 0, [⟨[107], ⟨.int, 4⟩⟩]⟩, 0⟩ := by
    simpa [oneTable, tables, TableManager.new] using ht
  exact ⟨by decide, by decide, by decide⟩

theorem rebuilds_iff_oneTable : Rebuilds oneTable newDirectory ↔ oneTable.tableManagers = [] :=
  rebuilds_iff (Posix.writesSucceed_start (P := Path) (fun _ => 0)) Written.empty (List.nil_sublist _) rfl
    oneTable_storable (by simp [oneTable, tables])

/-- One table whose SSTable number depends on the memory of the constructor. -/
theorem not_rebuilds_oneTable :
    Written oneTable.basePath [] [] ∧ Extends [] oneTable.tables ∧ newDirectory.WritesSucceed ∧
      newDirectory.files (.metadata oneTable.basePath) = some [] ∧
      (∀ t ∈ oneTable.tables, t.Storable) ∧ ¬ Rebuilds oneTable newDirectory := by
  have hw := Posix.writesSucceed_start (P := Path) (fun _ => 0)
  have hmore : Extends [] oneTable.tables := List.nil_sublist _
  exact ⟨Written.empty, hmore, hw, rfl, oneTable_storable, not_rebuilds hw Written.empty hmore rfl
    oneTable_storable (by simp [oneTable, tables]) (by simp [oneTable, tables])⟩

end Database

end Dibibase
