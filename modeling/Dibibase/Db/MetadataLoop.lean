import Dibibase.Catalog.TableCodec
import Dibibase.Db.Metadata
import Dibibase.Util.Parsing

/-!
# Parsing arbitrary metadata

The loop of the constructor over a metadata buffer with any content, without the summaries that it
loads. A byte string is refused because it ends too early, or it is the encoding of the tables that
are read, as long as the names in it stay in the range of `int`.
-/

namespace Dibibase

open Library

/-! ### The readers of the catalog -/

lemma TypeId.toByte_ofByte (c : BitVec 8) : (TypeId.ofByte c).toByte = c := by
  revert c
  decide

def DataType.scan : Scan DataType := do
  let id ← Scan.getUint8
  let size ← Scan.getUint32
  return ⟨TypeId.ofByte id, size⟩

def Field.scan : Scan Field := do
  let nameLength ← Scan.getUint8
  let name ← Scan.getString nameLength.toNat
  let type ← DataType.scan
  return ⟨name, type⟩

def Schema.scan : Scan Schema := do
  let fieldsLength ← Scan.getUint8
  let fields ← Scan.replicate fieldsLength.toNat Field.scan
  let sortIndex ← Scan.getUint64
  let partitionIndex ← Scan.getUint64
  return ⟨sortIndex, partitionIndex, fields⟩

def Table.scan : Scan Table := do
  let nameLength ← Scan.getUint8
  let name ← Scan.getString nameLength.toNat
  let schema ← Schema.scan
  let lastSstableId ← Scan.getUint64
  return ⟨name, schema, lastSstableId⟩

/-- A type id outside the enumeration keeps its byte. -/
lemma DataType.follows_from : Follows (fun t bs => bs = t.encode) (fun t t' => t' = t)
    (fun _ _ => False) DataType.from DataType.scan := by
  refine Follows.getUint8.bind_exact (fun id as ha => Follows.getUint32.bind_exact
    (fun size bs hb => Follows.pure ?_ rfl))
  rw [ha, hb, List.append_nil, DataType.encode, TypeId.toByte_ofByte]

/-- A length that was read is the length that is written. -/
lemma ofNat_length {n : BitVec 8} {m : Nat} (h : m = n.toNat) : (BitVec.ofNat 8 m).toNat = n.toNat := by
  rw [h, BitVec.ofNat_toNat, BitVec.setWidth_eq]

lemma Field.follows_from : Follows (fun f bs => bs = f.encode) (fun f f' => f' = f)
    (fun f f' => f'.size < f.size) Field.from Field.scan := by
  refine Follows.getUint8.bind_exact (fun n as ha => ?_)
  have hn := n.isLt
  have hencode : ∀ {name : List UInt8} {type : DataType}, name.length = n.toNat →
      as ++ (name ++ (type.encode ++ [])) = Field.encode ⟨name, type⟩ := by
    intro name type hlength
    rw [ha, Field.encode, ofNat_length hlength, List.append_nil]
  refine (Follows.getString (by omega)).bind (fun name name' bs hname heq => ?_)
    (fun name name' bs hname hlt => ?_)
  · obtain ⟨rfl, hlength⟩ := hname
    refine DataType.follows_from.bind_exact (fun type cs hc => Follows.pure ?_ (by rw [heq]))
    rw [hc, hencode hlength]
  · obtain ⟨rfl, hlength⟩ := hname
    refine DataType.follows_from.bind_exact (fun type cs hc => Follows.pure ?_ ?_)
    · rw [hc, hencode hlength]
    · simpa [Field.size, DataType.size] using hlt

lemma Schema.follows_from : Follows (fun s bs => bs = s.encode) (fun s s' => s' = s)
    (fun s s' => s'.size < s.size) Schema.from Schema.scan := by
  refine Follows.getUint8.bind_exact (fun n as ha => ?_)
  have hencode : ∀ {fields : List Field} {i j : BitVec 64}, fields.length = n.toNat →
      as ++ (fields.flatMap Field.encode ++ (leBytes 8 i.toNat ++ (leBytes 8 j.toNat ++ []))) =
        Schema.encode ⟨i, j, fields⟩ := by
    intro fields i j hlength
    rw [ha, Schema.encode, ofNat_length hlength, List.append_nil]
  refine (Field.follows_from.replicate n.toNat).bind (fun fields fields' bs hb heq => ?_)
    (fun fields fields' bs hb hlt => ?_)
  · obtain ⟨rfl, hlength⟩ := hb
    refine Follows.getUint64.bind_exact (fun i cs hc => Follows.getUint64.bind_exact
      (fun j ds hd => Follows.pure ?_ (by rw [heq])))
    rw [hc, hd, hencode hlength]
  · obtain ⟨rfl, hlength⟩ := hb
    refine Follows.getUint64.bind_exact (fun i cs hc => Follows.getUint64.bind_exact
      (fun j ds hd => Follows.pure ?_ ?_))
    · rw [hc, hd, hencode hlength]
    · simpa [Schema.size] using hlt

lemma Table.follows_from : Follows (fun t bs => bs = t.encode) (fun t t' => t' = t)
    (fun t t' => t'.size < t.size) Table.from Table.scan := by
  refine Follows.getUint8.bind_exact (fun n as ha => ?_)
  have hn := n.isLt
  have hencode : ∀ {name : List UInt8} {schema : Schema} {i : BitVec 64}, name.length = n.toNat →
      as ++ (name ++ (schema.encode ++ (leBytes 8 i.toNat ++ []))) = Table.encode ⟨name, schema, i⟩ := by
    intro name schema i hlength
    rw [ha, Table.encode, ofNat_length hlength, List.append_nil]
  -- Both strings of a table may be cut off, its name and a name in its schema.
  refine (Follows.getString (by omega)).bind (fun name name' bs hname heq => ?_)
    (fun name name' bs hname hlt => ?_)
  · obtain ⟨rfl, hlength⟩ := hname
    refine Schema.follows_from.bind (fun schema schema' cs hc heq' => ?_)
      (fun schema schema' cs hc hlt => ?_)
    · refine Follows.getUint64.bind_exact (fun i ds hd => Follows.pure ?_ (by rw [heq, heq']))
      rw [hc, hd, hencode hlength]
    · refine Follows.getUint64.bind_exact (fun i ds hd => Follows.pure ?_ ?_)
      · rw [hc, hd, hencode hlength]
      · simpa [Table.size, heq] using hlt
  · obtain ⟨rfl, hlength⟩ := hname
    refine Schema.follows_from.bind (fun schema schema' cs hc heq => ?_)
      (fun schema schema' cs hc hlt' => ?_)
    · refine Follows.getUint64.bind_exact (fun i ds hd => Follows.pure ?_ ?_)
      · rw [hc, hd, hencode hlength]
      · simpa [Table.size, heq] using hlt
    · refine Follows.getUint64.bind_exact (fun i ds hd => Follows.pure ?_ ?_)
      · rw [hc, hd, hencode hlength]
      · simp only [Table.size]
        omega

namespace Database

/-- The loop of the constructor, with at most so many rounds, and the buffer behind it. -/
def parseTables (length : Nat) : Nat → MemoryBuffer → Except Exception (List Table × MemoryBuffer)
  | 0, buffer => return ([], buffer)
  | rounds + 1, buffer =>
    if buffer.offset < length then do
      let (table, buffer) ← Table.from buffer
      let (tables, buffer) ← parseTables length rounds buffer
      return (table :: tables, buffer)
    else return ([], buffer)

/-- The same loop without a bound on the indices. -/
def scanTables (length : Nat) : Nat → Scan (List Table)
  | 0 => return []
  | rounds + 1 => fun bs off =>
    if off < length then
      (do
        let table ← Table.scan
        let tables ← scanTables length rounds
        return table :: tables : Scan (List Table)) bs off
    else (return [] : Scan (List Table)) bs off

lemma parseTables_of_lt {length rounds : Nat} {b : MemoryBuffer} (h : b.offset < length) :
    parseTables length (rounds + 1) b =
      (do
        let table ← Table.from
        let tables ← parseTables length rounds
        return table :: tables : BufferM (List Table)) b := by
  rw [parseTables, if_pos h]
  rfl

lemma parseTables_of_le {length : Nat} {b : MemoryBuffer} (rounds : Nat) (h : length ≤ b.offset) :
    parseTables length rounds b = .ok ([], b) := by
  cases rounds with
  | zero => rfl
  | succ rounds =>
    rw [parseTables, if_neg (by omega)]
    rfl

lemma scanTables_of_lt {length rounds off : Nat} {bs : List UInt8} (h : off < length) :
    scanTables length (rounds + 1) bs off =
      (do
        let table ← Table.scan
        let tables ← scanTables length rounds
        return table :: tables : Scan (List Table)) bs off :=
  if_pos h

lemma scanTables_of_le {length off : Nat} {bs : List UInt8} (rounds : Nat) (h : length ≤ off) :
    scanTables length rounds bs off = ([], some ([], off)) := by
  cases rounds with
  | zero => rfl
  | succ rounds => exact if_neg (by omega)

/-- What the loop of the constructor reads is what is left when the summaries are not loaded. -/
lemma parseTables_of_loadTables {base : List UInt8} {length : Nat} (rounds : Nat) {buffer : MemoryBuffer}
    {acc tableManagers : List (List UInt8 × TableManager)} {s s' : Posix Path}
    (h : loadTables base length rounds buffer acc s = .ok tableManagers s') :
    ∃ ts buffer', parseTables length rounds buffer = .ok (ts, buffer') := by
  induction rounds generalizing buffer acc s with
  | zero => exact ⟨[], buffer, rfl⟩
  | succ rounds ih =>
    by_cases hoff : buffer.offset < length
    · obtain ⟨table, buffer₁, summaries, acc', s₁, hfrom, -, -, h⟩ := loadTables_eq_ok hoff h
      obtain ⟨ts, buffer', hparse⟩ := ih h
      refine ⟨table :: ts, buffer', ?_⟩
      rw [parseTables, if_pos hoff, hfrom]
      change (parseTables length rounds buffer₁).bind _ = _
      rw [hparse]
      rfl
    · exact ⟨[], buffer, parseTables_of_le _ (by omega)⟩

lemma follows_parseTables (length rounds : Nat) :
    Follows (fun ts bs => bs = ts.flatMap Table.encode) (fun ts ts' => ts' = ts)
      (fun ts ts' => (ts'.map Table.size).sum < (ts.map Table.size).sum)
      (parseTables length rounds) (scanTables length rounds) := by
  induction rounds with
  | zero => exact Follows.pure rfl rfl
  | succ rounds ih =>
    intro b hoff hsize
    by_cases hlt : b.offset < length
    · rw [parseTables_of_lt hlt, scanTables_of_lt hlt]
      refine Follows.bind (E := fun t t' => t' = t) Table.follows_from (fun t t' as ht heq => ?_)
        (fun t t' as ht hlt => ?_) b hoff hsize
      · refine ih.bind (fun ts ts' bs hts heq' => Follows.pure ?_ ?_)
          (fun ts ts' bs hts hlt => Follows.pure ?_ ?_)
        · simp [ht, hts]
        · rw [heq, heq']
        · simp [ht, hts]
        · simpa [heq] using hlt
      · refine ih.bind (fun ts ts' bs hts heq' => Follows.pure ?_ ?_)
          (fun ts ts' bs hts hlt' => Follows.pure ?_ ?_)
        · simp [ht, hts]
        · simpa [heq'] using hlt
        · simp [ht, hts]
        · simp only [List.map_cons, List.sum_cons]
          omega
    · rw [parseTables_of_le _ (by omega), scanTables_of_le _ (by omega)]
      exact Follows.pure (P := fun ts bs => bs = ts.flatMap Table.encode) (E := fun ts ts' => ts' = ts)
        (a := []) rfl rfl b hoff hsize

/-! ### The end of the loop -/

/-- A round that returns leaves a buffer of the same size, and at least one byte less in it. -/
lemma parseTables_eq_ok {length rounds : Nat} {b b' : MemoryBuffer} {ts : List Table}
    (hsize : b.size < 2 ^ 32) (hoff : b.offset ≤ b.size) (hlt : b.offset < length)
    (h : parseTables length (rounds + 1) b = .ok (ts, b')) :
    ∃ t ts' b₁, ts = t :: ts' ∧ Table.from b = .ok (t, b₁) ∧ b₁.size = b.size ∧
      b.offset < b₁.offset ∧ b₁.offset ≤ b.size ∧ parseTables length rounds b₁ = .ok (ts', b') := by
  rw [parseTables_of_lt hlt] at h
  obtain ⟨t, b₁, htable, hloop⟩ := stateT_bind_eq_ok h
  obtain ⟨ts', b₂, hrest, hlast⟩ := stateT_bind_eq_ok hloop
  obtain ⟨hsize₁, hlow, hhigh⟩ := Table.consumes_from b t b₁ hsize hoff htable
  have ht := t.le_size
  cases hlast
  exact ⟨t, ts', b₁, rfl, htable, hsize₁, by omega, hhigh, hrest⟩

/-- The offset stays in the buffer, and the loop ends only at the end or after all its rounds. -/
lemma parseTables_offset {length : Nat} (rounds : Nat) {b b' : MemoryBuffer} {ts : List Table}
    (hsize : b.size < 2 ^ 32) (hoff : b.offset ≤ b.size)
    (h : parseTables length rounds b = .ok (ts, b')) :
    b'.offset ≤ b.size ∧ (length ≤ b'.offset ∨ b.offset + rounds ≤ b'.offset) := by
  induction rounds generalizing b ts with
  | zero =>
    cases h
    exact ⟨hoff, .inr le_rfl⟩
  | succ rounds ih =>
    by_cases hlt : b.offset < length
    · obtain ⟨t, ts', b₁, -, -, hsize₁, hlow, hhigh, hrest⟩ := parseTables_eq_ok hsize hoff hlt h
      obtain ⟨hle, hend⟩ := ih (by omega) (by omega) hrest
      exact ⟨by omega, by omega⟩
    · rw [parseTables_of_le _ (by omega)] at h
      cases h
      exact ⟨hoff, .inl (by omega)⟩

/-- More rounds than there are bytes left change nothing. -/
lemma parseTables_rounds {length : Nat} (rounds more : Nat) {b : MemoryBuffer}
    (hsize : b.size < 2 ^ 32) (hoff : b.offset ≤ b.size) (hlength : length ≤ b.offset + rounds) :
    parseTables length (rounds + more) b = parseTables length rounds b := by
  induction rounds generalizing b with
  | zero => rw [parseTables_of_le _ (by omega), parseTables_of_le _ (by omega)]
  | succ rounds ih =>
    by_cases hlt : b.offset < length
    · rw [Nat.add_right_comm, parseTables_of_lt hlt, parseTables_of_lt hlt]
      cases htable : Table.from b with
      | error e => simp [Bind.bind, StateT.bind, Except.bind, htable]
      | ok r =>
        obtain ⟨t, b₁⟩ := r
        obtain ⟨hsize₁, hlow, hhigh⟩ := Table.consumes_from b t b₁ hsize hoff htable
        have ht := t.le_size
        simp only [Bind.bind, StateT.bind, Except.bind, htable]
        rw [ih (by omega) (by omega) (by omega)]
    · rw [parseTables_of_le _ (by omega), parseTables_of_le _ (by omega)]

/-- Every table that the loop returns has lengths of one byte. -/
lemma returns_storable_parseTables (length rounds : Nat) :
    Returns (fun ts => ∀ t ∈ ts, t.Storable) (parseTables length rounds) := by
  induction rounds with
  | zero => exact Returns.pure (by simp)
  | succ rounds ih =>
    intro b ts b' h
    by_cases hlt : b.offset < length
    · rw [parseTables_of_lt hlt] at h
      have hround : Returns (fun ts => ∀ t ∈ ts, t.Storable)
          (do
            let table ← Table.from
            let tables ← parseTables length rounds
            return table :: tables : BufferM (List Table)) := by
        refine Table.returns_storable.bind (fun t ht => ih.bind (fun ts hts => Returns.pure ?_))
        simpa using ⟨ht, hts⟩
      exact hround b ts b' h
    · rw [parseTables_of_le _ (by omega)] at h
      cases h
      simp

/-! ### The bytes of the tables -/

/-- What `Table::bytes` writes into a buffer of the size of the table. -/
def Encodes (t : Table) (image : List UInt8) : Prop :=
  t.bytes (MemoryBuffer.new t.size) = .ok ((), ⟨image, t.size⟩)

lemma encodes_iff {t : Table} (h : t.Storable) {image : List UInt8} :
    Encodes t image ↔ image = t.encode := by
  have hlength := t.length_encode
  have hwrite := t.writes_bytes (MemoryBuffer.new t.size)
    (by simp [MemoryBuffer.new, MemoryBuffer.size, hlength])
    (by simpa [MemoryBuffer.new, MemoryBuffer.size] using h.size_lt)
  rw [Encodes, hwrite, MemoryBuffer.new_append, hlength, Nat.sub_self, List.replicate_zero,
    List.append_nil]
  simp [eq_comm]

lemma forall₂_encodes {ts : List Table} (h : ∀ t ∈ ts, t.Storable) {images : List (List UInt8)} :
    List.Forall₂ Encodes ts images ↔ images = ts.map Table.encode := by
  induction ts generalizing images with
  | nil => simp
  | cons t ts ih =>
    have hrest := fun images => @ih (fun t ht => h t (by simp [ht])) images
    rw [List.forall₂_cons_left_iff]
    constructor
    · rintro ⟨image, images, himage, himages, rfl⟩
      rw [(encodes_iff (h t (by simp))).mp himage, (hrest images).mp himages, List.map_cons]
    · rintro rfl
      exact ⟨t.encode, ts.map Table.encode, (encodes_iff (h t (by simp))).mpr rfl,
        (hrest _).mpr rfl, rfl⟩

/-- The loop throws because of a read outside the buffer, or it yields tables whose encodings are
the buffer. -/
def ParsesCanonically (bs : List UInt8) : Prop :=
  parseTables bs.length bs.length (MemoryBuffer.ofBytes bs) = .error .bufferOverflow ∨
  ∃ ts images, parseTables bs.length bs.length (MemoryBuffer.ofBytes bs) = .ok (ts, ⟨bs, bs.length⟩) ∧
    List.Forall₂ Encodes ts images ∧ images.flatten = bs

/-- No name starts at byte `2 ^ 31` or behind, and if the bytes are whole tables then no name ends
there either. -/
def NamesInRange (bs : List UInt8) : Prop :=
  (∀ x ∈ (scanTables bs.length bs.length bs 0).1, ¬x.Behind) ∧
  ((scanTables bs.length bs.length bs 0).2 ≠ none →
    ∀ x ∈ (scanTables bs.length bs.length bs 0).1, ¬x.Across)

lemma parsesCanonically_iff {bs : List UInt8} (hlength : bs.length < 2 ^ 32) :
    ParsesCanonically bs ↔ NamesInRange bs := by
  have hrun := follows_parseTables bs.length bs.length (MemoryBuffer.ofBytes bs) (Nat.zero_le _) hlength
  rcases hrun with ⟨⟨x, hx, hbehind⟩, herror⟩ | ⟨hbehind, hnone, herror⟩ |
    ⟨hbehind, ts, ts', cs, hprefix, rfl, hsome, hok, hcut⟩
  · constructor
    · rintro (h | ⟨ts, images, h, -⟩)
      · rw [herror] at h
        cases h
      · rw [herror] at h
        cases h
    · intro h
      exact absurd hbehind (h.1 x hx)
  · constructor
    · intro _
      exact ⟨hbehind, fun h => absurd hnone h⟩
    · intro _
      exact .inl herror
  · have hstorable := returns_storable_parseTables _ _ _ _ _ hok
    obtain ⟨-, hend⟩ := parseTables_offset bs.length (show (MemoryBuffer.ofBytes bs).size < 2 ^ 32
      from hlength) (Nat.zero_le _) hok
    have hwhole : ts.flatMap Table.encode = bs := by
      refine List.IsPrefix.eq_of_length_le hprefix ?_
      simp only [MemoryBuffer.ofBytes] at hend ⊢
      omega
    have hbuffer : ({ MemoryBuffer.ofBytes bs with
        offset := (MemoryBuffer.ofBytes bs).offset + (ts.flatMap Table.encode).length } : MemoryBuffer) =
        ⟨bs, bs.length⟩ := by
      rw [hwhole]
      simp [MemoryBuffer.ofBytes]
    rw [hbuffer] at hok
    rcases hcut with ⟨hacross, heq⟩ | ⟨⟨x, hx, hacross⟩, hlt⟩
    · refine iff_of_true (.inr ⟨ts', _, hok, (forall₂_encodes hstorable).mpr rfl, ?_⟩)
        ⟨hbehind, fun _ => hacross⟩
      rw [heq, ← List.flatMap_def, hwhole]
    · -- The tables that are returned are smaller than the bytes.
      refine iff_of_false ?_ (fun h => h.2 (Option.ne_none_iff_exists'.mpr ⟨_, hsome⟩) x hx hacross)
      rintro (h | ⟨ts₂, images, h, himages, hflatten⟩)
      · rw [hok] at h
        cases h
      · rw [hok] at h
        cases h
        rw [(forall₂_encodes hstorable).mp himages, ← List.flatMap_def] at hflatten
        have hlengths := congrArg List.length (hflatten.trans hwhole.symm)
        simp only [List.length_flatMap, Table.length_encode] at hlengths
        exact absurd hlengths hlt.ne

lemma within_scanTables (length rounds : Nat) : Within (scanTables length rounds) := by
  have hfield : Within Field.scan := (Within.fixed 1 8).bind (fun n => (Within.getString _).bind
    (fun name => ((Within.fixed 1 8).bind (fun id => (Within.fixed 4 32).bind
      (fun size => Within.pure _))).bind (fun type => Within.pure _)))
  have hschema : Within Schema.scan := (Within.fixed 1 8).bind (fun n => (hfield.replicate _).bind
    (fun fields => (Within.fixed 8 64).bind (fun i => (Within.fixed 8 64).bind
      (fun j => Within.pure _))))
  have htable : Within Table.scan := (Within.fixed 1 8).bind (fun n => (Within.getString _).bind
    (fun name => hschema.bind (fun schema => (Within.fixed 8 64).bind (fun i => Within.pure _))))
  induction rounds with
  | zero => exact Within.pure _
  | succ rounds ih =>
    intro bs off x hx
    by_cases hlt : off < length
    · rw [scanTables_of_lt hlt] at hx
      exact (htable.bind (fun t => ih.bind (fun ts => Within.pure _))) bs off x hx
    · rw [scanTables_of_le _ (by omega)] at hx
      exact absurd hx List.not_mem_nil

lemma namesInRange_of_lt {bs : List UInt8} (h : bs.length < 2 ^ 31) : NamesInRange bs := by
  have hwithin := within_scanTables bs.length bs.length bs 0
  refine ⟨fun x hx hbehind => ?_, fun _ x hx hacross => ?_⟩
  · have hend := hwithin x hx
    have hpositive := hbehind.1
    have hstart := hbehind.2
    omega
  · have hend := hwithin x hx
    have hlast := hacross.2
    omega

/-- For every metadata buffer the loop ends with at most so many tables as there are bytes, and its
offset does not pass the end. It throws because of a read outside the buffer, or yields tables whose
encodings are the buffer, exactly when the names are in the range of `int`. The length is a
`uint32_t`. -/
theorem parseTables_canonical {bs : List UInt8} (hlength : bs.length < 2 ^ 32) :
    (∀ rounds, bs.length ≤ rounds → parseTables bs.length rounds (MemoryBuffer.ofBytes bs) =
        parseTables bs.length bs.length (MemoryBuffer.ofBytes bs)) ∧
      (∀ rounds ts b', parseTables bs.length rounds (MemoryBuffer.ofBytes bs) = .ok (ts, b') →
        b'.offset ≤ bs.length ∧ (bs.length ≤ rounds → b'.offset = bs.length)) ∧
      (ParsesCanonically bs ↔ NamesInRange bs) := by
  have hsize : (MemoryBuffer.ofBytes bs).size < 2 ^ 32 := hlength
  refine ⟨?_, ?_, parsesCanonically_iff hlength⟩
  · intro rounds hrounds
    obtain ⟨more, rfl⟩ := Nat.exists_eq_add_of_le hrounds
    exact parseTables_rounds _ _ hsize (Nat.zero_le _) (Nat.le_add_left _ _)
  · intro rounds ts b' h
    obtain ⟨hle, hend⟩ := parseTables_offset rounds hsize (Nat.zero_le _) h
    simp only [MemoryBuffer.ofBytes, MemoryBuffer.size] at hle hend
    exact ⟨hle, by omega⟩

/-- A catalog of a table with a key of integers and a flushed SSTable, and one with a key of texts. -/
def catalogOfTwo : List Table :=
  [⟨[116], ⟨0, 0, [⟨[107], ⟨.int, 4⟩⟩, ⟨[118], ⟨.ascii, 10⟩⟩]⟩, 1⟩,
    ⟨[117, 50], ⟨1, 0, [⟨[118], ⟨.bigint, 8⟩⟩, ⟨[107], ⟨.ascii, 7⟩⟩]⟩, 0⟩]

theorem parseTables_canonical_twoTables : ParsesCanonically (catalogOfTwo.flatMap Table.encode) :=
  (parseTables_canonical (by decide)).2.2.mpr (namesInRange_of_lt (by decide))

/-! ### A name behind the range of `int` -/

lemma scan_zeros {bs tail : List UInt8} {off k : Nat} (h : bs.drop off = List.replicate k 0 ++ tail)
    (hoff : off ≤ bs.length) {n : Nat} (hn : n ≤ k) :
    Scan.getFixed n bs off = ([], some (List.replicate n 0, off + n)) ∧ off + n ≤ bs.length ∧
      bs.drop (off + n) = List.replicate (k - n) 0 ++ tail := by
  have hsplit : List.replicate k (0 : UInt8) = List.replicate n 0 ++ List.replicate (k - n) 0 := by
    rw [← List.replicate_add, Nat.add_sub_cancel' hn]
  rw [hsplit, List.append_assoc] at h
  have hlen := congrArg List.length h
  simp only [List.length_drop, List.length_append, List.length_replicate] at hlen
  have htake : (bs.drop off).take n = List.replicate n 0 := by
    rw [h]
    simp
  refine ⟨?_, by omega, ?_⟩
  · rw [Scan.getFixed, if_pos (by omega), htake]
  · rw [← List.drop_drop, h]
    simp

/-- The encoding of a table without a name and without columns is zeros. -/
lemma scan_emptyTable {bs tail : List UInt8} {off k : Nat}
    (h : bs.drop off = List.replicate k 0 ++ tail) (hoff : off ≤ bs.length) (hk : 26 ≤ k) :
    Table.scan bs off = ([⟨off + 1, 0⟩], some (⟨[], ⟨0, 0, []⟩, 0⟩, off + 26)) := by
  obtain ⟨h₁, hoff₁, hdrop₁⟩ := scan_zeros (n := 1) h hoff (by omega)
  obtain ⟨h₂, hoff₂, hdrop₂⟩ := scan_zeros (n := 1) hdrop₁ hoff₁ (by omega)
  obtain ⟨h₃, hoff₃, hdrop₃⟩ := scan_zeros (n := 8) hdrop₂ hoff₂ (by omega)
  obtain ⟨h₄, hoff₄, hdrop₄⟩ := scan_zeros (n := 8) hdrop₃ hoff₃ (by omega)
  obtain ⟨h₅, -, -⟩ := scan_zeros (n := 8) hdrop₄ hoff₄ (by omega)
  have hname : Scan.getString 0 bs (off + 1) = ([⟨off + 1, 0⟩], some ([], off + 1)) := by
    rw [Scan.getString, if_pos (by omega), List.take_zero, Nat.add_zero]
  simp only [Table.scan, Schema.scan, Scan.getUint8, Scan.getUint64, Scan.replicate, Bind.bind,
    Scan.bind, Pure.pure, Scan.pure, h₁, leValue_replicate_zero, BitVec.toNat_ofNat, Nat.zero_mod,
    hname, h₂, h₃, h₄, h₅, List.append_nil, List.nil_append]
  rfl

/-- The name of one letter that comes next is among the strings. -/
lemma scan_letter {bs tail : List UInt8} {off : Nat} (h : bs.drop off = 1 :: 97 :: tail) :
    ⟨off + 1, 1⟩ ∈ (Table.scan bs off).1 := by
  have hlen := congrArg List.length h
  simp only [List.length_drop, List.length_cons] at hlen
  have hlength : Scan.getUint8 bs off = ([], some (1, off + 1)) := by
    simp only [Scan.getUint8, Scan.getFixed, Bind.bind, Scan.bind]
    rw [if_pos (by omega), h]
    rfl
  have hname : Scan.getString 1 bs (off + 1) =
      ([⟨off + 1, 1⟩], some ((bs.drop (off + 1)).take 1, off + 2)) := by
    rw [Scan.getString, if_pos (by omega)]
  rw [Table.scan, Scan.bind_some (by rw [hlength])]
  refine List.mem_append_right _ ?_
  change _ ∈ ((Scan.getString 1 >>= _ : Scan Table) bs (off + 1)).1
  rw [Scan.bind_some (by rw [hname]), hname]
  exact List.mem_append_left _ (List.mem_singleton_self _)

section Strings

variable {length rounds off off' : Nat} {bs : List UInt8} {x : Span} {t : Table}

lemma mem_scanTables_head (hlt : off < length) (h : x ∈ (Table.scan bs off).1) :
    x ∈ (scanTables length (rounds + 1) bs off).1 := by
  rw [scanTables_of_lt hlt]
  cases hscan : (Table.scan bs off).2 with
  | none => rwa [Scan.bind_none hscan]
  | some r =>
    rw [Scan.bind_some hscan]
    exact List.mem_append_left _ h

lemma mem_scanTables_tail (hlt : off < length) (hscan : (Table.scan bs off).2 = some (t, off'))
    (h : x ∈ (scanTables length rounds bs off').1) : x ∈ (scanTables length (rounds + 1) bs off).1 := by
  rw [scanTables_of_lt hlt, Scan.bind_some hscan]
  refine List.mem_append_right _ ?_
  cases hrest : (scanTables length rounds bs off').2 with
  | none => rwa [Scan.bind_none hrest]
  | some r =>
    rw [Scan.bind_some hrest]
    exact List.mem_append_left _ h

end Strings

/-- Behind `k` tables without names the loop comes to the name. -/
lemma scanTables_zeros {bs tail : List UInt8} (k more : Nat) {off : Nat}
    (h : bs.drop off = List.replicate (26 * k) 0 ++ 1 :: 97 :: tail) (hoff : off ≤ bs.length) :
    ⟨off + 26 * k + 1, 1⟩ ∈ (scanTables bs.length (k + more + 1) bs off).1 := by
  have hlen := congrArg List.length h
  simp only [List.length_drop, List.length_append, List.length_replicate, List.length_cons] at hlen
  induction k generalizing off with
  | zero => exact mem_scanTables_head (by omega) (scan_letter (by simpa using h))
  | succ k ih =>
    obtain ⟨-, hoff', hdrop⟩ := scan_zeros (n := 26) h hoff (by omega)
    rw [show 26 * (k + 1) - 26 = 26 * k by omega] at hdrop
    have hrest := ih hdrop hoff' (by omega)
    rw [show off + 26 * (k + 1) + 1 = off + 26 + 26 * k + 1 by omega,
      show k + 1 + more + 1 = k + more + 1 + 1 by omega]
    exact mem_scanTables_tail (by omega) (by rw [scan_emptyTable h hoff (by omega)]) hrest

lemma not_parsesCanonically_zeros {k : Nat} (hlow : 2 ^ 31 ≤ 26 * k) (hhigh : 26 * k + 27 < 2 ^ 32)
    {bs : List UInt8} (hbs : bs = List.replicate (26 * k) 0 ++ Table.encode ⟨[97], ⟨0, 0, []⟩, 0⟩) :
    ¬ParsesCanonically bs := by
  have hletter : Table.encode ⟨[97], ⟨0, 0, []⟩, 0⟩ = 1 :: 97 :: List.replicate 25 0 := by decide
  rw [hletter] at hbs
  have hlen : bs.length = 26 * k + 27 := by
    rw [hbs]
    simp
  rw [parsesCanonically_iff (by omega)]
  intro h
  have hname := @scanTables_zeros bs _ k (bs.length - k - 1) 0 hbs (Nat.zero_le _)
  rw [show k + (bs.length - k - 1) + 1 = bs.length by omega] at hname
  refine h.1 _ hname ⟨Nat.one_pos, ?_⟩
  dsimp only
  omega

/-- A catalog of more than `2 ^ 31` bytes whose last table has a name of one letter. -/
theorem not_parsesCanonically_large : ¬ParsesCanonically (List.replicate (26 * 82595525) 0 ++
    Table.encode ⟨[97], ⟨0, 0, []⟩, 0⟩) :=
  not_parsesCanonically_zeros (by norm_num) (by norm_num) rfl

end Database

end Dibibase
