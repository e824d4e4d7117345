import Dibibase.Lang.Visitor

/-!
# Records and their bytes

The encoding of a record has no separators: each value has as many bytes as the type of its column
says. Decoding is its inverse as long as no string or blob is longer than the length field of its
own type can tell.
-/

namespace Dibibase

open Library

/-- The type has the length that its values have. -/
def DataType.Declared (t : DataType) : Prop :=
  match t.id with
  | .ascii | .blob => True
  | .bigint | .double => t.length = 8
  | .float | .int => t.length = 4
  | .smallint => t.length = 2
  | .boolean | .tinyint => t.length = 1
  | .unknown _ => False

lemma CQL3Visitor.declared {name : CqlParser.DataTypeName} {t : DataType}
    (h : visitDataTypeName name = .ok t) : t.Declared := by
  cases name <;> cases h <;> trivial

/-- The bytes of `BOOLEAN` columns are 0 or 1. -/
def BooleansValid : List Field → List UInt8 → Prop
  | [], _ => True
  | f :: fields, bs =>
    (f.type.id = .boolean → bs.head? = some 0 ∨ bs.head? = some 1) ∧
      BooleansValid fields (bs.drop f.type.length.toNat)

namespace Record

/-- The record fills a buffer of the size of a record, and it is read back from there. -/
structure RoundTrips (s : Schema) (r : Record) : Prop where
  fills : ∃ bs, r.bytes (MemoryBuffer.new s.recordSize) = .ok ((), ⟨bs, s.recordSize⟩) ∧
    bs.length = s.recordSize ∧
      Record.from s (MemoryBuffer.ofBytes bs) = .ok (r, ⟨bs, s.recordSize⟩)
  accepted : s.verify r = true

/-- The bytes are decoded to a record that is encoded to the same bytes. -/
def Reencodes (s : Schema) (bs : List UInt8) : Prop :=
  ∃ r, Record.from s (MemoryBuffer.ofBytes bs) = .ok (r, ⟨bs, s.recordSize⟩) ∧
    r.bytes (MemoryBuffer.new s.recordSize) = .ok ((), ⟨bs, s.recordSize⟩)

/-! ### Encoding and decoding -/

section Codec

variable {s : Schema} {r : Record} {bs : List UInt8}

lemma bytes_new (hsize : s.recordSize < 2 ^ 31) (h : s.verify r = true) :
    r.bytes (MemoryBuffer.new s.recordSize) = .ok ((), ⟨r.encode, s.recordSize⟩) := by
  have hlength := length_encode h
  have hwrite := r.writes_bytes (MemoryBuffer.new s.recordSize)
    (by simp [MemoryBuffer.new, MemoryBuffer.size, hlength])
    (by simpa [MemoryBuffer.new, MemoryBuffer.size] using hsize)
  rw [hwrite, MemoryBuffer.new_append, hlength]
  simp

lemma from_encode (hsize : s.recordSize < 2 ^ 31) (h : s.verify r = true) (hsized : r.Sized) :
    Record.from s (MemoryBuffer.ofBytes r.encode) = .ok (r, ⟨r.encode, s.recordSize⟩) := by
  have hlength := length_encode h
  have hread := reads_from h hsized (MemoryBuffer.ofBytes r.encode) [] (Nat.zero_le _)
    (by simpa [MemoryBuffer.ofBytes, MemoryBuffer.size, hlength] using hsize)
    (by simp [MemoryBuffer.ofBytes])
  rw [hread]
  simp [MemoryBuffer.ofBytes, hlength]

/-- A record that is read has no value that is too long. -/
lemma roundTrips_iff (hsize : s.recordSize < 2 ^ 31) (h : s.verify r = true) :
    RoundTrips s r ↔ r.Sized := by
  constructor
  · rintro ⟨⟨bs, -, -, hread⟩, -⟩
    exact returns_sized s _ _ _ hread
  · intro hsized
    exact ⟨⟨r.encode, bytes_new hsize h, length_encode h, from_encode hsize h hsized⟩, h⟩

end Codec

/-! ### Bytes of a record -/

/-- Every string of the length of a type is the encoding of a value of the type. -/
lemma exists_data {t : DataType} (ht : t.Declared) {bs : List UInt8}
    (hlength : bs.length = t.length.toNat)
    (hboolean : t.id = .boolean → bs.head? = some 0 ∨ bs.head? = some 1) :
    ∃ d : Data, d.type = t ∧ d.encode = bs ∧ d.Sized := by
  obtain ⟨id, length⟩ := t
  have hmod : bs.length % 2 ^ 32 = bs.length := by
    rw [hlength]
    exact Nat.mod_eq_of_lt length.isLt
  have hof : BitVec.ofNat 32 bs.length = length := by
    rw [hlength, BitVec.ofNat_toNat, BitVec.setWidth_eq]
  cases id with
  | ascii =>
    refine ⟨.ascii bs, by rw [Data.type, hof], ?_, by rw [Data.Sized]; omega⟩
    rw [Data.encode, hmod, List.take_length]
  | blob =>
    refine ⟨.blob bs, by rw [Data.type, hof], ?_, by rw [Data.Sized]; omega⟩
    rw [Data.encode, hmod, List.take_length]
  | bigint =>
    obtain rfl : length = 8 := ht
    exact ⟨.bigint (BitVec.ofNat 64 (leValue bs)), rfl, leBytes_ofNat rfl hlength, trivial⟩
  | double =>
    obtain rfl : length = 8 := ht
    exact ⟨.double (BitVec.ofNat 64 (leValue bs)), rfl, leBytes_ofNat rfl hlength, trivial⟩
  | float =>
    obtain rfl : length = 4 := ht
    exact ⟨.float (BitVec.ofNat 32 (leValue bs)), rfl, leBytes_ofNat rfl hlength, trivial⟩
  | int =>
    obtain rfl : length = 4 := ht
    exact ⟨.int (BitVec.ofNat 32 (leValue bs)), rfl, leBytes_ofNat rfl hlength, trivial⟩
  | smallint =>
    obtain rfl : length = 2 := ht
    exact ⟨.smallint (BitVec.ofNat 16 (leValue bs)), rfl, leBytes_ofNat rfl hlength, trivial⟩
  | tinyint =>
    obtain rfl : length = 1 := ht
    exact ⟨.tinyint (BitVec.ofNat 8 (leValue bs)), rfl, leBytes_ofNat rfl hlength, trivial⟩
  | boolean =>
    obtain rfl : length = 1 := ht
    obtain ⟨x, rfl⟩ := List.length_eq_one_iff.mp hlength
    rcases hboolean rfl with h | h
    · cases h
      exact ⟨.boolean false, rfl, rfl, trivial⟩
    · cases h
      exact ⟨.boolean true, rfl, rfl, trivial⟩
  | unknown code => exact ht.elim

/-- The same for the columns of a schema. -/
lemma exists_values {fields : List Field} (hfields : ∀ f ∈ fields, f.type.Declared)
    {bs : List UInt8} (hlength : bs.length = (fields.map (fun f => f.type.length.toNat)).sum)
    (hvalid : BooleansValid fields bs) :
    ∃ values : List Data, values.map Data.type = fields.map Field.type ∧
      values.flatMap Data.encode = bs ∧ ∀ v ∈ values, v.Sized := by
  induction fields generalizing bs with
  | nil => exact ⟨[], rfl, (List.length_eq_zero_iff.mp hlength).symm, by simp⟩
  | cons f fields ih =>
    rw [List.map_cons, List.sum_cons] at hlength
    have htake : (bs.take f.type.length.toNat).length = f.type.length.toNat := by
      rw [List.length_take]
      omega
    have hhead : f.type.id = .boolean → (bs.take f.type.length.toNat).head? = some 0 ∨
        (bs.take f.type.length.toNat).head? = some 1 := by
      intro hid
      have hone : f.type.length = 1 := by
        have hdeclared := hfields f (by simp)
        rw [DataType.Declared, hid] at hdeclared
        exact hdeclared
      have hbyte := hvalid.1 hid
      cases bs with
      | nil => simp at hbyte
      | cons b bs => simpa [hone] using hbyte
    obtain ⟨d, htype, hencode, hsized⟩ := exists_data (hfields f (by simp)) htake hhead
    obtain ⟨values, htypes, hencodes, hall⟩ := ih (fun g hg => hfields g (by simp [hg]))
      (by rw [List.length_drop]; omega) hvalid.2
    refine ⟨d :: values, by rw [List.map_cons, htype, htypes, List.map_cons], ?_, ?_⟩
    · rw [List.flatMap_cons, hencode, hencodes, List.take_append_drop]
    · intro v hv
      rcases List.mem_cons.mp hv with rfl | hv
      · exact hsized
      · exact hall v hv

/-- A record is encoded and read back exactly when none of its values is too long, and bytes of the
right length are decoded and encoded again. -/
theorem codec_inverse {s : Schema}
    (hfields : ∀ f ∈ s.fields, ∃ name, CQL3Visitor.visitDataTypeName name = .ok f.type)
    (hsize : s.recordSize < 2 ^ 31) :
    (∀ r, s.verify r = true → (RoundTrips s r ↔ r.Sized)) ∧
      ∀ bs, bs.length = s.recordSize → BooleansValid s.fields bs → Reencodes s bs := by
  constructor
  · intro r h
    exact roundTrips_iff hsize h
  · intro bs hlength hvalid
    have hdeclared : ∀ f ∈ s.fields, f.type.Declared := by
      intro f hf
      obtain ⟨name, hname⟩ := hfields f hf
      exact CQL3Visitor.declared hname
    obtain ⟨values, htypes, hencode, hsized⟩ := exists_values hdeclared hlength hvalid
    have hverify : s.verify ⟨values⟩ = true := Schema.verify_iff.mpr htypes
    have hbytes : (⟨values⟩ : Record).encode = bs := hencode
    have hread := from_encode hsize hverify hsized
    have hwrite := bytes_new hsize hverify
    rw [hbytes] at hread hwrite
    exact ⟨⟨values⟩, hread, hwrite⟩

/-- A string and a number. -/
theorem codec_inverse_twoColumns :
    RoundTrips ⟨0, 0, [⟨[107], ⟨.ascii, 2⟩⟩, ⟨[118], ⟨.int, 4⟩⟩]⟩ ⟨[.ascii [97, 98], .int 7]⟩ :=
  ((codec_inverse (by
      intro f hf
      simp only [List.mem_cons, List.not_mem_nil, or_false] at hf
      rcases hf with rfl | rfl
      · exact ⟨.ascii [50], by decide⟩
      · exact ⟨.int, rfl⟩) (by decide)).1 _ (by decide)).mpr (by
    intro v hv
    simp only [List.mem_cons, List.not_mem_nil, or_false] at hv
    rcases hv with rfl | rfl
    · exact (by decide : 2 < 2 ^ 32)
    · trivial)

/-- The length field of such a string is zero. -/
lemma not_roundTrips_of_length {data : List UInt8} (hdata : data.length = 2 ^ 32) :
    Schema.verify ⟨0, 0, [⟨[107], ⟨.ascii, 0⟩⟩]⟩ ⟨[.ascii data]⟩ = true ∧
      ¬RoundTrips ⟨0, 0, [⟨[107], ⟨.ascii, 0⟩⟩]⟩ ⟨[.ascii data]⟩ := by
  have hverify : Schema.verify ⟨0, 0, [⟨[107], ⟨.ascii, 0⟩⟩]⟩ ⟨[.ascii data]⟩ = true := by
    rw [Schema.verify_iff]
    simp only [List.map_cons, List.map_nil, Data.type, hdata]
    rfl
  refine ⟨hverify, fun h => ?_⟩
  have hsized := (roundTrips_iff (by decide) hverify).mp h (.ascii data) (List.mem_singleton.mpr rfl)
  rw [Data.Sized, hdata] at hsized
  exact absurd hsized (lt_irrefl _)

/-- A column for empty strings takes a string of `2 ^ 32` bytes, and an empty one comes back. -/
theorem not_roundTrips_long :
    Schema.verify ⟨0, 0, [⟨[107], ⟨.ascii, 0⟩⟩]⟩ ⟨[.ascii (List.replicate (2 ^ 32) 97)]⟩ = true ∧
      ¬RoundTrips ⟨0, 0, [⟨[107], ⟨.ascii, 0⟩⟩]⟩ ⟨[.ascii (List.replicate (2 ^ 32) 97)]⟩ :=
  not_roundTrips_of_length List.length_replicate

end Record

end Dibibase
