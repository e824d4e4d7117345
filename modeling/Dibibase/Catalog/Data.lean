import Dibibase.Util.Buffer
import Dibibase.Util.Numbers
import Dibibase.Library.OrderedMap

/-!
# Data values and their types

The nine kinds of values with their type descriptors, comparison, printing and byte
encoding. Integers are bit vectors read in two's complement, floating-point numbers are
their bit patterns, and strings are byte lists of any length, whereas the length field of
a type has 32 bits.
-/

namespace Dibibase

open Library

/-- `Data::Type::Id`. A byte outside the enumeration is kept as it is. -/
inductive TypeId where
  | ascii | bigint | boolean | double | float | int | smallint | tinyint | blob
  | unknown (code : { c : BitVec 8 // 9 ≤ c.toNat })
  deriving DecidableEq, Repr

namespace TypeId

def toByte : TypeId → BitVec 8
  | ascii => 0 | bigint => 1 | boolean => 2 | double => 3 | float => 4
  | int => 5 | smallint => 6 | tinyint => 7 | blob => 8
  | unknown code => code.val

def ofByte (c : BitVec 8) : TypeId :=
  if h : 9 ≤ c.toNat then unknown ⟨c, h⟩
  else match c.toNat with
    | 0 => ascii | 1 => bigint | 2 => boolean | 3 => double | 4 => float
    | 5 => int | 6 => smallint | 7 => tinyint | _ => blob

/-- The kinds whose values can be compared. -/
def Ordered (id : TypeId) : Prop := id ≠ .boolean ∧ id ≠ .blob

instance (id : TypeId) : Decidable id.Ordered := inferInstanceAs (Decidable (_ ∧ _))

@[simp] lemma ofByte_toByte (id : TypeId) : ofByte id.toByte = id := by
  cases id with
  | unknown code => simp [toByte, ofByte, code.property]
  | _ => rfl

end TypeId

/-- `Data::Type`. -/
structure DataType where
  id : TypeId
  length : BitVec 32
  deriving DecidableEq, Repr

namespace DataType

/-- `Data::Type::from`. -/
def «from» : BufferM DataType := do
  let id ← BufferM.getInt8
  let size ← BufferM.getInt32
  return ⟨TypeId.ofByte id, size⟩

def size (_ : DataType) : Nat := 1 + 4

def bytes (t : DataType) : BufferM Unit := do
  BufferM.putInt8 t.id.toByte
  BufferM.putUint32 t.length

def encode (t : DataType) : List UInt8 := leBytes 1 t.id.toByte.toNat ++ leBytes 4 t.length.toNat

@[simp] lemma length_encode (t : DataType) : t.encode.length = 5 := by simp [encode]

lemma writes_bytes (t : DataType) : Writes t.bytes t.encode :=
  (Writes.putFixed _).seq (Writes.putFixed _)

lemma reads_from (t : DataType) : Reads DataType.from t.encode t := by
  have hsize := (Reads.getUint32 t.length).map (f := fun size => (⟨t.id, size⟩ : DataType))
  refine (Reads.getUint8 t.id.toByte).bind ?_
  rw [TypeId.ofByte_toByte]
  exact hsize

lemma consumes_from : Consumes size DataType.from :=
  Consumes.getUint8.bind (fun _ => Consumes.getUint32.map (fun _ => by simp [size]))

lemma keepsSize_bytes (t : DataType) : KeepsSize t.bytes :=
  (KeepsSize.putFixed _).bind (fun _ => KeepsSize.putFixed _)

end DataType

/-- `Data` and its nine subclasses. -/
inductive Data where
  | ascii (data : List UInt8)
  | bigint (data : BitVec 64)
  | boolean (data : Bool)
  | double (data : BitVec 64)
  | float (data : BitVec 32)
  | int (data : BitVec 32)
  | smallint (data : BitVec 16)
  | tinyint (data : BitVec 8)
  | blob (data : List UInt8)
  deriving DecidableEq, Repr

/-- The operator `<=` on floating-point numbers, read off their bit patterns; `inf` is the
pattern of infinity. A NaN is not below anything. -/
def ieeeLe {w : Nat} (inf : Nat) (a b : BitVec w) : Bool :=
  let magnitude (x : BitVec w) : Nat := x.toNat % 2 ^ (w - 1)
  let value (x : BitVec w) : Int := if x.msb then -(magnitude x) else magnitude x
  decide (magnitude a ≤ inf ∧ magnitude b ≤ inf ∧ value a ≤ value b)

namespace Data

/-- `type()`. The size of a string or blob is cut to the 32 bits of the length field. -/
def type : Data → DataType
  | ascii data => ⟨.ascii, BitVec.ofNat 32 data.length⟩
  | bigint _ => ⟨.bigint, 8⟩
  | boolean _ => ⟨.boolean, 1⟩
  | double _ => ⟨.double, 8⟩
  | float _ => ⟨.float, 4⟩
  | int _ => ⟨.int, 4⟩
  | smallint _ => ⟨.smallint, 2⟩
  | tinyint _ => ⟨.tinyint, 1⟩
  | blob data => ⟨.blob, BitVec.ofNat 32 data.length⟩

/-- `Data::from(Buffer *, Type)`. For an unknown type it returns a null pointer, which
every caller stores as a value; the model stops there. -/
def «from» (type : DataType) : BufferM Data :=
  match type.id with
  | .ascii => return ascii (← BufferM.getString (toInt type.length.toNat))
  | .bigint => return bigint (← BufferM.getInt64)
  | .boolean => return boolean (← BufferM.getBoolean)
  | .double => return double (← BufferM.getDouble)
  | .float => return float (← BufferM.getFloat)
  | .int => return int (← BufferM.getInt32)
  | .smallint => return smallint (← BufferM.getInt16)
  | .tinyint => return tinyint (← BufferM.getInt8)
  | .blob => return blob (← BufferM.getBlob (toInt type.length.toNat))
  | .unknown _ => throw .undefinedBehaviour

/-- `Data::from(Data *)`. A blob is copied by a loop over `int`. -/
def clone : Data → Data
  | blob data => blob (data.take (toInt data.length).toNat ++
      List.replicate (data.length - (toInt data.length).toNat) 0)
  | d => d

/-- `compare` tells whether this value is greater than the other. -/
def compare : Data → Data → Except Exception Bool
  | ascii a, ascii b => .ok (!stringLe a b)
  | bigint a, bigint b => .ok (!decide (a.toInt ≤ b.toInt))
  | boolean _, _ => .error .uncomparableType
  | double a, double b => .ok (!ieeeLe 0x7ff0000000000000 a b)
  | float a, float b => .ok (!ieeeLe 0x7f800000 a b)
  | int a, int b => .ok (!decide (a.toInt ≤ b.toInt))
  | smallint a, smallint b => .ok (!decide (a.toInt ≤ b.toInt))
  | tinyint a, tinyint b => .ok (!decide (a.toInt ≤ b.toInt))
  | blob _, _ => .error .uncomparableType
  | _, _ => .error .incompatibleDataTypes

/-- `print()`. Only two classes return a string; the other bodies are empty. -/
def print : Data → Except Exception (List UInt8)
  | ascii data => .ok data
  | int data => .ok (toDecimal data.toInt)
  | _ => .error .undefinedBehaviour

def bytes : Data → BufferM Unit
  | ascii data => BufferM.putString data
  | bigint data => BufferM.putInt64 data
  | boolean data => BufferM.putBoolean data
  | double data => BufferM.putDouble data
  | float data => BufferM.putFloat data
  | int data => BufferM.putInt32 data
  | smallint data => BufferM.putInt16 data
  | tinyint data => BufferM.putInt8 data
  | blob data => BufferM.putBlob data (toInt data.length)

/-- The bytes a value stands for in a buffer. A string or blob is cut to the length that
its type has. -/
def encode : Data → List UInt8
  | ascii data => data.take (data.length % 2 ^ 32)
  | bigint data => leBytes 8 data.toNat
  | boolean data => leBytes 1 data.toNat
  | double data => leBytes 8 data.toNat
  | float data => leBytes 4 data.toNat
  | int data => leBytes 4 data.toNat
  | smallint data => leBytes 2 data.toNat
  | tinyint data => leBytes 1 data.toNat
  | blob data => data.take (data.length % 2 ^ 32)

/-- The size of the value fits the length field of its type. -/
def Sized : Data → Prop
  | ascii data => data.length < 2 ^ 32
  | blob data => data.length < 2 ^ 32
  | _ => True

lemma writes_bytes (d : Data) : Writes d.bytes d.encode := by
  cases d with
  | ascii data => exact Writes.putString
  | blob data => exact Writes.putBlob
  | _ => exact Writes.putFixed _

/-- In a buffer of any size a value shorter than `2 ^ 31` bytes is written. -/
lemma writesUpTo_bytes {limit : Nat} (hl : limit ≤ 2 ^ 63) {d : Data}
    (h : d.type.length.toNat < 2 ^ 31) : WritesUpTo limit d.bytes d.encode := by
  cases d with
  | ascii data =>
    rw [type, BitVec.toNat_ofNat] at h
    exact WritesUpTo.putString hl h
  | blob data =>
    rw [type, BitVec.toNat_ofNat] at h
    exact WritesUpTo.putString hl h
  | _ => exact WritesUpTo.putFixed hl _

/-- A longer value is not. -/
lemma throws_bytes {d : Data} (h : 2 ^ 31 ≤ d.type.length.toNat) : Throws d.bytes := by
  cases d with
  | ascii data =>
    rw [type, BitVec.toNat_ofNat] at h
    exact throws_putString h
  | blob data =>
    rw [type, BitVec.toNat_ofNat] at h
    exact throws_putString h
  | _ => simp [type] at h

lemma keepsSize_bytes (d : Data) : KeepsSize d.bytes := by
  cases d with
  | ascii data => exact KeepsSize.putString data
  | blob data => exact KeepsSize.putBlob data _
  | _ => exact KeepsSize.putFixed _

lemma reads_from (d : Data) (h : d.Sized) : Reads (Data.from d.type) d.encode d := by
  cases d with
  | ascii data =>
    have hmod : data.length % 2 ^ 32 = data.length := Nat.mod_eq_of_lt h
    have hread := (Reads.getString data).map (f := ascii)
    simpa only [type, «from», encode, BitVec.toNat_ofNat, hmod, List.take_length] using hread
  | blob data =>
    have hmod : data.length % 2 ^ 32 = data.length := Nat.mod_eq_of_lt h
    have hread := (Reads.getBlob data).map (f := blob)
    simpa only [type, «from», encode, BitVec.toNat_ofNat, hmod, List.take_length] using hread
  | bigint data => exact (Reads.getUint64 data).map (f := bigint)
  | boolean data => exact (Reads.getBoolean data).map (f := boolean)
  | double data => exact (Reads.getUint64 data).map (f := double)
  | float data => exact (Reads.getUint32 data).map (f := float)
  | int data => exact (Reads.getUint32 data).map (f := int)
  | smallint data => exact (Reads.getUint16 data).map (f := smallint)
  | tinyint data => exact (Reads.getUint8 data).map (f := tinyint)

/-- The length field holds the number of bytes of the encoding. -/
lemma length_encode (d : Data) : d.encode.length = d.type.length.toNat := by
  cases d with
  | ascii data =>
    simp only [encode, type, BitVec.toNat_ofNat, List.length_take]
    omega
  | blob data =>
    simp only [encode, type, BitVec.toNat_ofNat, List.length_take]
    omega
  | _ => simp only [encode, type, length_leBytes]; rfl

/-- A value that is read is never too large. -/
lemma returns_sized (t : DataType) : Returns Sized (Data.from t) := by
  unfold Data.from
  split
  case h_1 => exact (Returns.getString _).bind (fun _ h => Returns.pure h)
  case h_9 => exact (Returns.getBlob _).bind (fun _ h => Returns.pure h)
  case h_10 =>
    intro b d b' h
    cases h
  all_goals exact (Returns.trivial _).bind (fun _ _ => Returns.pure (by simp [Sized]))

lemma sized_of_id {d : Data} (h : d.type.id ≠ .ascii ∧ d.type.id ≠ .blob) : d.Sized := by
  cases d with
  | ascii data => simp [type] at h
  | blob data => simp [type] at h
  | _ => simp [Sized]

end Data

/-! ### Sort keys -/

/-- TINYINT, SMALLINT, INT and BIGINT as the language front end builds them. -/
def DataType.IsInteger (t : DataType) : Prop :=
  t = ⟨.tinyint, 1⟩ ∨ t = ⟨.smallint, 2⟩ ∨ t = ⟨.int, 4⟩ ∨ t = ⟨.bigint, 8⟩

instance (t : DataType) : Decidable t.IsInteger := by
  unfold DataType.IsInteger
  infer_instance

/-- The types whose values make sort keys: the integer types and ASCII of any length. -/
def DataType.Comparable (t : DataType) : Prop := t.IsInteger ∨ t.id = .ascii

instance (t : DataType) : Decidable t.Comparable := by
  unfold DataType.Comparable
  infer_instance

lemma DataType.Comparable.ordered {t : DataType} (h : t.Comparable) : t.id.Ordered := by
  rcases h with (rfl | rfl | rfl | rfl) | hascii
  · decide
  · decide
  · decide
  · decide
  · rw [hascii]
    decide

namespace Data

/-- The values of one type. -/
def ofType (t : DataType) : Set Data := { d | d.type = t }

lemma mem_ofType {d : Data} {t : DataType} : d ∈ ofType t ↔ d.type = t := Iff.rfl

lemma exists_ascii {d : Data} (h : d.type.id = .ascii) : ∃ data, d = ascii data := by
  cases d <;> simp [type] at h ⊢

/-- The string an ASCII value holds. -/
def stringValue : Data → List UInt8
  | ascii data => data
  | _ => []

/-- The number an integer value holds. -/
def intValue : Data → Int
  | bigint data => data.toInt
  | int data => data.toInt
  | smallint data => data.toInt
  | tinyint data => data.toInt
  | _ => 0

lemma compare_ofType_integer {t : DataType} (ht : t.IsInteger) {a b : Data} (ha : a ∈ ofType t)
    (hb : b ∈ ofType t) :
    a.compare b = .ok (!decide (a.intValue ≤ b.intValue)) ∧ (a.intValue = b.intValue → a = b) := by
  rw [mem_ofType] at ha hb
  rcases ht with rfl | rfl | rfl | rfl <;> cases a <;> cases b <;> simp [type] at ha hb <;>
    exact ⟨rfl, fun h => congrArg _ (BitVec.toInt_inj.mp h)⟩

/-- Values of one sort-key type are strictly and totally ordered by `compare`. -/
theorem ordersOn_compare {t : DataType} (ht : t.Comparable) : OrdersOn compare (ofType t) := by
  rcases ht with ht | ht
  · refine OrdersOn.ofLe intValue (fun x y => decide (x ≤ y)) ?_ ?_ ?_
      (fun a ha b hb hab => (compare_ofType_integer ht ha hb).2 hab)
      (fun a ha b hb => (compare_ofType_integer ht ha hb).1)
    all_goals simp only [decide_eq_true_eq]; omega
  · have hascii : ∀ d ∈ ofType t, ∃ data, d = ascii data := by
      intro d hd
      rw [mem_ofType] at hd
      exact exists_ascii (by rw [hd, ht])
    refine OrdersOn.ofLe stringValue stringLe stringLe_total stringLe_antisymm stringLe_trans ?_ ?_
    · intro a ha b hb hab
      obtain ⟨x, rfl⟩ := hascii a ha
      obtain ⟨y, rfl⟩ := hascii b hb
      exact congrArg ascii hab
    · intro a ha b hb
      obtain ⟨x, rfl⟩ := hascii a ha
      obtain ⟨y, rfl⟩ := hascii b hb
      rfl

/-- A value that is neither above nor below one of a sort-key type is equal to it. -/
lemma eq_of_not_compare {a b : Data} (ha : a.type.Comparable) (hab : a.compare b = .ok false)
    (hba : b.compare a = .ok false) : a = b := by
  have hb : b.type.id = a.type.id := by
    cases a <;> cases b <;> simp [compare] at hab <;> rfl
  rcases ha with ha | ha
  · have htype : b.type = a.type := by
      cases a <;> cases b <;> simp [type, DataType.IsInteger] at ha hb ⊢
    exact (ordersOn_compare (.inl ha)).connected a rfl b htype hab hba
  · obtain ⟨x, rfl⟩ := exists_ascii ha
    obtain ⟨y, rfl⟩ := exists_ascii (hb.trans ha)
    simp only [compare, Except.ok.injEq, Bool.not_eq_eq_eq_not, Bool.not_false] at hab hba
    rw [stringLe_antisymm _ _ hab hba]

/-- A comparison of values of one kind returns, unless they are booleans or blobs. -/
lemma compare_returns {a b : Data} (hkind : b.type.id = a.type.id) (h : a.type.id.Ordered) :
    ∃ greater, a.compare b = .ok greater := by
  cases a <;> cases b <;> first | exact ⟨_, rfl⟩ | simp [type, TypeId.Ordered] at hkind h

/-- Any other comparison throws. -/
lemma compare_throws {a b : Data} (h : ¬(b.type.id = a.type.id ∧ a.type.id.Ordered)) :
    ∃ e, a.compare b = .error e ∧ e.Incomparable := by
  cases a <;> cases b <;> simp [type, compare, TypeId.Ordered, Exception.Incomparable] at *

/-- A copy has the type of the original. -/
@[simp] lemma type_clone (d : Data) : d.clone.type = d.type := by
  cases d with
  | blob data =>
    have hle : (toInt data.length).toNat ≤ data.length := by
      unfold toInt Int.bmod
      dsimp only
      split <;> omega
    simp [clone, type, hle]
  | _ => rfl

lemma clone_clone (d : Data) : d.clone.clone = d.clone := by
  cases d with
  | blob data =>
    have hle : (toInt data.length).toNat ≤ data.length := by
      unfold toInt Int.bmod
      dsimp only
      split <;> omega
    simp [clone, hle]
  | _ => rfl

lemma compare_clone (a b : Data) : a.clone.compare b.clone = a.compare b := by
  cases a <;> cases b <;> simp only [clone, compare]

/-- A copy is written as the original is, if it is written at all. -/
lemma encode_clone {d : Data} (h : d.type.length.toNat < 2 ^ 31) : d.clone.encode = d.encode := by
  cases d with
  | blob data =>
    rw [type, BitVec.toNat_ofNat] at h
    have hlen : (toInt data.length).toNat = data.length % 2 ^ 32 := by
      unfold toInt Int.bmod
      dsimp only
      split <;> omega
    have hle : data.length % 2 ^ 32 ≤ data.length := Nat.mod_le _ _
    have htake : (data.take (data.length % 2 ^ 32)).length = data.length % 2 ^ 32 := by
      rw [List.length_take]
      omega
    have htotal : (data.take (data.length % 2 ^ 32) ++
        List.replicate (data.length - data.length % 2 ^ 32) 0).length = data.length := by
      rw [List.length_append, htake, List.length_replicate]
      omega
    rw [clone, encode, encode, hlen, htotal, List.take_append_of_le_length (by omega), List.take_take,
      Nat.min_self]
  | _ => rfl

lemma clone_of_comparable {d : Data} (h : d.type.Comparable) : d.clone = d := by
  cases d <;> simp [clone, type, DataType.Comparable, DataType.IsInteger] at h ⊢

end Data

end Dibibase
