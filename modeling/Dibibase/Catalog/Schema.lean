import Dibibase.Catalog.Data

/-!
# Fields, schemas and records

A record is accepted by a schema when its values have the types of the fields, and then
its bytes are the encodings of its values one after the other, without any delimiter.
-/

namespace Dibibase

open Library

structure Field where
  name : List UInt8
  type : DataType
  deriving DecidableEq, Repr

namespace Field

def «from» : BufferM Field := do
  let nameLength ← BufferM.getUint8
  let name ← BufferM.getString nameLength.toNat
  let type ← DataType.from
  return ⟨name, type⟩

def size (f : Field) : Nat := 1 + f.name.length + f.type.size

def bytes (f : Field) : BufferM Unit := do
  BufferM.putUint8 (BitVec.ofNat 8 f.name.length)
  BufferM.putString f.name
  f.type.bytes

def encode (f : Field) : List UInt8 :=
  leBytes 1 (BitVec.ofNat 8 f.name.length).toNat ++ (f.name ++ f.type.encode)

lemma length_encode (f : Field) : f.encode.length = f.size := by
  simp [encode, size, DataType.size]
  omega

lemma writes_bytes (f : Field) : Writes f.bytes f.encode :=
  (Writes.putFixed _).seq (Writes.putName.seq f.type.writes_bytes)

lemma reads_from (f : Field) (h : f.name.length ≤ 255) : Reads Field.from f.encode f := by
  refine (Reads.getUint8 _).bind (Reads.bind (a := f.name) ?_ ?_)
  · have hlen : (BitVec.ofNat 8 f.name.length).toNat = f.name.length := by
      rw [BitVec.toNat_ofNat]
      omega
    rw [hlen, ← toInt_of_lt (by omega)]
    exact Reads.getString f.name
  · exact f.type.reads_from.map (f := fun type => (⟨f.name, type⟩ : Field))

lemma consumes_from : Consumes size Field.from := by
  refine Consumes.getUint8.bind (fun n => (Consumes.getString n.toNat (by have := n.isLt; omega)).bind
    (fun name => DataType.consumes_from.map (fun type => ?_)))
  simp [size]
  omega

lemma keepsSize_bytes (f : Field) : KeepsSize f.bytes :=
  (KeepsSize.putFixed _).bind (fun _ => (KeepsSize.putString _).bind
    (fun _ => f.type.keepsSize_bytes))

end Field

structure Record where
  values : List Data
  deriving DecidableEq, Repr

structure Schema where
  sortKeyIndex : BitVec 64
  partitionKeyIndex : BitVec 64
  fields : List Field
  deriving DecidableEq, Repr

namespace Schema

def «from» : BufferM Schema := do
  let fieldsLength ← BufferM.getUint8
  let fields ← BufferM.replicate fieldsLength.toNat Field.from
  let sortIndex ← BufferM.getUint64
  let partitionIndex ← BufferM.getUint64
  return ⟨sortIndex, partitionIndex, fields⟩

def verify (s : Schema) (r : Record) : Bool :=
  if r.values.length ≠ s.fields.length then false
  else (List.zipWith (fun value field => decide (value.type = field.type)) r.values s.fields).all id

def recordSize (s : Schema) : Nat := (s.fields.map (fun f => f.type.length.toNat)).sum

def pushBack (s : Schema) (field : Field) : Schema := { s with fields := s.fields ++ [field] }

def setSortKeyIndex (s : Schema) (sortKeyIndex : BitVec 64) : Schema :=
  { s with sortKeyIndex := sortKeyIndex }

/-- This setter assigns the index of the sort key, too. -/
def setPartitionKeyIndex (s : Schema) (sortKeyIndex : BitVec 64) : Schema :=
  { s with sortKeyIndex := sortKeyIndex }

@[simp] lemma pushBack_fields (s : Schema) (field : Field) :
    (s.pushBack field).fields = s.fields ++ [field] := rfl

@[simp] lemma pushBack_sortKeyIndex (s : Schema) (field : Field) :
    (s.pushBack field).sortKeyIndex = s.sortKeyIndex := rfl

@[simp] lemma pushBack_partitionKeyIndex (s : Schema) (field : Field) :
    (s.pushBack field).partitionKeyIndex = s.partitionKeyIndex := rfl

@[simp] lemma setSortKeyIndex_fields (s : Schema) (i : BitVec 64) :
    (s.setSortKeyIndex i).fields = s.fields := rfl

@[simp] lemma setSortKeyIndex_sortKeyIndex (s : Schema) (i : BitVec 64) :
    (s.setSortKeyIndex i).sortKeyIndex = i := rfl

@[simp] lemma setSortKeyIndex_partitionKeyIndex (s : Schema) (i : BitVec 64) :
    (s.setSortKeyIndex i).partitionKeyIndex = s.partitionKeyIndex := rfl

@[simp] lemma setSortKeyIndex_setSortKeyIndex (s : Schema) (i j : BitVec 64) :
    (s.setSortKeyIndex i).setSortKeyIndex j = s.setSortKeyIndex j := rfl

/-- The two setters do the same. -/
@[simp] lemma setPartitionKeyIndex_eq (s : Schema) (i : BitVec 64) :
    s.setPartitionKeyIndex i = s.setSortKeyIndex i := rfl

def size (s : Schema) : Nat := 1 + (s.fields.map (fun f => f.size)).sum + 8 + 8

def bytes (s : Schema) : BufferM Unit := do
  BufferM.putUint8 (BitVec.ofNat 8 s.fields.length)
  s.fields.forM Field.bytes
  BufferM.putUint64 s.sortKeyIndex
  BufferM.putUint64 s.partitionKeyIndex

/-- The column of the sort key. -/
def sortKeyField (s : Schema) : Option Field := s.fields[s.sortKeyIndex.toNat]?

/-- The sort-key column exists and has the type `t`. -/
def HasSortKey (s : Schema) (t : DataType) : Prop := ∃ f, s.sortKeyField = some f ∧ f.type = t

lemma HasSortKey.unique {s : Schema} {t t' : DataType} (h : s.HasSortKey t) (h' : s.HasSortKey t') :
    t = t' := by
  obtain ⟨f, hf, rfl⟩ := h
  obtain ⟨f', hf', rfl⟩ := h'
  rw [hf, Option.some.injEq] at hf'
  rw [hf']

def encode (s : Schema) : List UInt8 :=
  leBytes 1 (BitVec.ofNat 8 s.fields.length).toNat ++ (s.fields.flatMap Field.encode ++
    (leBytes 8 s.sortKeyIndex.toNat ++ leBytes 8 s.partitionKeyIndex.toNat))

lemma length_encode (s : Schema) : s.encode.length = s.size := by
  simp [encode, size, List.length_flatMap, Field.length_encode]
  omega

lemma writes_bytes (s : Schema) : Writes s.bytes s.encode :=
  (Writes.putFixed _).seq ((Writes.forM _ (fun f _ => f.writes_bytes)).seq
    ((Writes.putFixed _).seq (Writes.putFixed _)))

lemma reads_from (s : Schema) (hn : s.fields.length ≤ 255)
    (hf : ∀ f ∈ s.fields, f.name.length ≤ 255) : Reads Schema.from s.encode s := by
  have hlen : (BitVec.ofNat 8 s.fields.length).toNat = s.fields.length := by
    rw [BitVec.toNat_ofNat]
    omega
  refine (Reads.getUint8 _).bind (Reads.bind (a := s.fields) ?_ ?_)
  · rw [hlen]
    exact Reads.replicate s.fields (fun f hmem => f.reads_from (hf f hmem))
  · exact (Reads.getUint64 s.sortKeyIndex).bind ((Reads.getUint64 s.partitionKeyIndex).map
      (f := fun p => (⟨s.sortKeyIndex, p, s.fields⟩ : Schema)))

lemma consumes_from : Consumes size Schema.from := by
  refine Consumes.getUint8.bind (fun n => (Field.consumes_from.replicate n.toNat).bind
    (fun fields => Consumes.getUint64.bind (fun i => Consumes.getUint64.map (fun p => ?_))))
  change 1 + (fields.map Field.size).sum + 8 + 8 - 1 - (fields.map Field.size).sum - 8 ≤ 8
  omega

lemma keepsSize_bytes (s : Schema) : KeepsSize s.bytes :=
  (KeepsSize.putFixed _).bind (fun _ => (KeepsSize.forM _ Field.keepsSize_bytes).bind
    (fun _ => (KeepsSize.putFixed _).bind (fun _ => KeepsSize.putFixed _)))

/-- A record is accepted exactly when its values have the types of the columns. -/
lemma verify_iff {s : Schema} {r : Record} :
    s.verify r = true ↔ r.values.map Data.type = s.fields.map Field.type := by
  obtain ⟨values⟩ := r
  obtain ⟨i, p, fields⟩ := s
  unfold verify
  induction values generalizing fields with
  | nil => cases fields <;> simp
  | cons v values ih =>
    cases fields with
    | nil => simp
    | cons f fields =>
      have htail := ih fields
      simp only [ne_eq, ite_not, List.length_cons, Nat.add_right_cancel_iff, List.zipWith_cons_cons,
        List.all_cons, List.map_cons, List.cons.injEq] at htail ⊢
      split at htail <;> simp_all

lemma verify_sortKey {s : Schema} {r : Record} {t : DataType} (h : s.verify r = true)
    (hk : s.HasSortKey t) :
    ∃ key, r.values[s.sortKeyIndex.toNat]? = some key ∧ key.type = t := by
  obtain ⟨f, hf, rfl⟩ := hk
  rw [sortKeyField] at hf
  have hmap := congrArg (fun l => l[s.sortKeyIndex.toNat]?) (verify_iff.mp h)
  simp only [List.getElem?_map, hf, Option.map_some, Option.map_eq_some_iff] at hmap
  exact hmap

end Schema

namespace Record

/-- The loop reads one value for each field of the schema. -/
def «from» (schema : Schema) : BufferM Record :=
  return ⟨← schema.fields.mapM (fun f => Data.from f.type)⟩

def bytes (r : Record) : BufferM Unit := r.values.forM Data.bytes

def encode (r : Record) : List UInt8 := r.values.flatMap Data.encode

/-- No value is too large for the length field of its type. -/
def Sized (r : Record) : Prop := ∀ v ∈ r.values, v.Sized

lemma writes_bytes (r : Record) : Writes r.bytes r.encode :=
  Writes.forM _ (fun v _ => v.writes_bytes)

lemma reads_from {s : Schema} {r : Record} (h : s.verify r = true) (hs : r.Sized) :
    Reads (Record.from s) r.encode r := by
  have hread : Reads (s.fields.mapM (fun f => Data.from f.type)) r.encode r.values := by
    have hmap := Schema.verify_iff.mp h
    have hcomp : (fun f : Field => Data.from f.type) = (fun t => Data.from t) ∘ Field.type := rfl
    rw [hcomp, ← List.mapM_map, ← hmap, List.mapM_map]
    exact Reads.mapM r.values (fun v hv => v.reads_from (hs v hv))
  exact hread.map (f := Record.mk)

lemma returns_sized (s : Schema) : Returns Sized (Record.from s) :=
  (Returns.mapM s.fields (fun f _ => Data.returns_sized f.type)).bind (fun _ h => Returns.pure h)

lemma length_encode {s : Schema} {r : Record} (h : s.verify r = true) :
    r.encode.length = s.recordSize := by
  have hmap := congrArg (List.map (fun t : DataType => t.length.toNat)) (Schema.verify_iff.mp h)
  simp only [List.map_map, Function.comp_def] at hmap
  rw [encode, List.length_flatMap, Schema.recordSize, ← hmap]
  congr 1
  exact List.map_congr_left (fun v _ => v.length_encode)

end Record

end Dibibase
