import Dibibase.Catalog.Schema

/-!
# Catalog entries

A table's name, schema and number of SSTables, as the metadata file keeps them.
-/

namespace Dibibase

open Library

structure Table where
  name : List UInt8
  schema : Schema
  lastSstableId : BitVec 64
  deriving DecidableEq, Repr

namespace Table

def «from» : BufferM Table := do
  let nameLength ← BufferM.getUint8
  let name ← BufferM.getString nameLength.toNat
  let schema ← Schema.from
  let lastSstableId ← BufferM.getUint64
  return ⟨name, schema, lastSstableId⟩

def size (t : Table) : Nat := 1 + t.name.length + t.schema.size + 8

def bytes (t : Table) : BufferM Unit := do
  BufferM.putUint8 (BitVec.ofNat 8 t.name.length)
  BufferM.putString t.name
  t.schema.bytes
  BufferM.putUint64 t.lastSstableId

def encode (t : Table) : List UInt8 :=
  leBytes 1 (BitVec.ofNat 8 t.name.length).toNat ++ (t.name ++ (t.schema.encode ++
    leBytes 8 t.lastSstableId.toNat))

/-- The lengths that the encoding keeps in one byte fit there. -/
structure Storable (t : Table) : Prop where
  name : t.name.length ≤ 255
  fields : t.schema.fields.length ≤ 255
  fieldNames : ∀ f ∈ t.schema.fields, f.name.length ≤ 255

lemma le_size (t : Table) : 26 ≤ t.size := by
  simp only [size, Schema.size]
  omega

lemma length_encode (t : Table) : t.encode.length = t.size := by
  simp [encode, size, Schema.length_encode]
  omega

lemma writes_bytes (t : Table) : Writes t.bytes t.encode :=
  (Writes.putFixed _).seq (Writes.putName.seq (t.schema.writes_bytes.seq (Writes.putFixed _)))

lemma reads_from (t : Table) (h : t.Storable) : Reads Table.from t.encode t := by
  refine (Reads.getUint8 _).bind (Reads.bind (a := t.name) ?_
    ((t.schema.reads_from h.fields h.fieldNames).bind ((Reads.getUint64 t.lastSstableId).map
      (f := fun i => (⟨t.name, t.schema, i⟩ : Table)))))
  have hname := h.name
  have hlen : (BitVec.ofNat 8 t.name.length).toNat = t.name.length := by
    rw [BitVec.toNat_ofNat]
    omega
  rw [hlen, ← toInt_of_lt (by omega)]
  exact Reads.getString t.name

lemma consumes_from : Consumes size Table.from := by
  refine Consumes.getUint8.bind (fun n => (Consumes.getString n.toNat (by have := n.isLt; omega)).bind
    (fun name => Schema.consumes_from.bind (fun schema => Consumes.getUint64.map (fun i => ?_))))
  simp [size]
  omega

lemma keepsSize_bytes (t : Table) : KeepsSize t.bytes :=
  (KeepsSize.putFixed _).bind (fun _ => (KeepsSize.putString _).bind
    (fun _ => t.schema.keepsSize_bytes.bind (fun _ => KeepsSize.putFixed _)))

end Table

end Dibibase
