import Dibibase.Catalog.Data

/-!
# Summaries

A summary holds the first sort key of every index page of an SSTable, and finds the page
that a key has to be looked up in.
-/

namespace Dibibase

open Library

structure Summary where
  sortKeys : List Data
  type : DataType
  deriving DecidableEq, Repr

namespace Summary

def «from» : BufferM Summary := do
  let sortKeysLength ← BufferM.getUint8
  let type ← DataType.from
  let values ← BufferM.replicate sortKeysLength.toNat (Data.from type)
  return ⟨values, type⟩

/-- The scan over the keys from index `i` on. The result of type `size_t` is returned as
`uint8_t`, so `i - 1` is 255 for the first key. -/
def scan (key : Data) (last : Nat) : List Data → Nat → Except Exception (BitVec 8)
  | [], _ => .ok (BitVec.ofNat 8 last)
  | k :: ks, i => do
    if ← k.compare key then return BitVec.ofInt 8 (i - 1)
    else scan key last ks (i + 1)

def findPageNumber (s : Summary) (key : Data) : Except Exception (BitVec 8) :=
  if s.sortKeys.length = 0 then .error (.invalidArgument "Summary is empty")
  else if s.sortKeys.length = 1 then .ok 0
  else scan key (s.sortKeys.length - 1) s.sortKeys 0

def size (s : Summary) : Nat := 1 + s.type.size + s.sortKeys.length * s.type.length.toNat

/-- A key that does not fit into the page is refused. -/
def pushBack (s : Summary) (key : Data) : Bool × Summary :=
  if s.size + s.type.length.toNat > 4096 then (false, s)
  else (true, { s with sortKeys := s.sortKeys ++ [key.clone] })

def bytes (s : Summary) : BufferM Unit := do
  BufferM.putUint8 (BitVec.ofNat 8 s.sortKeys.length)
  s.type.bytes
  s.sortKeys.forM Data.bytes

def encode (s : Summary) : List UInt8 :=
  leBytes 1 (BitVec.ofNat 8 s.sortKeys.length).toNat ++
    (s.type.encode ++ s.sortKeys.flatMap Data.encode)

lemma writes_bytes (s : Summary) : Writes s.bytes s.encode :=
  (Writes.putFixed _).seq (s.type.writes_bytes.seq (Writes.forM _ (fun k _ => k.writes_bytes)))

lemma length_encode {s : Summary} (hk : ∀ k ∈ s.sortKeys, k.type = s.type) : s.encode.length = s.size := by
  have hkeys : s.sortKeys.map (fun k => k.encode.length) =
      s.sortKeys.map (fun _ => s.type.length.toNat) := by
    apply List.map_congr_left
    intro k hmem
    rw [Data.length_encode, hk k hmem]
  simp only [encode, size, List.length_append, length_leBytes, DataType.length_encode,
    DataType.size, List.length_flatMap, hkeys, List.map_const', List.sum_replicate_nat]
  omega

lemma reads_from {s : Summary} (hk : ∀ k ∈ s.sortKeys, k.type = s.type)
    (hs : ∀ k ∈ s.sortKeys, k.Sized) (hn : s.sortKeys.length ≤ 255) : Reads Summary.from s.encode s := by
  refine (Reads.getUint8 _).bind (s.type.reads_from.bind ?_)
  have hlen : (BitVec.ofNat 8 s.sortKeys.length).toNat = s.sortKeys.length := by
    rw [BitVec.toNat_ofNat]
    omega
  rw [hlen]
  refine (Reads.replicate s.sortKeys (fun k hmem => ?_)).map
    (f := fun ks => (⟨ks, s.type⟩ : Summary))
  rw [← hk k hmem]
  exact k.reads_from (hs k hmem)

/-- The number of keys that are read fits into a byte. -/
lemma returns_length : Returns (fun s => s.sortKeys.length ≤ 255) Summary.from := by
  refine (Returns.trivial _).bind (fun count _ => (Returns.trivial _).bind (fun type _ =>
    (Returns.length_replicate _ _).bind (fun keys hkeys => Returns.pure ?_)))
  have hcount := count.isLt
  change keys.length ≤ 255
  omega

/-- No key that is read is too large for the type. -/
lemma returns_sized : Returns (fun s => ∀ k ∈ s.sortKeys, k.Sized) Summary.from := by
  refine (Returns.trivial _).bind (fun _ _ => (Returns.trivial _).bind (fun type _ => ?_))
  exact ((Data.returns_sized type).replicate _).bind (fun _ h => Returns.pure h)

end Summary

end Dibibase
