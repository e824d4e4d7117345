import Dibibase.Catalog.Data

/-!
# Index pages

The unit of the index file: at most 4096 bytes of sort keys, each with the offset of its
record in the data file. The number of entries is stored in one byte.
-/

namespace Dibibase

open Library

structure IndexPage where
  sortKeys : List (Data × BitVec 64)
  type : DataType
  deriving DecidableEq, Repr

namespace IndexPage

/-- The loop of `from`: `sort_keys[key] = offset` for each entry that is read. -/
def readEntries (type : DataType) :
    Nat → List (Data × BitVec 64) → BufferM (List (Data × BitVec 64))
  | 0, sortKeys => return sortKeys
  | n + 1, sortKeys => do
    let key ← Data.from type
    let offset ← BufferM.getUint64
    let sortKeys ← OrderedMap.assign Data.compare key offset sortKeys
    readEntries type n sortKeys

def «from» : BufferM IndexPage := do
  let sortKeysLength ← BufferM.getUint8
  let type ← DataType.from
  let sortKeys ← readEntries type sortKeysLength.toNat []
  return ⟨sortKeys, type⟩

/-- The offset of a key in the data file, or -1. -/
def findOffset (p : IndexPage) (key : Data) : Except Exception (BitVec 64) :=
  return (← OrderedMap.find Data.compare key p.sortKeys).getD (-1)

def size (p : IndexPage) : Nat := 1 + p.type.size + p.sortKeys.length * (p.type.length.toNat + 8)

/-- An entry that does not fit into the page is refused. -/
def pushBack (p : IndexPage) (key : Data) (offset : BitVec 64) :
    Except Exception (Bool × IndexPage) :=
  if p.size + p.type.length.toNat + 8 > 4096 then .ok (false, p)
  else return (true,
    { p with sortKeys := ← OrderedMap.assign Data.compare key.clone offset p.sortKeys })

def clear (p : IndexPage) : IndexPage := { p with sortKeys := [] }

def bytes (p : IndexPage) : BufferM Unit := do
  BufferM.putUint8 (BitVec.ofNat 8 p.sortKeys.length)
  p.type.bytes
  p.sortKeys.forM (fun e => do e.1.bytes; BufferM.putUint64 e.2)

def encodeEntry (e : Data × BitVec 64) : List UInt8 := e.1.encode ++ leBytes 8 e.2.toNat

def encode (p : IndexPage) : List UInt8 :=
  leBytes 1 (BitVec.ofNat 8 p.sortKeys.length).toNat ++
    (p.type.encode ++ p.sortKeys.flatMap encodeEntry)

lemma writes_bytes (p : IndexPage) : Writes p.bytes p.encode :=
  (Writes.putFixed _).seq (p.type.writes_bytes.seq
    (Writes.forM _ (fun e _ => e.1.writes_bytes.seq (Writes.putFixed _))))

/-- The entries of a page are keys of its type in the order of the map. -/
structure WellFormed (p : IndexPage) : Prop where
  comparable : p.type.Comparable
  keysIn : OrderedMap.KeysIn (Data.ofType p.type) p.sortKeys
  sorted : OrderedMap.Sorted Data.compare p.sortKeys

lemma length_encode {p : IndexPage} (hk : OrderedMap.KeysIn (Data.ofType p.type) p.sortKeys) :
    p.encode.length = p.size := by
  have hkeys : p.sortKeys.map (fun e => (encodeEntry e).length) =
      p.sortKeys.map (fun _ => p.type.length.toNat + 8) := by
    apply List.map_congr_left
    intro e hmem
    rw [encodeEntry, List.length_append, length_leBytes, Data.length_encode,
      Data.mem_ofType.mp (hk e hmem)]
  simp only [encode, size, List.length_append, length_leBytes, DataType.length_encode,
    DataType.size, List.length_flatMap, hkeys, List.map_const', List.sum_replicate_nat]
  omega

/-- Entries that follow those already read are appended one by one. -/
lemma reads_readEntries {type : DataType} (es m : List (Data × BitVec 64))
    (hk : OrderedMap.KeysIn (Data.ofType type) es) (hsized : ∀ e ∈ es, e.1.Sized)
    (hs : OrderedMap.Sorted Data.compare (m ++ es)) :
    Reads (readEntries type es.length m) (es.flatMap encodeEntry) (m ++ es) := by
  induction es generalizing m with
  | nil =>
    rw [List.append_nil]
    exact Reads.pure m
  | cons e es ih =>
    obtain ⟨key, offset⟩ := e
    have htype : key.type = type := hk (key, offset) (by simp)
    have hafter : ∀ p ∈ m, p.1.compare key = .ok true := by
      intro p hp
      exact (List.pairwise_append.mp hs).2.2 p hp (key, offset) (by simp)
    have hrest := ih (m ++ [(key, offset)]) hk.tail (fun e he => hsized e (by simp [he]))
      (by simpa using hs)
    rw [List.append_assoc] at hrest
    rw [List.flatMap_cons, encodeEntry, List.append_assoc]
    refine Reads.bind (a := key) (by rw [← htype]; exact key.reads_from (hsized (key, offset) (by simp)))
      ((Reads.getUint64 offset).bind ?_)
    have hlift := Reads.lift (OrderedMap.assign_of_after offset m hafter)
    rw [← List.nil_append (es.flatMap encodeEntry)]
    exact hlift.bind hrest

/-- What is read back from a page: as many entries as the count byte says. -/
lemma reads_from {p : IndexPage} (hp : p.WellFormed) (hs : ∀ e ∈ p.sortKeys, e.1.Sized) :
    Reads IndexPage.from (leBytes 1 (BitVec.ofNat 8 p.sortKeys.length).toNat ++
        (p.type.encode ++ (p.sortKeys.take (p.sortKeys.length % 256)).flatMap encodeEntry))
      { p with sortKeys := p.sortKeys.take (p.sortKeys.length % 256) } := by
  refine (Reads.getUint8 _).bind (p.type.reads_from.bind ?_)
  have hcount : (BitVec.ofNat 8 p.sortKeys.length).toNat =
      (p.sortKeys.take (p.sortKeys.length % 256)).length := by
    rw [BitVec.toNat_ofNat, List.length_take]
    omega
  rw [hcount]
  have hentries := reads_readEntries (p.sortKeys.take (p.sortKeys.length % 256)) []
    (fun e he => hp.keysIn e (List.mem_of_mem_take he))
    (fun e he => hs e (List.mem_of_mem_take he))
    (List.Pairwise.sublist (List.take_sublist _ _) hp.sorted)
  exact hentries.map (f := fun es => (⟨es, p.type⟩ : IndexPage))

lemma returns_readEntries (type : DataType) (n : Nat) (m : List (Data × BitVec 64))
    (hm : ∀ e ∈ m, e.1.Sized) :
    Returns (fun es => es.length ≤ m.length + n ∧ ∀ e ∈ es, e.1.Sized) (readEntries type n m) := by
  induction n generalizing m with
  | zero => exact Returns.pure ⟨le_rfl, hm⟩
  | succ n ih =>
    unfold readEntries
    refine (Data.returns_sized type).bind (fun key hkey => (Returns.trivial _).bind
      (fun offset _ => ?_))
    have hassign : Returns (fun m' => m'.length ≤ m.length + 1 ∧ ∀ e ∈ m', e.1.Sized)
        (liftM (OrderedMap.assign Data.compare key offset m)) := by
      apply Returns.lift
      intro m' h
      obtain ⟨hlen, hmem⟩ := OrderedMap.assign_bounds h
      refine ⟨hlen, fun e he => ?_⟩
      rcases hmem e he with heq | hold
      · rw [heq]
        exact hkey
      · obtain ⟨q, hq, hqe⟩ := List.mem_map.mp hold
        rw [← hqe]
        exact hm q hq
    refine hassign.bind (fun m' hm' => (ih m' hm'.2).mono ?_)
    intro es hes
    exact ⟨by omega, hes.2⟩

/-- A page that is read has at most 255 entries, and no key is too large for its type. -/
lemma returns_from :
    Returns (fun p => p.sortKeys.length ≤ 255 ∧ ∀ e ∈ p.sortKeys, e.1.Sized) IndexPage.from := by
  refine (Returns.trivial _).bind (fun count _ => (Returns.trivial _).bind (fun type _ =>
    (returns_readEntries type count.toNat [] (by simp)).bind (fun es hes => Returns.pure ?_)))
  have hcount := count.isLt
  have hlen := hes.1
  simp only [List.length_nil, Nat.zero_add] at hlen
  exact ⟨by change es.length ≤ 255; omega, hes.2⟩

end IndexPage

end Dibibase
