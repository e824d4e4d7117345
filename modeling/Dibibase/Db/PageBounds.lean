import Dibibase.Db.IndexPage
import Dibibase.Mem.Summary

/-!
# The size of pages

An index page and a summary are written into buffers of 4096 bytes. The test before every insertion
adds the key to the size of the page, and that size is the number of bytes which are written, so no
sequence of calls makes a page outgrow its buffer.
-/

namespace Dibibase

open Library

namespace IndexPage

/-- Calls on a page whose keys have the type `t`. -/
inductive Call (t : DataType) where
  | pushBack (key : { d : Data // d.type = t }) (offset : BitVec 64)
  | clear

/-- The page after a call. When a comparison of keys throws, the map is as it was. -/
def after {t : DataType} (p : IndexPage) : Call t → IndexPage
  | .pushBack key offset =>
    match p.pushBack key offset with
    | .ok (_, p') => p'
    | .error _ => p
  | .clear => p.clear

/-- The page fits into its buffer. -/
structure Bounded (t : DataType) (p : IndexPage) : Prop where
  type : p.type = t
  keysIn : OrderedMap.KeysIn (Data.ofType p.type) p.sortKeys
  size : p.size ≤ 4096

section Bounded

variable {t : DataType} {p : IndexPage}

/-- The type descriptor and the count are all that is in an empty page. -/
lemma bounded_empty (t : DataType) : Bounded t ⟨[], t⟩ := by
  constructor
  · rfl
  · intro e he
    cases he
  · simp [size, DataType.size]

/-- A new key makes the page larger by one entry, and a key that it has already does not. -/
lemma Bounded.pushBack (h : Bounded t p) {key : Data} (hkey : key.type = t) {offset : BitVec 64}
    {accepted : Bool} {p' : IndexPage} (hpush : p.pushBack key offset = .ok (accepted, p')) :
    Bounded t p' := by
  rw [IndexPage.pushBack] at hpush
  split at hpush
  · cases hpush
    exact h
  · next hroom =>
    obtain ⟨sortKeys, hassign, hpush⟩ := except_bind_eq_ok hpush
    cases hpush
    obtain ⟨hlength, hkeys⟩ := OrderedMap.assign_bounds hassign
    constructor
    · exact h.type
    · intro e he
      change e.1.type = p.type
      rcases hkeys e he with heq | hold
      · rw [heq, Data.type_clone, hkey, h.type]
      · obtain ⟨e', he', heq⟩ := List.mem_map.mp hold
        rw [← heq]
        exact h.keysIn e' he'
    · have hentries : sortKeys.length * (p.type.length.toNat + 8) ≤
          p.sortKeys.length * (p.type.length.toNat + 8) + (p.type.length.toNat + 8) :=
        (Nat.mul_le_mul_right _ hlength).trans_eq (Nat.succ_mul _ _)
      have hsize : p.size = 1 + p.type.size + p.sortKeys.length * (p.type.length.toNat + 8) := rfl
      change 1 + p.type.size + sortKeys.length * (p.type.length.toNat + 8) ≤ 4096
      omega

lemma Bounded.after (h : Bounded t p) (call : Call t) : Bounded t (p.after call) := by
  cases call with
  | pushBack key offset =>
    rw [IndexPage.after]
    split
    · next hpush => exact h.pushBack key.property hpush
    · exact h
  | clear =>
    have hempty := bounded_empty t
    rw [← h.type] at hempty
    exact ⟨h.type, hempty.keysIn, hempty.size⟩

/-- What holds after every call holds after every sequence of calls. -/
lemma Bounded.foldl_after (h : Bounded t p) (calls : List (Call t)) :
    Bounded t (calls.foldl IndexPage.after p) := by
  induction calls generalizing p with
  | nil => exact h
  | cons call calls ih => exact ih (h.after call)

/-- A page that fits into its buffer is written as a whole. -/
lemma Bounded.bytes (h : Bounded t p) :
    ∃ b, p.bytes (MemoryBuffer.new 4096) = .ok ((), b) ∧ b.offset = p.size := by
  have hlength := length_encode h.keysIn
  have hsize := h.size
  refine ⟨_, p.writes_bytes _ ?_ (by rw [MemoryBuffer.size_new]; norm_num), ?_⟩
  · rw [MemoryBuffer.size_new]
    simp only [MemoryBuffer.new]
    omega
  · simp only [MemoryBuffer.new, MemoryBuffer.append]
    omega

end Bounded

end IndexPage

namespace Summary

/-- The summary after a call of `push_back`. -/
def after {t : DataType} (s : Summary) (key : { d : Data // d.type = t }) : Summary :=
  (s.pushBack key).2

/-- The summary fits into its buffer. -/
structure Bounded (t : DataType) (s : Summary) : Prop where
  type : s.type = t
  keys : ∀ k ∈ s.sortKeys, k.type = s.type
  size : s.size ≤ 4096

section Bounded

variable {t : DataType} {s : Summary}

lemma bounded_empty (t : DataType) : Bounded t ⟨[], t⟩ := by
  constructor
  · rfl
  · intro k hk
    cases hk
  · simp [size, DataType.size]

lemma Bounded.after (h : Bounded t s) (key : { d : Data // d.type = t }) :
    Bounded t (s.after key) := by
  rw [Summary.after, pushBack]
  split
  · exact h
  · next hroom =>
    constructor
    · exact h.type
    · intro k hk
      rcases List.mem_append.mp hk with hk | hk
      · exact h.keys k hk
      · rw [List.mem_singleton.mp hk, Data.type_clone, key.property, h.type]
    · have hkeys : (s.sortKeys.length + 1) * s.type.length.toNat =
          s.sortKeys.length * s.type.length.toNat + s.type.length.toNat := Nat.succ_mul _ _
      have hsize : s.size = 1 + s.type.size + s.sortKeys.length * s.type.length.toNat := rfl
      change 1 + s.type.size + (s.sortKeys ++ [key.val.clone]).length * s.type.length.toNat ≤ 4096
      rw [List.length_append, List.length_singleton]
      omega

lemma Bounded.foldl_after (h : Bounded t s) (keys : List { d : Data // d.type = t }) :
    Bounded t (keys.foldl Summary.after s) := by
  induction keys generalizing s with
  | nil => exact h
  | cons key keys ih => exact ih (h.after key)

lemma Bounded.bytes (h : Bounded t s) :
    ∃ b, s.bytes (MemoryBuffer.new 4096) = .ok ((), b) ∧ b.offset = s.size := by
  have hlength := length_encode h.keys
  have hsize := h.size
  refine ⟨_, s.writes_bytes _ ?_ (by rw [MemoryBuffer.size_new]; norm_num), ?_⟩
  · rw [MemoryBuffer.size_new]
    simp only [MemoryBuffer.new]
    omega
  · simp only [MemoryBuffer.new, MemoryBuffer.append]
    omega

end Bounded

end Summary

/-- After every sequence of calls with keys of its type a page fits into 4096 bytes, and `bytes`
writes as many of them as `size` says. -/
theorem pages_fit (t : DataType) :
    (∀ calls : List (IndexPage.Call t), let p := calls.foldl IndexPage.after ⟨[], t⟩
      p.size ≤ 4096 ∧ ∃ b, p.bytes (MemoryBuffer.new 4096) = .ok ((), b) ∧ b.offset = p.size) ∧
    ∀ keys : List { d : Data // d.type = t }, let s := keys.foldl Summary.after ⟨[], t⟩
      s.size ≤ 4096 ∧ ∃ b, s.bytes (MemoryBuffer.new 4096) = .ok ((), b) ∧ b.offset = s.size := by
  constructor
  · intro calls
    have h := (IndexPage.bounded_empty t).foldl_after calls
    exact ⟨h.size, h.bytes⟩
  · intro keys
    have h := (Summary.bounded_empty t).foldl_after keys
    exact ⟨h.size, h.bytes⟩

end Dibibase
