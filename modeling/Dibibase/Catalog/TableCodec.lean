import Dibibase.Catalog.Table
import Mathlib.Algebra.Order.BigOperators.Group.List

/-!
# The domain of the catalog codec

The encoder takes any table, but the lengths of names and the number of columns are kept in one
byte each. A table that is read always has lengths that fit there, so exactly these tables are
read back.
-/

namespace Dibibase

open Library

/-! ### What is read -/

/-- A string of size `n` never has more than `n` bytes. -/
lemma Returns.getString_le {n : Nat} (hn : n < 2 ^ 32) :
    Returns (fun data => data.length ≤ n) (BufferM.getString n) := by
  refine (Returns.trivial _).bind (fun _ _ => ?_)
  intro b data b' h
  have hcast : toSizeT n = n := toSizeT_natCast (by omega)
  rw [hcast] at h
  dsimp only at h
  split at h
  · cases h
  · simp only [Except.ok.injEq, Prod.mk.injEq] at h
    have hcount : (toInt ((n + b.offset) % 2 ^ 64) - toInt b.offset).toNat ≤ n := by
      unfold toInt Int.bmod
      dsimp only
      split <;> split <;> omega
    rw [← h.1, List.length_take]
    omega

lemma Field.returns_name : Returns (fun f : Field => f.name.length ≤ 255) Field.from := by
  refine (Returns.trivial _).bind (fun n _ => ?_)
  have hn := n.isLt
  refine (Returns.getString_le (by omega)).bind (fun name hname => ?_)
  refine (Returns.trivial _).bind (fun type _ => ?_)
  exact Returns.pure (show name.length ≤ 255 by omega)

lemma Schema.returns_fields : Returns
    (fun s : Schema => s.fields.length ≤ 255 ∧ ∀ f ∈ s.fields, f.name.length ≤ 255) Schema.from := by
  refine (Returns.trivial _).bind (fun n _ => ?_)
  have hn := n.isLt
  have hfields : Returns (fun fields : List Field => fields.length = n.toNat ∧
      ∀ f ∈ fields, f.name.length ≤ 255) (BufferM.replicate n.toNat Field.from) :=
    fun b fields b' h => ⟨Returns.length_replicate _ _ b fields b' h,
      Field.returns_name.replicate _ b fields b' h⟩
  refine hfields.bind (fun fields h => (Returns.trivial _).bind (fun sortIndex _ =>
    (Returns.trivial _).bind (fun partitionIndex _ => ?_)))
  exact Returns.pure ⟨by rw [h.1]; omega, h.2⟩

namespace Table

lemma returns_storable : Returns Storable Table.from := by
  refine (Returns.trivial _).bind (fun n _ => ?_)
  have hn := n.isLt
  refine (Returns.getString_le (by omega)).bind (fun name hname => ?_)
  refine Schema.returns_fields.bind (fun schema hschema =>
    (Returns.trivial _).bind (fun lastSstableId _ => ?_))
  exact Returns.pure ⟨by dsimp only; omega, hschema.1, hschema.2⟩

end Table

/-! ### What is written -/

section Written

variable {limit : Nat}

lemma WritesUpTo.putName (hl : limit ≤ 2 ^ 63) {data : List UInt8} (hdata : data.length < 2 ^ 31) :
    WritesUpTo limit (BufferM.putString data) data := by
  have hput := @WritesUpTo.putString limit hl data (by omega)
  rwa [Nat.mod_eq_of_lt (by omega), List.take_length] at hput

lemma Field.writesUpTo_bytes (hl : limit ≤ 2 ^ 63) {f : Field} (hf : f.name.length < 2 ^ 31) :
    WritesUpTo limit f.bytes f.encode :=
  (WritesUpTo.putFixed hl _).seq ((WritesUpTo.putName hl hf).seq
    ((WritesUpTo.putFixed hl _).seq (WritesUpTo.putFixed hl _)))

lemma Schema.writesUpTo_bytes (hl : limit ≤ 2 ^ 63) {s : Schema}
    (hs : ∀ f ∈ s.fields, f.name.length < 2 ^ 31) : WritesUpTo limit s.bytes s.encode :=
  (WritesUpTo.putFixed hl _).seq
    ((WritesUpTo.forM _ (fun f hf => Field.writesUpTo_bytes hl (hs f hf))).seq
      ((WritesUpTo.putFixed hl _).seq (WritesUpTo.putFixed hl _)))

lemma Table.writesUpTo_bytes (hl : limit ≤ 2 ^ 63) {t : Table} (hname : t.name.length < 2 ^ 31)
    (hfields : ∀ f ∈ t.schema.fields, f.name.length < 2 ^ 31) : WritesUpTo limit t.bytes t.encode :=
  (WritesUpTo.putFixed hl _).seq ((WritesUpTo.putName hl hname).seq
    ((Schema.writesUpTo_bytes hl hfields).seq (WritesUpTo.putFixed hl _)))

end Written

namespace Table

/-- A table with lengths of one byte is small. -/
lemma Storable.size_lt {t : Table} (h : t.Storable) : t.size < 2 ^ 31 := by
  have hfields : (t.schema.fields.map (fun f => f.size)).sum ≤ t.schema.fields.length * 261 := by
    rw [← List.length_map (fun f : Field => f.size)]
    apply List.sum_le_card_nsmul
    intro n hn
    obtain ⟨f, hf, rfl⟩ := List.mem_map.mp hn
    have hname := h.fieldNames f hf
    simp only [Field.size, DataType.size]
    omega
  have hname := h.name
  have hcount := h.fields
  simp only [size, Schema.size]
  omega

/-- The table is read back from its encoding exactly when its lengths fit into one byte. -/
lemma from_encode_iff (t : Table) :
    Table.from (MemoryBuffer.ofBytes t.encode) = .ok (t, ⟨t.encode, t.size⟩) ↔ t.Storable := by
  constructor
  · intro h
    exact returns_storable _ _ _ h
  · intro h
    have hsize := h.size_lt
    have hread := t.reads_from h (MemoryBuffer.ofBytes t.encode) [] (Nat.zero_le _)
      (by simpa [MemoryBuffer.ofBytes, MemoryBuffer.size, length_encode] using hsize)
      (by simp [MemoryBuffer.ofBytes])
    rw [hread]
    simp [MemoryBuffer.ofBytes, length_encode]

/-- The encoder writes every table into a buffer with room for it, and the decoder reads it back
from there exactly when its lengths fit into one byte. No array is larger than `2 ^ 63` bytes. -/
theorem codec_domain {t : Table} (hname : t.name.length < 2 ^ 31)
    (hfields : ∀ f ∈ t.schema.fields, f.name.length < 2 ^ 31) {b : MemoryBuffer}
    (hroom : b.offset + t.size ≤ b.size) (hsize : b.size < 2 ^ 63) :
    ∃ b', t.bytes b = .ok ((), b') ∧ b'.offset = b.offset + t.size ∧
      (Table.from (MemoryBuffer.ofBytes ((b'.buf.drop b.offset).take t.size)) =
          .ok (t, ⟨(b'.buf.drop b.offset).take t.size, t.size⟩) ↔
        t.name.length ≤ 255 ∧ t.schema.fields.length ≤ 255 ∧
          ∀ f ∈ t.schema.fields, f.name.length ≤ 255) := by
  have hlength := t.length_encode
  have hwrite := writesUpTo_bytes le_rfl hname hfields b (by omega) hsize
  have hsegment : ((b.append t.encode).buf.drop b.offset).take t.size = t.encode := by
    have hfront : (b.buf.take b.offset).length = b.offset := by
      rw [List.length_take]
      exact min_eq_left (by unfold MemoryBuffer.size at hroom; omega)
    rw [MemoryBuffer.append, List.append_assoc]
    nth_rewrite 1 [← hfront]
    rw [List.drop_left, ← hlength, List.take_left]
  refine ⟨b.append t.encode, hwrite, by rw [MemoryBuffer.append, hlength], ?_⟩
  rw [hsegment, from_encode_iff]
  exact ⟨fun h => ⟨h.name, h.fields, h.fieldNames⟩, fun h => ⟨h.1, h.2.1, h.2.2⟩⟩

/-- A table with one column comes back. -/
theorem codec_domain_oneColumn :
    ∃ b', Table.bytes ⟨[116], ⟨0, 0, [⟨[107], ⟨.int, 4⟩⟩]⟩, 3⟩ (MemoryBuffer.new 40) = .ok ((), b') ∧
      Table.from (MemoryBuffer.ofBytes (b'.buf.take 34)) =
        .ok (⟨[116], ⟨0, 0, [⟨[107], ⟨.int, 4⟩⟩]⟩, 3⟩, ⟨b'.buf.take 34, 34⟩) := by
  obtain ⟨b', hwrite, -, hread⟩ := @codec_domain ⟨[116], ⟨0, 0, [⟨[107], ⟨.int, 4⟩⟩]⟩, 3⟩ (by decide)
    (by decide) (MemoryBuffer.new 40) (by decide) (by decide)
  exact ⟨b', hwrite, hread.mpr (by decide)⟩

end Table

end Dibibase
