import Dibibase.Db.FailedFlush
import Dibibase.Db.PageBounds

/-!
# What the calls on a table throw

A write is refused by the schema, or its key is compared with one of a kind that has no order. No
flush throws, whatever becomes of its writes to the files. A lookup throws
`non_existent_record_error` when it finds nothing, and another exception as soon as it compares its
key with one of another kind.
-/

namespace Dibibase

open Library TableBuilder

/-! ### The builder -/

section Builder

variable {schema : Schema} {t : DataType} {records : List (Data × Record)} {fds : Files}

/-- What the loop over the records hands on. -/
def Bounded (t : DataType) (result : Bool × Summary × IndexPage) : Prop :=
  result.2.1.Bounded t ∧ result.2.2.Bounded t

end Builder

namespace TableManager

variable {tm : TableManager} {s : Posix Path} {t : DataType} {layers : List (List (Data × Record))}
  {key : Data} {record : Record}

/-! ### Writes -/

/-- The memtable has accepted records under their own sort keys. -/
def OwnKeys (tm : TableManager) : Prop :=
  ∀ p ∈ tm.memtable, tm.schema.verify p.2 = true ∧
    p.2.values[tm.schema.sortKeyIndex.toNat]? = some p.1

/-- The sort key of an accepted record has the type of the sort-key column. -/
lemma hasSortKey_of_verify {schema : Schema} (hv : schema.verify record = true)
    (hkey : record.values[schema.sortKeyIndex.toNat]? = some key) : schema.HasSortKey key.type := by
  have hmap := congrArg (fun l => l[schema.sortKeyIndex.toNat]?) (Schema.verify_iff.mp hv)
  simp only [List.getElem?_map, hkey, Option.map_some] at hmap
  obtain ⟨f, hf, htype⟩ := Option.map_eq_some_iff.mp hmap.symm
  exact ⟨f, hf, htype⟩

/-- The keys of a memtable have the type of the sort-key column. -/
lemma OwnKeys.keysIn (h : tm.OwnKeys) (hkey : tm.schema.HasSortKey t) :
    OrderedMap.KeysIn (Data.ofType t) tm.memtable := by
  intro p hp
  obtain ⟨hv, hk⟩ := h p hp
  exact (hasSortKey_of_verify hv hk).unique hkey

/-- The entries of a memtable into which a record has been put are its own and that of the record. -/
lemma OwnKeys.insert (h : tm.OwnKeys) (hv : tm.schema.verify record = true)
    (hkey : record.values[tm.schema.sortKeyIndex.toNat]? = some key) {m : List (Data × Record)}
    (hins : OrderedMap.insert Data.compare key record tm.memtable = .ok m) :
    OwnKeys { tm with memtable := m } := by
  rcases OrderedMap.insert_cases hins with rfl | ⟨l, r, hold, rfl⟩
  · exact h
  · intro p hp
    change p ∈ l ++ (key, record) :: r at hp
    rw [List.mem_append, List.mem_cons] at hp
    rcases hp with hp | rfl | hp
    · exact h p (by rw [hold]; exact List.mem_append_left r hp)
    · exact ⟨hv, hkey⟩
    · exact h p (by rw [hold]; exact List.mem_append_right l hp)

/-- The table and its files hold well-formed maps whose rows and pages are read back. -/
structure Kept (t : DataType) (st : TableManager × Posix Path)
    (layers : List (List (Data × Record))) : Prop where
  holding : Holding t st layers
  row : st.1.schema.recordSize < 2 ^ 31
  page : layers ≠ [] → t.Comparable ∧ OnePage t 2

/-- A lookup compares its key with others of its kind, or with none. -/
def Alike (t : DataType) (tm : TableManager) (key : Data) : Prop :=
  (tm.memtable = [] ∧ tm.currentSstableId = 0) ∨ key.type.id = t.id

/-- Only the files decide what is kept of a table. -/
lemma Kept.congr (h : Kept t (tm, s) layers) {s' : Posix Path} (hfiles : s'.files = s.files) :
    Kept t (tm, s') layers := by
  refine ⟨⟨h.holding.memtable, h.holding.sized, h.holding.small, ?_⟩, h.row, h.page⟩
  rw [hfiles]
  exact h.holding.frozen

end TableManager

end Dibibase
