import Dibibase.Lang.Visitor

/-!
# The key columns of CREATE TABLE

Both setters of a schema set the index of the sort key, so the index of the partition key stays
zero, and that of the sort key is the last index that either setter was called with.
-/

namespace Dibibase

open Library

namespace CQL3Visitor

open CqlParser

/-- The partition column of a `PRIMARY KEY` clause, or the first of them. -/
def partitionColumn : PrimaryKeyDefinition → List UInt8
  | .singlePrimaryKey column => column
  | .compoundKey partitionKey _ => partitionKey
  | .compositeKey partitionKey _ => partitionKey

/-- The first clustering column, or the key column where there is none. -/
def clusteringColumn : PrimaryKeyDefinition → List UInt8
  | .singlePrimaryKey column => column
  | .compoundKey _ clusteringKey => clusteringKey
  | .compositeKey _ clusteringKey => clusteringKey

/-- The list declares the key once, with the given partition and clustering columns: behind one of
the columns, or in a clause that names existing columns. -/
inductive DeclaresKey (columns : List ColumnDefinition) :
    Option PrimaryKeyDefinition → List UInt8 → List UInt8 → Prop where
  | column {before after : List ColumnDefinition} {c : ColumnDefinition}
      (hcolumns : columns = before ++ c :: after) (hc : c.primary = true)
      (hothers : ∀ d ∈ before ++ after, d.primary = false) :
      DeclaresKey columns none c.column c.column
  | clause {d : PrimaryKeyDefinition} (hcolumns : ∀ c ∈ columns, c.primary = false)
      (hpartition : partitionColumn d ∈ columns.map ColumnDefinition.column)
      (hclustering : clusteringColumn d ∈ columns.map ColumnDefinition.column) :
      DeclaresKey columns (some d) (partitionColumn d) (clusteringColumn d)

/-- The position of the column with the name. -/
def position (columns : List ColumnDefinition) (name : List UInt8) : Nat :=
  (columns.map ColumnDefinition.column).idxOf name

def field (c : ColumnDefinition) : Except Exception Field :=
  return ⟨c.column, ← visitDataTypeName c.dataType⟩

/-- The schema has the columns in their order, and its indices are those of the key columns. -/
structure AssignsKeys (columns : List ColumnDefinition) (partition clustering : List UInt8)
    (schema : Schema) : Prop where
  fields : columns.mapM field = .ok schema.fields
  partitionKey : schema.partitionKeyIndex.toNat = position columns partition
  sortKey : schema.sortKeyIndex.toNat = position columns clustering

/-! ### The columns -/

section Columns

variable {columns before after : List ColumnDefinition} {schema schema' : Schema} {i : Nat}

lemma visitColumnDefinitions_append (before after : List ColumnDefinition) (i : Nat)
    (schema : Schema) : visitColumnDefinitions i (before ++ after) schema =
      visitColumnDefinitions i before schema >>= visitColumnDefinitions (i + before.length) after := by
  induction before generalizing i schema with
  | nil => rfl
  | cons c before ih =>
    simp only [List.cons_append, visitColumnDefinitions, bind_assoc, List.length_cons]
    congr 1
    funext type
    rw [ih]
    congr 2
    omega

/-- The loop appends a field for every column and leaves the index of the partition key alone. -/
lemma visitColumnDefinitions_fields (h : visitColumnDefinitions i columns schema = .ok schema') :
    (∃ fields, columns.mapM field = .ok fields ∧ schema'.fields = schema.fields ++ fields) ∧
      schema'.partitionKeyIndex = schema.partitionKeyIndex := by
  induction columns generalizing i schema with
  | nil =>
    cases h
    exact ⟨⟨[], rfl, by simp⟩, rfl⟩
  | cons c columns ih =>
    obtain ⟨type, htype, hrest⟩ := except_bind_eq_ok h
    obtain ⟨⟨fields, hfields, hall⟩, hpartition⟩ := ih hrest
    constructor
    · refine ⟨⟨c.column, type⟩ :: fields, ?_, ?_⟩
      · rw [List.mapM_cons, field, htype, hfields]
        rfl
      · rw [hall]
        split <;> simp
    · rw [hpartition]
      split <;> rfl

/-- Columns without `PRIMARY KEY` leave the index of the sort key alone. -/
lemma visitColumnDefinitions_sortKey (hcolumns : ∀ c ∈ columns, c.primary = false)
    (h : visitColumnDefinitions i columns schema = .ok schema') :
    schema'.sortKeyIndex = schema.sortKeyIndex := by
  induction columns generalizing i schema with
  | nil =>
    cases h
    rfl
  | cons c columns ih =>
    obtain ⟨type, htype, hrest⟩ := except_bind_eq_ok h
    rw [hcolumns c (by simp)] at hrest
    have hkey := ih (fun d hd => hcolumns d (by simp [hd])) hrest
    exact hkey

/-- A column with `PRIMARY KEY` sets the index of the sort key, unless another one follows. -/
lemma visitColumnDefinitions_primary {c : ColumnDefinition} (hc : c.primary = true)
    (hafter : ∀ d ∈ after, d.primary = false)
    (h : visitColumnDefinitions i (before ++ c :: after) schema = .ok schema') :
    schema'.sortKeyIndex = BitVec.ofNat 64 (i + before.length) := by
  rw [visitColumnDefinitions_append] at h
  obtain ⟨schema₁, hbefore, hcolumn⟩ := except_bind_eq_ok h
  obtain ⟨type, htype, hrest⟩ := except_bind_eq_ok hcolumn
  rw [hc] at hrest
  have hkey := visitColumnDefinitions_sortKey hafter hrest
  exact hkey

end Columns

/-! ### The clause -/

section Clause

variable {names : List UInt8 × List UInt8} {i : Nat}

/-- A column with either name sets the index of the sort key. -/
lemma setKeys_cons (f : Field) (fields : List Field) (i : Nat) (schema : Schema) :
    setKeys names i (f :: fields) schema = setKeys names (i + 1) fields
      (if f.name = names.1 ∨ f.name = names.2 then schema.setSortKeyIndex (BitVec.ofNat 64 i)
      else schema) := by
  rw [setKeys]
  congr 1
  by_cases hpartition : f.name = names.1
  · have hname : f.name = names.1 ∨ f.name = names.2 := .inl hpartition
    rw [if_pos hpartition, if_pos hname, Schema.setPartitionKeyIndex_eq,
      Schema.setSortKeyIndex_setSortKeyIndex, ite_self]
  · rw [if_neg hpartition]
    simp only [hpartition, false_or]

lemma setKeys_append (before after : List Field) (i : Nat) (schema : Schema) :
    setKeys names i (before ++ after) schema =
      setKeys names (i + before.length) after (setKeys names i before schema) := by
  induction before generalizing i schema with
  | nil => rfl
  | cons f before ih =>
    rw [List.cons_append, setKeys_cons, ih, setKeys_cons, List.length_cons]
    congr 1
    omega

lemma setKeys_fields (fields : List Field) (i : Nat) (schema : Schema) :
    (setKeys names i fields schema).fields = schema.fields ∧
      (setKeys names i fields schema).partitionKeyIndex = schema.partitionKeyIndex := by
  induction fields generalizing i schema with
  | nil => exact ⟨rfl, rfl⟩
  | cons f fields ih =>
    rw [setKeys_cons, (ih _ _).1, (ih _ _).2]
    by_cases h : f.name = names.1 ∨ f.name = names.2 <;> simp [h]

/-- Other columns set nothing. -/
lemma setKeys_of_ne {fields : List Field}
    (h : ∀ f ∈ fields, f.name ≠ names.1 ∧ f.name ≠ names.2) (i : Nat) (schema : Schema) :
    setKeys names i fields schema = schema := by
  induction fields generalizing i schema with
  | nil => rfl
  | cons f fields ih =>
    have hf := h f (by simp)
    rw [setKeys_cons, if_neg (by simp [hf]), ih (fun g hg => h g (by simp [hg]))]

/-- The last column that is one of the two sets the index of the sort key. -/
lemma setKeys_last {before after : List Field} {f : Field}
    (hf : f.name = names.1 ∨ f.name = names.2)
    (hafter : ∀ g ∈ after, g.name ≠ names.1 ∧ g.name ≠ names.2) (schema : Schema) :
    (setKeys names i (before ++ f :: after) schema).sortKeyIndex =
      BitVec.ofNat 64 (i + before.length) := by
  rw [setKeys_append, setKeys_cons, if_pos hf, setKeys_of_ne hafter,
    Schema.setSortKeyIndex_sortKeyIndex]

/-- Of a list with one of the names there is a last one. -/
lemma exists_last {fields : List Field} (h : ∃ f ∈ fields, f.name = names.1 ∨ f.name = names.2) :
    ∃ before f after, fields = before ++ f :: after ∧ (f.name = names.1 ∨ f.name = names.2) ∧
      ∀ g ∈ after, g.name ≠ names.1 ∧ g.name ≠ names.2 := by
  induction fields with
  | nil => simp at h
  | cons f fields ih =>
    by_cases hrest : ∃ g ∈ fields, g.name = names.1 ∨ g.name = names.2
    · obtain ⟨before, g, after, hfields, hg, hafter⟩ := ih hrest
      exact ⟨f :: before, g, after, by rw [hfields, List.cons_append], hg, hafter⟩
    · have hf : f.name = names.1 ∨ f.name = names.2 := by
        obtain ⟨g, hg, hname⟩ := h
        rcases List.mem_cons.mp hg with rfl | hmem
        · exact hname
        · exact absurd ⟨g, hmem, hname⟩ hrest
      refine ⟨[], f, fields, rfl, hf, ?_⟩
      intro g hg
      exact ⟨fun h => hrest ⟨g, hg, .inl h⟩, fun h => hrest ⟨g, hg, .inr h⟩⟩

end Clause

/-! ### The schema -/

section Schema

variable {columns : List ColumnDefinition} {primaryKey : Option PrimaryKeyDefinition}
  {partition clustering : List UInt8} {schema : Schema}

lemma idxOf_split {names before after : List (List UInt8)} {name : List UInt8}
    (hnames : names = before ++ name :: after) (hnodup : names.Nodup) :
    names.idxOf name = before.length := by
  subst hnames
  have hnot : name ∉ before := by
    intro hmem
    exact (List.nodup_append.mp hnodup).2.2 name hmem name (by simp) rfl
  rw [List.idxOf_append_of_notMem hnot, List.idxOf_cons_self, Nat.add_zero]

lemma names_of_mapM {fields : List Field} (h : columns.mapM field = .ok fields) :
    fields.map Field.name = columns.map ColumnDefinition.column := by
  induction columns generalizing fields with
  | nil =>
    cases h
    rfl
  | cons c columns ih =>
    rw [List.mapM_cons] at h
    cases htype : visitDataTypeName c.dataType with
    | error e =>
      rw [field, htype] at h
      cases h
    | ok type =>
      cases hrest : columns.mapM field with
      | error e =>
        rw [field, htype, hrest] at h
        cases h
      | ok rest =>
        rw [field, htype, hrest] at h
        cases h
        rw [List.map_cons, List.map_cons, ih hrest]

/-- Where the partition column comes first, the clustering column is the last of the two. -/
lemma setKeys_of_first {fields : List Field} (hnodup : (fields.map Field.name).Nodup)
    (hlength : fields.length ≤ 2 ^ 64) (hpartition : partition ∈ fields.map Field.name)
    (hclustering : clustering ∈ fields.map Field.name)
    (hfirst : (fields.map Field.name).idxOf partition = 0) (schema : Schema) :
    (setKeys (partition, clustering) 0 fields schema).sortKeyIndex.toNat =
      (fields.map Field.name).idxOf clustering := by
  have hexists : ∃ f ∈ fields, f.name = partition ∨ f.name = clustering := by
    obtain ⟨f, hf, hname⟩ := List.mem_map.mp hpartition
    exact ⟨f, hf, .inl hname⟩
  obtain ⟨before, f, after, hsplit, hf, hafter⟩ := @exists_last (partition, clustering) _ hexists
  have hnames : fields.map Field.name = before.map Field.name ++ f.name :: after.map Field.name := by
    rw [hsplit, List.map_append, List.map_cons]
  have hposition : (fields.map Field.name).idxOf f.name = before.length := by
    rw [idxOf_split hnames hnodup, List.length_map]
  have hlast : f.name = clustering := by
    rcases hf with hf | hf
    · have hbefore : before = [] := by
        rw [← List.length_eq_zero_iff, ← hposition, hf, hfirst]
      rw [hsplit, hbefore, List.nil_append, List.map_cons, List.mem_cons] at hclustering
      rcases hclustering with hclustering | hclustering
      · exact hclustering.symm
      · obtain ⟨g, hg, hname⟩ := List.mem_map.mp hclustering
        exact absurd hname (hafter g hg).2
    · exact hf
  have hbound : before.length < 2 ^ 64 := by
    rw [hsplit, List.length_append, List.length_cons] at hlength
    omega
  rw [← hlast, hposition, hlast, hsplit, setKeys_last hf hafter, Nat.zero_add, BitVec.toNat_ofNat,
    Nat.mod_eq_of_lt hbound]

/-- The index of the partition key stays zero. -/
lemma assignsKeys_of_zero (hfields : columns.mapM field = .ok schema.fields)
    (hzero : schema.partitionKeyIndex = 0)
    (hsort : position columns partition = 0 →
      schema.sortKeyIndex.toNat = position columns clustering) :
    AssignsKeys columns partition clustering schema ↔ position columns partition = 0 := by
  constructor
  · intro h
    rw [← h.partitionKey, hzero]
    rfl
  · intro h
    refine ⟨hfields, ?_, hsort h⟩
    rw [hzero, h]
    rfl

/-- The keys are assigned as declared exactly when the partition column comes first. A vector has
no more elements than a `size_t` can count. -/
theorem assignsKeys_iff (hnodup : (columns.map ColumnDefinition.column).Nodup)
    (hlength : columns.length ≤ 2 ^ 64)
    (hkey : DeclaresKey columns primaryKey partition clustering)
    (hvisit : visitColumnDefinitionList columns primaryKey = .ok schema) :
    AssignsKeys columns partition clustering schema ↔ position columns partition = 0 := by
  unfold visitColumnDefinitionList at hvisit
  cases hdefinitions : visitColumnDefinitions 0 columns ⟨0, 0, []⟩ with
  | error e =>
    rw [hdefinitions] at hvisit
    cases hvisit
  | ok schema₀ =>
    rw [hdefinitions] at hvisit
    obtain ⟨⟨fields, hfields, hall⟩, hzero⟩ := visitColumnDefinitions_fields hdefinitions
    have hnames := names_of_mapM hfields
    rw [List.nil_append] at hall
    subst hall
    cases hkey with
    | @column before after c hcolumns hc hothers =>
      cases hvisit
      apply assignsKeys_of_zero hfields hzero
      intro _
      have hposition : position columns c.column = before.length := by
        have hnames : columns.map ColumnDefinition.column = before.map ColumnDefinition.column ++
            c.column :: after.map ColumnDefinition.column := by
          rw [hcolumns, List.map_append, List.map_cons]
        rw [position, idxOf_split hnames hnodup, List.length_map]
      rw [hcolumns] at hdefinitions hlength
      rw [visitColumnDefinitions_primary hc (fun d hd => hothers d (by simp [hd])) hdefinitions,
        hposition, Nat.zero_add, BitVec.toNat_ofNat, Nat.mod_eq_of_lt]
      rw [List.length_append, List.length_cons] at hlength
      omega
    | @clause d hcolumns hpartition hclustering =>
      cases hvisit
      have hdefinition : visitPrimaryKeyDefinition d = (partitionColumn d, clusteringColumn d) := by
        cases d <;> rfl
      rw [hdefinition]
      obtain ⟨hfields', hzero'⟩ := @setKeys_fields (partitionColumn d, clusteringColumn d)
        schema₀.fields 0 schema₀
      apply assignsKeys_of_zero (by rw [hfields', hfields]) (by rw [hzero', hzero])
      intro hfirst
      have hcount : schema₀.fields.length = columns.length := by
        rw [← List.length_map Field.name, hnames, List.length_map]
      unfold position at hfirst ⊢
      rw [← hnames] at hpartition hclustering hnodup hfirst ⊢
      exact setKeys_of_first hnodup (by omega) hpartition hclustering hfirst schema₀

/-- `CREATE TABLE t (k INT, v INT, PRIMARY KEY (k, v))`. -/
theorem assignsKeys_compound :
    AssignsKeys [⟨[107], .int, false⟩, ⟨[118], .int, false⟩] [107] [118]
      ⟨1, 0, [⟨[107], ⟨.int, 4⟩⟩, ⟨[118], ⟨.int, 4⟩⟩]⟩ :=
  (assignsKeys_iff (by decide) (by decide)
    (.clause (d := .compoundKey [107] [118]) (by decide) (by decide) (by decide)) rfl).mpr rfl

/-- `CREATE TABLE t (v INT, k INT PRIMARY KEY)`: the index of the partition key is 0, not 1. -/
theorem not_assignsKeys_second :
    DeclaresKey [⟨[118], .int, false⟩, ⟨[107], .int, true⟩] none [107] [107] ∧
      visitColumnDefinitionList [⟨[118], .int, false⟩, ⟨[107], .int, true⟩] none =
        .ok ⟨1, 0, [⟨[118], ⟨.int, 4⟩⟩, ⟨[107], ⟨.int, 4⟩⟩]⟩ ∧
      ¬AssignsKeys [⟨[118], .int, false⟩, ⟨[107], .int, true⟩] [107] [107]
        ⟨1, 0, [⟨[118], ⟨.int, 4⟩⟩, ⟨[107], ⟨.int, 4⟩⟩]⟩ := by
  refine ⟨?_, rfl, ?_⟩
  · exact @DeclaresKey.column _ [⟨[118], .int, false⟩] [] ⟨[107], .int, true⟩ rfl rfl (by decide)
  · intro h
    exact absurd h.partitionKey (by decide)

end Schema

end CQL3Visitor

end Dibibase
