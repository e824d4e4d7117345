import Dibibase.Lang.Visitor

/-!
# The column list of an INSERT

An `INSERT` stores its values in the order in which they are written, whatever columns it
names. So the order of the columns makes no difference only where the values are refused in
either order, or where each of them is written at the place of its column.
-/

namespace Dibibase

open Library

namespace CqlStatement

/-- An `INSERT` of values under the names of their columns. -/
def insertPairs (keyspace table : List UInt8) (pairs : List (List UInt8 × Data)) : CqlStatement :=
  .insert keyspace table (pairs.map Prod.fst) (pairs.map Prod.snd)

/-- The record that the execution hands to the table. -/
def stored (pairs : List (List UInt8 × Data)) : Record := ⟨pairs.map (fun p => p.2.clone)⟩

/-- The value of a record in the first column with the given name. -/
def valueUnder (schema : Schema) (record : Record) (name : List UInt8) : Option Data :=
  (schema.fields.findIdx? (fun f => f.name = name)).bind (fun i => record.values[i]?)

/-- Both lists of named values have the same outcome: both are accepted or neither, the results
and the states after them are the same, and an accepted value is in the column it was named
for. -/
structure SameOutcome (keyspace table : List UInt8) (schema : Schema)
    (st : Database × Posix Path) (pairs pairs' : List (List UInt8 × Data)) : Prop where
  accepted : schema.verify (stored pairs) = schema.verify (stored pairs')
  result : (insertPairs keyspace table pairs).execute st =
    (insertPairs keyspace table pairs').execute st
  named : ∀ ps ∈ [pairs, pairs'], schema.verify (stored ps) = true →
    ∀ p ∈ ps, valueUnder schema (stored ps) p.1 = some p.2.clone

/-- The values in the order of the columns of the schema. -/
def arranged (schema : Schema) (pairs : List (List UInt8 × Data)) : List (Option Data) :=
  schema.fields.map (fun f => (pairs.lookup f.name).map Data.clone)

variable {schema : Schema} {pairs pairs' : List (List UInt8 × Data)}

lemma lookup_eq_some_iff (h : (pairs.map Prod.fst).Nodup) {name : List UInt8} {value : Data} :
    pairs.lookup name = some value ↔ (name, value) ∈ pairs := by
  induction pairs with
  | nil => simp
  | cons p pairs ih =>
    obtain ⟨n, v⟩ := p
    rw [List.map_cons, List.nodup_cons] at h
    by_cases hn : name = n
    · subst hn
      have hnot : ∀ w, (name, w) ∉ pairs :=
        fun w hmem => h.1 (List.mem_map.mpr ⟨(name, w), hmem, rfl⟩)
      simp [hnot, eq_comm]
    · have hbeq : (name == n) = false := by simpa using hn
      simp [List.lookup_cons, hbeq, ih h.2, hn]

lemma lookup_perm (h : (pairs.map Prod.fst).Nodup) (hperm : pairs'.Perm pairs)
    (name : List UInt8) : pairs'.lookup name = pairs.lookup name := by
  have h' : (pairs'.map Prod.fst).Nodup := (hperm.map Prod.fst).nodup_iff.mpr h
  apply Option.ext
  intro value
  rw [lookup_eq_some_iff h, lookup_eq_some_iff h', hperm.mem_iff]

/-- The column of a name is where the schema has it, if no name occurs twice. -/
lemma findIdx?_name (hnodup : (schema.fields.map Field.name).Nodup) {i : Nat} {f : Field}
    (hi : schema.fields[i]? = some f) :
    schema.fields.findIdx? (fun g => g.name = f.name) = some i := by
  rw [List.findIdx?_eq_some_iff_getElem]
  obtain ⟨hlt, hget⟩ := List.getElem?_eq_some_iff.mp hi
  refine ⟨hlt, by simp [hget], fun j hj => ?_⟩
  have hne : schema.fields[j].name ≠ f.name := by
    intro heq
    have hij := (@List.Nodup.getElem_inj_iff _ _ hnodup j (by simp; omega) i
      (by simpa using hlt)).mp (by simpa [hget] using heq)
    omega
  simpa using hne

/-- Every value is in the column it was named for exactly when the values are written in the
order of the columns. -/
lemma named_iff (hnodup : (schema.fields.map Field.name).Nodup)
    (hcolumns : (pairs.map Prod.fst).Perm (schema.fields.map Field.name)) :
    (∀ p ∈ pairs, valueUnder schema (stored pairs) p.1 = some p.2.clone) ↔
      (stored pairs).values.map some = arranged schema pairs := by
  have hpairs : (pairs.map Prod.fst).Nodup := hcolumns.nodup_iff.mpr hnodup
  have hlength : (stored pairs).values.length = schema.fields.length := by
    simpa [stored] using hcolumns.length_eq
  -- Column by column, what is stored there is what the pairs have under its name.
  have hcolumn : ∀ (i : Nat) (f : Field), schema.fields[i]? = some f → ∃ v, (f.name, v) ∈ pairs ∧
      valueUnder schema (stored pairs) f.name = (stored pairs).values[i]? ∧
      (arranged schema pairs)[i]? = some (some v.clone) := by
    intro i f hi
    have hmem : f.name ∈ pairs.map Prod.fst :=
      hcolumns.mem_iff.mpr (List.mem_map_of_mem (List.mem_of_getElem? hi))
    obtain ⟨⟨n, v⟩, hp, rfl⟩ := List.mem_map.mp hmem
    refine ⟨v, hp, ?_, ?_⟩
    · simp [valueUnder, findIdx?_name hnodup hi]
    · simp [arranged, hi, (lookup_eq_some_iff hpairs).mpr hp]
  constructor
  · intro h
    apply List.ext_getElem?
    intro i
    cases hi : schema.fields[i]? with
    | none =>
      have hge : schema.fields.length ≤ i := List.getElem?_eq_none_iff.mp hi
      rw [List.getElem?_eq_none (by simpa [hlength] using hge),
        List.getElem?_eq_none (by simpa [arranged] using hge)]
    | some f =>
      obtain ⟨v, hp, hunder, harranged⟩ := hcolumn i f hi
      rw [h _ hp] at hunder
      rw [List.getElem?_map, ← hunder, harranged]
      rfl
  · intro h p hp
    have hmem : p.1 ∈ schema.fields.map Field.name :=
      hcolumns.mem_iff.mp (List.mem_map_of_mem hp)
    obtain ⟨f, hf, hname⟩ := List.mem_map.mp hmem
    obtain ⟨i, hi⟩ := List.getElem?_of_mem hf
    obtain ⟨v, hv, hunder, harranged⟩ := hcolumn i f hi
    have hsame : v = p.2 := by
      have hlookup := (lookup_eq_some_iff hpairs).mpr hv
      rw [hname, (lookup_eq_some_iff hpairs).mpr (show (p.1, p.2) ∈ pairs from hp),
        Option.some.injEq] at hlookup
      exact hlookup.symm
    rw [← h, List.getElem?_map] at harranged
    obtain ⟨w, hw, hwv⟩ := Option.map_eq_some_iff.mp harranged
    rw [← hname, hunder, hw, ← hsame]
    exact hwv

section Execution

variable {keyspace table : List UInt8} {tm : TableManager} {db : Database} {s : Posix Path}

/-- The execution uses nothing of the statement but the table and the record. -/
lemma execute_insertPairs (pairs : List (List UInt8 × Data)) :
    (insertPairs keyspace table pairs).execute = (do
      Database.writeRecord table (stored pairs)
      return none) := by
  unfold execute insertPairs statement Statement.execute stored
  simp only [List.map_map, Function.comp_def]

lemma execute_refused (hfind : OrderedMap.find nameLt table db.tableManagers = .ok (some tm))
    (h : tm.schema.verify (stored pairs) = false) :
    (insertPairs keyspace table pairs).execute (db, s) =
      .error .schemaMismatch (db.update table tm, s) := by
  rw [execute_insertPairs]
  exact bind_of_error (Database.writeRecord_found_error hfind (TableManager.writeRecord_refused h))

/-- An `INSERT` has the same outcome in another order of its columns exactly when the values are
refused in both orders, or both orders have the values in the places of their columns. -/
theorem sameOutcome_iff
    (hfind : OrderedMap.find nameLt table db.tableManagers = .ok (some tm))
    (hnodup : (pairs.map Prod.fst).Nodup)
    (hcolumns : (pairs.map Prod.fst).Perm (tm.schema.fields.map Field.name))
    (hperm : pairs'.Perm pairs) :
    SameOutcome keyspace table tm.schema (db, s) pairs pairs' ↔
      (tm.schema.verify (stored pairs) = false ∧ tm.schema.verify (stored pairs') = false) ∨
        ((stored pairs).values.map some = arranged tm.schema pairs ∧
          (stored pairs').values.map some = arranged tm.schema pairs') := by
  have hfields : (tm.schema.fields.map Field.name).Nodup := hcolumns.nodup_iff.mp hnodup
  have hcolumns' : (pairs'.map Prod.fst).Perm (tm.schema.fields.map Field.name) :=
    (hperm.map Prod.fst).trans hcolumns
  have harranged : arranged tm.schema pairs' = arranged tm.schema pairs := by
    unfold arranged
    simp only [lookup_perm hnodup hperm]
  constructor
  · intro h
    cases hverify : tm.schema.verify (stored pairs) with
    | false => exact .inl ⟨rfl, h.accepted ▸ hverify⟩
    | true =>
      have hverify' : tm.schema.verify (stored pairs') = true := h.accepted ▸ hverify
      exact .inr ⟨(named_iff hfields hcolumns).mp (h.named _ (by simp) hverify),
        (named_iff hfields hcolumns').mp (h.named _ (by simp) hverify')⟩
  · rintro (⟨h, h'⟩ | ⟨h, h'⟩)
    · refine ⟨by rw [h, h'], by rw [execute_refused hfind h, execute_refused hfind h'], ?_⟩
      intro ps hps hverify
      rcases List.mem_pair.mp hps with rfl | rfl
      · rw [h] at hverify
        contradiction
      · rw [h'] at hverify
        contradiction
    · have hvalues : (stored pairs).values.map some = (stored pairs').values.map some := by
        rw [h, h', harranged]
      have hstored : stored pairs = stored pairs' :=
        congrArg Record.mk (List.map_injective_iff.mpr (Option.some_injective _) hvalues)
      refine ⟨by rw [hstored], by rw [execute_insertPairs, execute_insertPairs, hstored], ?_⟩
      intro ps hps _
      rcases List.mem_pair.mp hps with rfl | rfl
      · exact (named_iff hfields hcolumns).mpr h
      · exact (named_iff hfields hcolumns').mpr h'

end Execution

/-- The columns `a` and `b` of the type `INT`. -/
def twoColumns : Schema := ⟨0, 0, [⟨[97], ⟨.int, 4⟩⟩, ⟨[98], ⟨.int, 4⟩⟩]⟩

/-- A database with the empty table `t`. -/
def oneTable : Database := ⟨[], [([116], TableManager.new [] [116] twoColumns [])]⟩

/-- The same value in both columns. -/
theorem sameOutcome_iff_equal :
    SameOutcome [] [116] twoColumns (oneTable, Posix.start (fun _ => 0))
      [([97], .int 1), ([98], .int 1)] [([98], .int 1), ([97], .int 1)] :=
  (@sameOutcome_iff _ _ _ _ (TableManager.new [] [116] twoColumns []) _ _ rfl (by decide) (by decide)
    (by decide)).mpr (.inr ⟨by decide, by decide⟩)

/-- With `(b, a) VALUES (2, 1)` the value 2 is stored in the column `a`. -/
theorem not_sameOutcome_swapped :
    ¬SameOutcome [] [116] twoColumns (oneTable, Posix.start (fun _ => 0))
      [([97], .int 1), ([98], .int 2)] [([98], .int 2), ([97], .int 1)] := by
  intro h
  have hnamed := h.named [([98], .int 2), ([97], .int 1)] (by simp) (by decide)
  exact absurd (hnamed ([98], .int 2) (by simp)) (by decide)

end CqlStatement

end Dibibase
