import Dibibase.Api.ResultBody

/-!
# The size of the answer to SELECT

The indices that the functions of `QueryResult` pass on do not depend on what the array holds. So
the size of a result is known from its names, its columns and its values.
-/

namespace Dibibase

open Library

namespace QueryResult

/-- Where the first function returns, the second one does so too and with the same result, whatever
stands in the array. -/
def Alike {α : Type} (m m' : BodyM α) : Prop :=
  ∀ body a body', m body = .ok a body' → ∀ memory, ∃ memory', m' memory = .ok a memory'

namespace Alike

variable {α β : Type}

lemma pure (a : α) : Alike (Pure.pure a) (Pure.pure a) := by
  intro body a' body' h memory
  cases h
  exact ⟨memory, rfl⟩

lemma bind {m m' : BodyM α} {f f' : α → BodyM β} (hm : Alike m m')
    (hf : ∀ a, Alike (f a) (f' a)) : Alike (m >>= f) (m' >>= f') := by
  intro body b body' h memory
  obtain ⟨a, body₁, hfirst, hsecond⟩ := bind_eq_ok h
  obtain ⟨memory₁, hm⟩ := hm body a body₁ hfirst memory
  obtain ⟨memory₂, hf⟩ := hf a body₁ b body' hsecond memory₁
  exact ⟨memory₂, by rw [bind_of_ok hm, hf]⟩

lemma ofExcept (x : Except Exception α) : Alike (BodyM.ofExcept x) (BodyM.ofExcept x) := by
  intro body a body' h memory
  cases x with
  | ok a' =>
    cases h
    exact ⟨memory, rfl⟩
  | error e => cases h

lemma forM {f f' : α → BodyM Unit} (hf : ∀ a, Alike (f a) (f' a)) (as : List α) :
    Alike (as.forM f) (as.forM f') := by
  induction as with
  | nil => exact Alike.pure ()
  | cons a as ih => exact (hf a).bind (fun _ => ih)

/-- Only the index decides whether a character can be put. -/
lemma putChar (i value value' : Int) : Alike (putChar i value) (putChar i value') := by
  intro body a body' h memory
  exact ⟨_, putChar_of_bounds (putChar_inv h) _ _⟩

lemma getChar (i : Int) {f f' : Int → BodyM β} (hf : ∀ x y, Alike (f x) (f' y)) :
    Alike (getChar i >>= f) (getChar i >>= f') := by
  intro body a body' h memory
  obtain ⟨x, body₁, hget, hrest⟩ := bind_eq_ok h
  have hi : 0 ≤ i ∧ i < 3500 := by
    unfold QueryResult.getChar at hget
    by_contra hi
    rw [if_neg hi] at hget
    cases hget
  have hget' : QueryResult.getChar i memory = .ok (memory i.toNat).toBitVec.toInt memory := by
    rw [QueryResult.getChar, if_pos hi]
  obtain ⟨memory', hrun⟩ := hf x (memory i.toNat).toBitVec.toInt body₁ a body' hrest memory
  exact ⟨memory', by rw [bind_of_ok hget', hrun]⟩

lemma count (start : Int) (breadth : Nat) (size : Int) :
    Alike (count start breadth size) (count start breadth size) := by
  unfold QueryResult.count
  split_ifs
  · refine (Alike.forM (fun k => (Alike.putChar _ _ _).bind (fun _ => ?_)) _).bind
      (fun _ => Alike.pure _)
    split_ifs
    · exact Alike.putChar _ _ _
    · exact Alike.getChar _ (fun _ _ => Alike.putChar _ _ _)
    · exact Alike.getChar _ (fun _ _ => Alike.getChar _ (fun _ _ => Alike.putChar _ _ _))
    · exact Alike.pure _
  · refine (Alike.forM (fun k => (Alike.putChar _ _ _).bind (fun _ => ?_)) _).bind
      (fun _ => Alike.pure _)
    split_ifs
    · exact Alike.putChar _ _ _
    · exact Alike.getChar _ (fun _ _ => Alike.putChar _ _ _)
    · exact Alike.pure _
  · refine (Alike.forM (fun k => (Alike.putChar _ _ _).bind (fun _ => ?_)) _).bind
      (fun _ => Alike.pure _)
    split_ifs
    · exact Alike.putChar _ _ _
    · exact Alike.pure _
  · exact Alike.pure _

lemma charAt (input : List UInt8) (k : Nat) : Alike (charAt input k) (charAt input k) := by
  unfold QueryResult.charAt
  cases input[k]? with
  | some c => exact Alike.pure c
  | none =>
    dsimp only
    split_ifs
    · exact Alike.pure 0
    · intro body a body' h
      cases h

lemma copyChars (start : Int) (input : List UInt8) (k n : Nat) :
    Alike (copyChars start input k n) (copyChars start input k n) := by
  induction n generalizing k with
  | zero => exact Alike.pure ()
  | succ n ih =>
    exact (Alike.charAt input k).bind (fun _ => (Alike.putChar _ _ _).bind (fun _ => ih (k + 1)))

lemma appendCounted (index : Int) (input : List UInt8) :
    Alike (appendCounted index input) (appendCounted index input) :=
  (Alike.count _ _ _).bind (fun _ => (Alike.copyChars _ _ _ _).bind (fun _ => Alike.pure _))

lemma appendField (start size : Int) (fieldName : List UInt8) (t : DataType) :
    Alike (appendField start size fieldName t) (appendField start size fieldName t) := by
  unfold QueryResult.appendField
  apply (Alike.putChar _ _ _).bind
  intro _
  apply (Alike.copyChars _ _ _ _).bind
  intro _
  cases typeCode t.id with
  | some code => exact (Alike.putChar _ _ _).bind (fun _ => Alike.pure _)
  | none => exact Alike.pure _

lemma appendRecord (start size : Int) (recordStr : List UInt8) (id : Int) :
    Alike (appendRecord start size recordStr id) (appendRecord start size recordStr id) := by
  unfold QueryResult.appendRecord
  split_ifs
  · exact (Alike.copyChars _ _ _ _).bind (fun _ => Alike.pure _)
  · exact (Alike.ofExcept _).bind (fun _ => (Alike.count _ _ _).bind (fun _ => Alike.pure _))
  · exact Alike.pure _

lemma appendFields (index : Int) (fields : List Field) :
    Alike (appendFields index fields) (appendFields index fields) := by
  induction fields generalizing index with
  | nil => exact Alike.pure index
  | cons field fields ih =>
    exact (Alike.count _ _ _).bind (fun _ => (Alike.appendField _ _ _ _).bind (fun _ => ih _))

lemma appendValues (index : Int) (values : List (List UInt8)) :
    Alike (appendValues index values) (appendValues index values) := by
  induction values generalizing index with
  | nil => exact Alike.pure index
  | cons val values ih =>
    unfold QueryResult.appendValues
    split_ifs
    · exact (Alike.ofExcept _).bind (fun _ => (Alike.count _ _ _).bind (fun _ =>
        (Alike.appendRecord _ _ _ _).bind (fun _ => ih _)))
    · exact ih index

lemma selectResult (keyspace table : List UInt8) (schema : Schema) (recordStr : List UInt8) :
    Alike (selectResult keyspace table schema recordStr)
      (selectResult keyspace table schema recordStr) := by
  unfold QueryResult.selectResult
  iterate 8
    apply (Alike.putChar _ _ _).bind
    intro _
  apply (Alike.count _ _ _).bind
  intro _
  apply (Alike.appendCounted _ _).bind
  intro _
  apply (Alike.appendCounted _ _).bind
  intro _
  apply (Alike.appendFields _ _).bind
  intro _
  apply (Alike.count _ _ _).bind
  intro _
  apply (Alike.ofExcept _).bind
  intro _
  exact Alike.appendValues _ _

end Alike

/-! ### The size -/

/-- The bytes of the columns: a name behind its length, and a type. -/
def fieldsSize (fields : List Field) : Int :=
  (fields.map (fun field => 4 + toInt field.name.length)).sum

/-- The bytes of the values: each has its length before it. -/
def valuesSize (values : List Attributes) : Int := (values.map (fun a => 4 + a.length)).sum

/-- The bytes of a result with these names, columns and values. -/
def selectSize (keyspace table : List UInt8) (fields : List Field) (values : List Attributes) : Int :=
  20 + toInt keyspace.length + toInt table.length + fieldsSize fields + valuesSize values

section Size

variable {body body' : Nat → UInt8} {index r : Int}

lemma ofExcept_eq_ok {α : Type} {x : Except Exception α} {a : α}
    (h : BodyM.ofExcept x body = .ok a body') : x = .ok a := by
  cases x with
  | ok a' =>
    cases h
    rfl
  | error e => cases h

lemma appendCounted_size {input : List UInt8} (h : appendCounted index input body = .ok r body') :
    r = index + 2 + toInt input.length := by
  obtain ⟨index₁, body₁, hcount, h⟩ := bind_eq_ok h
  obtain ⟨_, body₂, -, h⟩ := bind_eq_ok h
  cases h
  rw [count_inv hcount]
  rfl

lemma appendField_size {size : Int} {name : List UInt8} {t : DataType}
    (h : appendField index size name t body = .ok r body') : r = index + size + 2 := by
  unfold appendField at h
  obtain ⟨_, body₁, -, h⟩ := bind_eq_ok h
  obtain ⟨_, body₂, -, h⟩ := bind_eq_ok h
  cases hcode : typeCode t.id with
  | some code =>
    rw [hcode] at h
    obtain ⟨_, body₃, -, h⟩ := bind_eq_ok h
    cases h
    rfl
  | none =>
    rw [hcode] at h
    cases h
    rfl

lemma appendFields_size {fields : List Field} (h : appendFields index fields body = .ok r body') :
    r = index + fieldsSize fields := by
  induction fields generalizing index body with
  | nil =>
    cases h
    simp [fieldsSize]
  | cons field fields ih =>
    obtain ⟨index₁, body₁, hcount, h⟩ := bind_eq_ok h
    obtain ⟨index₂, body₂, hfield, h⟩ := bind_eq_ok h
    have hindex₁ := count_inv hcount
    have hindex₂ := appendField_size hfield
    rw [ih h, hindex₂, hindex₁, fieldsSize, fieldsSize, List.map_cons, List.sum_cons]
    push_cast
    ring

lemma appendRecord_size {size id : Int} {recordStr : List UInt8}
    (h : appendRecord index size recordStr id body = .ok r body') : r = index + size := by
  unfold appendRecord at h
  split_ifs at h
  · obtain ⟨_, body₁, -, h⟩ := bind_eq_ok h
    cases h
    rfl
  · obtain ⟨_, body₁, -, h⟩ := bind_eq_ok h
    obtain ⟨_, body₂, -, h⟩ := bind_eq_ok h
    cases h
    rfl
  · cases h
    rfl

/-- The pieces that are written are those that are not empty. -/
lemma appendValues_size {values : List (List UInt8)}
    (h : appendValues index values body = .ok r body') :
    ∃ as, (values.filter (fun val => 0 < val.length)).mapM attributes = .ok as ∧
      r = index + valuesSize as := by
  induction values generalizing index body with
  | nil =>
    cases h
    exact ⟨[], rfl, by simp [valuesSize]⟩
  | cons val values ih =>
    unfold appendValues at h
    by_cases hval : 0 < val.length
    · rw [if_pos hval] at h
      obtain ⟨a, body₁, hattributes, h⟩ := bind_eq_ok h
      obtain ⟨index₁, body₂, hcount, h⟩ := bind_eq_ok h
      obtain ⟨index₂, body₃, hrecord, h⟩ := bind_eq_ok h
      obtain ⟨as, has, hr⟩ := ih h
      have ha := ofExcept_eq_ok hattributes
      refine ⟨a :: as, ?_, ?_⟩
      · rw [List.filter_cons_of_pos (by simpa using hval), List.mapM_cons, ha, has]
        rfl
      · rw [hr, appendRecord_size hrecord, count_inv hcount, valuesSize, valuesSize,
          List.map_cons, List.sum_cons]
        push_cast
        ring
    · rw [if_neg hval] at h
      obtain ⟨as, has, hr⟩ := ih h
      refine ⟨as, ?_, hr⟩
      rw [List.filter_cons_of_neg (by simpa using hval), has]

/-- A result that is made has this size. -/
theorem selectResult_size {keyspace table : List UInt8} {schema : Schema} {recordStr : List UInt8}
    (h : selectResult keyspace table schema recordStr body = .ok r body') :
    ∃ values, recordValues recordStr = .ok values ∧
      r = selectSize keyspace table schema.fields values := by
  unfold selectResult at h
  iterate 8 obtain ⟨_, _, -, h⟩ := bind_eq_ok h
  obtain ⟨index₁, _, h₁, h⟩ := bind_eq_ok h
  obtain ⟨index₂, _, h₂, h⟩ := bind_eq_ok h
  obtain ⟨index₃, _, h₃, h⟩ := bind_eq_ok h
  obtain ⟨index₄, _, h₄, h⟩ := bind_eq_ok h
  obtain ⟨index₅, _, h₅, h⟩ := bind_eq_ok h
  obtain ⟨values, _, hsplit, h⟩ := bind_eq_ok h
  obtain ⟨as, has, hr⟩ := appendValues_size h
  refine ⟨as, ?_, ?_⟩
  · rw [recordValues, ofExcept_eq_ok hsplit]
    exact has
  · have e₁ := count_inv h₁
    have e₂ := appendCounted_size h₂
    have e₃ := appendCounted_size h₃
    have e₄ := appendFields_size h₄
    have e₅ := count_inv h₅
    rw [selectSize]
    push_cast at e₁ e₅
    omega

end Size

end QueryResult

end Dibibase
