import Dibibase.Lang.Lexer
import Dibibase.Lang.Visitor

/-!
# Integer literals and integer columns

Every decimal literal becomes an `INT` value and every negative number a `DOUBLE` one, so the
literals of a column are right only for `INT` and from zero to the largest 32-bit number.
-/

namespace Dibibase

namespace CQL3Visitor

open CqlParser CqlLexer

/-- The constant that the text of one token is. -/
def parseConstant (text : List UInt8) : Option Constant :=
  match nextToken text with
  | some (.decimalLiteral, n) => if n = text.length then some (.decimalLiteral text) else none
  | some (.floatLiteral, n) => if n = text.length then some (.floatLiteral text) else none
  | _ => none

/-- The range of a signed integer type. -/
def InRange (t : DataType) (v : Int) : Prop :=
  -2 ^ (8 * t.length.toNat - 1) ≤ v ∧ v < 2 ^ (8 * t.length.toNat - 1)

instance (t : DataType) (v : Int) : Decidable (InRange t v) := by
  unfold InRange
  infer_instance

/-- In place of the value of column `i` of an accepted record, the literal of `v` is accepted as
`v` if the type of the column has that number, and refused otherwise. -/
def LiteralAgrees (strtold : List UInt8 → BitVec 64) (schema : Schema) (record : Record) (i : Nat)
    (t : DataType) (v : Int) : Prop :=
  ∃ constant value, parseConstant (toDecimal v) = some constant ∧
    visitConstant strtold constant = .ok value ∧
    (InRange t v → schema.verify ⟨record.values.set i value⟩ = true ∧ value.intValue = v) ∧
    (¬InRange t v → schema.verify ⟨record.values.set i value⟩ = false)

variable {schema : Schema} {record : Record} {i : Nat} {f : Field} {t : DataType} {v : Int}

/-- A record is accepted with another value in one column exactly when this has the type of the
column. -/
lemma verify_set (hv : schema.verify record = true) (hi : schema.fields[i]? = some f)
    (value : Data) :
    schema.verify ⟨record.values.set i value⟩ = true ↔ value.type = f.type := by
  have htypes := Schema.verify_iff.mp hv
  have hlt : i < schema.fields.length := (List.getElem?_eq_some_iff.mp hi).1
  have hfield : (schema.fields.map Field.type)[i]? = some f.type := by
    rw [List.getElem?_map, hi, Option.map_some]
  rw [Schema.verify_iff, List.map_set, htypes]
  constructor
  · intro h
    have hget := congrArg (fun l => l[i]?) h
    simp only [hfield, List.getElem?_set_self (by simpa using hlt : i < (schema.fields.map
      Field.type).length), Option.some.injEq] at hget
    exact hget
  · intro h
    rw [h]
    apply List.ext_getElem?
    intro j
    by_cases hj : i = j
    · subst hj
      rw [List.getElem?_set_self (by simpa using hlt), hfield]
    · rw [List.getElem?_set_ne hj]

lemma parseConstant_nat (n : Nat) :
    parseConstant (toDecimal n) = some (.decimalLiteral (toDecimal n)) := by
  unfold parseConstant
  rw [nextToken_nat]
  exact if_pos rfl

lemma parseConstant_neg {n : Nat} (h : 0 < n) :
    parseConstant (toDecimal (-n : Int)) = some (.floatLiteral (toDecimal (-n : Int))) := by
  unfold parseConstant
  rw [nextToken_neg h]
  exact if_pos rfl

/-- What a column gets for a number from zero on: its low 32 bits, or those of the largest
`long long` if the number is larger than that. -/
lemma toInt_strtoll (n : Nat) :
    ((strtoll (toDecimal n)).setWidth 32).toInt = (min n (2 ^ 63 - 1) : Int).bmod (2 ^ 32) := by
  have hclamp : ((min n (2 ^ 63 - 1) : Nat) : Int) = min (n : Int) (2 ^ 63 - 1) := by omega
  rw [BitVec.toInt_setWidth,
    toNat_strtoll (toDecimal_ne_nil n) (fun _ => isDigit_of_mem_toDecimal), decimalValue_toDecimal,
    hclamp]

lemma literalAgrees_iff_of (strtold : List UInt8 → BitVec 64) {constant : Constant} {value : Data}
    (hparse : parseConstant (toDecimal v) = some constant)
    (hvisit : visitConstant strtold constant = .ok value) (hv : schema.verify record = true)
    (hi : schema.fields[i]? = some f) (hf : f.type = t) :
    LiteralAgrees strtold schema record i t v ↔
      if value.type = t then InRange t v ∧ value.intValue = v else ¬InRange t v := by
  have hverify := verify_set hv hi value
  rw [hf] at hverify
  have hagrees : LiteralAgrees strtold schema record i t v ↔
      (InRange t v → schema.verify ⟨record.values.set i value⟩ = true ∧ value.intValue = v) ∧
        (¬InRange t v → schema.verify ⟨record.values.set i value⟩ = false) := by
    constructor
    · rintro ⟨constant', value', hparse', hvisit', h⟩
      rw [hparse, Option.some.injEq] at hparse'
      subst hparse'
      rw [hvisit, Except.ok.injEq] at hvisit'
      rwa [hvisit']
    · exact fun h => ⟨constant, value, hparse, hvisit, h⟩
  rw [hagrees]
  by_cases htype : value.type = t
  · have hok := hverify.mpr htype
    rw [if_pos htype, hok]
    simp
    tauto
  · have hbad : schema.verify ⟨record.values.set i value⟩ = false := by
      simpa using fun h => htype (hverify.mp h)
    rw [if_neg htype, hbad]
    simp

/-- The literal of a number agrees with a column of an integer type exactly when the number has
no sign and the column is an `INT` that can hold it, or the column cannot hold the number and is
no `INT` or the number is negative. -/
theorem literalAgrees_iff (strtold : List UInt8 → BitVec 64) {name : DataTypeName}
    (hname : name = .tinyint ∨ name = .smallint ∨ name = .int ∨ name = .bigint)
    (ht : visitDataTypeName name = .ok t) (hv : schema.verify record = true)
    (hi : schema.fields[i]? = some f) (hf : f.type = t) (v : Int) :
    LiteralAgrees strtold schema record i t v ↔
      (name = .int ∧ 0 ≤ v ∧ v < 2 ^ 31) ∨ (¬InRange t v ∧ (name = .int → v < 0)) := by
  have htype : name = .int ↔ t = ⟨.int, 4⟩ := by
    rcases hname with rfl | rfl | rfl | rfl <;> cases ht <;> simp
  have hdouble : ∀ d, (Data.double d).type ≠ t := by
    intro d
    rcases hname with rfl | rfl | rfl | rfl <;> cases ht <;> simp [Data.type]
  rw [htype]
  by_cases hsign : 0 ≤ v
  · obtain ⟨n, rfl⟩ := Int.eq_ofNat_of_zero_le hsign
    rw [literalAgrees_iff_of strtold (parseConstant_nat n) rfl hv hi hf]
    by_cases hint : t = ⟨.int, 4⟩
    · subst hint
      have hrange : InRange ⟨.int, 4⟩ n ↔ (n : Int) < 2 ^ 31 := by
        simp only [InRange, BitVec.reduceToNat]
        omega
      have hvalue : (Data.int ((strtoll (toDecimal n)).setWidth 32)).intValue =
          (min n (2 ^ 63 - 1) : Int).bmod (2 ^ 32) := toInt_strtoll n
      rw [if_pos (by rfl), hrange, hvalue]
      constructor
      · exact fun h => .inl ⟨rfl, Int.natCast_nonneg n, h.1⟩
      · rintro (⟨-, -, h⟩ | ⟨-, h⟩)
        · rw [min_eq_left (by omega), Int.bmod_eq_of_le (by omega) (by omega)]
          exact ⟨h, rfl⟩
        · have := h rfl
          omega
    · rw [if_neg (fun h => hint h.symm)]
      constructor
      · exact fun h => .inr ⟨h, fun h' => absurd h' hint⟩
      · rintro (⟨h, -⟩ | ⟨h, -⟩)
        · exact absurd h hint
        · exact h
  · obtain ⟨n, hn⟩ := Int.eq_ofNat_of_zero_le (a := -v) (by omega)
    obtain rfl : v = -(n : Int) := by omega
    rw [literalAgrees_iff_of strtold (parseConstant_neg (by omega)) rfl hv hi hf,
      if_neg (hdouble _)]
    constructor
    · exact fun h => .inr ⟨h, fun _ => by omega⟩
    · rintro (⟨-, h, -⟩ | ⟨h, -⟩)
      · omega
      · exact h

/-- A table with one column of a type. -/
def oneColumn (t : DataType) : Schema := ⟨0, 0, [⟨[107], t⟩]⟩

/-- The largest number of an `INT` column. -/
theorem literalAgrees_iff_largest :
    LiteralAgrees (fun _ => 0) (oneColumn ⟨.int, 4⟩) ⟨[.int 0]⟩ 0 ⟨.int, 4⟩ 2147483647 :=
  (@literalAgrees_iff _ _ 0 ⟨[107], ⟨.int, 4⟩⟩ _ (fun _ => 0) .int (by simp) rfl (by decide) rfl rfl
    2147483647).mpr (.inl ⟨rfl, by norm_num, by norm_num⟩)

/-- The literal 5 is refused in a `TINYINT` column. -/
theorem not_literalAgrees_tinyint :
    ¬LiteralAgrees (fun _ => 0) (oneColumn ⟨.tinyint, 1⟩) ⟨[.tinyint 0]⟩ 0 ⟨.tinyint, 1⟩ 5 := by
  have hparse : parseConstant (toDecimal 5) = some (.decimalLiteral [53]) := by decide
  rintro ⟨constant, value, hconstant, hvisit, hin, -⟩
  rw [hparse, Option.some.injEq] at hconstant
  subst hconstant
  cases hvisit
  have haccepted := (hin (by decide)).1
  exact absurd haccepted (by decide)

end CQL3Visitor

end Dibibase
