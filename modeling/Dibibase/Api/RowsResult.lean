import Dibibase.Library.Decoding

/-!
# Results with rows

The reader of a client for the body of a result of kind ROWS with one table for all columns: the
metadata, that is the keyspace, the table, and the names and types of the columns, and then the rows.
-/

namespace Dibibase

open Library

/-- A type of a column. A simple type is its code alone. -/
inductive CqlType where
  | simple (code : Nat)
  | list (element : CqlType)
  | set (element : CqlType)
  | map (key value : CqlType)
  deriving DecidableEq, Repr

/-- The codes without anything behind them: not a custom type, a collection, a user-defined type or a
tuple. -/
def SimpleCode (code : Nat) : Prop := code ∉ [0, 32, 33, 34, 48, 49]

instance (code : Nat) : Decidable (SimpleCode code) := inferInstanceAs (Decidable (_ ∉ _))

/-- A value of a row is null or bytes. -/
structure RowsResult where
  keyspace : List UInt8
  table : List UInt8
  columns : List (List UInt8 × CqlType)
  rows : List (List (Option (List UInt8)))
  deriving DecidableEq, Repr

namespace RowsResult

def string : Decoder (List UInt8) := do
  let length ← Decoder.beNat 2
  Decoder.take length

def value : Decoder (Option (List UInt8)) := do
  let length ← Decoder.beNat 4
  if length < 2 ^ 31 then return some (← Decoder.take length) else return none

/-- What stands behind the code of a type. -/
def typeBehind (element : Decoder CqlType) (code : Nat) : Decoder CqlType :=
  if code = 32 then return .list (← element)
  else if code = 34 then return .set (← element)
  else if code = 33 then do
    let key ← element
    let value ← element
    return .map key value
  else if SimpleCode code then return .simple code
  else Decoder.fail

/-- A type with collections in each other at most so deep. -/
def type : Nat → Decoder CqlType
  | 0 => Decoder.fail
  | depth + 1 => do
    let code ← Decoder.beNat 2
    typeBehind (type depth) code

def column : Decoder (List UInt8 × CqlType) := do
  let name ← string
  let type ← type 64
  return (name, type)

/-- The kind of the result is 2, and the only flag is that for a global table. -/
def decode : Decoder RowsResult := do
  let kind ← Decoder.beNat 4
  let flags ← Decoder.beNat 4
  if kind = 2 ∧ flags = 1 then do
    let columnsCount ← Decoder.beNat 4
    let keyspace ← string
    let table ← string
    let columns ← Decoder.replicate columnsCount column
    let rowsCount ← Decoder.beNat 4
    let rows ← Decoder.replicate rowsCount (Decoder.replicate columnsCount value)
    return ⟨keyspace, table, columns, rows⟩
  else Decoder.fail

/-! ### The encodings that are read -/

def encodeString (s : List UInt8) : List UInt8 := beBytes 2 s.length ++ s

def encodeValue (v : List UInt8) : List UInt8 := beBytes 4 v.length ++ v

lemma decodes_string {s : List UInt8} (h : s.length < 65536) : Decodes string (encodeString s) s :=
  (Decodes.beNat (by simpa using h)).bind (Decodes.take rfl)

lemma decodes_value {v : List UInt8} (h : v.length < 2 ^ 31) :
    Decodes value (encodeValue v) (some v) := by
  refine (Decodes.beNat (by norm_num; omega)).bind ?_
  rw [if_pos h]
  exact (Decodes.take rfl).map

lemma decodes_simple {code : Nat} (hcode : SimpleCode code) (h : code < 65536) (depth : Nat) :
    Decodes (type (depth + 1)) (beBytes 2 code) (.simple code) := by
  have hne : code ≠ 32 ∧ code ≠ 34 ∧ code ≠ 33 := by
    simp only [SimpleCode, List.mem_cons, not_or] at hcode
    exact ⟨hcode.2.1, hcode.2.2.2.1, hcode.2.2.1⟩
  have hbehind : Decodes (typeBehind (type depth) code) [] (.simple code) := by
    rw [typeBehind, if_neg hne.1, if_neg hne.2.1, if_neg hne.2.2, if_pos hcode]
    exact Decodes.pure _
  have hbind := (Decodes.beNat (w := 2) (by simpa using h)).bind hbehind
  rwa [List.append_nil] at hbind

lemma decodes_list {bs : List UInt8} {t : CqlType} {depth : Nat} (h : Decodes (type depth) bs t) :
    Decodes (type (depth + 1)) (beBytes 2 32 ++ bs) (.list t) :=
  (Decodes.beNat (by norm_num)).bind h.map

lemma decodes_set {bs : List UInt8} {t : CqlType} {depth : Nat} (h : Decodes (type depth) bs t) :
    Decodes (type (depth + 1)) (beBytes 2 34 ++ bs) (.set t) :=
  (Decodes.beNat (by norm_num)).bind h.map

lemma decodes_map {as bs : List UInt8} {t u : CqlType} {depth : Nat}
    (h : Decodes (type depth) as t) (h' : Decodes (type depth) bs u) :
    Decodes (type (depth + 1)) (beBytes 2 33 ++ (as ++ bs)) (.map t u) :=
  (Decodes.beNat (by norm_num)).bind (h.bind h'.map)

lemma decodes_column {name bs : List UInt8} {t : CqlType} (hname : name.length < 65536)
    (h : Decodes (type 64) bs t) : Decodes column (encodeString name ++ bs) (name, t) :=
  (decodes_string hname).bind h.map

/-- The parts of a result follow each other. -/
lemma decodes_decode {keyspace table : List UInt8} {columns : List (List UInt8 × CqlType)}
    {rows : List (List (Option (List UInt8)))} {m n : Nat} {as bs : List UInt8}
    (hkeyspace : keyspace.length < 65536) (htable : table.length < 65536) (hm : m < 256 ^ 4)
    (hn : n < 256 ^ 4) (hcolumns : Decodes (Decoder.replicate m column) as columns)
    (hrows : Decodes (Decoder.replicate n (Decoder.replicate m value)) bs rows) :
    Decodes decode (beBytes 4 2 ++ (beBytes 4 1 ++ (beBytes 4 m ++ (encodeString keyspace ++
      (encodeString table ++ (as ++ (beBytes 4 n ++ bs))))))) ⟨keyspace, table, columns, rows⟩ := by
  refine (Decodes.beNat (by norm_num)).bind ((Decodes.beNat (by norm_num)).bind ?_)
  rw [if_pos ⟨rfl, rfl⟩]
  exact (Decodes.beNat hm).bind ((decodes_string hkeyspace).bind ((decodes_string htable).bind
    (hcolumns.bind ((Decodes.beNat hn).bind hrows.map))))

end RowsResult

end Dibibase
