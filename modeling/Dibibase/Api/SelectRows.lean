import Dibibase.Api.RecordText
import Dibibase.Api.ResultBytes

/-!
# The row in the result of a SELECT

A record goes through three formats on its way to a client: the string that one node sends to another, the
array on the stack, and the body of a result. What a client reads there are the columns of the table and
one row with the bytes of each value.
-/

namespace Dibibase

open Library RowsResult

namespace QueryResult

open ResultSerializer (entryText serialize)
open ServerMsg (write write_append write_front write_end)

/-! ### What is written for a column and for a value -/

/-- The type of a column as its code says. -/
def columnType (t : DataType) : CqlType := .simple ((typeCode t.id).getD 0).toNat

/-- The name and the type that a client reads for a field. -/
def column (field : Field) : List UInt8 × CqlType := (field.name, columnType field.type)

/-- The bytes of a value: a text as it is, and an integer as a big-endian number. -/
def valueBytes : Data → List UInt8
  | .ascii data => data
  | .int data => beBytes 4 data.toNat
  | _ => []

/-- A field whose name and type are written. -/
structure Shown (field : Field) : Prop where
  name : field.name.length ≠ 256
  type : ∀ code, field.type.id ≠ .unknown code

/-- A value whose length and bytes are written, and whose text is found in the string of its record. -/
inductive Written : Data → Prop where
  | ascii {data : List UInt8} (hcomma : 44 ∉ data) (hbar : 124 ∉ data) (hlength : data.length ≠ 256) :
      Written (.ascii data)
  | int {data : BitVec 32} (hlt : data.toNat < 16777216) (h256 : data.toNat ≠ 256)
      (h65536 : data.toNat ≠ 65536) : Written (.int data)

def columnBytes (field : Field) : List UInt8 :=
  encodeString field.name ++ beBytes 2 ((typeCode field.type.id).getD 0).toNat

/-- The body of a result with one row. -/
def selectBytes (keyspace table : List UInt8) (fields : List Field) (values : List Data) : List UInt8 :=
  beBytes 4 2 ++ (beBytes 4 1 ++ (beBytes 4 fields.length ++ (encodeString keyspace ++
    (encodeString table ++ (fields.flatMap columnBytes ++ (beBytes 4 1 ++
      values.flatMap (fun value => encodeValue (valueBytes value))))))))

/-! ### The columns -/

section Columns

variable {start : Nat} {field : Field} {body : Nat → UInt8}

/-- The codes of known types have one byte, and nothing stands behind them. -/
lemma typeCode_known {id : TypeId} (h : ∀ code, id ≠ .unknown code) :
    ∃ n : Nat, typeCode id = some (n : Int) ∧ n < 256 ∧ SimpleCode n := by
  cases id with
  | ascii => exact ⟨1, rfl, by decide, by decide⟩
  | bigint => exact ⟨2, rfl, by decide, by decide⟩
  | boolean => exact ⟨4, rfl, by decide, by decide⟩
  | double => exact ⟨7, rfl, by decide, by decide⟩
  | float => exact ⟨8, rfl, by decide, by decide⟩
  | int => exact ⟨9, rfl, by decide, by decide⟩
  | smallint => exact ⟨19, rfl, by decide, by decide⟩
  | tinyint => exact ⟨20, rfl, by decide, by decide⟩
  | blob => exact ⟨3, rfl, by decide, by decide⟩
  | unknown code => exact absurd rfl (h code)

lemma length_columnBytes (field : Field) : (columnBytes field).length = 4 + field.name.length := by
  rw [columnBytes, List.length_append, length_encodeString, length_beBytes]
  omega

/-- The first byte of the code is written before the name, and the second one behind it. -/
lemma appendField_write (hfit : start + 2 + field.name.length ≤ 3500) (hshown : Shown field)
    (body : Nat → UInt8) :
    appendField start field.name.length field.name field.type body =
      .ok ((start + 2 + field.name.length : Nat) : Int)
        (write start (field.name ++ beBytes 2 ((typeCode field.type.id).getD 0).toNat) body) := by
  obtain ⟨n, hcode, hn, -⟩ := typeCode_known hshown.type
  have hfirst := @putChar_ok (start + field.name.length) (by omega) 0 body
  have hsecond := @putChar_ok (start + field.name.length + 1) (by omega) n
  have hcopy := @copyChars_write start field.name (by omega)
    (write (start + field.name.length) [UInt8.ofInt 0] body)
  rw [write_front] at hcopy
  have hi : ((field.name.length : Int) + start) = ((start + field.name.length : Nat) : Int) := by omega
  have hi' : ((start + field.name.length : Nat) : Int) + 1 =
      ((start + field.name.length + 1 : Nat) : Int) := by omega
  have hbytes : beBytes 2 n = [0] ++ [UInt8.ofInt n] := by
    rw [beBytes_two, Nat.div_eq_of_lt hn, ofInt_natCast]
    rfl
  have hwrite := write_append start (field.name ++ [UInt8.ofInt 0]) [UInt8.ofInt n] body
  rw [List.length_append, List.length_singleton, ← Nat.add_assoc] at hwrite
  unfold appendField
  rw [hi, bind_of_ok hfirst, ServerMsg.update_eq_write, Int.toNat_natCast, bind_of_ok hcopy, hcode]
  dsimp only
  rw [hi', bind_of_ok (hsecond _), ServerMsg.update_eq_write, hwrite, pure_apply, Option.getD_some,
    Int.toNat_natCast, hbytes, ← List.append_assoc]
  have hend : (start : Int) + field.name.length + 2 = ((start + 2 + field.name.length : Nat) : Int) := by
    omega
  rw [hend]
  rfl

lemma appendFields_write {fields : List Field} (hshown : ∀ field ∈ fields, Shown field)
    (hfit : start + (fields.flatMap columnBytes).length ≤ 3500) (body : Nat → UInt8) :
    appendFields start fields body = .ok ((start + (fields.flatMap columnBytes).length : Nat) : Int)
      (write start (fields.flatMap columnBytes) body) := by
  induction fields generalizing start body with
  | nil =>
    rw [List.flatMap_nil, ServerMsg.write_nil]
    rfl
  | cons field fields ih =>
    rw [List.flatMap_cons, List.length_append] at hfit ⊢
    have hlength := length_columnBytes field
    have hfield := hshown field List.mem_cons_self
    have hint : toInt field.name.length = field.name.length := toInt_of_lt (by omega)
    have hcount := @count_write start field.name.length 2 (.inl ⟨rfl, by omega⟩) (by omega) (by omega)
      hfield.name (by omega) body
    have happend := @appendField_write (start + 2) field (by omega) hfield
      (write start (beBytes 2 field.name.length) body)
    have hwrite := write_append start (beBytes 2 field.name.length)
      (field.name ++ beBytes 2 ((typeCode field.type.id).getD 0).toNat) body
    rw [length_beBytes] at hwrite
    have hbytes : beBytes 2 field.name.length ++
        (field.name ++ beBytes 2 ((typeCode field.type.id).getD 0).toNat) = columnBytes field := by
      rw [columnBytes, encodeString, List.append_assoc]
    have hnext : start + 2 + 2 + field.name.length = start + (columnBytes field).length := by omega
    rw [hwrite, hbytes, hnext] at happend
    have hrest := @ih (start + (columnBytes field).length)
      (fun other hother => hshown other (List.mem_cons_of_mem field hother)) (by omega)
      (write start (columnBytes field) body)
    rw [appendFields, hint, bind_of_ok hcount, bind_of_ok happend, hrest, write_append, Nat.add_assoc]

end Columns

/-! ### The values -/

section Values

variable {start : Nat} {value : Data} {values : List Data} {body : Nat → UInt8}

lemma Written.prints (h : Written value) : Prints value := by
  cases h with
  | ascii => exact .inl rfl
  | int => exact .inr rfl

/-- The length that is found in the string is that of the bytes. -/
lemma Written.length (h : Written value) (hfit : (valueBytes value).length < 2 ^ 32) :
    value.type.length.toNat = (valueBytes value).length := by
  cases h with
  | ascii hcomma hbar hlength =>
    simp only [Data.type, valueBytes] at hfit ⊢
    rw [BitVec.toNat_ofNat, Nat.mod_eq_of_lt hfit]
  | int hlt h256 h65536 =>
    rw [valueBytes, length_beBytes]
    rfl

lemma Written.plain (h : Written value) (hfit : (valueBytes value).length ≤ 3500) : Plain value := by
  intro text htext
  subst htext
  cases h with
  | ascii hcomma hbar hlength =>
    simp only [valueBytes] at hfit
    exact ⟨hcomma, hbar, by omega⟩

lemma appendRecord_write (h : Written value) (hfit : start + (valueBytes value).length ≤ 3500)
    (body : Nat → UInt8) :
    appendRecord start (valueBytes value).length (textOf value) value.type.id.toByte.toNat body =
      .ok ((start + (valueBytes value).length : Nat) : Int) (write start (valueBytes value) body) := by
  cases h with
  | @ascii data hcomma hbar hlength =>
    simp only [valueBytes] at hfit
    have hcopy := copyChars_write hfit body
    have hid : ((Data.ascii data).type.id.toByte.toNat : Int) = TypeId.ascii.toByte.toNat := rfl
    unfold appendRecord
    rw [if_pos hid]
    simp only [valueBytes, textOf, Int.toNat_natCast]
    rw [bind_of_ok hcopy]
    rfl
  | @int data hlt h256 h65536 =>
    simp only [valueBytes, length_beBytes] at hfit
    have hint : data.toInt = (data.toNat : Int) := by
      rw [BitVec.toInt_eq_toNat_cond, if_pos (by omega)]
    have hstoi : stoi (toDecimal data.toInt) = .ok (data.toNat : Int) := by
      rw [hint]
      exact stoi_toDecimal (by omega) (by omega)
    have hcount := @count_write start data.toNat 4 (.inr rfl) hfit hlt h256 h65536 body
    have hdata : BodyM.ofExcept (stoi (toDecimal data.toInt)) body = .ok (data.toNat : Int) body := by
      rw [hstoi]
      rfl
    have hne : ¬((Data.int data).type.id.toByte.toNat : Int) = TypeId.ascii.toByte.toNat :=
      (by decide : ¬(TypeId.int.toByte.toNat : Int) = TypeId.ascii.toByte.toNat)
    have hid : ((Data.int data).type.id.toByte.toNat : Int) = TypeId.int.toByte.toNat := rfl
    unfold appendRecord
    rw [if_neg hne, if_pos hid]
    simp only [textOf, valueBytes, length_beBytes]
    rw [bind_of_ok hdata, bind_of_ok hcount]
    rfl

lemma length_encodeValue (v : List UInt8) : (encodeValue v).length = 4 + v.length := by
  rw [encodeValue, List.length_append, length_beBytes]

/-- The pieces of the string are written one after the other. -/
lemma appendValues_write (hwritten : ∀ value ∈ values, Written value)
    (hfit : start + (values.flatMap (fun value => encodeValue (valueBytes value))).length ≤ 3500)
    (body : Nat → UInt8) :
    appendValues start (pieces values ++ [[]]) body =
      .ok ((start + (values.flatMap (fun value => encodeValue (valueBytes value))).length : Nat) : Int)
        (write start (values.flatMap (fun value => encodeValue (valueBytes value))) body) := by
  induction values generalizing start body with
  | nil =>
    rw [List.flatMap_nil, ServerMsg.write_nil]
    rfl
  | cons value values ih =>
    have hvalue := hwritten value List.mem_cons_self
    rw [List.flatMap_cons, List.length_append] at hfit ⊢
    have hlength := length_encodeValue (valueBytes value)
    have htype := hvalue.length (by omega)
    obtain ⟨hcomma, -, hsize⟩ := (plain_iff hvalue.prints).mp (hvalue.plain (by omega))
    have hattributes := @attributes_entryText _ value.type hcomma (by omega) (by omega)
    have hpiece : 0 < (entryText (textOf value) value.type).length := by
      rw [length_entryText]
      omega
    have hread : BodyM.ofExcept (attributes (entryText (textOf value) value.type)) body =
        .ok ⟨textOf value, value.type.id.toByte.toNat, value.type.length.toNat⟩ body := by
      rw [hattributes]
      rfl
    have h256 : (valueBytes value).length ≠ 256 := by
      cases hvalue with
      | ascii hcomma hbar hne => exact hne
      | int hlt h256 h65536 =>
        rw [valueBytes, length_beBytes]
        decide
    have hcount := @count_write start (valueBytes value).length 4 (.inr rfl) (by omega) (by omega) h256
      (by omega) body
    have hrecord := @appendRecord_write (start + 4) value hvalue (by omega)
      (write start (beBytes 4 (valueBytes value).length) body)
    have hwrite := write_append start (beBytes 4 (valueBytes value).length) (valueBytes value) body
    rw [length_beBytes] at hwrite
    rw [hwrite, Nat.add_assoc, ← hlength] at hrecord
    have hrest := @ih (start + (encodeValue (valueBytes value)).length)
      (fun other hother => hwritten other (List.mem_cons_of_mem value hother)) (by omega)
      (write start (encodeValue (valueBytes value)) body)
    have hpieces : pieces (value :: values) ++ [[]] =
        entryText (textOf value) value.type :: (pieces values ++ [[]]) := rfl
    rw [hpieces, appendValues, if_pos hpiece, bind_of_ok hread]
    dsimp only
    rw [htype, bind_of_ok hcount, bind_of_ok hrecord]
    refine hrest.trans ?_
    rw [encodeValue, write_append, Nat.add_assoc]

end Values

/-! ### The result -/

section Result

variable {keyspace table recordStr : List UInt8} {schema : Schema} {values : List Data}

/-- What is written of a result is all that belongs to it, and it fits into the array. There is a value for
each column. -/
structure Readable (keyspace table : List UInt8) (fields : List Field) (values : List Data) : Prop where
  keyspaceLength : keyspace.length ≠ 256
  tableLength : table.length ≠ 256
  count : fields.length ≠ 256
  shown : ∀ field ∈ fields, Shown field
  written : ∀ value ∈ values, Written value
  row : values.length = fields.length
  nonempty : values ≠ []
  size : (selectBytes keyspace table fields values).length ≤ 3500

lemma length_selectBytes (keyspace table : List UInt8) (fields : List Field) (values : List Data) :
    (selectBytes keyspace table fields values).length = 20 + keyspace.length + table.length +
      (fields.flatMap columnBytes).length +
        (values.flatMap (fun value => encodeValue (valueBytes value))).length := by
  simp only [selectBytes, List.length_append, length_beBytes, length_encodeString]
  omega

/-- The string of a record is split into its pieces. -/
lemma split_pieces (hwritten : ∀ value ∈ values, Written value)
    (hfit : ∀ value ∈ values, (valueBytes value).length ≤ 3500) (hne : values ≠ []) :
    split ((pieces values).flatMap (fun e => e ++ [124])) 124 = .ok (pieces values ++ [[]]) := by
  refine splitLoop_texts (pieces values) (by simpa [pieces] using hne) ?_ _ (length_le_flatMap _)
  intro x hx
  obtain ⟨value, hvalue, rfl⟩ := List.mem_map.mp hx
  have hw := hwritten value hvalue
  obtain ⟨-, hbar, hsize⟩ := (plain_iff hw.prints).mp (hw.plain (hfit value hvalue))
  exact ⟨fun hmem => hbar (bar_mem_entryText.mp hmem),
    (length_entryText_lt_iff hw.prints (by omega)).mpr hsize⟩

lemma length_le_of_mem {α : Type} {f : α → List UInt8} {as : List α} {a : α} (h : a ∈ as) :
    (f a).length ≤ (as.flatMap f).length := by
  obtain ⟨before, after, rfl⟩ := List.append_of_mem h
  simp only [List.flatMap_append, List.flatMap_cons, List.length_append]
  omega

lemma length_fields_le (fields : List Field) : fields.length ≤ (fields.flatMap columnBytes).length := by
  induction fields with
  | nil => simp
  | cons field fields ih =>
    rw [List.flatMap_cons, List.length_append, List.length_cons, length_columnBytes]
    omega

lemma selectResult_write (hreadable : Readable keyspace table schema.fields values)
    (hserialize : serialize (some ⟨values⟩) = .ok recordStr) (body : Nat → UInt8) :
    selectResult keyspace table schema recordStr body =
      .ok (((selectBytes keyspace table schema.fields values).length : Nat) : Int)
        (write 0 (selectBytes keyspace table schema.fields values) body) := by
  have hlength := length_selectBytes keyspace table schema.fields values
  have hfit := hreadable.size
  have hvalueFit : ∀ value ∈ values, (valueBytes value).length ≤ 3500 := by
    intro value hvalue
    have hle := @length_le_of_mem _ (fun value => encodeValue (valueBytes value)) values value hvalue
    have hencoded := length_encodeValue (valueBytes value)
    omega
  rw [@serialize_eq ⟨values⟩ (fun value hvalue => (hreadable.written value hvalue).prints)]
    at hserialize
  have hsplit := split_pieces hreadable.written hvalueFit hreadable.nonempty
  have hne : recordStr ≠ [] := by
    rintro rfl
    have hempty : (pieces values).flatMap (fun e => e ++ [(124 : UInt8)]) = [] := by
      injection hserialize
    rw [hempty] at hsplit
    cases hnil : values with
    | nil => exact hreadable.nonempty hnil
    | cons value others =>
      rw [hnil] at hsplit
      cases hsplit
  have hread : ∀ memory, BodyM.ofExcept (split recordStr 124) memory = .ok (pieces values ++ [[]]) memory := by
    intro memory
    have hstring : (pieces values).flatMap (fun e => e ++ [(124 : UInt8)]) = recordStr := by
      injection hserialize
    rw [← hstring, hsplit]
    rfl
  have hcolumns := length_fields_le schema.fields
  have hint : toInt schema.fields.length = (schema.fields.length : Int) := toInt_of_lt (by omega)
  unfold selectResult
  rw [if_neg hne]
  iterate 8 rw [bind_of_ok (putChar_of_bounds (by norm_num) _ _)]
  have hstart : Function.update (Function.update (Function.update (Function.update
      (Function.update (Function.update (Function.update (Function.update body (Int.toNat 0)
        (UInt8.ofInt 0)) (Int.toNat 1) (UInt8.ofInt 0)) (Int.toNat 2) (UInt8.ofInt 0)) (Int.toNat 3)
        (UInt8.ofInt 2)) (Int.toNat 4) (UInt8.ofInt 0)) (Int.toNat 5) (UInt8.ofInt 0)) (Int.toNat 6)
        (UInt8.ofInt 0)) (Int.toNat 7) (UInt8.ofInt 1) =
          write 4 (beBytes 4 1) (write 0 (beBytes 4 2) body) := by
    have e₁ := update_four 0 0 0 0 2 body
    have e₂ := update_four 4 0 0 0 1 (write 0 [0, 0, 0, 2] body)
    exact (congrArg (fun b => Function.update (Function.update (Function.update (Function.update b 4 0)
      5 0) 6 0) 7 1) e₁).trans e₂
  have hcount := @count_write 8 schema.fields.length 4 (.inr rfl) (by omega) (by omega) hreadable.count
    (by omega)
  have hone := @count_write (8 + 4 + (encodeString keyspace).length + (encodeString table).length +
    (schema.fields.flatMap columnBytes).length) 1 4 (.inr rfl)
    (by rw [length_encodeString, length_encodeString]; omega)
    (by omega) (by omega) (by omega)
  have e₁ := length_encodeString keyspace
  have e₂ := length_encodeString table
  simp only [Nat.cast_ofNat] at hcount
  simp only [Nat.cast_one] at hone
  rw [hstart, hint, bind_of_ok (hcount _),
    bind_of_ok (appendCounted_write (by omega) hreadable.keyspaceLength _),
    bind_of_ok (appendCounted_write (by omega) hreadable.tableLength _),
    bind_of_ok (appendFields_write hreadable.shown (by omega) _), bind_of_ok (hone _),
    bind_of_ok (hread _), appendValues_write hreadable.written (by omega)]
  have hend : 8 + 4 + (encodeString keyspace).length + (encodeString table).length +
      (schema.fields.flatMap columnBytes).length + 4 +
        (values.flatMap (fun value => encodeValue (valueBytes value))).length =
          (selectBytes keyspace table schema.fields values).length := by omega
  rw [hend, selectBytes]
  iterate 7 rw [← write_append]
  simp only [length_beBytes, Nat.reduceAdd]

lemma decodes_column {field : Field} (hshown : Shown field) (hlength : field.name.length < 65536) :
    Library.Decodes RowsResult.column (columnBytes field) (column field) := by
  obtain ⟨n, hcode, hn, hsimple⟩ := typeCode_known hshown.type
  rw [columnBytes, column, columnType, hcode, Option.getD_some, Int.toNat_natCast]
  exact RowsResult.decodes_column hlength (decodes_simple hsimple (by omega) 63)

/-- The body of the result is read as the columns and one row. -/
lemma decodes_selectBytes {fields : List Field} (hreadable : Readable keyspace table fields values) :
    Library.Decodes RowsResult.decode (selectBytes keyspace table fields values)
      ⟨keyspace, table, fields.map column, [values.map (fun value => some (valueBytes value))]⟩ := by
  have hlength := length_selectBytes keyspace table fields values
  have hfit := hreadable.size
  have hfields := length_fields_le fields
  have hcolumns := @Library.Decodes.replicate _ _ RowsResult.column columnBytes column fields (by
    intro field hfield
    have hle := length_le_of_mem (f := columnBytes) hfield
    rw [length_columnBytes] at hle
    exact decodes_column (hreadable.shown field hfield) (by omega))
  have hvalues := @Library.Decodes.replicate _ _ RowsResult.value
    (fun value => encodeValue (valueBytes value)) (fun value => some (valueBytes value)) values (by
      intro value hvalue
      have hle := @length_le_of_mem _ (fun value => encodeValue (valueBytes value)) values value hvalue
      rw [length_encodeValue] at hle
      exact decodes_value (by omega))
  rw [hreadable.row] at hvalues
  have hrows : Library.Decodes (Decoder.replicate 1 (Decoder.replicate fields.length RowsResult.value))
      (values.flatMap (fun value => encodeValue (valueBytes value)))
        [values.map (fun value => some (valueBytes value))] := by
    have hone := @Library.Decodes.replicate _ _ (Decoder.replicate fields.length RowsResult.value)
      (fun row => row.flatMap (fun value => encodeValue (valueBytes value)))
      (fun row => row.map (fun value => some (valueBytes value))) [values] (by
        intro row hrow
        rw [List.mem_singleton.mp hrow]
        exact hvalues)
    rwa [List.flatMap_singleton] at hone
  exact decodes_decode (by omega) (by omega) (by omega) (by norm_num) hcolumns hrows

/-- Whatever the array held before, the result that is made of the string of a record is read as the columns
of the table and one row with the values of the record. -/
theorem selectResult_decodes (hreadable : Readable keyspace table schema.fields values)
    (hserialize : serialize (some ⟨values⟩) = .ok recordStr) (memory : Nat → UInt8) :
    ∃ size body, selectResult keyspace table schema recordStr memory = .ok size body ∧
      RowsResult.decode (Server.segment body 0 size.toNat) = some (⟨keyspace, table,
        schema.fields.map column, [values.map (fun value => some (valueBytes value))]⟩, []) := by
  refine ⟨_, _, selectResult_write hreadable hserialize memory, ?_⟩
  have hsegment := ServerMsg.segment_write_self 0 (selectBytes keyspace table schema.fields values) memory
  rw [Nat.zero_add] at hsegment
  have hdecodes := decodes_selectBytes hreadable []
  rw [List.append_nil] at hdecodes
  rw [Int.toNat_natCast, hsegment, hdecodes]

/-- A table with an integer and a text. -/
def numbersAndTexts : Schema := ⟨0, 0, [⟨text "k", ⟨.int, 4⟩⟩, ⟨text "v", ⟨.ascii, 20⟩⟩]⟩

lemma readable_numbersAndTexts :
    Readable [] (text "t") numbersAndTexts.fields [.int 7, .ascii (text "ab")] where
  keyspaceLength := by decide
  tableLength := by decide
  count := by decide
  shown := by
    intro field hfield
    simp only [numbersAndTexts, List.mem_cons, List.not_mem_nil, or_false] at hfield
    rcases hfield with rfl | rfl
    · exact ⟨by decide, fun _ h => by cases h⟩
    · exact ⟨by decide, fun _ h => by cases h⟩
  written := by
    intro value hvalue
    simp only [List.mem_cons, List.not_mem_nil, or_false] at hvalue
    rcases hvalue with rfl | rfl
    · exact .int (by decide) (by decide) (by decide)
    · exact .ascii (by decide) (by decide) (by decide)
  row := rfl
  nonempty := by simp
  size := by decide

theorem selectResult_decodes_two : ∃ size body,
    selectResult [] (text "t") numbersAndTexts (text "7,5,4|ab,0,2|") (fun _ => 255) = .ok size body ∧
      RowsResult.decode (Server.segment body 0 size.toNat) = some (⟨[], text "t",
        [(text "k", .simple 9), (text "v", .simple 1)], [[some [0, 0, 0, 7], some (text "ab")]]⟩, []) :=
  selectResult_decodes readable_numbersAndTexts (by decide +kernel) (fun _ => 255)

end Result

end QueryResult

end Dibibase
