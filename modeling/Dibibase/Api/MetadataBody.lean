import Dibibase.Api.Metadata
import Dibibase.Api.RowsResult

/-!
# The array of a metadata answer

The functions of `Metadata` write into an array at an index that they pass on to each other. They
append the strings of bytes of the answer, and a client reads the whole array as a result with rows.
-/

namespace Dibibase

open Library

/-- The array behind the `unsigned char *`. -/
abbrev Memory := Nat → UInt8

namespace Memory

/-- The bytes `bs` in place of the elements from `i` on. -/
def place (metadata : Memory) (i : Nat) (bs : List UInt8) : Memory := fun j =>
  if i ≤ j ∧ j < i + bs.length then bs.getD (j - i) 0 else metadata j

/-- The first `n` elements. -/
def bytes (metadata : Memory) (n : Nat) : List UInt8 := (List.range n).map metadata

lemma bytes_place (metadata : Memory) (bs : List UInt8) : (place metadata 0 bs).bytes bs.length = bs := by
  apply List.ext_getElem
  · simp [bytes]
  · intro i hi hi'
    simp only [bytes, List.getElem_map, List.getElem_range, place]
    rw [if_pos (by omega), Nat.sub_zero, List.getD_eq_getElem?_getD, List.getElem?_eq_getElem hi']
    rfl

end Memory

namespace MetadataBody

/-- The elements at one index of the arrays `ss`, `dtype`, `t1` and `t2`. -/
structure SchemaColumn where
  name : List UInt8
  dtype : Nat
  t1 : Nat
  t2 : Nat

/-- `metadata[i] = v`. -/
def assign (i v : Nat) (metadata : Memory) : Memory := Function.update metadata i (UInt8.ofNat v)

/-- The loop that copies the characters of a string. -/
def copyChars : List UInt8 → Memory → Nat → Memory × Nat
  | [], metadata, i => (metadata, i)
  | c :: str, metadata, i => copyChars str (Function.update metadata i c) (i + 1)

def addStr (metadata : Memory) (str : List UInt8) (i : Nat) : Memory × Nat :=
  let length := str.length
  if length > 255 then
    let metadata := assign i (length / 256) metadata
    let i := i + 1
    let metadata := assign i (length - length / 256 * 256) metadata
    copyChars str metadata (i + 1)
  else
    let metadata := assign i 0 metadata
    let i := i + 1
    let metadata := assign i length metadata
    copyChars str metadata (i + 1)

def appendHdrs (metadata : Memory) (keyspace table : List UInt8) (cols : Nat) : Memory × Nat :=
  let metadata := assign 7 2 (assign 6 0 (assign 5 0 (assign 4 0 metadata)))
  let metadata := assign 11 1 (assign 10 0 (assign 9 0 (assign 8 0 metadata)))
  let metadata := assign 15 cols (assign 14 0 (assign 13 0 (assign 12 0 metadata)))
  let (metadata, count) := addStr metadata keyspace 16
  addStr metadata table count

/-- A round of the loop of `add_schema`. -/
def addColumn (metadata : Memory) (column : SchemaColumn) (count : Nat) : Memory × Nat :=
  let (metadata, count) := addStr metadata column.name count
  let metadata := assign (count + 1) column.dtype (assign count 0 metadata)
  let count := count + 2
  if column.dtype = 34 ∨ column.dtype = 33 ∨ column.dtype = 32 then
    let metadata := assign (count + 1) column.t1 (assign count 0 metadata)
    let count := count + 2
    if column.dtype = 33 then
      (assign (count + 1) column.t2 (assign count 0 metadata), count + 2)
    else (metadata, count)
  else (metadata, count)

def addSchema (metadata : Memory) : List SchemaColumn → Nat → Memory × Nat
  | [], count => (metadata, count)
  | column :: columns, count =>
    let (metadata, count) := addColumn metadata column count
    addSchema metadata columns count

def recordMetadata (metadata : Memory) (count rows : Nat) : Memory × Nat :=
  if rows < 256 then
    (assign (count + 3) rows (assign (count + 2) 0 (assign (count + 1) 0 (assign count 0 metadata))),
      count + 4)
  else (metadata, count)

def recordSize (metadata : Memory) (count : Nat) (record : List UInt8) : Memory × Nat :=
  let len := record.length
  let metadata := assign (count + 3) 0 (assign (count + 2) 0 (assign (count + 1) 0 (assign count 0 metadata)))
  if len < 256 then (assign (count + 3) len metadata, count + 4)
  else if len < 65536 then
    let metadata := assign (count + 2) (len / 256) metadata
    (assign (count + 3) (len - 256 * (metadata (count + 2)).toNat) metadata, count + 4)
  else (metadata, count + 4)

/-- The loop of `add_records`. -/
def addRecordsLoop (metadata : Memory) : List (List UInt8) → Nat → Memory × Nat
  | [], count => (metadata, count)
  | record :: records, count =>
    let (metadata, count) := recordSize metadata count record
    let (metadata, count) := copyChars record metadata count
    addRecordsLoop metadata records count

/-- The index that is given back is one behind the next free one. -/
def addRecords (metadata : Memory) (count : Nat) (records : List (List UInt8)) : Memory × Nat :=
  let (metadata, count) := addRecordsLoop metadata records count
  (metadata, count + 1)

/-- The array and the size that is given back. -/
def totalSize (metadata : Memory) (size : Int) : Memory × Int :=
  let size := size - 3
  let metadata := assign 3 0 (assign 2 0 (assign 1 0 (assign 0 0 metadata)))
  if size < 256 then (Function.update metadata 3 (UInt8.ofInt size), size)
  else if size < 65536 then
    let metadata := Function.update metadata 2 (UInt8.ofInt (size / 256))
    (Function.update metadata 3 (UInt8.ofInt (size - size / 256 * 256)), size)
  else if size < 16777216 then
    let metadata := Function.update metadata 1 (UInt8.ofInt (size / (256 * 256)))
    let high := ((metadata 1).toNat : Int)
    let metadata := Function.update metadata 2 (UInt8.ofInt ((size - high * 256 * 256) / 256))
    let middle := ((metadata 2).toNat : Int)
    (Function.update metadata 3 (UInt8.ofInt (size - high * 256 * 256 - middle * 256)), size)
  else (metadata, size)

section Appended

variable (metadata : Memory) (i : Nat)

lemma beBytes_two (n : Nat) : beBytes 2 n = [UInt8.ofNat (n / 256), UInt8.ofNat n] := rfl

lemma beBytes_four (n : Nat) : beBytes 4 n = [UInt8.ofNat (n / 256 / 256 / 256),
    UInt8.ofNat (n / 256 / 256), UInt8.ofNat (n / 256), UInt8.ofNat n] := rfl

lemma ofNat_congr {m n : Nat} (h : m % 256 = n % 256) : UInt8.ofNat m = UInt8.ofNat n := by
  apply UInt8.toNat_inj.mp
  simpa using h

/-- What stands behind the length up to the columns. -/
def headers (keyspace table : List UInt8) (cols : Nat) : List UInt8 :=
  beBytes 4 2 ++ (beBytes 4 1 ++ (beBytes 4 cols ++ (RowsResult.encodeString keyspace ++
    RowsResult.encodeString table)))

/-- A column: its name, its type, and the types in a collection. -/
def columnBytes (c : SchemaColumn) : List UInt8 :=
  RowsResult.encodeString c.name ++ ([0, UInt8.ofNat c.dtype] ++
    (if c.dtype = 34 ∨ c.dtype = 33 ∨ c.dtype = 32 then
      [0, UInt8.ofNat c.t1] ++ (if c.dtype = 33 then [0, UInt8.ofNat c.t2] else [])
    else []))

end Appended

/-! ### What a client reads -/

/-- The type that the codes of a column stand for. -/
inductive HasType (c : SchemaColumn) : CqlType → Prop where
  | simple (h : SimpleCode c.dtype) (hlt : c.dtype < 256) : HasType c (.simple c.dtype)
  | list (h : c.dtype = 32) (h1 : SimpleCode c.t1) (hlt : c.t1 < 256) :
      HasType c (.list (.simple c.t1))
  | set (h : c.dtype = 34) (h1 : SimpleCode c.t1) (hlt : c.t1 < 256) : HasType c (.set (.simple c.t1))
  | map (h : c.dtype = 33) (h1 : SimpleCode c.t1) (hlt : c.t1 < 256) (h2 : SimpleCode c.t2)
      (hlt2 : c.t2 < 256) : HasType c (.map (.simple c.t1) (.simple c.t2))

/-- The first `count` elements are a length and as many bytes as it says, which are read as the
result. -/
def IsBody (built : Memory) (count : Nat) (result : RowsResult) : Prop :=
  beValue ((built.bytes count).take 4) = ((built.bytes count).drop 4).length ∧
    RowsResult.decode ((built.bytes count).drop 4) = some (result, [])

lemma isBody_place {metadata : Memory} {content : List UInt8} {result : RowsResult}
    (hsize : content.length < 2 ^ 24) (h : Decodes RowsResult.decode content result) :
    IsBody (metadata.place 0 (beBytes 4 content.length ++ content)) (4 + content.length) result := by
  have hbytes := Memory.bytes_place metadata (beBytes 4 content.length ++ content)
  rw [List.length_append, length_beBytes] at hbytes
  have hdecode := h []
  rw [List.append_nil] at hdecode
  rw [IsBody, hbytes, List.take_left' (length_beBytes 4 _), List.drop_left' (length_beBytes 4 _),
    beValue_beBytes]
  exact ⟨Nat.mod_eq_of_lt (by omega), hdecode⟩

lemma beBytes_code {code : Nat} (h : code < 256) : beBytes 2 code = [0, UInt8.ofNat code] := by
  rw [beBytes_two, Nat.div_eq_of_lt h]
  rfl

lemma decodes_columnBytes {c : SchemaColumn} {t : CqlType} (hname : c.name.length < 65536)
    (h : HasType c t) : Decodes RowsResult.column (columnBytes c) (c.name, t) := by
  refine RowsResult.decodes_column hname ?_
  have hsimple : ∀ {code : Nat}, SimpleCode code → code < 256 → ∀ depth,
      Decodes (RowsResult.type (depth + 1)) [0, UInt8.ofNat code] (.simple code) := by
    intro code hcode hlt depth
    rw [← beBytes_code hlt]
    exact RowsResult.decodes_simple hcode (by omega) depth
  cases h with
  | simple hcode hlt =>
    have hne : ¬(c.dtype = 34 ∨ c.dtype = 33 ∨ c.dtype = 32) := by
      rintro (h | h | h) <;> exact absurd hcode (by rw [h]; decide)
    rw [if_neg hne, List.append_nil]
    exact hsimple hcode hlt 63
  | list hcode h1 hlt =>
    rw [hcode, if_pos (by decide), if_neg (by decide), List.append_nil]
    exact RowsResult.decodes_list (hsimple h1 hlt 62)
  | set hcode h1 hlt =>
    rw [hcode, if_pos (by decide), if_neg (by decide), List.append_nil]
    exact RowsResult.decodes_set (hsimple h1 hlt 62)
  | map hcode h1 hlt h2 hlt2 =>
    rw [hcode, if_pos (by decide), if_pos rfl]
    exact RowsResult.decodes_map (hsimple h1 hlt 62) (hsimple h2 hlt2 62)

section Built

variable {metadata : Memory} {keyspace table : List UInt8}

/-- The bytes behind the length, up to the rows. -/
def front (keyspace table : List UInt8) (columns : List SchemaColumn) (rows : Nat) : List UInt8 :=
  headers keyspace table columns.length ++ (columns.flatMap columnBytes ++ beBytes 4 rows)

section Columns

variable {columns : List (SchemaColumn × CqlType)} (hkeyspace : keyspace.length < 65536)
  (htable : table.length < 65536) (hcolumns : columns.length < 256)
  (htypes : ∀ c ∈ columns, c.1.name.length < 65536 ∧ HasType c.1 c.2)

include hkeyspace htable hcolumns htypes

/-- The bytes are read as the names and types that were put in, and as the rows behind them. -/
lemma decodes_front {n : Nat} {bs : List UInt8} {rows : List (List (Option (List UInt8)))}
    (hn : n < 256)
    (hrows : Decodes (Decoder.replicate n (Decoder.replicate columns.length RowsResult.value)) bs rows) :
    Decodes RowsResult.decode (front keyspace table (columns.map Prod.fst) n ++ bs)
      ⟨keyspace, table, columns.map (fun c => (c.1.name, c.2)), rows⟩ := by
  have hall := Decodes.replicate (d := RowsResult.column) columns
    (fun c hc => decodes_columnBytes (htypes c hc).1 (htypes c hc).2)
  have h := RowsResult.decodes_decode hkeyspace htable (by omega) (by omega) hall hrows
  simpa [front, headers, List.flatMap_map] using h

end Columns

lemma decodes_records {records : List (List UInt8)} (h : ∀ r ∈ records, r.length < 65536) :
    Decodes (Decoder.replicate records.length (Decoder.replicate 1 RowsResult.value))
      (records.flatMap RowsResult.encodeValue) (records.map (fun r => [some r])) := by
  refine Decodes.replicate records (fun r hr => ?_)
  have hvalue := RowsResult.decodes_value (show r.length < 2 ^ 31 by have := h r hr; omega)
  exact hvalue.map (f := fun v => [v])

end Built

/-! ### The answers of `meta_result` -/

section Answers

lemma addStr_bytes (str : List UInt8) : Metadata.addStr str = RowsResult.encodeString str := by
  rw [Metadata.addStr, RowsResult.encodeString, beBytes_two]
  split
  · rw [show UInt8.ofNat (str.length - str.length / 256 * 256) = UInt8.ofNat str.length from
      ofNat_congr (by omega)]
  · rw [show UInt8.ofNat (str.length / 256) = UInt8.ofNat 0 from ofNat_congr (by omega)]
    rfl

lemma appendHdrs_bytes (keyspace table : String) {cols : Nat} (hcols : cols < 256) :
    Metadata.appendHdrs keyspace table cols = headers (text keyspace) (text table) cols := by
  rw [Metadata.appendHdrs, headers, addStr_bytes, addStr_bytes, beBytes_four cols,
    Nat.div_eq_of_lt hcols, List.append_assoc]
  rfl

/-- The elements of the arrays for a column. -/
def SchemaColumn.ofColumn (c : Metadata.Column) : SchemaColumn :=
  ⟨text c.name, c.dtype.toNat, c.t1.toNat, c.t2.toNat⟩

lemma addSchema_bytes (columns : List Metadata.Column) :
    Metadata.addSchema columns = (columns.map SchemaColumn.ofColumn).flatMap columnBytes := by
  have hcode : ∀ (a : UInt8) (n : Nat), n < 256 → (a.toNat = n ↔ a = UInt8.ofNat n) := by
    intro a n hn
    rw [← UInt8.toNat_inj, UInt8.toNat_ofNat', Nat.mod_eq_of_lt hn]
  rw [Metadata.addSchema, List.flatMap_map]
  congr 1
  funext c
  simp only [columnBytes, SchemaColumn.ofColumn, addStr_bytes, UInt8.ofNat_toNat, List.append_assoc,
    hcode _ 34 (by norm_num), hcode _ 33 (by norm_num), hcode _ 32 (by norm_num)]
  rfl

lemma recordMetadata_bytes {rows : Nat} (hrows : rows < 256) :
    Metadata.recordMetadata rows = beBytes 4 rows := by
  rw [Metadata.recordMetadata, if_pos hrows, beBytes_four, Nat.div_eq_of_lt hrows]
  rfl

lemma recordSize_bytes {record : List UInt8} (h : record.length < 65536) :
    Metadata.recordSize record = beBytes 4 record.length := by
  have hhigh : record.length / 256 / 256 = 0 := by omega
  rw [Metadata.recordSize, beBytes_four, hhigh]
  split
  · rw [show record.length / 256 = 0 by omega]
    rfl
  · rw [UInt8.toNat_ofNat', Nat.mod_eq_of_lt (show record.length / 256 < 2 ^ 8 by omega),
      show UInt8.ofNat (record.length - 256 * (record.length / 256)) = UInt8.ofNat record.length from
        ofNat_congr (by omega)]
    rfl

lemma addRecords_bytes {records : List String} (h : ∀ r ∈ records, (text r).length < 65536) :
    Metadata.addRecords records = (records.map text).flatMap RowsResult.encodeValue := by
  rw [Metadata.addRecords, List.flatMap_map]
  refine List.flatMap_congr (fun r hr => ?_)
  rw [recordSize_bytes (h r hr), RowsResult.encodeValue]

lemma totalSize_bytes {n : Nat} (hn : n < 2 ^ 24) : Metadata.totalSize n = beBytes 4 n := by
  have hfourth : n / 256 / 256 / 256 = 0 := by omega
  rw [Metadata.totalSize, beBytes_four, hfourth]
  split
  · rw [show n / 256 = 0 by omega]
    rfl
  · split
    · rw [show n / 256 / 256 = 0 by omega,
        show UInt8.ofNat (n - n / 256 * 256) = UInt8.ofNat n from ofNat_congr (by omega)]
      rfl
    · have hhigh : (UInt8.ofNat (n / (256 * 256))).toNat = n / 65536 := by
        rw [UInt8.toNat_ofNat', Nat.mod_eq_of_lt (show n / (256 * 256) < 2 ^ 8 by omega)]
      have hmiddle : (UInt8.ofNat ((n - n / 65536 * 256 * 256) / 256)).toNat =
          (n - n / 65536 * 65536) / 256 := by
        rw [UInt8.toNat_ofNat', Nat.mod_eq_of_lt (show _ < 2 ^ 8 by omega)]
        omega
      rw [if_pos (by omega)]
      simp only [hhigh, hmiddle]
      rw [show n / 256 / 256 = n / 65536 by omega,
        show UInt8.ofNat ((n - n / 65536 * 65536) / 256) = UInt8.ofNat (n / 256) from
          ofNat_congr (by omega),
        show UInt8.ofNat (n - n / 65536 * 256 * 256 - (n - n / 65536 * 65536) / 256 * 256) =
          UInt8.ofNat n from ofNat_congr (by omega)]
      rfl

lemma length_records_lt (g : Metadata.GeneratedTable) :
    g.records.length < 100 ∧ ∀ r ∈ g.records, (text r).length < 65536 := by
  cases g <;> decide

lemma length_names_lt (g : Metadata.GeneratedTable) :
    (text g.keyspace).length < 65536 ∧ (text g.table).length < 65536 ∧ g.columns.length < 100 := by
  cases g <;> decide

/-- The bytes of an answer are those that the calls append. -/
lemma content_bytes (g : Metadata.GeneratedTable) : g.content =
    front (text g.keyspace) (text g.table) (g.columns.map SchemaColumn.ofColumn) g.records.length ++
      (g.records.map text).flatMap RowsResult.encodeValue := by
  obtain ⟨-, -, hcolumns⟩ := length_names_lt g
  obtain ⟨hrecords, hrecord⟩ := length_records_lt g
  rw [Metadata.GeneratedTable.content, appendHdrs_bytes _ _ (by omega), addSchema_bytes,
    recordMetadata_bytes (by omega), addRecords_bytes hrecord, front, List.length_map]
  simp only [List.append_assoc]

lemma length_columnBytes_le (c : SchemaColumn) : (columnBytes c).length ≤ c.name.length + 8 := by
  have hif : ∀ (p : Prop) [Decidable p] (bs : List UInt8),
      (if p then bs else []).length ≤ bs.length := by
    intro p _ bs
    split
    · exact le_rfl
    · exact Nat.zero_le _
  have hmap := hif (c.dtype = 33) [0, UInt8.ofNat c.t2]
  have hcollection := hif (c.dtype = 34 ∨ c.dtype = 33 ∨ c.dtype = 32)
    ([0, UInt8.ofNat c.t1] ++ if c.dtype = 33 then [0, UInt8.ofNat c.t2] else [])
  rw [List.length_append] at hcollection
  rw [columnBytes, RowsResult.encodeString, List.length_append, List.length_append, List.length_append,
    length_beBytes]
  simp only [List.length_cons, List.length_nil] at hmap hcollection ⊢
  omega

/-- The types of a column, where its codes have the types of elements behind them. -/
def typeOf (c : Metadata.Column) : CqlType :=
  if c.dtype = 32 then .list (.simple c.t1.toNat)
  else if c.dtype = 34 then .set (.simple c.t1.toNat)
  else if c.dtype = 33 then .map (.simple c.t1.toNat) (.simple c.t2.toNat)
  else .simple c.dtype.toNat

/-- The codes that `typeOf` takes for simple types are such codes. -/
def Simple (c : Metadata.Column) : Prop :=
  (c.dtype = 32 ∨ c.dtype = 34 → SimpleCode c.t1.toNat) ∧
  (c.dtype = 33 → SimpleCode c.t1.toNat ∧ SimpleCode c.t2.toNat) ∧
  (¬(c.dtype = 34 ∨ c.dtype = 33 ∨ c.dtype = 32) → SimpleCode c.dtype.toNat)

instance (c : Metadata.Column) : Decidable (Simple c) := inferInstanceAs (Decidable (_ ∧ _ ∧ _))

lemma hasType_typeOf {c : Metadata.Column} (h : Simple c) :
    HasType (SchemaColumn.ofColumn c) (typeOf c) := by
  obtain ⟨hone, htwo, hnone⟩ := h
  rw [typeOf]
  by_cases hlist : c.dtype = 32
  · rw [if_pos hlist]
    exact .list (congrArg UInt8.toNat hlist) (hone (.inl hlist)) c.t1.toNat_lt
  · by_cases hset : c.dtype = 34
    · rw [if_neg hlist, if_pos hset]
      exact .set (congrArg UInt8.toNat hset) (hone (.inr hset)) c.t1.toNat_lt
    · by_cases hmap : c.dtype = 33
      · rw [if_neg hlist, if_neg hset, if_pos hmap]
        exact .map (congrArg UInt8.toNat hmap) (htwo hmap).1 c.t1.toNat_lt (htwo hmap).2 c.t2.toNat_lt
      · rw [if_neg hlist, if_neg hset, if_neg hmap]
        exact .simple (hnone (by rintro (h | h | h) <;> contradiction)) c.dtype.toNat_lt

lemma fill_eq_place (known : List UInt8) (rest : Memory) :
    Metadata.fill known rest = rest.place 0 known := by
  funext i
  rw [Metadata.fill, Memory.place]
  by_cases hi : i < known.length
  · rw [dif_pos hi, if_pos ⟨Nat.zero_le i, by omega⟩, Nat.sub_zero, List.getD_eq_getElem?_getD,
      List.getElem?_eq_getElem hi]
    rfl
  · rw [dif_neg hi, if_neg (by omega)]

lemma simple_columns (g : Metadata.GeneratedTable) :
    ∀ c ∈ g.columns, (text c.name).length < 65536 ∧ Simple c := by
  cases g <;> decide

/-- Three bytes are enough for the length of an answer. -/
lemma length_content_lt (g : Metadata.GeneratedTable) : g.content.length + 4 < 2 ^ 24 := by
  obtain ⟨hkeyspace, htable, hcolumns⟩ := length_names_lt g
  obtain ⟨hrecords, hrecord⟩ := length_records_lt g
  have hcolumnBytes : ∀ c ∈ g.columns.map SchemaColumn.ofColumn, (columnBytes c).length ≤ 65543 := by
    intro c hc
    obtain ⟨column, hmem, rfl⟩ := List.mem_map.mp hc
    have hname := (simple_columns g column hmem).1
    have hle := length_columnBytes_le (SchemaColumn.ofColumn column)
    dsimp only [SchemaColumn.ofColumn] at hle ⊢
    omega
  have hvalueBytes : ∀ r ∈ g.records.map text, (RowsResult.encodeValue r).length ≤ 65543 := by
    intro r hr
    obtain ⟨record, hmem, rfl⟩ := List.mem_map.mp hr
    have hvalue := hrecord record hmem
    rw [RowsResult.encodeValue, List.length_append, length_beBytes]
    omega
  have hfirst := length_flatMap_le _ hcolumnBytes
  have hsecond := length_flatMap_le _ hvalueBytes
  rw [List.length_map] at hfirst hsecond
  simp only [content_bytes, front, headers, RowsResult.encodeString, List.length_append,
    length_beBytes]
  omega

/-- Every answer but the one about `peers_v2`, whose size is greater by one, is read as its table with
its records. -/
theorem answer_isBody {g : Metadata.GeneratedTable} (hg : g ≠ .peers) (stack : Memory) :
    IsBody (Metadata.fill (Metadata.totalSize g.size ++ g.content) stack) (4 + g.content.length)
      ⟨text g.keyspace, text g.table, g.columns.map (fun c => (text c.name, typeOf c)),
        g.records.map (fun r => [some (text r)])⟩ := by
  have hsize : g.size = g.content.length := by
    cases g <;> first | exact absurd rfl hg | (dsimp only [Metadata.GeneratedTable.size]; omega)
  obtain ⟨hkeyspace, htable, hcolumns⟩ := length_names_lt g
  obtain ⟨hrecords, hrecord⟩ := length_records_lt g
  have htypes := simple_columns g
  have hlength : g.content.length < 2 ^ 24 := Nat.lt_of_add_right_lt (length_content_lt g)
  have hrows : Decodes (Decoder.replicate g.records.length (Decoder.replicate g.columns.length
      RowsResult.value)) ((g.records.map text).flatMap RowsResult.encodeValue)
        (g.records.map (fun r => [some (text r)])) := by
    have hone : g.records = [] ∨ g.columns.length = 1 := by
      cases g <;> first | exact .inl rfl | exact .inr rfl
    rcases hone with hnone | hone
    · rw [hnone]
      exact Decodes.pure []
    · have h := @decodes_records (g.records.map text) (by simpa using hrecord)
      rw [List.length_map, List.map_map] at h
      rw [hone]
      exact h
  have hdecode := @decodes_front (text g.keyspace) (text g.table)
    (g.columns.map (fun c => (SchemaColumn.ofColumn c, typeOf c))) hkeyspace htable
      (by rw [List.length_map]; omega) (by
        intro c hc
        obtain ⟨column, hmem, rfl⟩ := List.mem_map.mp hc
        exact ⟨(htypes column hmem).1, hasType_typeOf (htypes column hmem).2⟩) g.records.length _ _ (by omega)
      (by rw [List.length_map]; exact hrows)
  rw [hsize, totalSize_bytes hlength, fill_eq_place]
  refine isBody_place hlength ?_
  rw [content_bytes]
  rw [List.map_map, List.map_map] at hdecode
  exact hdecode

end Answers

end MetadataBody

end Dibibase
