import Dibibase.Api.CountField
import Dibibase.Api.ResponseFraming
import Dibibase.Api.RowsResult

/-!
# The bytes of a result

What the functions of `QueryResult` leave in the array, as strings of bytes that stand behind each
other. A number is written as it should be unless it is one of those for which nothing is written.
-/

namespace Dibibase

open Library RowsResult

/-! ### Strings of bytes in an array -/

namespace Server

lemma length_segment (buffer : Nat → UInt8) (p q : Nat) : (segment buffer p q).length = q - p := by
  rw [segment, List.length_map, List.length_range]

lemma getElem_segment {buffer : Nat → UInt8} {p q k : Nat} (hk : k < (segment buffer p q).length) :
    (segment buffer p q)[k] = buffer (p + k) := by
  simp [segment]

end Server

namespace ServerMsg

open Server (length_segment getElem_segment)

variable {start n : Nat} {xs ys zs : List UInt8} {h : Header}

lemma write_nil (start : Nat) (h : Header) : write start [] h = h := by
  funext i
  rcases lt_or_ge i start with hi | hi
  · rw [write_of_lt hi]
  · rw [write_of_le (by simpa using hi)]

lemma write_append (start : Nat) (xs ys : List UInt8) (h : Header) :
    write (start + xs.length) ys (write start xs h) = write start (xs ++ ys) h := by
  funext i
  rcases lt_or_ge i start with hlow | hlow
  · rw [write_of_lt (by omega), write_of_lt hlow, write_of_lt hlow]
  obtain ⟨k, rfl⟩ := Nat.exists_eq_add_of_le hlow
  rcases lt_or_ge k xs.length with hk | hk
  · rw [write_of_lt (by omega), write_getElem hk,
      write_getElem (by rw [List.length_append]; omega), List.getElem_append_left hk]
  · rw [write, write, write, if_pos (by omega), if_pos (by omega), if_pos (by omega),
      Nat.add_sub_cancel_left, List.getElem?_append_right hk, List.getElem?_eq_none hk,
      Nat.add_sub_add_left, Option.getD_none]

/-- What is written at the end of a string. -/
lemma write_end {p : Nat} (hp : p = xs.length) (ys : List UInt8) (h : Header) :
    write p ys (write 0 xs h) = write 0 (xs ++ ys) h := by
  rw [← write_append, Nat.zero_add, hp]

/-- What is written in front of a string later. -/
lemma write_front (start : Nat) (xs ys : List UInt8) (h : Header) :
    write start xs (write (start + xs.length) ys h) = write start (xs ++ ys) h := by
  rw [← write_append]
  funext i
  rcases lt_or_ge i start with hlow | hlow
  · rw [write_of_lt hlow, write_of_lt (by omega), write_of_lt (by omega), write_of_lt hlow]
  obtain ⟨k, rfl⟩ := Nat.exists_eq_add_of_le hlow
  rcases lt_or_ge k xs.length with hk | hk
  · rw [write_getElem hk, write_of_lt (by omega), write_getElem hk]
  · rw [write_of_le (by omega), write, write, if_pos (by omega), if_pos (by omega),
      write_of_le (by omega)]

/-- What is written over a string that is not longer. -/
lemma write_cover (start : Nat) {xs ys : List UInt8} (hle : ys.length ≤ xs.length) (h : Header) :
    write start xs (write start ys h) = write start xs h := by
  funext i
  rcases lt_or_ge i start with hlow | hlow
  · rw [write_of_lt hlow, write_of_lt hlow, write_of_lt hlow]
  obtain ⟨k, rfl⟩ := Nat.exists_eq_add_of_le hlow
  rcases lt_or_ge k xs.length with hk | hk
  · rw [write_getElem hk, write_getElem hk]
  · rw [write_of_le (by omega), write_of_le (by omega), write_of_le (by omega)]

lemma update_eq_write (h : Header) (i : Nat) (b : UInt8) : Function.update h i b = write i [b] h := by
  funext j
  rcases lt_trichotomy j i with hj | rfl | hj
  · rw [write_of_lt hj, Function.update_of_ne (by omega)]
  · rw [Function.update_self]
    exact (@write_getElem j [b] h 0 (by simp)).symm
  · rw [write_of_le (by rw [List.length_singleton]; omega), Function.update_of_ne (by omega)]

lemma copy_eq_write (start n : Nat) (array : Nat → UInt8) (h : Header) :
    copy start n array h = write start (Server.segment array 0 n) h := by
  have hlength := length_segment array 0 n
  funext i
  rcases lt_or_ge i start with hlow | hlow
  · rw [copy_of_lt hlow, write_of_lt hlow]
  obtain ⟨k, rfl⟩ := Nat.exists_eq_add_of_le hlow
  rcases lt_or_ge k n with hk | hk
  · rw [copy_add hk, write_getElem (by omega), getElem_segment, Nat.zero_add]
  · rw [copy_of_le (by omega), write_of_le (by omega)]

/-- A part of what was written. -/
lemma segment_write (start : Nat) (xs ys zs : List UInt8) (h : Header) :
    Server.segment (write start (xs ++ (ys ++ zs)) h) (start + xs.length) (start + xs.length + ys.length) =
      ys := by
  apply List.ext_getElem
  · rw [length_segment, Nat.add_sub_cancel_left]
  · intro k hk hk'
    rw [getElem_segment, Nat.add_assoc, write_getElem (by rw [List.length_append, List.length_append]; omega),
      List.getElem_append_right (by omega)]
    simp [List.getElem_append_left hk']

/-- All that was written. -/
lemma segment_write_self (start : Nat) (ys : List UInt8) (h : Header) :
    Server.segment (write start ys h) start (start + ys.length) = ys := by
  have hpart := segment_write start [] ys [] h
  rwa [List.append_nil, List.nil_append] at hpart

/-- What stands behind the string is what it was. -/
lemma segment_write_behind {p q : Nat} (hp : start + xs.length ≤ p) :
    Server.segment (write start xs h) p q = Server.segment h p q := by
  apply List.map_congr_left
  intro k _
  exact write_of_le (by omega)

end ServerMsg

/-! ### The functions that write -/

namespace QueryResult

open ServerMsg

variable {start n : Nat} {input keyspace table : List UInt8} {body : Nat → UInt8}

lemma beBytes_two (n : Nat) : beBytes 2 n = [UInt8.ofNat (n / 256), UInt8.ofNat n] := rfl

lemma beBytes_four (n : Nat) : beBytes 4 n =
    [UInt8.ofNat (n / 16777216), UInt8.ofNat (n / 65536), UInt8.ofNat (n / 256), UInt8.ofNat n] := by
  simp [beBytes, leBytes, Nat.div_div_eq_div_mul]

/-- Four characters one by one. -/
lemma update_four (start : Nat) (a b c d : UInt8) (body : Nat → UInt8) :
    Function.update (Function.update (Function.update (Function.update body start a) (start + 1) b)
      (start + 2) c) (start + 3) d = write start [a, b, c, d] body := by
  simp only [update_eq_write]
  have e₁ := write_append start [a] [b] body
  have e₂ := write_append start [a, b] [c] body
  have e₃ := write_append start [a, b, c] [d] body
  exact (congrArg _ ((congrArg _ e₁).trans e₂)).trans e₃

lemma encoded_write {breadth : Nat} (hbreadth : breadth = 2 ∨ breadth = 4) (start n : Nat)
    (body : Nat → UInt8) :
    encoded start breadth n body = write start (beBytes breadth n) body := by
  rcases hbreadth with rfl | rfl
  · have hhigh : UInt8.ofInt ((n : Int) / 256) = UInt8.ofNat (n / 256) := ofInt_natCast (n / 256)
    rw [encoded_two, beBytes_two, hhigh, ofInt_natCast, update_eq_write, update_eq_write]
    exact write_append start [_] [_] body
  · have h₀ : UInt8.ofInt ((n : Int) / 16777216) = UInt8.ofNat (n / 16777216) :=
      ofInt_natCast (n / 16777216)
    have h₁ : UInt8.ofInt ((n : Int) / 65536) = UInt8.ofNat (n / 65536) := ofInt_natCast (n / 65536)
    have h₂ : UInt8.ofInt ((n : Int) / 256) = UInt8.ofNat (n / 256) := ofInt_natCast (n / 256)
    rw [encoded_four, beBytes_four, h₀, h₁, h₂, ofInt_natCast, update_four]

/-- A number for which something is written, and which has its place. -/
lemma count_write {breadth : Nat} (hbreadth : breadth = 2 ∧ n < 65536 ∨ breadth = 4)
    (hstart : start + breadth ≤ 3500) (hn : n < 16777216) (h256 : n ≠ 256) (h65536 : n ≠ 65536)
    (body : Nat → UInt8) :
    count start breadth n body =
      .ok ((start + breadth : Nat) : Int) (write start (beBytes breadth n) body) := by
  have hwrites := @writesBigEndian_of_lt start breadth body n hbreadth hstart hn h256 h65536
  rw [WritesBigEndian, encoded_write (by omega)] at hwrites
  rw [hwrites, Nat.cast_add]

lemma copyChars_write (h : start + input.length ≤ 3500) (body : Nat → UInt8) :
    copyChars start input 0 input.length body = .ok () (write start input body) :=
  copyChars_ok h input.length (Nat.zero_add _) body

/-- A string behind its length. -/
lemma appendCounted_write (h : start + 2 + input.length ≤ 3500) (h256 : input.length ≠ 256)
    (body : Nat → UInt8) :
    appendCounted start input body = .ok ((start + (encodeString input).length : Nat) : Int)
      (write start (encodeString input) body) := by
  have hint : toInt input.length = input.length := toInt_of_lt (by omega)
  have hcount := @count_write start input.length 2 (.inl ⟨rfl, by omega⟩) (by omega) (by omega) h256
    (by omega) body
  have hcopy := @copyChars_write (start + 2) input h (write start (beBytes 2 input.length) body)
  have hwrite := write_append start (beBytes 2 input.length) input body
  rw [length_beBytes] at hwrite
  rw [hwrite] at hcopy
  unfold appendCounted appendString
  rw [hint, bind_of_ok hcount, Int.toNat_natCast, bind_of_ok hcopy, pure_apply, encodeString,
    List.length_append, length_beBytes]
  push_cast
  rw [Int.add_assoc]

/-- The names of the change, of what is changed, and of its place. -/
def changed (keyspace table : List UInt8) : List UInt8 :=
  encodeString (text "CREATED") ++
    (encodeString (text "TABLE") ++ (encodeString keyspace ++ encodeString table))

/-- The body of the event behind the length, which is one too large. -/
def schemaChangeBytes (keyspace table : List UInt8) : List UInt8 :=
  [255, 255, 12] ++ (beBytes 4 (36 + keyspace.length + table.length) ++
    (encodeString (text "SCHEMA_CHANGE") ++ changed keyspace table))

def createTableBytes (keyspace table : List UInt8) : List UInt8 := beBytes 4 5 ++ changed keyspace table

lemma length_encodeString (s : List UInt8) : (encodeString s).length = 2 + s.length := by
  rw [encodeString, List.length_append, length_beBytes]

lemma length_changed (keyspace table : List UInt8) :
    (changed keyspace table).length = 20 + keyspace.length + table.length := by
  have hcreated : (text "CREATED").length = 7 := by decide
  have htable : (text "TABLE").length = 5 := by decide
  simp only [changed, List.length_append, length_encodeString, hcreated, htable]
  omega

lemma length_schemaChangeBytes (keyspace table : List UInt8) :
    (schemaChangeBytes keyspace table).length = 42 + keyspace.length + table.length := by
  have hchange : (text "SCHEMA_CHANGE").length = 13 := by decide
  simp only [schemaChangeBytes, List.length_append, List.length_cons, List.length_nil,
    length_encodeString, length_changed, length_beBytes, hchange]
  omega

lemma length_createTableBytes (keyspace table : List UInt8) :
    (createTableBytes keyspace table).length = 24 + keyspace.length + table.length := by
  rw [createTableBytes, List.length_append, length_beBytes, length_changed]
  omega

/-- The calls that append the names of a change. -/
lemma changed_write {α : Type} (k : Int → BodyM α)
    (h : start + 20 + keyspace.length + table.length ≤ 3500) (hkeyspace : keyspace.length ≠ 256)
    (htable : table.length ≠ 256) (body : Nat → UInt8) :
    (do
      let index ← appendCounted start (text "CREATED")
      let index ← appendCounted index (text "TABLE")
      let index ← appendCounted index keyspace
      let index ← appendCounted index table
      k index) body =
        k ((start + (changed keyspace table).length : Nat) : Int)
          (write start (changed keyspace table) body) := by
  have hcreated : (text "CREATED").length = 7 := by decide
  have hkind : (text "TABLE").length = 5 := by decide
  have e₁ := length_encodeString (text "CREATED")
  have e₂ := length_encodeString (text "TABLE")
  have e₃ := length_encodeString keyspace
  rw [bind_of_ok (appendCounted_write (by omega) (by omega) body),
    bind_of_ok (appendCounted_write (by omega) (by omega) _),
    bind_of_ok (appendCounted_write (by omega) hkeyspace _),
    bind_of_ok (appendCounted_write (by omega) htable _)]
  rw [changed, ← write_append, ← write_append, ← write_append]
  simp only [List.length_append, Nat.add_assoc]

lemma schemaChange_write (h : 42 + keyspace.length + table.length ≤ 3500)
    (hkeyspace : keyspace.length ≠ 256) (htable : table.length ≠ 256)
    (hsize : 36 + keyspace.length + table.length ≠ 256) (body : Nat → UInt8) :
    schemaChange keyspace table body = .ok ((42 + keyspace.length + table.length : Nat) : Int)
      (write 0 (schemaChangeBytes keyspace table) body) := by
  have hchange : (text "SCHEMA_CHANGE").length = 13 := by decide
  have e₁ := length_encodeString (text "SCHEMA_CHANGE")
  have e₂ := length_changed keyspace table
  have hindex : ((7 + (encodeString (text "SCHEMA_CHANGE")).length +
      (changed keyspace table).length : Nat) : Int) - 6 =
        ((36 + keyspace.length + table.length : Nat) : Int) := by omega
  have hthree : Function.update (Function.update (Function.update body 0 (UInt8.ofInt 0xFF)) 1
      (UInt8.ofInt 0xFF)) 2 (UInt8.ofInt 0x0C) = write 0 [255, 255, 12] body := by
    simp only [update_eq_write]
    exact (congrArg _ (write_append 0 [255] [255] body)).trans (write_append 0 [255, 255] [12] body)
  have hfirst := @appendCounted_write 7 (text "SCHEMA_CHANGE") (by omega) (by omega)
    (write 0 [255, 255, 12] body)
  have hlast := @count_write 3 (36 + keyspace.length + table.length) 4 (.inr rfl) (by omega)
    (by omega) hsize (by omega)
  simp only [Nat.cast_ofNat] at hfirst hlast
  unfold schemaChange
  rw [bind_of_ok (putChar_zero _ _), bind_of_ok (putChar_one _ _), bind_of_ok (putChar_two _ _),
    hthree, bind_of_ok hfirst, changed_write _ (by omega) hkeyspace htable, hindex,
    bind_of_ok (hlast _), pure_apply]
  have hend : 7 + (encodeString (text "SCHEMA_CHANGE")).length + (changed keyspace table).length =
      42 + keyspace.length + table.length := by omega
  have hfront := write_front 3 (beBytes 4 (36 + keyspace.length + table.length))
    (encodeString (text "SCHEMA_CHANGE") ++ changed keyspace table) (write 0 [255, 255, 12] body)
  rw [length_beBytes] at hfront
  have hall : write 3 (beBytes 4 (36 + keyspace.length + table.length) ++
      (encodeString (text "SCHEMA_CHANGE") ++ changed keyspace table)) (write 0 [255, 255, 12] body) =
        write 0 (schemaChangeBytes keyspace table) body := write_append 0 [255, 255, 12] _ body
  -- The length is written last, and in front of the strings.
  rw [hend, write_append, hfront, hall]

lemma createTable_write (h : 24 + keyspace.length + table.length ≤ 3500)
    (hkeyspace : keyspace.length ≠ 256) (htable : table.length ≠ 256) (body : Nat → UInt8) :
    createTable keyspace table body = .ok ((24 + keyspace.length + table.length : Nat) : Int)
      (write 0 (createTableBytes keyspace table) body) := by
  have e₁ := length_changed keyspace table
  have hfour : Function.update (Function.update (Function.update (Function.update body 0
      (UInt8.ofInt 0)) 1 (UInt8.ofInt 0)) 2 (UInt8.ofInt 0)) 3 (UInt8.ofInt 5) =
        write 0 (beBytes 4 5) body :=
    update_four 0 0 0 0 5 body
  have hcall := @changed_write 4 keyspace table Int Pure.pure (by omega) hkeyspace htable
    (write 0 (beBytes 4 5) body)
  simp only [bind_pure, Nat.cast_ofNat] at hcall
  unfold createTable
  rw [bind_of_ok (putChar_zero _ _), bind_of_ok (putChar_one _ _), bind_of_ok (putChar_two _ _),
    bind_of_ok (putChar_three _ _), hfour]
  have hend : 4 + (changed keyspace table).length = 24 + keyspace.length + table.length := by omega
  have hwrite := write_append 0 (beBytes 4 5) (changed keyspace table) body
  rw [length_beBytes, Nat.zero_add] at hwrite
  rw [hend, pure_apply, hwrite] at hcall
  exact hcall

lemma insertRecord_write (body : Nat → UInt8) :
    insertRecord body = .ok 8 (write 0 (beBytes 4 4 ++ beBytes 4 1) body) := by
  have hbytes : beBytes 4 4 ++ beBytes 4 1 = [0, 0, 0, 4, 0, 0, 0, 1] := by decide
  rw [hbytes]
  unfold insertRecord
  iterate 8 rw [bind_of_ok (putChar_of_bounds (by norm_num) _ _)]
  have hwrite := write_append 0 [0, 0, 0, 4] [0, 0, 0, 1] body
  rw [pure_apply, ← List.nil_append [0, 0, 0, 4, 0, 0, 0, 1]]
  congr 1
  refine Eq.trans ?_ hwrite
  rw [← update_four, ← update_four]
  rfl

end QueryResult

end Dibibase
