import Dibibase.Api.QueryResult
import Dibibase.Catalog.Schema
import Dibibase.Library.Posix
import Mathlib.Logic.Function.Basic

/-!
# How the body of a result is written

The class `QueryResult` writes into an array of 3500 characters on the stack of its caller, by
indices that it passes from call to call. Nothing checks them: a write outside of the array is
undefined.
-/

namespace Dibibase

open Library

/-- Operations on the array. It starts with whatever the stack held. -/
abbrev BodyM := EStateM Exception (Nat → UInt8)

def BodyM.ofExcept {α : Type} (x : Except Exception α) : BodyM α := fun body =>
  match x with
  | .ok a => .ok a body
  | .error e => .error e body

namespace QueryResult

/-- `body[i] = value`. -/
def putChar (i value : Int) : BodyM Unit := fun body =>
  if 0 ≤ i ∧ i < 3500 then .ok () (Function.update body i.toNat (UInt8.ofInt value))
  else .error .undefinedBehaviour body

/-- `body[i]`, where `char` is signed. -/
def getChar (i : Int) : BodyM Int := fun body =>
  if 0 ≤ i ∧ i < 3500 then .ok (body i.toNat).toBitVec.toInt body
  else .error .undefinedBehaviour body

/-- `count`: a number in the last bytes of a field. The sizes 256 and 65536 and those of more than
three bytes write nothing. -/
def count (start : Int) (breadth : Nat) (size : Int) : BodyM Int := do
  if size < 256 * 256 * 256 ∧ size > 256 * 256 then
    (List.range breadth).forM (fun k => do
      let i := start + k
      putChar i 0
      if k + 3 = breadth then putChar i (size.tdiv 65536)
      else if k + 2 = breadth then putChar i ((size - (← getChar (i - 1)) * 65536).tdiv 256)
      else if k + 1 = breadth then
        putChar i (size - (← getChar (i - 1)) * 256 - (← getChar (i - 2)) * 65536))
  else if size < 256 * 256 ∧ size > 256 then
    (List.range breadth).forM (fun k => do
      let i := start + k
      putChar i 0
      if k + 2 = breadth then putChar i (size.tdiv 256)
      else if k + 1 = breadth then putChar i (size - (← getChar (i - 1)) * 256))
  else if size < 256 then
    (List.range breadth).forM (fun k => do
      let i := start + k
      putChar i 0
      if k + 1 = breadth then putChar i size)
  return start + breadth

/-- `input[k]`: behind the last character there is a NUL. -/
def charAt (input : List UInt8) (k : Nat) : BodyM UInt8 :=
  match input[k]? with
  | some c => return c
  | none => if k = input.length then return 0 else throw .undefinedBehaviour

/-- The loops that copy characters: `n` of them, from the one with index `k` on. -/
def copyChars (start : Int) (input : List UInt8) : Nat → Nat → BodyM Unit
  | _, 0 => return ()
  | k, n + 1 => do
    putChar (start + k) (← charAt input k).toNat
    copyChars start input (k + 1) n

def appendString (start size : Int) (input : List UInt8) : BodyM Int := do
  copyChars start input 0 size.toNat
  return start + size

/-- The calls of `count` and `append_string` for a string and its length. -/
def appendCounted (index : Int) (input : List UInt8) : BodyM Int := do
  let index ← count index 2 (toInt input.length)
  appendString index (toInt input.length) input

/-- `enum type`. -/
def typeCode : TypeId → Option Int
  | .ascii => some 0x1 | .bigint => some 0x2 | .boolean => some 0x4 | .double => some 0x7
  | .float => some 0x8 | .int => some 0x9 | .smallint => some 0x13 | .tinyint => some 0x14
  | .blob => some 0x3 | .unknown _ => none

def appendField (start size : Int) (fieldName : List UInt8) (t : DataType) : BodyM Int := do
  putChar (size + start) 0
  copyChars start fieldName 0 size.toNat
  match typeCode t.id with
  | some code => putChar (size + start + 1) code
  | none => pure ()
  return start + size + 2

/-- The bytes of strings and of numbers of the type `INT` are written; for the other types the
place of the value stays as it is. -/
def appendRecord (start size : Int) (recordStr : List UInt8) (id : Int) : BodyM Int := do
  if id = TypeId.ascii.toByte.toNat then copyChars start recordStr 0 size.toNat
  else if id = TypeId.int.toByte.toNat then
    let data ← BodyM.ofExcept (stoi recordStr)
    let _ ← count start 4 data
  return start + size

def schemaChange (keyspace table : List UInt8) : BodyM Int := do
  putChar 0 0xFF
  putChar 1 0xFF
  putChar 2 0x0C
  let index ← appendCounted 7 (text "SCHEMA_CHANGE")
  let index ← appendCounted index (text "CREATED")
  let index ← appendCounted index (text "TABLE")
  let index ← appendCounted index keyspace
  let index ← appendCounted index table
  let _ ← count 3 4 (index - 6)
  return index

def createTable (keyspace table : List UInt8) : BodyM Int := do
  putChar 0 0
  putChar 1 0
  putChar 2 0
  putChar 3 5
  let index ← appendCounted 4 (text "CREATED")
  let index ← appendCounted index (text "TABLE")
  let index ← appendCounted index keyspace
  appendCounted index table

def insertRecord : BodyM Int := do
  putChar 0 0
  putChar 1 0
  putChar 2 0
  putChar 3 4
  putChar 4 0
  putChar 5 0
  putChar 6 0
  putChar 7 1
  return 8

/-- The loop over the fields of the schema. -/
def appendFields : Int → List Field → BodyM Int
  | index, [] => return index
  | index, field :: fields => do
    let index ← count index 2 (toInt field.name.length)
    let index ← appendField index (toInt field.name.length) field.name field.type
    appendFields index fields

/-- The loop over the pieces of the result string. -/
def appendValues : Int → List (List UInt8) → BodyM Int
  | index, [] => return index
  | index, val :: values =>
    if val.length > 0 then do
      let a ← BodyM.ofExcept (attributes val)
      let index ← count index 4 a.length
      let index ← appendRecord index a.length a.text a.id
      appendValues index values
    else appendValues index values

/-- `select_result`, whose caller passes an empty vector of records. -/
def selectResult (keyspace table : List UInt8) (schema : Schema) (recordStr : List UInt8) :
    BodyM Int := do
  putChar 0 0
  putChar 1 0
  putChar 2 0
  putChar 3 (if recordStr = [] then 1 else 2)
  putChar 4 0
  putChar 5 0
  putChar 6 0
  putChar 7 1
  let index ← count 8 4 (toInt schema.fields.length)
  let index ← appendCounted index keyspace
  let index ← appendCounted index table
  let index ← appendFields index schema.fields
  let index ← count index 4 1
  let values ← BodyM.ofExcept (split recordStr 124)
  appendValues index values

/-! ### Writes in the array -/

variable {body body' : Nat → UInt8}

/-- A multiple of 256 does not change the byte. -/
lemma ofInt_sub_mul (x y : Int) : UInt8.ofInt (x - y * 256) = UInt8.ofInt x := by
  apply UInt8.toNat_inj.mp
  simp [UInt8.ofInt]

lemma putChar_of_bounds {i : Int} (h : 0 ≤ i ∧ i < 3500) (value : Int) (body : Nat → UInt8) :
    putChar i value body = .ok () (Function.update body i.toNat (UInt8.ofInt value)) := if_pos h

lemma putChar_ok {i : Nat} (h : i < 3500) (value : Int) (body : Nat → UInt8) :
    putChar i value body = .ok () (Function.update body i (UInt8.ofInt value)) :=
  putChar_of_bounds ⟨Int.natCast_nonneg i, by omega⟩ value body

/-! The first characters, whose indices are literals. -/

lemma putChar_zero (value : Int) (body : Nat → UInt8) :
    putChar 0 value body = .ok () (Function.update body 0 (UInt8.ofInt value)) :=
  putChar_of_bounds (by norm_num) value body

lemma putChar_one (value : Int) (body : Nat → UInt8) :
    putChar 1 value body = .ok () (Function.update body 1 (UInt8.ofInt value)) :=
  putChar_of_bounds (by norm_num) value body

lemma putChar_two (value : Int) (body : Nat → UInt8) :
    putChar 2 value body = .ok () (Function.update body 2 (UInt8.ofInt value)) :=
  putChar_of_bounds (by norm_num) value body

lemma putChar_three (value : Int) (body : Nat → UInt8) :
    putChar 3 value body = .ok () (Function.update body 3 (UInt8.ofInt value)) :=
  putChar_of_bounds (by norm_num) value body

lemma getChar_ok {i : Nat} (h : i < 3500) (body : Nat → UInt8) :
    getChar i body = .ok (body i).toBitVec.toInt body := by
  unfold getChar
  rw [if_pos ⟨Int.natCast_nonneg i, by omega⟩]
  rfl

/-- The body of the answer to an `INSERT`. -/
lemma insertRecord_ok (body : Nat → UInt8) :
    ∃ body', insertRecord body = .ok 8 body' ∧ body' 0 = 0 ∧ body' 1 = 0 ∧ body' 2 = 0 ∧
      body' 3 = 4 := by
  have hzero : UInt8.ofInt 0 = 0 := rfl
  have hfour : UInt8.ofInt 4 = 4 := rfl
  simp [insertRecord, putChar_of_bounds, Bind.bind, EStateM.bind, hzero, hfour]

/-- A number below 65536 other than 256 is written in two bytes. -/
lemma count_two {start n : Nat} (hstart : start + 2 ≤ 3500) (hn : n < 65536) (hne : n ≠ 256)
    (body : Nat → UInt8) :
    count start 2 n body = .ok ((start : Int) + 2)
      (Function.update (Function.update body start (UInt8.ofNat (n / 256))) (start + 1)
        (UInt8.ofNat n)) := by
  have h0 : ∀ v b, putChar (start : Int) v b = .ok () (Function.update b start (UInt8.ofInt v)) :=
    fun v b => putChar_ok (by omega) v b
  have h1 : ∀ v b, putChar ((start : Int) + 1) v b =
      .ok () (Function.update b (start + 1) (UInt8.ofInt v)) :=
    fun v b => putChar_ok (i := start + 1) (by omega) v b
  have hg : ∀ b, getChar (start : Int) b = .ok (b start).toBitVec.toInt b :=
    fun b => getChar_ok (by omega) b
  have hrange : List.range 2 = [0, 1] := rfl
  unfold count
  by_cases hlt : n < 256
  · rw [if_neg (by omega), if_neg (by omega), if_pos (by omega)]
    have hhigh : UInt8.ofInt 0 = UInt8.ofNat (n / 256) := by
      rw [Nat.div_eq_of_lt hlt]
      rfl
    simp [hrange, h0, h1, Bind.bind, EStateM.bind, hhigh, ofInt_natCast]
  · rw [if_neg (by omega), if_pos (by omega)]
    have hhigh : UInt8.ofInt ((n : Int) / 256) = UInt8.ofNat (n / 256) := ofInt_natCast (n / 256)
    simp [hrange, h0, h1, hg, Bind.bind, EStateM.bind, hhigh, ofInt_sub_mul, ofInt_natCast]

/-- The number 256 is not written. -/
lemma count_of_eq (start : Int) (breadth : Nat) (body : Nat → UInt8) :
    count start breadth 256 body = .ok (start + breadth) body := by
  simp [count]

/-- Four characters behind each other. -/
lemma putChar_four {start : Nat} (hstart : start + 4 ≤ 3500) :
    (∀ v b, putChar (start : Int) v b = .ok () (Function.update b start (UInt8.ofInt v))) ∧
      (∀ v b, putChar ((start : Int) + 1) v b = .ok () (Function.update b (start + 1) (UInt8.ofInt v))) ∧
      (∀ v b, putChar ((start : Int) + 2) v b = .ok () (Function.update b (start + 2) (UInt8.ofInt v))) ∧
      ∀ v b, putChar ((start : Int) + 3) v b = .ok () (Function.update b (start + 3) (UInt8.ofInt v)) :=
  ⟨fun v b => putChar_ok (i := start) (by omega) v b,
    fun v b => putChar_ok (i := start + 1) (by omega) v b,
    fun v b => putChar_ok (i := start + 2) (by omega) v b,
    fun v b => putChar_ok (i := start + 3) (by omega) v b⟩

lemma count_four {start n : Nat} (hstart : start + 4 ≤ 3500) (hn : n < 65536) (hne : n ≠ 256)
    (body : Nat → UInt8) :
    count start 4 n body = .ok ((start : Int) + 4)
      (Function.update (Function.update (Function.update (Function.update body start 0)
        (start + 1) 0) (start + 2) (UInt8.ofNat (n / 256))) (start + 3) (UInt8.ofNat n)) := by
  obtain ⟨h0, h1, h2, h3⟩ := putChar_four hstart
  have hg : ∀ b, getChar ((start : Int) + 3 - 1) b = .ok (b (start + 2)).toBitVec.toInt b := by
    intro b
    have hindex : (start : Int) + 3 - 1 = (start + 2 : Nat) := by omega
    rw [hindex]
    exact getChar_ok (by omega) b
  have hrange : List.range 4 = [0, 1, 2, 3] := rfl
  unfold count
  by_cases hlt : n < 256
  · rw [if_neg (by omega), if_neg (by omega), if_pos (by omega)]
    have hhigh : UInt8.ofNat (n / 256) = 0 := by
      rw [Nat.div_eq_of_lt hlt]
      rfl
    have hzero : UInt8.ofInt 0 = 0 := rfl
    simp [hrange, h0, h1, h2, h3, Bind.bind, EStateM.bind, hhigh, hzero, ofInt_natCast]
  · rw [if_neg (by omega), if_pos (by omega)]
    have hhigh : UInt8.ofInt ((n : Int) / 256) = UInt8.ofNat (n / 256) := ofInt_natCast (n / 256)
    have hzero : UInt8.ofInt 0 = 0 := rfl
    simp [hrange, h0, h1, h2, h3, hg, Bind.bind, EStateM.bind, hhigh, hzero, ofInt_sub_mul,
      ofInt_natCast]

/-- The characters of the input stand behind each other, and nothing else changes. -/
lemma copyChars_ok {start : Nat} {input : List UInt8} (h : start + input.length ≤ 3500)
    (n : Nat) {k : Nat} (hk : k + n = input.length) (body : Nat → UInt8) :
    copyChars start input k n body = .ok ()
      (fun i => if start + k ≤ i then (input[i - start]?).getD (body i) else body i) := by
  induction n generalizing k body with
  | zero =>
    unfold copyChars
    simp only [Pure.pure, EStateM.pure]
    congr 1
    funext i
    by_cases hi : start + k ≤ i
    · rw [if_pos hi, List.getElem?_eq_none (by omega), Option.getD_none]
    · rw [if_neg hi]
  | succ n ih =>
    have hlt : k < input.length := by omega
    have hchar : charAt input k body = .ok input[k] body := by
      simp [charAt, hlt]
    have hput : ∀ c : UInt8, putChar ((start : Int) + k) c.toNat body =
        .ok () (Function.update body (start + k) c) := by
      intro c
      have hbyte : UInt8.ofInt c.toNat = c := by rw [ofInt_natCast, UInt8.ofNat_toNat]
      have hput := putChar_ok (i := start + k) (by omega) c.toNat body
      rwa [hbyte, Nat.cast_add] at hput
    rw [copyChars, bind_of_ok hchar, bind_of_ok (hput input[k]), ih (by omega)]
    congr 1
    funext i
    by_cases hi : i = start + k
    · subst hi
      simp [hlt]
    · by_cases hle : start + (k + 1) ≤ i
      · simp [hle, hi, show start + k ≤ i by omega]
      · simp [hle, hi, show ¬start + k ≤ i by omega]

/-- A string and its length, where the length may be one that is not written. -/
lemma appendCounted_ok {index : Nat} {input : List UInt8}
    (h : index + 2 + input.length ≤ 3500) (body : Nat → UInt8) :
    ∃ body', appendCounted index input body = .ok ((index + 2 + input.length : Nat) : Int) body' ∧
      (∀ i, i < index ∨ index + 2 + input.length ≤ i → body' i = body i) ∧
      (∀ k (hk : k < input.length), body' (index + 2 + k) = input[k]) ∧
      (if input.length = 256 then body' index = body index ∧ body' (index + 1) = body (index + 1)
        else body' index = UInt8.ofNat (input.length / 256) ∧
          body' (index + 1) = UInt8.ofNat input.length) := by
  have hint : toInt input.length = input.length := toInt_of_lt (by omega)
  have hcount : ∃ body₁, count index 2 input.length body = .ok ((index + 2 : Nat) : Int) body₁ ∧
      (∀ i, i ≠ index → i ≠ index + 1 → body₁ i = body i) ∧
      (if input.length = 256 then body₁ index = body index ∧ body₁ (index + 1) = body (index + 1)
        else body₁ index = UInt8.ofNat (input.length / 256) ∧
          body₁ (index + 1) = UInt8.ofNat input.length) := by
    by_cases hlen : input.length = 256
    · refine ⟨body, ?_, fun _ _ _ => rfl, by simp [hlen]⟩
      rw [hlen]
      exact count_of_eq index 2 body
    · refine ⟨_, count_two (by omega) (by omega) hlen body, ?_, ?_⟩
      · intro i hi hi'
        simp [hi, hi']
      · simp [hlen]
  obtain ⟨body₁, hcount, hframe, hlength⟩ := hcount
  have hcopy := @copyChars_ok (index + 2) _ h input.length 0 (Nat.zero_add _) body₁
  refine ⟨fun i => if index + 2 + 0 ≤ i then (input[i - (index + 2)]?).getD (body₁ i) else body₁ i,
    ?_, ?_, ?_, ?_⟩
  · unfold appendCounted appendString
    rw [hint, bind_of_ok hcount, Int.toNat_natCast, bind_of_ok hcopy]
    simp
  · intro i hi
    by_cases hle : index + 2 + 0 ≤ i
    · simp only [hle, if_true]
      rw [List.getElem?_eq_none (by omega), Option.getD_none]
      exact hframe i (by omega) (by omega)
    · simp only [hle, if_false]
      exact hframe i (by omega) (by omega)
  · intro k hk
    simp [hk]
  · simpa using hlength

/-- A returning loop over the elements has written all of them. -/
lemma putChar_inv {i value : Int} {a : Unit} (h : putChar i value body = .ok a body') :
    0 ≤ i ∧ i < 3500 := by
  unfold putChar at h
  by_cases hi : 0 ≤ i ∧ i < 3500
  · exact hi
  · rw [if_neg hi] at h
    cases h

lemma copyChars_inv {start : Int} {input : List UInt8} {n k : Nat} {a : Unit}
    (h : copyChars start input k n body = .ok a body') : n = 0 ∨ start + k + n ≤ 3500 := by
  induction n generalizing k body with
  | zero => exact .inl rfl
  | succ n ih =>
    rw [copyChars] at h
    obtain ⟨c, body₁, -, h⟩ := bind_eq_ok h
    obtain ⟨_, body₂, hput, h⟩ := bind_eq_ok h
    have hbound := putChar_inv hput
    rcases ih h with rfl | hrest
    · right
      omega
    · right
      push_cast at hrest ⊢
      omega

lemma count_inv {start size r : Int} {breadth : Nat} (h : count start breadth size body = .ok r body') :
    r = start + breadth := by
  unfold count at h
  split_ifs at h
  all_goals
    try obtain ⟨_, _, -, h⟩ := bind_eq_ok h
    cases h
    rfl

/-- A small number is written, so that its place lies in the array. -/
lemma count_two_inv {start size r : Int} (hsize : size < 256)
    (h : count start 2 size body = .ok r body') : start + 2 ≤ 3500 := by
  unfold count at h
  rw [if_neg (by omega), if_neg (by omega), if_pos hsize] at h
  obtain ⟨_, body₁, hloop, -⟩ := bind_eq_ok h
  have hrange : List.range 2 = [0, 1] := rfl
  rw [hrange] at hloop
  obtain ⟨_, _, -, hloop⟩ := bind_eq_ok hloop
  obtain ⟨_, _, hlast, -⟩ := bind_eq_ok hloop
  obtain ⟨_, _, -, hput⟩ := bind_eq_ok hlast
  have hbound := putChar_inv hput
  push_cast at hbound
  omega

lemma appendCounted_inv {index r : Int} {input : List UInt8} (hlen : input.length < 2 ^ 31)
    (h : appendCounted index input body = .ok r body') :
    r = index + 2 + input.length ∧ index + 2 + input.length ≤ 3500 := by
  unfold appendCounted appendString at h
  rw [toInt_of_lt hlen] at h
  obtain ⟨index₁, body₁, hcount, h⟩ := bind_eq_ok h
  obtain ⟨_, body₂, hcopy, h⟩ := bind_eq_ok h
  have hindex := count_inv hcount
  cases h
  refine ⟨by rw [hindex]; rfl, ?_⟩
  rcases copyChars_inv hcopy with hzero | hbound
  · have hempty : input.length = 0 := by simpa using hzero
    rw [hempty] at hcount ⊢
    have := count_two_inv (by norm_num) hcount
    omega
  · rw [hindex] at hbound
    push_cast [Int.toNat_natCast] at hbound
    omega

/-! ### The functions that throw nothing -/

/-- What goes wrong is undefined. -/
def Undefined {α : Type} (m : BodyM α) : Prop :=
  ∀ body e body', m body = .error e body' → e = .undefinedBehaviour

namespace Undefined

variable {α β : Type}

lemma pure (a : α) : Undefined (Pure.pure a) := by
  intro body e body' h
  cases h

lemma bind {m : BodyM α} {f : α → BodyM β} (hm : Undefined m) (hf : ∀ a, Undefined (f a)) :
    Undefined (m >>= f) := by
  intro body e body' h
  cases hrun : m body with
  | ok a body₁ =>
    rw [bind_of_ok hrun] at h
    exact hf a body₁ e body' h
  | error e₁ body₁ =>
    rw [bind_of_error hrun] at h
    cases h
    exact hm body _ _ hrun

lemma forM {f : α → BodyM Unit} (hf : ∀ a, Undefined (f a)) (as : List α) :
    Undefined (as.forM f) := by
  induction as with
  | nil => exact Undefined.pure ()
  | cons a as ih => exact (hf a).bind (fun _ => ih)

lemma putChar (i value : Int) : Undefined (putChar i value) := by
  intro body e body' h
  unfold QueryResult.putChar at h
  split_ifs at h
  cases h
  rfl

lemma getChar (i : Int) : Undefined (getChar i) := by
  intro body e body' h
  unfold QueryResult.getChar at h
  split_ifs at h
  cases h
  rfl

lemma count (start : Int) (breadth : Nat) (size : Int) : Undefined (count start breadth size) := by
  unfold QueryResult.count
  split_ifs
  · refine (Undefined.forM (fun k => (Undefined.putChar _ _).bind (fun _ => ?_)) _).bind
      (fun _ => Undefined.pure _)
    split_ifs
    · exact Undefined.putChar _ _
    · exact (Undefined.getChar _).bind (fun _ => Undefined.putChar _ _)
    · exact (Undefined.getChar _).bind (fun _ => (Undefined.getChar _).bind
        (fun _ => Undefined.putChar _ _))
    · exact Undefined.pure _
  · refine (Undefined.forM (fun k => (Undefined.putChar _ _).bind (fun _ => ?_)) _).bind
      (fun _ => Undefined.pure _)
    split_ifs
    · exact Undefined.putChar _ _
    · exact (Undefined.getChar _).bind (fun _ => Undefined.putChar _ _)
    · exact Undefined.pure _
  · refine (Undefined.forM (fun k => (Undefined.putChar _ _).bind (fun _ => ?_)) _).bind
      (fun _ => Undefined.pure _)
    split_ifs
    · exact Undefined.putChar _ _
    · exact Undefined.pure _
  · exact Undefined.pure _

lemma copyChars (start : Int) (input : List UInt8) (k n : Nat) :
    Undefined (copyChars start input k n) := by
  induction n generalizing k with
  | zero => exact Undefined.pure ()
  | succ n ih =>
    have hchar : Undefined (charAt input k) := by
      intro body e body' h
      unfold charAt at h
      cases hc : input[k]? with
      | some c =>
        simp only [hc] at h
        cases h
      | none =>
        simp only [hc] at h
        split_ifs at h
        · cases h
        · cases h
          rfl
    exact hchar.bind (fun _ => (Undefined.putChar _ _).bind (fun _ => ih (k + 1)))

lemma appendCounted (index : Int) (input : List UInt8) : Undefined (appendCounted index input) :=
  (Undefined.count _ _ _).bind (fun _ => (Undefined.copyChars _ _ _ _).bind
    (fun _ => Undefined.pure _))

lemma schemaChange (keyspace table : List UInt8) : Undefined (schemaChange keyspace table) :=
  (Undefined.putChar _ _).bind (fun _ => (Undefined.putChar _ _).bind (fun _ =>
    (Undefined.putChar _ _).bind (fun _ => (Undefined.appendCounted _ _).bind (fun _ =>
      (Undefined.appendCounted _ _).bind (fun _ => (Undefined.appendCounted _ _).bind (fun _ =>
        (Undefined.appendCounted _ _).bind (fun _ => (Undefined.appendCounted _ _).bind (fun _ =>
          (Undefined.count _ _ _).bind (fun _ => Undefined.pure _)))))))))

end Undefined

/-! ### The bodies of the two frames for CREATE TABLE -/

section CreateTable

variable {keyspace table : List UInt8}

lemma schemaChange_inv (hkeyspace : keyspace.length < 2 ^ 31) (htable : table.length < 2 ^ 31)
    {r : Int} (h : schemaChange keyspace table body = .ok r body') :
    42 + keyspace.length + table.length ≤ 3500 := by
  unfold schemaChange at h
  obtain ⟨_, _, -, h⟩ := bind_eq_ok h
  obtain ⟨_, _, -, h⟩ := bind_eq_ok h
  obtain ⟨_, _, -, h⟩ := bind_eq_ok h
  obtain ⟨i₁, _, h₁, h⟩ := bind_eq_ok h
  obtain ⟨i₂, _, h₂, h⟩ := bind_eq_ok h
  obtain ⟨i₃, _, h₃, h⟩ := bind_eq_ok h
  obtain ⟨i₄, _, h₄, h⟩ := bind_eq_ok h
  obtain ⟨i₅, _, h₅, h⟩ := bind_eq_ok h
  have e₁ := (appendCounted_inv (by decide) h₁).1
  have e₂ := (appendCounted_inv (by decide) h₂).1
  have e₃ := (appendCounted_inv (by decide) h₃).1
  have e₄ := (appendCounted_inv hkeyspace h₄).1
  have hbound := (appendCounted_inv htable h₅).2
  have hlengths : (text "SCHEMA_CHANGE").length = 13 ∧ (text "CREATED").length = 7 ∧
      (text "TABLE").length = 5 := by decide
  rw [hlengths.1] at e₁
  rw [hlengths.2.1] at e₂
  rw [hlengths.2.2] at e₃
  omega

/-- What is needed of the body of the event: the length of the message, a letter of its kind and
the keyspace. -/
lemma schemaChange_ok (h : 42 + keyspace.length + table.length ≤ 3500) (body : Nat → UInt8) :
    ∃ body', schemaChange keyspace table body =
        .ok ((42 + keyspace.length + table.length : Nat) : Int) body' ∧
      (∀ k (hk : k < keyspace.length), body' (40 + k) = keyspace[k]) ∧ body' 12 = 69 ∧
      (if 36 + keyspace.length + table.length = 256 then ∀ i, 3 ≤ i → i < 7 → body' i = body i
        else body' 3 = 0 ∧ body' 4 = 0 ∧
          body' 5 = UInt8.ofNat ((36 + keyspace.length + table.length) / 256) ∧
          body' 6 = UInt8.ofNat (36 + keyspace.length + table.length)) := by
  have hlengths : (text "SCHEMA_CHANGE").length = 13 ∧ (text "CREATED").length = 7 ∧
      (text "TABLE").length = 5 := by decide
  obtain ⟨b₁, h₁, f₁, c₁, -⟩ := @appendCounted_ok 7 (text "SCHEMA_CHANGE")
    (by omega) (Function.update (Function.update (Function.update body 0 (UInt8.ofInt 0xFF)) 1
      (UInt8.ofInt 0xFF)) 2 (UInt8.ofInt 0x0C))
  obtain ⟨b₂, h₂, f₂, -, -⟩ := @appendCounted_ok 22 (text "CREATED")
    (by omega) b₁
  obtain ⟨b₃, h₃, f₃, -, -⟩ := @appendCounted_ok 31 (text "TABLE")
    (by omega) b₂
  obtain ⟨b₄, h₄, f₄, c₄, -⟩ := @appendCounted_ok 38 keyspace
    (by omega) b₃
  obtain ⟨b₅, h₅, f₅, -, -⟩ := @appendCounted_ok (40 + keyspace.length) table
    (by omega) b₄
  rw [hlengths.1] at h₁ f₁
  rw [hlengths.2.1] at h₂ f₂
  rw [hlengths.2.2] at h₃ f₃
  -- Before the length is written, the string are there and its place is what it was.
  have hkeyspace : ∀ k (hk : k < keyspace.length), b₅ (40 + k) = keyspace[k] := by
    intro k hk
    rw [f₅ _ (by omega)]
    exact c₄ k hk
  have hletter : b₅ 12 = 69 := by
    rw [f₅ _ (by omega), f₄ _ (by omega), f₃ _ (by omega), f₂ _ (by omega)]
    exact c₁ 3 (by decide)
  have hplace : ∀ i, 3 ≤ i → i < 7 → b₅ i = body i := by
    intro i hi hi'
    rw [f₅ _ (by omega), f₄ _ (by omega), f₃ _ (by omega), f₂ _ (by omega), f₁ _ (by omega)]
    simp [show i ≠ 0 by omega, show i ≠ 1 by omega, show i ≠ 2 by omega]
  have hrun : ∀ b₆, count 3 4 (36 + keyspace.length + table.length : Nat) b₅ = .ok 7 b₆ →
      schemaChange keyspace table body =
        .ok ((42 + keyspace.length + table.length : Nat) : Int) b₆ := by
    intro b₆ hcount
    have hsize : 40 + keyspace.length + 2 + table.length = 42 + keyspace.length + table.length := by
      omega
    have hindex : ((42 + keyspace.length + table.length : Nat) : Int) - 6 =
        (36 + keyspace.length + table.length : Nat) := by omega
    rw [hsize] at h₅
    have h₁' : appendCounted 7 (text "SCHEMA_CHANGE") _ = .ok 22 b₁ := h₁
    have h₂' : appendCounted 22 (text "CREATED") b₁ = .ok 31 b₂ := h₂
    have h₃' : appendCounted 31 (text "TABLE") b₂ = .ok 38 b₃ := h₃
    have h₄' : appendCounted 38 keyspace b₃ = .ok ((40 + keyspace.length : Nat) : Int) b₄ := h₄
    unfold schemaChange
    rw [bind_of_ok (putChar_zero _ _), bind_of_ok (putChar_one _ _), bind_of_ok (putChar_two _ _),
      bind_of_ok h₁', bind_of_ok h₂', bind_of_ok h₃', bind_of_ok h₄', bind_of_ok h₅, hindex, bind_of_ok hcount]
    rfl
  by_cases hlen : 36 + keyspace.length + table.length = 256
  · refine ⟨b₅, hrun b₅ ?_, hkeyspace, hletter, ?_⟩
    · rw [hlen]
      exact count_of_eq 3 4 b₅
    · rw [if_pos hlen]
      exact hplace
  · refine ⟨_, hrun _ (@count_four 3 _ (by omega) (by omega) hlen b₅), ?_, ?_, ?_⟩
    · intro k hk
      simp [show 40 + k ≠ 3 by omega, show 40 + k ≠ 4 by omega, show 40 + k ≠ 5 by omega,
        show 40 + k ≠ 6 by omega, hkeyspace k hk]
    · simpa using hletter
    · rw [if_neg hlen]
      simp

/-- What is needed of the body of the result: its first byte, a letter, and the names. -/
lemma createTable_ok (h : 24 + keyspace.length + table.length ≤ 3500) (body : Nat → UInt8) :
    ∃ body', createTable keyspace table body =
        .ok ((24 + keyspace.length + table.length : Nat) : Int) body' ∧
      body' 0 = 0 ∧ body' 6 = 67 ∧
      (∀ k (hk : k < keyspace.length), body' (22 + k) = keyspace[k]) ∧
      (∀ k (hk : k < table.length), body' (24 + keyspace.length + k) = table[k]) ∧
      (if table.length = 256 then 18 ≤ keyspace.length →
          body' (22 + keyspace.length) = body (22 + keyspace.length)
        else body' (22 + keyspace.length) = UInt8.ofNat (table.length / 256) ∧
          body' (22 + keyspace.length + 1) = UInt8.ofNat table.length) := by
  have hlengths : (text "CREATED").length = 7 ∧ (text "TABLE").length = 5 := by decide
  obtain ⟨b₁, h₁, f₁, c₁, -⟩ := @appendCounted_ok 4 (text "CREATED")
    (by omega) (Function.update (Function.update (Function.update (Function.update body 0
      (UInt8.ofInt 0)) 1 (UInt8.ofInt 0)) 2 (UInt8.ofInt 0)) 3 (UInt8.ofInt 5))
  obtain ⟨b₂, h₂, f₂, -, -⟩ := @appendCounted_ok 13 (text "TABLE")
    (by omega) b₁
  obtain ⟨b₃, h₃, f₃, c₃, -⟩ := @appendCounted_ok 20 keyspace
    (by omega) b₂
  obtain ⟨b₄, h₄, f₄, c₄, l₄⟩ := @appendCounted_ok (22 + keyspace.length) table
    (by omega) b₃
  rw [hlengths.1] at h₁ f₁
  rw [hlengths.2] at h₂ f₂
  refine ⟨b₄, ?_, ?_, ?_, ?_, ?_, ?_⟩
  · unfold createTable
    have h₁' : appendCounted 4 (text "CREATED") _ = .ok 13 b₁ := h₁
    have h₂' : appendCounted 13 (text "TABLE") b₁ = .ok 20 b₂ := h₂
    have h₃' : appendCounted 20 keyspace b₂ = .ok ((22 + keyspace.length : Nat) : Int) b₃ := h₃
    have hsize : 22 + keyspace.length + 2 + table.length = 24 + keyspace.length + table.length := by
      omega
    rw [bind_of_ok (putChar_zero _ _), bind_of_ok (putChar_one _ _), bind_of_ok (putChar_two _ _),
      bind_of_ok (putChar_three _ _), bind_of_ok h₁', bind_of_ok h₂', bind_of_ok h₃', h₄, hsize]
  · rw [f₄ _ (by omega), f₃ _ (by omega), f₂ _ (by omega), f₁ _ (by omega)]
    simp
    rfl
  · rw [f₄ _ (by omega), f₃ _ (by omega), f₂ _ (by omega)]
    exact c₁ 0 (by decide)
  · intro k hk
    rw [f₄ _ (by omega)]
    exact c₃ k hk
  · intro k hk
    have hindex : 24 + keyspace.length + k = 22 + keyspace.length + 2 + k := by omega
    rw [hindex]
    exact c₄ k hk
  · by_cases hlen : table.length = 256
    · rw [if_pos hlen] at l₄ ⊢
      intro hlong
      rw [l₄.1, f₃ _ (by omega), f₂ _ (by omega), f₁ _ (by omega)]
      simp [show 22 + keyspace.length ≠ 1 by omega, show 22 + keyspace.length ≠ 2 by omega,
        show 22 + keyspace.length ≠ 3 by omega]
    · rw [if_neg hlen] at l₄ ⊢
      exact l₄

end CreateTable

end QueryResult

end Dibibase
