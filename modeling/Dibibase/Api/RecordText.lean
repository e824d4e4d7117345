import Dibibase.Api.QueryResult
import Dibibase.Dht.ResultSerializer
import Dibibase.Library.Execution

/-!
# Result strings and records

The string of a record is taken apart into the values of the record exactly when no text
contains a comma or a bar and each text fits, with its numbers, into the range of an `int`.
-/

namespace Dibibase

open Library

namespace QueryResult

variable {token : UInt8} {str : List UInt8}

/-! ### Splitting at a token -/

lemma findIdx?_append_token {str : List UInt8} (h : token ∉ str) (rest : List UInt8) :
    (str ++ token :: rest).findIdx? (fun c => c = token) = some str.length := by
  rw [List.findIdx?_append]
  have hnone : str.findIdx? (fun c => decide (c = token)) = none := by
    rw [List.findIdx?_eq_none_iff]
    intro c hc
    have hne : c ≠ token := by
      rintro rfl
      exact h hc
    simpa using hne
  simp [hnone, List.findIdx?_cons]

lemma findIdx?_of_notMem (h : token ∉ str) : str.findIdx? (fun c => c = token) = none := by
  rw [List.findIdx?_eq_none_iff]
  intro c hc
  have hne : c ≠ token := by
    rintro rfl
    exact h hc
  simpa using hne

lemma notMem_take {position : Nat} (h : str.findIdx? (fun c => c = token) = some position)
    {n : Nat} (hn : n ≤ position) : token ∉ str.take n := by
  intro hmem
  obtain ⟨i, hi, hget⟩ := List.getElem_of_mem hmem
  rw [List.length_take] at hi
  have hbefore := (List.findIdx?_eq_some_iff_getElem.mp h).2.2 i (by omega)
  rw [List.getElem_take] at hget
  simp [hget] at hbefore

/-- A round of the loop that finds no token. -/
lemma splitLoop_last (h : token ∉ str) (hne : str ≠ []) (rounds : Nat) :
    splitLoop token (rounds + 1) str = .ok [str] := by
  simp [splitLoop, hne, findIdx?_of_notMem h, Pure.pure, Except.pure]

/-- A round of the loop that finds a token within the range of an `int`. -/
lemma splitLoop_token {front : List UInt8} (h : token ∉ front) (hsize : front.length < 2 ^ 31)
    (rest : List UInt8) (rounds : Nat) :
    splitLoop token (rounds + 1) (front ++ token :: rest) =
      (splitLoop token rounds rest).map
        (fun result => front :: (if rest = [] then [] :: result else result)) := by
  have hint : toInt front.length = front.length := toInt_of_lt hsize
  have hminus : ¬(front.length : Int) = -1 := by omega
  have hneg : ¬(front.length : Int) < 0 := by omega
  have hdrop : (front ++ token :: rest).drop (front.length + 1) = rest := by
    rw [List.drop_append, List.drop_of_length_le (by omega)]
    simp
  simp only [splitLoop, List.append_eq_nil_iff, reduceCtorEq, and_false, if_false,
    findIdx?_append_token h, hint, hminus, hneg, Int.toNat_natCast, hdrop, List.take_left]
  cases splitLoop token rounds rest <;> rfl

lemma splitLoop_nil (rounds : Nat) : splitLoop token rounds [] = .ok [] := by
  cases rounds <;> rfl

/-- Texts without the token, each with a token behind, are split into these texts and an empty
one. -/
lemma splitLoop_texts (texts : List (List UInt8)) (hne : texts ≠ [])
    (h : ∀ x ∈ texts, token ∉ x ∧ x.length < 2 ^ 31) (rounds : Nat)
    (hrounds : texts.length ≤ rounds) :
    splitLoop token rounds (texts.flatMap (fun x => x ++ [token])) = .ok (texts ++ [[]]) := by
  induction texts generalizing rounds with
  | nil => exact absurd rfl hne
  | cons x texts ih =>
    obtain ⟨rounds, rfl⟩ : ∃ n, rounds = n + 1 := ⟨rounds - 1, by simp at hrounds; omega⟩
    have hx := h x (by simp)
    rw [List.flatMap_cons, List.append_assoc, List.singleton_append,
      splitLoop_token hx.1 hx.2]
    cases texts with
    | nil => simp [splitLoop_nil, Except.map]
    | cons y texts =>
      rw [ih (by simp) (fun z hz => h z (by simp [hz])) rounds (by simpa using hrounds)]
      simp [Except.map]

/-! ### What the pieces are -/

/-- A round that returns has come to the end of the string, has found no token, or has split the string
at one. -/
lemma splitLoop_cases {rounds : Nat} {result : List (List UInt8)}
    (h : splitLoop token (rounds + 1) str = .ok result) :
    result = [] ∨
      (result = [str] ∧
        ∀ position, str.findIdx? (fun c => c = token) = some position → toInt position = -1) ∨
      ∃ position pieces, str.findIdx? (fun c => c = token) = some position ∧ 0 ≤ toInt position ∧
        splitLoop token rounds (str.drop ((toInt position).toNat + 1)) = .ok pieces ∧
        result = str.take (toInt position).toNat ::
          (if str.drop ((toInt position).toNat + 1) = [] then [] :: pieces else pieces) := by
  rw [splitLoop] at h
  split at h
  · cases h
    exact .inl rfl
  · cases hfind : str.findIdx? (fun c => c = token) with
    | none =>
      simp only [hfind, if_true] at h
      cases h
      exact .inr (.inl ⟨rfl, fun position hposition => by cases hposition⟩)
    | some position =>
      simp only [hfind] at h
      by_cases hminus : toInt position = -1
      · rw [if_pos hminus] at h
        cases h
        refine .inr (.inl ⟨rfl, fun _ hposition => ?_⟩)
        cases hposition
        exact hminus
      · rw [if_neg hminus] at h
        by_cases hneg : toInt position < 0
        · rw [if_pos hneg] at h
          cases h
        · rw [if_neg hneg] at h
          obtain ⟨pieces, hrest, hcons⟩ := except_bind_eq_ok h
          cases hcons
          exact .inr (.inr ⟨position, pieces, rfl, not_lt.mp hneg, hrest, rfl⟩)

/-- The first of several pieces lies before the first token. -/
lemma splitLoop_head {rounds : Nat} {x y : List UInt8} {rest : List (List UInt8)}
    (h : splitLoop token rounds str = .ok (x :: y :: rest)) :
    token ∉ x ∧ x.length < 2 ^ 31 ∧ x <+: str := by
  cases rounds with
  | zero => cases h
  | succ rounds =>
    rcases splitLoop_cases h with hnil | ⟨hlast, -⟩ | ⟨position, pieces, hfind, -, -, hcons⟩
    · cases hnil
    · cases hlast
    · have hx : x = str.take (toInt position).toNat := (List.cons.inj hcons).1
      have hbounds := toInt_bounds position
      rw [hx]
      refine ⟨notMem_take hfind (toInt_toNat_le position), ?_, List.take_prefix _ _⟩
      rw [List.length_take]
      omega

/-- Where tokens are never farther apart than an `int` can tell from a missing token, no piece
contains one. -/
lemma splitLoop_notMem {bound : Nat} (hbound : bound < 2 ^ 32 - 1) (rounds : Nat)
    (hrounds : str.length ≤ rounds)
    (hgap : ∀ rest, rest <:+ str → ∀ position,
      rest.findIdx? (fun c => c = token) = some position → position ≤ bound)
    {result : List (List UInt8)} (h : splitLoop token rounds str = .ok result) :
    ∀ x ∈ result, token ∉ x := by
  induction rounds generalizing str result with
  | zero =>
    cases h
    simp
  | succ rounds ih =>
    rcases splitLoop_cases h with rfl | ⟨rfl, hlast⟩ | ⟨position, pieces, hfind, -, hrest, rfl⟩
    · simp
    · intro x hx hmem
      rw [List.mem_singleton.mp hx] at hmem
      have hsome : (str.findIdx? (fun c => c = token)).isSome := by
        rw [List.findIdx?_isSome]
        exact List.any_eq_true.mpr ⟨token, hmem, decide_eq_true rfl⟩
      obtain ⟨position, hfind⟩ := Option.isSome_iff_exists.mp hsome
      have hle := hgap str List.suffix_rfl position hfind
      exact toInt_ne_neg_one (by omega) (hlast position hfind)
    · have hpieces := @ih (str.drop ((toInt position).toNat + 1))
        (by rw [List.length_drop]; omega)
        (fun rest hsuffix => hgap rest (hsuffix.trans (List.drop_suffix _ _))) _ hrest
      intro x hx
      rcases List.mem_cons.mp hx with hx | hx
      · rw [hx]
        exact notMem_take hfind (toInt_toNat_le position)
      · split at hx
        · rcases List.mem_cons.mp hx with rfl | hx
          · exact List.not_mem_nil
          · exact hpieces x hx
        · exact hpieces x hx

/-- Texts that are split off one after the other fit into an `int`. -/
lemma splitLoop_fits (texts : List (List UInt8))
    (h : ∀ x ∈ texts, token ∉ x ∧ x.length < 2 ^ 32 - 1) (rounds : Nat)
    (hrounds : texts.length ≤ rounds) {result : List (List UInt8)}
    (hok : splitLoop token rounds (texts.flatMap (fun x => x ++ [token])) = .ok result) :
    ∀ x ∈ texts, x.length < 2 ^ 31 := by
  induction texts generalizing rounds result with
  | nil => simp
  | cons x texts ih =>
    obtain ⟨rounds, rfl⟩ : ∃ n, rounds = n + 1 := ⟨rounds - 1, by simp at hrounds; omega⟩
    have hx := h x (by simp)
    rw [List.flatMap_cons, List.append_assoc, List.singleton_append] at hok
    have hfits : x.length < 2 ^ 31 := by
      by_contra hlarge
      have hneg : toInt x.length < 0 := toInt_neg (by omega) (by omega)
      have hminus : ¬toInt x.length = -1 := toInt_ne_neg_one hx.2
      rw [splitLoop] at hok
      simp only [List.append_eq_nil_iff, reduceCtorEq, and_false, if_false,
        findIdx?_append_token hx.1, hneg, hminus, if_true] at hok
    rw [splitLoop_token hx.1 hfits] at hok
    cases hrest : splitLoop token rounds (texts.flatMap (fun x => x ++ [token])) with
    | error e => simp [hrest, Except.map] at hok
    | ok result' =>
      have hothers := ih (fun y hy => h y (by simp [hy])) rounds (by simpa using hrounds) hrest
      intro y hy
      rw [List.mem_cons] at hy
      rcases hy with rfl | hy
      · exact hfits
      · exact hothers y hy

/-- In a text made of pieces with a token behind each, the next token is never farther away than
the longest piece is long. -/
lemma findIdx?_le_of_suffix {bound : Nat} (texts : List (List UInt8))
    (h : ∀ x ∈ texts, x.length ≤ bound) {rest : List UInt8}
    (hsuffix : rest <:+ texts.flatMap (fun x => x ++ [token])) {position : Nat}
    (hfind : rest.findIdx? (fun c => c = token) = some position) : position ≤ bound := by
  induction texts with
  | nil =>
    rw [List.flatMap_nil, List.suffix_nil] at hsuffix
    subst hsuffix
    cases hfind
  | cons x texts ih =>
    obtain ⟨front, hfront⟩ := hsuffix
    rw [List.flatMap_cons] at hfront
    rcases List.append_eq_append_iff.mp hfront with ⟨middle, hx, hrest⟩ | ⟨middle, hx, hrest⟩
    · rcases List.eq_nil_or_concat' middle with rfl | ⟨init, last, rfl⟩
      · exact ih (fun y hy => h y (by simp [hy])) ⟨[], by simpa using hrest⟩
      · -- The rest starts within the piece or with its token, which is found at the latest.
        rw [← List.append_assoc] at hx
        obtain ⟨hpiece, hlast⟩ := List.append_inj' hx rfl
        have hinit : init.length ≤ x.length := by
          rw [hpiece, List.length_append]
          omega
        have htoken : rest[init.length]? = some token := by
          rw [List.singleton_inj.mp hlast, hrest]
          simp
        by_contra hfar
        have hx := h x (by simp)
        obtain ⟨hlt, -, hbefore⟩ := List.findIdx?_eq_some_iff_getElem.mp hfind
        have hno := hbefore init.length (by omega)
        rw [List.getElem?_eq_getElem (by omega), Option.some.injEq] at htoken
        simp [htoken] at hno
    · exact ih (fun y hy => h y (by simp [hy])) ⟨middle, hrest.symm⟩

/-! ### One value -/

open ResultSerializer

lemma comma_notMem_toDecimal (n : Nat) : (44 : UInt8) ∉ toDecimal n := by
  intro h
  exact absurd (isDigit_of_mem_toDecimal h) (by decide)

lemma bar_notMem_toDecimal (n : Nat) : (124 : UInt8) ∉ toDecimal n := by
  intro h
  exact absurd (isDigit_of_mem_toDecimal h) (by decide)

lemma length_entryText (text : List UInt8) (type : DataType) :
    (entryText text type).length =
      text.length + (toDecimal type.id.toByte.toNat).length +
        (toDecimal type.length.toNat).length + 2 := by
  simp only [entryText, List.length_append, List.length_singleton]
  omega

lemma bar_mem_entryText {text : List UInt8} {type : DataType} :
    (124 : UInt8) ∈ entryText text type ↔ (124 : UInt8) ∈ text := by
  simp [entryText, bar_notMem_toDecimal]

/-- A text without a comma is found in front of its two numbers. -/
lemma attributes_entryText {text : List UInt8} {type : DataType} (h : (44 : UInt8) ∉ text)
    (hsize : text.length < 2 ^ 31) (hlength : type.length.toNat < 2 ^ 31) :
    attributes (entryText text type) =
      .ok ⟨text, type.id.toByte.toNat, type.length.toNat⟩ := by
  have hid : type.id.toByte.toNat < 2 ^ 8 := type.id.toByte.isLt
  have hshort : (toDecimal type.id.toByte.toNat).length ≤ 3 := by
    rw [length_toDecimal_le (by norm_num)]
    omega
  obtain ⟨rounds, hrounds⟩ : ∃ n, (entryText text type).length = n + 1 + 1 + 1 := by
    have hpos := List.length_pos_iff.mpr (toDecimal_ne_nil type.length.toNat)
    rw [length_entryText]
    exact ⟨text.length + (toDecimal type.id.toByte.toNat).length +
      (toDecimal type.length.toNat).length - 1, by omega⟩
  have hsplit : split (entryText text type) 44 =
      .ok [text, toDecimal type.id.toByte.toNat, toDecimal type.length.toNat] := by
    have htext : entryText text type = text ++ 44 :: (toDecimal type.id.toByte.toNat ++
        44 :: toDecimal type.length.toNat) := by simp [entryText]
    rw [split, hrounds, htext, splitLoop_token h hsize,
      splitLoop_token (comma_notMem_toDecimal _) (by omega),
      splitLoop_last (comma_notMem_toDecimal _) (toDecimal_ne_nil _)]
    simp [Except.map, toDecimal_ne_nil]
  have hstoi : stoi (toDecimal type.length.toNat) = .ok (type.length.toNat : Int) :=
    stoi_toDecimal (by omega) (by omega)
  have hstoi' : stoi (toDecimal type.id.toByte.toNat) = .ok (type.id.toByte.toNat : Int) :=
    stoi_toDecimal (by omega) (by omega)
  simp [attributes, hsplit, hstoi, hstoi', Bind.bind, Except.bind, Pure.pure, Except.pure]

/-- A piece with three attributes starts with its text, which has no comma and fits. -/
lemma attributes_ok {val : List UInt8} {a : Attributes} (h : attributes val = .ok a) :
    (44 : UInt8) ∉ a.text ∧ a.text.length < 2 ^ 31 ∧ a.text <+: val := by
  obtain ⟨pieces, hsplit, h⟩ := except_bind_eq_ok h
  match pieces with
  | [] => cases h
  | [_] => cases h
  | [_, _] => cases h
  | text :: id :: length :: rest =>
    obtain ⟨i, -, h⟩ := except_bind_eq_ok h
    obtain ⟨l, -, h⟩ := except_bind_eq_ok h
    cases h
    exact splitLoop_head hsplit

/-! ### Records -/

/-- What a value is expected to be after the string has been taken apart. -/
def ownAttributes (value : Data) : Except Exception Attributes :=
  return ⟨← value.print, value.type.id.toByte.toNat, value.type.length.toNat⟩

/-- The string of a record is taken apart into the values of the record. -/
def Decodes (record : Record) : Prop :=
  (do recordValues (← serialize (some record))) = record.values.mapM ownAttributes

/-- A string without a comma and without a bar that fits, with its numbers, into an `int`. -/
def Plain (value : Data) : Prop :=
  ∀ text, value = .ascii text →
    (44 : UInt8) ∉ text ∧ (124 : UInt8) ∉ text ∧ text.length + 13 < 2 ^ 31

lemma exists_of_forall₂_right {α β : Type} {R : α → β → Prop} {xs : List α} {ys : List β}
    (h : List.Forall₂ R xs ys) {y : β} (hy : y ∈ ys) : ∃ x ∈ xs, R x y := by
  induction h with
  | nil => exact absurd hy List.not_mem_nil
  | cons hxy _ ih =>
    rcases List.mem_cons.mp hy with rfl | hy
    · exact ⟨_, by simp, hxy⟩
    · obtain ⟨x, hx, hR⟩ := ih hy
      exact ⟨x, by simp [hx], hR⟩

/-- The text of a value that prints. -/
def textOf : Data → List UInt8
  | .ascii data => data
  | .int data => toDecimal data.toInt
  | _ => []

/-- A value of one of the two types that print. -/
def Prints (value : Data) : Prop := value.type.id = .ascii ∨ value.type.id = .int

instance (value : Data) : Decidable (Prints value) := by
  unfold Prints
  infer_instance

variable {value : Data} {record : Record}

lemma Prints.print (h : Prints value) : value.print = .ok (textOf value) := by
  cases value with
  | ascii data => rfl
  | int data => rfl
  | _ => simp [Prints, Data.type] at h

lemma Prints.entry (h : Prints value) : entry value = .ok (entryText (textOf value) value.type) := by
  simp [ResultSerializer.entry, h.print, Bind.bind, Except.bind, Pure.pure, Except.pure]

lemma Prints.ownAttributes (h : Prints value) : ownAttributes value =
    .ok ⟨textOf value, value.type.id.toByte.toNat, value.type.length.toNat⟩ := by
  simp [QueryResult.ownAttributes, h.print, Bind.bind, Except.bind, Pure.pure, Except.pure]

/-- The texts of integers have no separators and are short. -/
lemma plain_iff (h : Prints value) : Plain value ↔
    (44 : UInt8) ∉ textOf value ∧ (124 : UInt8) ∉ textOf value ∧
      (textOf value).length + 13 < 2 ^ 31 := by
  cases value with
  | ascii data =>
    constructor
    · exact fun hplain => hplain data rfl
    · intro hplain text htext
      cases htext
      exact hplain
  | int data =>
    have hbounds : -2 ^ 31 ≤ data.toInt ∧ data.toInt < 2 ^ 31 := by
      have := BitVec.le_toInt data
      have := BitVec.toInt_lt (x := data)
      omega
    have hlength : (toDecimal data.toInt).length ≤ 11 := by
      rcases Int.natAbs_eq data.toInt with hn | hn
      · rw [hn]
        exact ((length_toDecimal_le (by norm_num)).mpr (by omega : _ < 10 ^ 11))
      · by_cases hzero : data.toInt.natAbs = 0
        · rw [hn, hzero]
          decide
        · rw [hn, toDecimal_neg (by omega), List.length_cons]
          have := (length_toDecimal_le (n := data.toInt.natAbs) (k := 10) (by norm_num)).mpr
            (by omega)
          omega
    have hfree : ∀ c : UInt8, c ≠ 45 → isDigit c = false → c ∉ toDecimal data.toInt := by
      intro c hsign hdigit hmem
      rcases mem_toDecimal hmem with h | h
      · exact hsign h
      · rw [hdigit] at h
        cases h
    refine ⟨fun _ => ⟨hfree 44 (by decide) (by decide), hfree 124 (by decide) (by decide), ?_⟩,
      fun _ text htext => by cases htext⟩
    simp only [textOf]
    omega
  | _ => simp [Prints, Data.type] at h

/-- The length of a text that fits decides whether its piece of the string does. -/
lemma length_entryText_lt_iff (h : Prints value) (hsize : (textOf value).length < 2 ^ 31) :
    (entryText (textOf value) value.type).length < 2 ^ 31 ↔
      (textOf value).length + 13 < 2 ^ 31 := by
  rw [length_entryText]
  cases value with
  | ascii data =>
    simp only [textOf, Data.type, TypeId.toByte] at hsize ⊢
    have hone : (toDecimal ((0 : BitVec 8).toNat : Nat)).length = 1 := by decide
    have hlength : (BitVec.ofNat 32 data.length).toNat = data.length := by
      rw [BitVec.toNat_ofNat, Nat.mod_eq_of_lt (by omega)]
    have hten := (length_toDecimal_le (n := data.length) (k := 10) (by norm_num)).mpr (by omega)
    have hnine := (length_toDecimal_le (n := data.length) (k := 9) (by norm_num))
    rw [hone, hlength]
    omega
  | int data =>
    have hplain := (@plain_iff (.int data) h).mp (fun _ htext => by cases htext)
    have hone : (toDecimal ((5 : BitVec 8).toNat : Nat)).length = 1 := by decide
    have hfour : (toDecimal ((4 : BitVec 32).toNat : Nat)).length = 1 := by decide
    simp only [Data.type, TypeId.toByte, hone, hfour]
    omega
  | _ => simp [Prints, Data.type] at h

/-- The pieces of the string of a record. -/
def pieces (values : List Data) : List (List UInt8) :=
  values.map (fun value => entryText (textOf value) value.type)

lemma serialize_eq (h : ∀ value ∈ record.values, Prints value) :
    serialize (some record) = .ok ((pieces record.values).flatMap (fun e => e ++ [124])) := by
  have hentries : record.values.mapM entry = .ok (pieces record.values) := by
    rw [mapM_eq_ok_iff, pieces, List.forall₂_map_right_iff, List.forall₂_same]
    exact fun value hvalue => (h value hvalue).entry
  simp [serialize, hentries, Bind.bind, Except.bind, Pure.pure, Except.pure]

lemma mapM_ownAttributes {values : List Data} (h : ∀ value ∈ values, Prints value) :
    values.mapM ownAttributes = .ok (values.map (fun value =>
      ⟨textOf value, value.type.id.toByte.toNat, value.type.length.toNat⟩)) := by
  rw [mapM_eq_ok_iff, List.forall₂_map_right_iff, List.forall₂_same]
  exact fun value hvalue => (h value hvalue).ownAttributes

lemma length_le_flatMap (texts : List (List UInt8)) :
    texts.length ≤ (texts.flatMap (fun e => e ++ [(124 : UInt8)])).length := by
  induction texts with
  | nil => simp
  | cons x texts ih =>
    simp only [List.flatMap_cons, List.length_append, List.length_cons, List.length_nil]
    omega

/-- Plain texts are split at the bars and then at the commas. -/
lemma recordValues_of_plain {values : List Data}
    (h : ∀ value ∈ values, Prints value) (hplain : ∀ value ∈ values, Plain value) :
    recordValues ((pieces values).flatMap (fun e => e ++ [124])) =
      values.mapM ownAttributes := by
  rw [mapM_ownAttributes h]
  have hpiece : ∀ value ∈ values, (124 : UInt8) ∉ entryText (textOf value) value.type ∧
      (entryText (textOf value) value.type).length < 2 ^ 31 := by
    intro value hvalue
    obtain ⟨-, hbar, hsize⟩ := (plain_iff (h value hvalue)).mp (hplain value hvalue)
    exact ⟨fun hmem => hbar (bar_mem_entryText.mp hmem),
      (length_entryText_lt_iff (h value hvalue) (by omega)).mpr hsize⟩
  have hattributes : (pieces values).mapM attributes = .ok (values.map (fun value =>
      ⟨textOf value, value.type.id.toByte.toNat, value.type.length.toNat⟩)) := by
    rw [mapM_eq_ok_iff, pieces, List.forall₂_map_left_iff, List.forall₂_map_right_iff,
      List.forall₂_same]
    intro value hvalue
    obtain ⟨hcomma, -, hsize⟩ := (plain_iff (h value hvalue)).mp (hplain value hvalue)
    refine attributes_entryText hcomma (by omega) ?_
    have hp := h value hvalue
    cases value with
    | ascii data =>
      simp only [textOf, Data.type, BitVec.toNat_ofNat] at hsize ⊢
      omega
    | int data => exact (by decide : (4 : BitVec 32).toNat < 2 ^ 31)
    | _ => simp [Prints, Data.type] at hp
  by_cases hnil : values = []
  · subst hnil
    rfl
  · have hne : pieces values ≠ [] := by simpa [pieces] using hnil
    have hsplit : split ((pieces values).flatMap (fun e => e ++ [124])) 124 =
        .ok (pieces values ++ [[]]) := by
      refine splitLoop_texts (pieces values) hne ?_ _ (length_le_flatMap _)
      intro x hx
      obtain ⟨value, hvalue, rfl⟩ := List.mem_map.mp hx
      exact hpiece value hvalue
    have hfilter : (pieces values ++ [[]]).filter (fun val => decide (0 < val.length)) =
        pieces values := by
      rw [List.filter_append, List.filter_cons_of_neg (by simp), List.filter_nil, List.append_nil,
        List.filter_eq_self]
      intro x hx
      obtain ⟨value, -, rfl⟩ := List.mem_map.mp hx
      rw [length_entryText]
      simp
    simp only [recordValues, hsplit, Bind.bind, Except.bind, hfilter, hattributes]

/-- If the values come back, every text is the start of a piece, and the pieces have no bars. -/
lemma plain_of_recordValues {values : List Data} (h : ∀ value ∈ values, Prints value)
    (hback : recordValues ((pieces values).flatMap (fun e => e ++ [124])) =
      values.mapM ownAttributes) : ∀ value ∈ values, Plain value := by
  rw [mapM_ownAttributes h] at hback
  unfold recordValues at hback
  cases hsplit : split ((pieces values).flatMap (fun e => e ++ [124])) 124 with
  | error e => simp [hsplit, Bind.bind, Except.bind] at hback
  | ok vals =>
    simp only [hsplit, Bind.bind, Except.bind] at hback
    rw [mapM_eq_ok_iff, List.forall₂_map_right_iff] at hback
    have hfound : ∀ value ∈ values, ∃ val ∈ vals, attributes val =
        .ok ⟨textOf value, value.type.id.toByte.toNat, value.type.length.toNat⟩ := by
      intro value hvalue
      obtain ⟨val, hval, hattributes⟩ := exists_of_forall₂_right hback hvalue
      exact ⟨val, List.mem_of_mem_filter hval, hattributes⟩
    -- Every text is shorter than `2 ^ 31`, so the next bar is never mistaken for a missing one.
    have htext : ∀ value ∈ values, (44 : UInt8) ∉ textOf value ∧
        (textOf value).length < 2 ^ 31 := by
      intro value hvalue
      obtain ⟨val, -, hattributes⟩ := hfound value hvalue
      have hhead := attributes_ok hattributes
      exact ⟨hhead.1, hhead.2.1⟩
    have hlength : ∀ x ∈ pieces values, x.length ≤ 2 ^ 31 + 20 := by
      intro x hx
      obtain ⟨value, hvalue, rfl⟩ := List.mem_map.mp hx
      have hsize := (htext value hvalue).2
      have hid := (length_toDecimal_le (n := value.type.id.toByte.toNat) (k := 3)
        (by norm_num)).mpr (by have := value.type.id.toByte.isLt; omega)
      have hlen := (length_toDecimal_le (n := value.type.length.toNat) (k := 10)
        (by norm_num)).mpr (by have := value.type.length.isLt; omega)
      rw [length_entryText]
      omega
    have hfree : ∀ val ∈ vals, (124 : UInt8) ∉ val :=
      @splitLoop_notMem _ _ (2 ^ 31 + 20) (by norm_num) _ le_rfl
        (fun rest hsuffix position hfind => findIdx?_le_of_suffix _ hlength hsuffix hfind) _ hsplit
    have hbar : ∀ value ∈ values, (124 : UInt8) ∉ textOf value := by
      intro value hvalue hmem
      obtain ⟨val, hval, hattributes⟩ := hfound value hvalue
      exact hfree val hval ((attributes_ok hattributes).2.2.subset hmem)
    have hfits := splitLoop_fits (pieces values) (by
      intro x hx
      refine ⟨?_, by have := hlength x hx; omega⟩
      obtain ⟨value, hvalue, rfl⟩ := List.mem_map.mp hx
      exact fun hmem => hbar value hvalue (bar_mem_entryText.mp hmem)) _ (length_le_flatMap _) hsplit
    intro value hvalue
    rw [plain_iff (h value hvalue)]
    obtain ⟨hcomma, hsize⟩ := htext value hvalue
    exact ⟨hcomma, hbar value hvalue, (length_entryText_lt_iff (h value hvalue) hsize).mp
      (hfits _ (List.mem_map_of_mem hvalue))⟩

/-- The string of a record of texts and integers is taken apart into the values of the record
exactly when all its texts are plain. -/
theorem decodes_iff (h : ∀ value ∈ record.values, Prints value) :
    Decodes record ↔ ∀ value ∈ record.values, Plain value := by
  unfold Decodes
  rw [serialize_eq h]
  constructor
  · exact plain_of_recordValues h
  · exact recordValues_of_plain h

/-- An empty text and a negative number come back. -/
theorem decodes_iff_emptyText : Decodes ⟨[.ascii [], .int (-7)]⟩ := by
  have hprints : ∀ value ∈ [Data.ascii [], Data.int (-7)], Prints value := by decide
  refine (@decodes_iff ⟨[.ascii [], .int (-7)]⟩ hprints).mpr ?_
  intro value hvalue text htext
  simp only [List.mem_cons, List.not_mem_nil, or_false] at hvalue
  rcases hvalue with rfl | rfl
  · cases htext
    simp
  · cases htext

/-- The text `a,0,1|b` comes back as the two values `a` and `b`. -/
theorem not_decodes_bar : ¬Decodes ⟨[.ascii [97, 44, 48, 44, 49, 124, 98]]⟩ := by
  unfold Decodes
  decide

end QueryResult

end Dibibase
