import Dibibase.Api.ServerResponse

/-!
# The text of a query

The body of a query has the length of the text, the text, and bytes for the consistency and flags.
The length is not decoded. A byte is part of the text exactly when it and the byte before it are
positive as a `char`, and the first letter of a statement is put back where it is missing.
-/

namespace Dibibase

namespace ServerMsg

/-- A `char` above zero. -/
def Positive (b : UInt8) : Prop := 0 < b.toBitVec.toInt

instance (b : UInt8) : Decidable (Positive b) := inferInstanceAs (Decidable (0 < _))

/-- The bytes that stand behind a positive byte, or at the front, and are positive themselves. -/
def kept (bs : List UInt8) : List UInt8 :=
  ((1 :: bs).zip bs).filterMap (fun p => if Positive p.1 ∧ Positive p.2 then some p.2 else none)

/-- The body of a query: the length of the text as a big-endian number, the text, and the rest. -/
def queryBody (query rest : List UInt8) : List UInt8 :=
  [UInt8.ofNat (query.length / 16777216), UInt8.ofNat (query.length / 65536),
    UInt8.ofNat (query.length / 256), UInt8.ofNat query.length] ++ (query ++ rest)

/-- One of the four statements, in any letter case. -/
def IsStatement (query : List UInt8) : Prop :=
  (query.take 6).map toLower ∈ ["create", "insert", "select", "delete"].map text

/-! ### The loop -/

section Loop

variable {xs ys : List UInt8}

/-- The flag after some bytes is that of the last one. -/
def flagAfter : Bool → List UInt8 → Bool
  | escape, [] => escape
  | _, c :: cs => flagAfter (decide (¬Positive c)) cs

lemma extractQuery_append (escape : Bool) (xs ys : List UInt8) :
    extractQuery escape (xs ++ ys) =
      extractQuery escape xs ++ extractQuery (flagAfter escape xs) ys := by
  induction xs generalizing escape with
  | nil => rfl
  | cons c xs ih =>
    by_cases hc : c.toBitVec.toInt ≤ 0
    · have hnot : decide (¬Positive c) = true := by simpa [Positive] using hc
      simp only [List.cons_append, extractQuery, if_pos hc, ih, flagAfter, hnot]
    · have hpositive : Positive c := not_le.mp hc
      cases escape <;> simp [extractQuery, flagAfter, hc, hpositive, ih]

lemma flagAfter_of_positive (h : ∀ c ∈ xs, Positive c) (hne : xs ≠ []) (escape : Bool) :
    flagAfter escape xs = false := by
  induction xs generalizing escape with
  | nil => exact absurd rfl hne
  | cons c xs ih =>
    have hc : decide (¬Positive c) = false := by simpa using h c (by simp)
    rw [flagAfter, hc]
    cases xs with
    | nil => rfl
    | cons d xs => exact ih (fun e he => h e (by simp [he])) (List.cons_ne_nil d xs) false

lemma extractQuery_of_positive (h : ∀ c ∈ xs, Positive c) : extractQuery false xs = xs := by
  induction xs with
  | nil => rfl
  | cons c xs ih =>
    have hc : ¬c.toBitVec.toInt ≤ 0 := not_le.mpr (h c (by simp))
    rw [extractQuery, if_neg hc, if_neg Bool.false_ne_true, ih (fun d hd => h d (by simp [hd]))]

lemma extractQuery_true (h : ∀ c ∈ xs, Positive c) : extractQuery true xs = xs.tail := by
  cases xs with
  | nil => rfl
  | cons c xs =>
    have hc : ¬c.toBitVec.toInt ≤ 0 := not_le.mpr (h c (by simp))
    rw [extractQuery, if_neg hc, if_pos rfl, List.tail_cons,
      extractQuery_of_positive (fun d hd => h d (by simp [hd]))]

lemma extractQuery_eq_kept (bs : List UInt8) : extractQuery false bs = kept bs := by
  have hstart : ∀ (p : UInt8) (bs : List UInt8), extractQuery (decide (¬Positive p)) bs =
      ((p :: bs).zip bs).filterMap
        (fun p => if Positive p.1 ∧ Positive p.2 then some p.2 else none) := by
    intro p bs
    induction bs generalizing p with
    | nil => rfl
    | cons c bs ih =>
      rw [List.zip_cons_cons, List.filterMap_cons, ← ih c]
      by_cases hc : Positive c
      · have hnot : ¬c.toBitVec.toInt ≤ 0 := not_le.mpr hc
        by_cases hp : Positive p <;> simp [extractQuery, hnot, hc, hp]
      · have hle : c.toBitVec.toInt ≤ 0 := not_lt.mp hc
        simp [extractQuery, hle, hc]
  exact hstart 1 bs

end Loop

/-! ### The text behind the length -/

section Text

variable {front query w rest : List UInt8}

/-- A query that is cut at its only semicolon. -/
lemma cutQuery_of_ok (hfront : 59 ∉ front) (hw : 59 ∉ w) (hrest : rest.getLast? ≠ some 59) :
    cutQuery (front ++ (w ++ [59]) ++ rest) = front ++ (w ++ [59]) := by
  unfold cutQuery
  cases hlast : rest.getLast? with
  | none =>
    rw [List.getLast?_eq_none_iff] at hlast
    subst hlast
    simp
  | some c =>
    have hne : (front ++ (w ++ [59]) ++ rest).getLast? ≠ some 59 := by
      rw [List.getLast?_append, hlast, Option.some_or, ← hlast]
      exact hrest
    have htake : ∀ c ∈ front ++ w, decide (c ≠ 59) = true := by
      intro c hc
      simp only [List.mem_append] at hc
      simp only [decide_eq_true_eq]
      rintro rfl
      exact hc.elim hfront hw
    rw [if_neg hne, ← List.append_assoc front, List.append_assoc (front ++ w),
      List.takeWhile_append_of_pos htake]
    simp

/-- Behind a semicolon in front of the text nothing is left. -/
lemma length_cutQuery_le_front (hfront : 59 ∈ front) (hne : rest ≠ [])
    (hrest : rest.getLast? ≠ some 59) :
    (cutQuery (front ++ query ++ rest)).length ≤ front.length := by
  obtain ⟨as, bs, rfl, has⟩ := List.eq_append_cons_of_mem hfront
  have hlast : ((as ++ 59 :: bs) ++ query ++ rest).getLast? ≠ some 59 := by
    rw [List.getLast?_append, Option.or_of_isSome (by simpa using hne)]
    exact hrest
  have htake : ∀ c ∈ as, decide (c ≠ 59) = true := by
    intro c hc
    simp only [decide_eq_true_eq]
    rintro rfl
    exact has hc
  unfold cutQuery
  rw [if_neg hlast, List.append_assoc, List.append_assoc, List.takeWhile_append_of_pos htake]
  simp

/-- A query that ends in a semicolon is not cut. -/
lemma cutQuery_of_last (hlast : query.getLast? = some 59) : cutQuery query = query := by
  unfold cutQuery
  rw [if_pos hlast]

/-- The letters that decide what is put in front. -/
lemma IsStatement.letters (h : IsStatement query) : ∃ c a b d e f rest,
    query = c :: a :: b :: d :: e :: f :: rest ∧
      (toLower c = 99 ∧ toLower a = 114 ∨ toLower c = 105 ∧ toLower a = 110 ∨
        toLower c = 115 ∧ toLower a = 101 ∧ toLower f = 116 ∨
        toLower c = 100 ∧ toLower a = 101 ∧ toLower f = 101) := by
  have htexts : ["create", "insert", "select", "delete"].map text =
      [[99, 114, 101, 97, 116, 101], [105, 110, 115, 101, 114, 116],
        [115, 101, 108, 101, 99, 116], [100, 101, 108, 101, 116, 101]] := by decide
  unfold IsStatement at h
  rw [htexts] at h
  match query, h with
  | [], h | [_], h | [_, _], h | [_, _, _], h | [_, _, _, _], h | [_, _, _, _, _], h => simp at h
  | c :: a :: b :: d :: e :: f :: rest, h =>
    refine ⟨c, a, b, d, e, f, rest, rfl, ?_⟩
    simp only [List.take_succ_cons, List.take_zero, List.map_cons, List.map_nil, List.mem_cons,
      List.cons.injEq, List.not_mem_nil, or_false, and_true] at h
    tauto

/-- A whole statement is left as it is. -/
lemma restoreQuery_statement (h : IsStatement query) : restoreQuery query = .ok query := by
  obtain ⟨c, a, b, d, e, f, rest, rfl, hletters⟩ := h.letters
  have hc : toLower c ≠ 110 ∧ toLower c ≠ 114 ∧ toLower c ≠ 101 := by
    rcases hletters with h | h | h | h <;> rw [h.1] <;> decide
  rw [restoreQuery, if_neg hc.1, if_neg hc.2.1, if_neg hc.2.2]
  rfl

/-- Only `C` and `I` are put back. -/
lemma restoreQuery_tail (h : IsStatement query) :
    restoreQuery query.tail = .ok query ↔ query.head? = some 67 ∨ query.head? = some 73 := by
  obtain ⟨c, a, b, d, e, f, rest, rfl, hletters⟩ := h.letters
  have hfifth : fifth (a :: b :: d :: e :: f :: rest) = .ok f := rfl
  have hbind : ∀ k : UInt8 → Except Exception (List UInt8), (Except.ok f >>= k) = k f := fun _ => rfl
  have hother : ∀ x y : UInt8, toLower c = x → toLower y ≠ x → c ≠ y := by
    rintro x y hx hy rfl
    exact hy hx
  rw [List.tail_cons, List.head?_cons, restoreQuery, hfifth, hbind, Option.some_inj, Option.some_inj]
  generalize a :: b :: d :: e :: f :: rest = tail
  rcases hletters with ⟨hc, ha⟩ | ⟨hc, ha⟩ | ⟨hc, ha, hf⟩ | ⟨hc, ha, hf⟩
  · rw [ha, if_neg (by decide), if_pos rfl]
    have hI := hother 99 73 hc (by decide)
    simp [Pure.pure, Except.pure, hI, eq_comm]
  · rw [ha, if_pos rfl]
    have hC := hother 105 67 hc (by decide)
    simp [Pure.pure, Except.pure, hC, eq_comm]
  · rw [ha, hf, if_neg (by decide), if_neg (by decide), if_pos rfl, if_neg (by decide), if_pos rfl]
    have hC := hother 115 67 hc (by decide)
    have hI := hother 115 73 hc (by decide)
    have hD := hother 115 68 hc (by decide)
    simp [Pure.pure, Except.pure, hC, hI, hD.symm]
  · rw [ha, hf, if_neg (by decide), if_neg (by decide), if_pos rfl, if_neg (by decide),
      if_neg (by decide)]
    have hC := hother 100 67 hc (by decide)
    have hI := hother 100 73 hc (by decide)
    simp [Pure.pure, Except.pure, hC, hI]

/-- The text with bytes of the length in front, and perhaps without its first letter. -/
def sliced (front query : List UInt8) (lost : Bool) : List UInt8 :=
  front ++ (if lost then query.tail else query)

lemma length_sliced (hquery : query ≠ []) (lost : Bool) :
    (sliced front query lost).length + (if lost then 1 else 0) = front.length + query.length := by
  have hpos := List.length_pos_iff.mpr hquery
  cases lost
  · simp [sliced]
  · simp only [sliced, if_true, List.length_append, List.length_tail]
    omega

/-- Bytes of the length have to be gone, unless one of them happens to be the lost letter. -/
lemma restoreQuery_sliced (h : IsStatement query) (lost : Bool) :
    restoreQuery (sliced front query lost) = .ok query ↔ lost = false ∧ front = [] ∨
      lost = true ∧ (front = [] ∧ (query.head? = some 67 ∨ query.head? = some 73) ∨
        front = query.take 1) := by
  have hne : query ≠ [] := by
    obtain ⟨c, a, b, d, e, f, rest, rfl, -⟩ := h.letters
    exact List.cons_ne_nil _ _
  obtain ⟨c, cs, hcons⟩ := List.exists_cons_of_ne_nil hne
  have hwhole : ∀ front, restoreQuery (sliced front query lost) = .ok query →
      front.length ≤ if lost then 1 else 0 := by
    intro front hrestore
    have hlength := @length_sliced front query hne lost
    rcases restoreQuery_ok hrestore with heq | ⟨c, -, heq⟩
    · rw [← heq] at hlength
      omega
    · have hlength' := congrArg List.length heq
      rw [List.length_cons] at hlength'
      omega
  cases lost with
  | false =>
    simp only [true_and, Bool.false_eq_true, false_and, or_false]
    constructor
    · intro hrestore
      have hle := hwhole front hrestore
      exact List.length_eq_zero_iff.mp (by simpa using hle)
    · rintro rfl
      exact restoreQuery_statement h
  | true =>
    simp only [Bool.true_eq_false, false_and, true_and, false_or]
    by_cases hempty : front = []
    · subst hempty
      have htake : [] ≠ query.take 1 := by simp [hcons]
      simp only [sliced, if_true, List.nil_append, true_and, htake, or_false]
      exact restoreQuery_tail h
    · simp only [hempty, false_and, false_or]
      constructor
      · intro hrestore
        have hle := hwhole front hrestore
        obtain ⟨x, hx⟩ := List.length_eq_one_iff.mp
          (le_antisymm (by simpa using hle) (List.length_pos_iff.mpr hempty))
        subst hx
        rcases restoreQuery_ok hrestore with heq | ⟨y, -, heq⟩
        · rw [hcons, sliced] at heq
          rw [hcons]
          simpa [eq_comm] using heq
        · have hlength := congrArg List.length heq
          simp [hcons, sliced] at hlength
      · intro hfront
        have hall : sliced front query true = query := by simp [sliced, hfront, hcons]
        rw [hall]
        exact restoreQuery_statement h

/-- A semicolon among the bytes behind the text keeps them in the query. -/
lemma not_restores_of_semicolon (h : IsStatement query) (lost : Bool)
    (hrest : rest.getLast? = some 59) :
    restoreQuery (cutQuery (sliced front query lost ++ rest)) ≠ .ok query := by
  intro hrestore
  have hlast : (sliced front query lost ++ rest).getLast? = some 59 := by
    rw [List.getLast?_append, hrest, Option.some_or]
  rw [cutQuery_of_last hlast] at hrestore
  obtain ⟨c, a, b, d, e, f, tail, hcons, hletters⟩ := h.letters
  have hlength := @length_sliced front query (by rw [hcons]; exact List.cons_ne_nil _ _) lost
  have hpos : 0 < rest.length := List.length_pos_iff.mpr (by rintro rfl; cases hrest)
  rcases restoreQuery_ok hrestore with heq | ⟨y, -, heq⟩
  · have hlength' := congrArg List.length heq
    rw [List.length_append] at hlength'
    cases lost with
    | false =>
      simp only [Bool.false_eq_true, if_false] at hlength
      omega
    | true =>
      simp only [if_true] at hlength
      have hfront : front = [] := List.length_eq_zero_iff.mp (by omega)
      rw [hfront, hcons, sliced] at heq
      simp only [if_true, List.nil_append, List.tail_cons, List.cons_append, List.cons.injEq] at heq
      rw [heq.1] at hletters
      rcases hletters with h | h | h | h
      · exact absurd (h.1.symm.trans h.2) (by decide)
      · exact absurd (h.1.symm.trans h.2) (by decide)
      · exact absurd (h.1.symm.trans h.2.1) (by decide)
      · exact absurd (h.1.symm.trans h.2.1) (by decide)
  · have hlength' := congrArg List.length heq
    rw [List.length_cons, List.length_append] at hlength'
    split at hlength <;> omega

/-- What is left of the length is `front`, and the first letter of the text is lost with `lost`. -/
lemma restores_iff (h : IsStatement query) (hquery : query = w ++ [59]) (hw : 59 ∉ w)
    (hfront : front.length ≤ 4) (lost : Bool) (rest : List UInt8) :
    restoreQuery (cutQuery (sliced front query lost ++ rest)) = .ok query ↔
      rest.getLast? ≠ some 59 ∧ (lost = false ∧ front = [] ∨
        lost = true ∧ (front = [] ∧ (query.head? = some 67 ∨ query.head? = some 73) ∨
          front = query.take 1)) := by
  by_cases hrest : rest.getLast? = some 59
  · exact iff_of_false (not_restores_of_semicolon h lost hrest) (by simp [hrest])
  · rw [and_iff_right hrest]
    obtain ⟨c, a, b, d, e, f, tail, hcons, hletters⟩ := h.letters
    have hend : ∃ v, (if lost then query.tail else query) = v ++ [59] ∧ 59 ∉ v := by
      cases lost with
      | false => exact ⟨w, hquery, hw⟩
      | true =>
        refine ⟨w.tail, ?_, fun hmem => hw (List.mem_of_mem_tail hmem)⟩
        have hne : w ≠ [] := by
          rintro rfl
          rw [hcons] at hquery
          simp at hquery
        rw [if_pos rfl, hquery, List.tail_append_of_ne_nil hne]
    obtain ⟨v, hv, hnot⟩ := hend
    by_cases hsemicolon : 59 ∈ front
    · by_cases hempty : rest = []
      · have hlast : (sliced front query lost).getLast? = some 59 := by
          rw [sliced, hv, ← List.append_assoc, List.getLast?_concat]
        rw [← restoreQuery_sliced h lost, hempty, List.append_nil, cutQuery_of_last hlast]
      · -- The query ends at a byte of the length.
        apply iff_of_false
        · intro hrestore
          have hle := @length_cutQuery_le_front front (if lost then query.tail else query) rest hsemicolon
            hempty hrest
          rw [sliced] at hrestore
          have hsix : 6 ≤ query.length := by
            rw [hcons]
            simp only [List.length_cons]
            omega
          rcases restoreQuery_ok hrestore with heq | ⟨y, -, heq⟩
          · have hlength := congrArg List.length heq
            omega
          · have hlength := congrArg List.length heq
            rw [List.length_cons] at hlength
            omega
        · rintro (⟨-, rfl⟩ | ⟨-, ⟨rfl, -⟩ | hfront⟩)
          · cases hsemicolon
          · cases hsemicolon
          · rw [hfront, hcons, List.take_succ_cons, List.take_zero, List.mem_singleton] at hsemicolon
            rw [← hsemicolon] at hletters
            have hsame : toLower 59 = 59 := by decide
            rw [hsame] at hletters
            rcases hletters with h | h | h | h <;> exact absurd h.1 (by decide)
    · rw [← restoreQuery_sliced h lost, sliced, hv, cutQuery_of_ok hsemicolon hnot hrest]

end Text

/-! ### The length -/

section Length

variable {b₀ b₁ b₂ b₃ : UInt8}

/-- The loop skips the length and nothing else. -/
abbrev Skipped (b₀ b₂ b₃ : UInt8) : Prop := ¬Positive b₀ ∧ ¬Positive b₂ ∧ Positive b₃

/-- The loop skips the length and the first letter of the text. -/
abbrev SkippedFirst (b₀ b₁ b₂ b₃ : UInt8) : Prop :=
  ¬Positive b₀ ∧ ¬(Positive b₁ ∧ Positive b₂) ∧ ¬Positive b₃

/-- The loop leaves the byte `c` of the length and skips the first letter of the text. -/
abbrev Replaced (b₀ b₁ b₂ b₃ c : UInt8) : Prop :=
  ¬Positive b₃ ∧ (Positive b₀ ∧ ¬Positive b₁ ∧ b₀ = c ∨
    ¬Positive b₀ ∧ Positive b₁ ∧ Positive b₂ ∧ b₂ = c)

lemma kept_four : kept [b₀, b₁, b₂, b₃] =
    (if Positive b₀ then [b₀] else []) ++ (if Positive b₀ ∧ Positive b₁ then [b₁] else []) ++
      (if Positive b₁ ∧ Positive b₂ then [b₂] else []) ++
        (if Positive b₂ ∧ Positive b₃ then [b₃] else []) := by
  have hone : Positive 1 := by decide
  by_cases h₀ : Positive b₀ <;> by_cases h₁ : Positive b₁ <;> by_cases h₂ : Positive b₂ <;>
    by_cases h₃ : Positive b₃ <;> simp [kept, hone, h₀, h₁, h₂, h₃]

lemma skipped_iff : flagAfter false [b₀, b₁, b₂, b₃] = false ∧
    extractQuery false [b₀, b₁, b₂, b₃] = [] ↔ Skipped b₀ b₂ b₃ := by
  rw [extractQuery_eq_kept, kept_four]
  by_cases h₀ : Positive b₀ <;> by_cases h₁ : Positive b₁ <;> by_cases h₂ : Positive b₂ <;>
    by_cases h₃ : Positive b₃ <;> simp [flagAfter, Skipped, h₀, h₁, h₂, h₃]

lemma skippedFirst_iff : flagAfter false [b₀, b₁, b₂, b₃] = true ∧
    extractQuery false [b₀, b₁, b₂, b₃] = [] ↔ SkippedFirst b₀ b₁ b₂ b₃ := by
  rw [extractQuery_eq_kept, kept_four]
  by_cases h₀ : Positive b₀ <;> by_cases h₁ : Positive b₁ <;> by_cases h₂ : Positive b₂ <;>
    by_cases h₃ : Positive b₃ <;> simp [flagAfter, SkippedFirst, h₀, h₁, h₂, h₃]

lemma replaced_iff {c : UInt8} : flagAfter false [b₀, b₁, b₂, b₃] = true ∧
    extractQuery false [b₀, b₁, b₂, b₃] = [c] ↔ Replaced b₀ b₁ b₂ b₃ c := by
  rw [extractQuery_eq_kept, kept_four]
  by_cases h₀ : Positive b₀ <;> by_cases h₁ : Positive b₁ <;> by_cases h₂ : Positive b₂ <;>
    by_cases h₃ : Positive b₃ <;> simp [flagAfter, Replaced, h₀, h₁, h₂, h₃]

end Length

/-- The bytes of the length are gone, and the first letter of the text is there, has been put back,
or is a byte of the length. -/
def Recovered (query : List UInt8) : Prop :=
  let b₀ := UInt8.ofNat (query.length / 16777216)
  let b₁ := UInt8.ofNat (query.length / 65536)
  let b₂ := UInt8.ofNat (query.length / 256)
  let b₃ := UInt8.ofNat query.length
  Skipped b₀ b₂ b₃ ∨ SkippedFirst b₀ b₁ b₂ b₃ ∧ (query.head? = some 67 ∨ query.head? = some 73) ∨
    ∃ c, query.head? = some c ∧ Replaced b₀ b₁ b₂ b₃ c

lemma positive_of_printable {c : UInt8} (h : 32 ≤ c ∧ c ≤ 126) : Positive c := by
  have hc : c.toNat < 128 := by
    have hle := UInt8.le_iff_toNat_le.mp h.2
    have hval : (126 : UInt8).toNat = 126 := rfl
    omega
  have hpos : 32 ≤ c.toNat := UInt8.le_iff_toNat_le.mp h.1
  unfold Positive
  rw [BitVec.toInt_eq_toNat_of_lt (by simpa using by omega)]
  change (0 : Int) < (c.toNat : Int)
  omega

lemma extractQuery_query {query : List UInt8} (hpositive : ∀ c ∈ query, Positive c)
    (hne : query ≠ []) (length rest : List UInt8) :
    extractQuery false (length ++ (query ++ rest)) =
      sliced (extractQuery false length) query (flagAfter false length) ++ kept rest := by
  rw [extractQuery_append, extractQuery_append, flagAfter_of_positive hpositive hne,
    extractQuery_eq_kept rest, ← List.append_assoc]
  congr 2
  cases flagAfter false length with
  | false => exact extractQuery_of_positive hpositive
  | true => exact extractQuery_true hpositive

/-- The parser is given the text exactly when it is recovered and the bytes behind it do not end in
a semicolon, as far as they are kept. -/
theorem parserText_iff {query w rest : List UInt8} (hprintable : ∀ c ∈ query, 32 ≤ c ∧ c ≤ 126)
    (hquery : query = w ++ [59]) (hw : 59 ∉ w) (hstatement : IsStatement query) :
    parserText (queryBody query rest) = some query ↔
      (kept rest).getLast? ≠ some 59 ∧ Recovered query := by
  have hpositive : ∀ c ∈ query, Positive c := fun c hc => positive_of_printable (hprintable c hc)
  have hne : query ≠ [] := by
    rw [hquery]
    exact List.append_ne_nil_of_right_ne_nil _ (List.cons_ne_nil _ _)
  obtain ⟨c, cs, hcons⟩ := List.exists_cons_of_ne_nil hne
  unfold parserText queryBody Recovered
  generalize UInt8.ofNat (query.length / 16777216) = b₀
  generalize UInt8.ofNat (query.length / 65536) = b₁
  generalize UInt8.ofNat (query.length / 256) = b₂
  generalize UInt8.ofNat query.length = b₃
  have hsemicolon : 59 ∈ extractQuery false ([b₀, b₁, b₂, b₃] ++ (query ++ rest)) := by
    have hmem : (59 : UInt8) ∈ query.tail := by
      obtain ⟨c, a, b, d, e, f, tail, hletters, -⟩ := hstatement.letters
      have hlast : query.tail.getLast? = some 59 := by
        rw [hletters] at hquery ⊢
        have hget := congrArg List.getLast? hquery
        rw [List.getLast?_concat] at hget
        simpa [List.getLast?_cons_cons] using hget
      exact List.mem_of_getLast? hlast
    rw [extractQuery_query hpositive hne, sliced]
    cases flagAfter false [b₀, b₁, b₂, b₃] with
    | false => simp [List.mem_of_mem_tail hmem]
    | true => simp [hmem]
  have hoption : ∀ x : Except Exception (List UInt8), x.toOption = some query ↔ x = .ok query := by
    intro x
    cases x <;> simp [Except.toOption]
  have hfront : (extractQuery false [b₀, b₁, b₂, b₃]).length ≤ 4 := by
    rw [extractQuery_eq_kept, kept]
    exact List.length_filterMap_le _ _
  have htake : query.take 1 = [c] := by rw [hcons, List.take_succ_cons, List.take_zero]
  have hhead : ∀ x, query.head? = some x ↔ c = x := by simp [hcons]
  dsimp only
  simp only [← @skipped_iff b₀ b₁ b₂ b₃, ← skippedFirst_iff, ← replaced_iff, hhead, exists_eq_left']
  rw [if_pos hsemicolon, hoption, extractQuery_query hpositive hne,
    restores_iff hstatement hquery hw hfront, htake, hhead, hhead]
  tauto

/-- A short text. -/
theorem parserText_short : parserText (queryBody (text "select * from t;") [0, 1, 0]) =
    some (text "select * from t;") :=
  (parserText_iff (by simp [text]) (show text "select * from t;" = text "select * from t" ++ [59] by decide)
    (by decide) (by unfold IsStatement; decide)).mpr ⟨by decide, .inl (by decide)⟩

/-- With 128 characters the `S` is lost, and a `D` is put in its place. -/
theorem not_parserText_long :
    parserText (queryBody (text "SELECT * FROM t WHERE k = 1" ++ List.replicate 100 32 ++ [59]) [0, 1, 0]) =
      some (text "DELECT * FROM t WHERE k = 1" ++ List.replicate 100 32 ++ [59]) ∧
    parserText (queryBody (text "SELECT * FROM t WHERE k = 1" ++ List.replicate 100 32 ++ [59]) [0, 1, 0]) ≠
      some (text "SELECT * FROM t WHERE k = 1" ++ List.replicate 100 32 ++ [59]) := by
  decide +kernel

end ServerMsg

end Dibibase
