import Mathlib.Data.Bool.AllAny
import Dibibase.Library.Execution
import Dibibase.PromEndp.HttpMessage

/-!
# The text of a request

A request that has been parsed is printed as a text that is parsed to the same request. No other request is:
one without the header for the length of its content gets it, and one without any header loses its content.
-/

namespace Dibibase

open Library

namespace PromEndp

/-! ### Searching for a pattern -/

section Search

variable {a : UInt8} {p xs ys : List UInt8}

/-- The search passes over what does not have the first byte of the pattern. -/
lemma splitFirst_append (h : a ∉ xs) : splitFirst (a :: p) (xs ++ ys) =
    (splitFirst (a :: p) ys).map (fun q => (xs ++ q.1, q.2)) := by
  induction xs with
  | nil => simp
  | cons x xs ih =>
    rw [List.mem_cons, not_or] at h
    have hprefix : ¬(a :: p).isPrefixOf (x :: (xs ++ ys)) = true := by
      rw [List.isPrefixOf_cons_cons, Bool.and_eq_true, beq_iff_eq]
      exact fun hboth => h.1 hboth.1
    rw [List.cons_append, splitFirst, if_neg hprefix, ih h.2, Option.map_map]
    rfl

lemma splitFirst_self (p ys : List UInt8) : splitFirst (a :: p) (a :: p ++ ys) = some ([], ys) := by
  have hprefix : (a :: p).isPrefixOf (a :: (p ++ ys)) = true := by
    rw [List.isPrefixOf_iff_prefix, ← List.cons_append]
    exact List.prefix_append _ _
  rw [List.cons_append, splitFirst, if_pos hprefix, ← List.cons_append, List.drop_left]

end Search

/-! ### The map of headers -/

namespace Headers

/-- The headers stand in the order of their names, each name once. -/
def Sorted (headers : Headers) : Prop := headers.Pairwise (fun p q => stringLe q.1 p.1 = false)

variable {headers : Headers} {key value : List UInt8}

/-- A name behind all others is put at the end. -/
lemma set_of_last (h : ∀ p ∈ headers, stringLe key p.1 = false) :
    headers.set key value = headers ++ [(key, value)] := by
  induction headers with
  | nil => rfl
  | cons p headers ih =>
    obtain ⟨k, v⟩ := p
    have hbehind : stringLe key k = false := h (k, v) List.mem_cons_self
    have hne : k ≠ key := by
      rintro rfl
      rcases stringLe_total k k with hself | hself <;> rw [hself] at hbehind <;> cases hbehind
    rw [set, if_neg hne, if_neg (by simp [hbehind]), ih (fun p hp => h p (List.mem_cons_of_mem _ hp))]
    rfl

/-- Headers that are set one after the other in the order of their names. -/
lemma foldl_set (h : Sorted headers) :
    headers.foldl (fun (hs : Headers) p => hs.set p.1 p.2) [] = headers := by
  induction headers using List.reverseRecOn with
  | nil => rfl
  | append_singleton headers p ih =>
    obtain ⟨hfront, -, hlast⟩ := List.pairwise_append.mp h
    rw [List.foldl_append, ih hfront, List.foldl_cons, List.foldl_nil,
      set_of_last (fun q hq => hlast q hq p (List.mem_singleton_self p))]

/-- What is set is there. -/
lemma mem_set (headers : Headers) (key value : List UInt8) : (key, value) ∈ headers.set key value := by
  induction headers with
  | nil => exact List.mem_singleton_self _
  | cons p headers ih =>
    obtain ⟨k, v⟩ := p
    rw [set]
    split_ifs with heq
    · rw [heq]
      exact List.mem_cons_self
    · exact List.mem_cons_self
    · exact List.mem_cons_of_mem _ ih

/-- What was there before, or is set. -/
lemma mem_of_mem_set {p : List UInt8 × List UInt8} (h : p ∈ headers.set key value) :
    p ∈ headers ∨ p = (key, value) := by
  induction headers with
  | nil => exact .inr (List.mem_singleton.mp h)
  | cons q headers ih =>
    obtain ⟨k, v⟩ := q
    rw [set] at h
    split_ifs at h with heq
    · rcases List.mem_cons.mp h with rfl | h
      · exact .inr (by rw [heq])
      · exact .inl (List.mem_cons_of_mem _ h)
    · rcases List.mem_cons.mp h with rfl | h
      · exact .inr rfl
      · exact .inl h
    · rcases List.mem_cons.mp h with rfl | h
      · exact .inl List.mem_cons_self
      · exact (ih h).imp (List.mem_cons_of_mem _) id

lemma stringLe_false_trans {as bs cs : List UInt8} (h : stringLe bs as = false) (h' : stringLe cs bs = false) :
    stringLe cs as = false := by
  by_contra hle
  rw [Bool.not_eq_false] at hle
  have hbs : stringLe as bs = true := (stringLe_total bs as).resolve_left (by simp [h])
  have hcs := stringLe_trans cs as bs hle hbs
  rw [h'] at hcs
  cases hcs

lemma Sorted.set (h : Sorted headers) (key value : List UInt8) : Sorted (headers.set key value) := by
  induction headers with
  | nil => exact List.pairwise_singleton _ _
  | cons p headers ih =>
    obtain ⟨k, v⟩ := p
    obtain ⟨hfirst, hrest⟩ := List.pairwise_cons.mp h
    rw [Headers.set]
    split_ifs with heq hle
    · exact List.pairwise_cons.mpr ⟨hfirst, hrest⟩
    · have hbefore : stringLe k key = false := by
        by_contra hback
        rw [Bool.not_eq_false] at hback
        exact heq (stringLe_antisymm k key hback hle)
      refine List.pairwise_cons.mpr ⟨?_, h⟩
      intro q hq
      rcases List.mem_cons.mp hq with rfl | hq
      · exact hbefore
      · exact stringLe_false_trans hbefore (hfirst q hq)
    · refine List.pairwise_cons.mpr ⟨?_, ih hrest⟩
      intro q hq
      rcases mem_of_mem_set hq with hq | rfl
      · exact hfirst q hq
      · simpa using hle

/-- To set a header to what it is changes nothing. -/
lemma set_of_mem (h : Sorted headers) (hmem : (key, value) ∈ headers) : headers.set key value = headers := by
  induction headers with
  | nil => cases hmem
  | cons p headers ih =>
    obtain ⟨k, v⟩ := p
    obtain ⟨hfirst, hrest⟩ := List.pairwise_cons.mp h
    rcases List.mem_cons.mp hmem with heq | hmem
    · cases heq
      rw [Headers.set, if_pos rfl]
    · have hbehind := hfirst _ hmem
      dsimp only at hbehind
      have hne : k ≠ key := by
        rintro rfl
        rcases stringLe_total k k with hself | hself <;> rw [hself] at hbehind <;> cases hbehind
      rw [Headers.set, if_neg hne, if_neg (by simp [hbehind]), ih hrest hmem]

end Headers

/-! ### The lines of the header -/

section Lines

variable {headers hs : Headers} {p q : List UInt8 × List UInt8} {content value : List UInt8}

/-- A header whose name ends at the colon and which has no white space to be removed. -/
structure Plain (p : List UInt8 × List UInt8) : Prop where
  name : ∀ c ∈ p.1, isSpace c = false ∧ c ≠ 58
  value : ∀ c ∈ p.2, isSpace c = false

def headerText (p : List UInt8 × List UInt8) : List UInt8 := p.1 ++ text ": " ++ p.2

/-- What stands between the start line and the empty line. -/
def joined : Headers → List UInt8
  | [] => []
  | [p] => headerText p
  | p :: q :: headers => headerText p ++ (13 :: 10 :: joined (q :: headers))

/-- Its lines, which end in carriage returns. -/
def lines : Headers → List (List UInt8)
  | [] => []
  | [p] => [headerText p]
  | p :: q :: headers => (headerText p ++ [13]) :: lines (q :: headers)

lemma notMem_headerText {c : UInt8} (h : Plain p) (hspace : isSpace c = true) (hne : c ≠ 32) :
    c ∉ headerText p := by
  have hmiddle : text ": " = [58, 32] := by decide
  have hcolon : c ≠ 58 := by
    rintro rfl
    exact absurd hspace (by decide)
  rw [headerText, hmiddle, List.mem_append, List.mem_append]
  rintro ((hc | hc) | hc)
  · rw [(h.name c hc).1] at hspace
    cases hspace
  · simp [hcolon, hne] at hc
  · rw [h.value c hc] at hspace
    cases hspace

/-- A header does not begin with a carriage return. -/
lemma headerText_cons (h : Plain p) (rest : List UInt8) :
    ∃ c cs, headerText p ++ rest = c :: cs ∧ c ≠ 13 := by
  have hmiddle : text ": " = [58, 32] := by decide
  rw [headerText, hmiddle]
  cases hname : p.1 with
  | nil => exact ⟨58, _, rfl, by decide⟩
  | cons c cs =>
    refine ⟨c, _, rfl, ?_⟩
    rintro rfl
    have hspace := (h.name 13 (by simp [hname])).1
    exact absurd hspace (by decide)

/-- The line feed after a header does not begin the empty line. -/
lemma splitFirst_lineFeed {c : UInt8} (hc : c ≠ 13) (cs : List UInt8) :
    splitFirst [13, 10, 13, 10] (13 :: 10 :: c :: cs) =
      (splitFirst [13, 10, 13, 10] (c :: cs)).map (fun q => (13 :: 10 :: q.1, q.2)) := by
  have hfirst : ¬[13, 10, 13, 10].isPrefixOf (13 :: 10 :: c :: cs) = true := by
    simp [List.isPrefixOf, Ne.symm hc]
  have hsecond : ¬[13, 10, 13, 10].isPrefixOf (10 :: c :: cs) = true := by
    simp [List.isPrefixOf]
  rw [splitFirst, if_neg hfirst, splitFirst, if_neg hsecond, Option.map_map]
  rfl

/-- The header ends where the first empty line is. -/
lemma splitFirst_headers (hne : headers ≠ []) (hplain : ∀ p ∈ headers, Plain p) (content : List UInt8) :
    splitFirst [13, 10, 13, 10] (headers.flatMap (fun p => headerText p ++ [13, 10]) ++
      ([13, 10] ++ content)) = some (joined headers, content) := by
  induction headers with
  | nil => exact absurd rfl hne
  | cons p headers ih =>
    have hp := hplain p List.mem_cons_self
    have hreturn : (13 : UInt8) ∉ headerText p := notMem_headerText hp (by decide) (by decide)
    rw [List.flatMap_cons, List.append_assoc, List.append_assoc, splitFirst_append hreturn]
    cases headers with
    | nil =>
      have hempty := @splitFirst_self 13 [10, 13, 10] content
      have hsame : [13, 10] ++ (([] : Headers).flatMap (fun p => headerText p ++ [13, 10]) ++
          ([13, 10] ++ content)) = [13, 10, 13, 10] ++ content := rfl
      rw [hsame, hempty, Option.map_some, List.append_nil]
      rfl
    | cons q headers =>
      have hq := hplain q (by simp)
      obtain ⟨c, cs, hcons, hc⟩ := headerText_cons hq ([13, 10] ++
        (headers.flatMap (fun p => headerText p ++ [13, 10]) ++ ([13, 10] ++ content)))
      have hrest := ih (by simp) (fun p hp => hplain p (List.mem_cons_of_mem _ hp))
      rw [List.flatMap_cons, List.append_assoc, List.append_assoc, hcons] at hrest ⊢
      have hfeed : [13, 10] ++ (c :: cs) = 13 :: 10 :: c :: cs := rfl
      rw [hfeed, splitFirst_lineFeed hc, hrest, Option.map_some, Option.map_some]
      rfl

lemma getLines_joined (hne : headers ≠ []) (hplain : ∀ p ∈ headers, Plain p) :
    getLines (joined headers) = lines headers := by
  have hsplit : (joined headers).splitOn 10 = lines headers ∧ (lines headers).getLast? ≠ some [] := by
    induction headers with
    | nil => exact absurd rfl hne
    | cons p headers ih =>
      have hp := hplain p List.mem_cons_self
      have hfeed : (10 : UInt8) ∉ headerText p := notMem_headerText hp (by decide) (by decide)
      cases headers with
      | nil =>
        refine ⟨List.splitOn_eq_singleton hfeed, ?_⟩
        obtain ⟨c, cs, hcons, -⟩ := headerText_cons hp []
        rw [List.append_nil] at hcons
        rw [lines, hcons]
        simp
      | cons q headers =>
        obtain ⟨hrest, hlast⟩ := ih (by simp) (fun p hp => hplain p (List.mem_cons_of_mem _ hp))
        have hline : (10 : UInt8) ∉ headerText p ++ [13] := by
          rw [List.mem_append, not_or]
          exact ⟨hfeed, by decide⟩
        constructor
        · rw [joined, lines, ← hrest, ← List.splitOn_append_cons_self_of_not_mem hline, List.append_assoc]
          rfl
        · rw [lines, List.getLast?_cons_of_ne_nil]
          · exact hlast
          · cases headers <;> simp [lines]
  rw [getLines, hsplit.1]
  exact if_neg hsplit.2

lemma filter_plain {cs : List UInt8} (h : ∀ c ∈ cs, isSpace c = false) :
    cs.filter (fun c => !isSpace c) = cs := by
  rw [List.filter_eq_self]
  intro c hc
  rw [h c hc]
  rfl

/-- A line of the header, with a carriage return behind it or not. -/
lemma parseHeaders_line (h : Plain p) {cs : List UInt8} (hcs : cs.filter (fun c => !isSpace c) = [])
    (rest : List (List UInt8)) : parseHeaders ((headerText p ++ cs) :: rest) value hs =
      parseHeaders rest p.2 (hs.set p.1 p.2) := by
  have hmiddle : text ": " = [58, 32] := by decide
  have hline : headerText p ++ cs = p.1 ++ 58 :: (32 :: (p.2 ++ cs)) := by
    rw [headerText, hmiddle]
    simp
  have hkey : ∀ c ∈ p.1, decide (c ≠ 58) = true := fun c hc => decide_eq_true (h.name c hc).2
  have htake : (headerText p ++ cs).takeWhile (· ≠ 58) = p.1 := by
    rw [hline, List.takeWhile_append_of_pos hkey, List.takeWhile_cons_of_neg (by decide), List.append_nil]
  have hdrop : (headerText p ++ cs).dropWhile (· ≠ 58) = 58 :: (32 :: (p.2 ++ cs)) := by
    rw [hline, List.dropWhile_append_of_pos hkey, List.dropWhile_cons_of_neg (by decide)]
  have hmem : 58 ∈ headerText p ++ cs := by
    rw [hline]
    simp
  have hvalue : (32 :: (p.2 ++ cs)).filter (fun c => !isSpace c) = p.2 := by
    rw [List.filter_cons_of_neg (by decide), List.filter_append, hcs, filter_plain h.value, List.append_nil]
  rw [parseHeaders, if_pos hmem, htake, hdrop, List.drop_one, List.tail_cons,
    filter_plain (fun c hc => (h.name c hc).1), hvalue]

/-- The headers are set one after the other. -/
lemma parseHeaders_lines (hplain : ∀ p ∈ headers, Plain p) (value : List UInt8) (hs : Headers) :
    parseHeaders (lines headers) value hs = headers.foldl (fun hs p => hs.set p.1 p.2) hs := by
  induction headers generalizing value hs with
  | nil => rfl
  | cons p headers ih =>
    have hp := hplain p List.mem_cons_self
    have hrest := ih (fun p hp => hplain p (List.mem_cons_of_mem _ hp))
    cases headers with
    | nil =>
      have hline := @parseHeaders_line hs p value hp [] rfl []
      rw [List.append_nil] at hline
      exact hline
    | cons q headers =>
      rw [lines, parseHeaders_line hp (by decide), hrest]
      rfl

end Lines

/-! ### The start line -/

section StartLine

variable {token rest : List UInt8}

/-- A token ends at the next space, or with the stream. -/
lemma nextToken_token (hne : token ≠ []) (h : ∀ c ∈ token, isSpace c = false)
    (hrest : rest = [] ∨ ∃ cs, rest = 32 :: cs) : nextToken (token ++ rest) = (token, rest) := by
  have hdrop : (token ++ rest).dropWhile isSpace = token ++ rest := by
    cases token with
    | nil => exact absurd rfl hne
    | cons c cs => exact List.dropWhile_cons_of_neg (by simp [h c List.mem_cons_self])
  have hword : ∀ c ∈ token, (!isSpace c) = true := fun c hc => by simp [h c hc]
  rw [nextToken, hdrop, List.takeWhile_append_of_pos hword, List.dropWhile_append_of_pos hword]
  rcases hrest with rfl | ⟨cs, rfl⟩
  · simp
  · rw [List.takeWhile_cons_of_neg (by decide), List.dropWhile_cons_of_neg (by decide), List.append_nil]

lemma nextToken_space (s : List UInt8) : nextToken (32 :: s) = nextToken s := by
  rw [nextToken, nextToken, List.dropWhile_cons_of_pos (by decide)]

lemma method_token (m : HttpMethod) : m.toText ≠ [] ∧ ∀ c ∈ m.toText, isSpace c = false := by
  cases m <;> exact ⟨by decide, List.all_iff_forall_prop.mp (by decide)⟩

lemma stringToMethod_toText (m : HttpMethod) : stringToMethod m.toText = .ok m := by
  cases m <;> decide

end StartLine

/-! ### The requests that are parsed -/

namespace HttpRequest

variable {r : HttpRequest} {s : List UInt8}

/-- A request as the parser makes it. -/
structure Canonical (r : HttpRequest) : Prop where
  version : r.version = .http11
  path : r.uri.path ≠ []
  word : ∀ c ∈ r.uri.path, isSpace c = false
  sorted : Headers.Sorted r.headers
  plain : ∀ p ∈ r.headers, Plain p
  length : (text "Content-Length", toDecimal r.content.length) ∈ r.headers

/-- The text of a canonical request, cut at the ends of its lines. -/
lemma toText_eq (h : r.version = .http11) : r.toText =
    (r.method.toText ++ (32 :: (r.uri.path ++ (32 :: text "HTTP/1.1")))) ++ ([13, 10] ++
      (r.headers.flatMap (fun p => headerText p ++ [13, 10]) ++ ([13, 10] ++ r.content))) := by
  have hend : text "\r\n" = [13, 10] := by decide
  rw [toText, h, hend]
  simp only [List.append_assoc, headerText, List.cons_append, List.nil_append]
  rfl

/-- The text of a canonical request is parsed to the request. -/
lemma Canonical.stringToRequest (h : r.Canonical) : stringToRequest r.toText = .ok r := by
  obtain ⟨hmethod, hmethodSpace⟩ := method_token r.method
  have hversion : ∀ c ∈ text "HTTP/1.1", isSpace c = false := List.all_iff_forall_prop.mp (by decide)
  have hreturn : (13 : UInt8) ∉ r.method.toText ++ (32 :: (r.uri.path ++ (32 :: text "HTTP/1.1"))) := by
    simp only [List.mem_append, List.mem_cons, not_or]
    refine ⟨fun hmem => ?_, by decide, fun hmem => ?_, by decide, fun hmem => ?_⟩
    · exact absurd (hmethodSpace 13 hmem) (by decide)
    · exact absurd (h.word 13 hmem) (by decide)
    · exact absurd (hversion 13 hmem) (by decide)
  have hne : r.headers ≠ [] := by
    intro hnil
    have hlength := h.length
    rw [hnil] at hlength
    cases hlength
  have hstart := @splitFirst_append 13 [10] _ ([13, 10] ++
    (r.headers.flatMap (fun p => headerText p ++ [13, 10]) ++ ([13, 10] ++ r.content))) hreturn
  rw [splitFirst_self, Option.map_some, List.append_nil] at hstart
  have hheaders := splitFirst_headers hne h.plain r.content
  have hfirst := @nextToken_token r.method.toText (32 :: (r.uri.path ++ (32 :: text "HTTP/1.1"))) hmethod
    hmethodSpace (.inr ⟨_, rfl⟩)
  have hsecond := @nextToken_token r.uri.path (32 :: text "HTTP/1.1") h.path h.word (.inr ⟨_, rfl⟩)
  have hthird := @nextToken_token (text "HTTP/1.1") [] (by decide) hversion (.inl rfl)
  rw [List.append_nil] at hthird
  have hend : text "\r\n" = [13, 10] := by decide
  have hempty : text "\r\n\r\n" = [13, 10, 13, 10] := by decide
  have hparsed : parseHeaders (getLines (joined r.headers)) [] [] = r.headers := by
    rw [getLines_joined hne h.plain, parseHeaders_lines h.plain, Headers.foldl_set h.sorted]
  have huri : Uri.ofPath r.uri.path = r.uri := by
    have hlower := r.uri.lowercase
    cases hcases : r.uri with
    | mk path lowercase =>
      rw [hcases] at hlower
      simp only [Uri.ofPath]
      congr 1
  rw [PromEndp.stringToRequest, hend, hempty, toText_eq h.version, hstart]
  dsimp only
  rw [hheaders]
  dsimp only [Option.getD_some]
  rw [hfirst]
  dsimp only
  rw [nextToken_space, hsecond]
  dsimp only
  rw [nextToken_space, hthird]
  dsimp only
  rw [stringToMethod_toText]
  have hsupported : stringToVersion (text "HTTP/1.1") = .ok .http11 := by decide
  have hmessage : HttpMessage.setContent { headers := r.headers } r.content = r.toHttpMessage := by
    have hsame := h.version
    rw [HttpMessage.setContent, Headers.set_of_mem h.sorted h.length, ← hsame]
  rw [hsupported, hparsed, hmessage, huri]
  rfl

/-- The loop over the lines keeps the headers in order and free of white space. -/
lemma plain_parseHeaders (ls : List (List UInt8)) (value : List UInt8) {hs : Headers}
    (hsorted : Headers.Sorted hs) (hplain : ∀ p ∈ hs, Plain p) :
    Headers.Sorted (parseHeaders ls value hs) ∧ ∀ p ∈ parseHeaders ls value hs, Plain p := by
  induction ls generalizing value hs with
  | nil => exact ⟨hsorted, hplain⟩
  | cons line ls ih =>
    rw [parseHeaders]
    apply ih _ (hsorted.set _ _)
    intro p hp
    rcases Headers.mem_of_mem_set hp with hp | rfl
    · exact hplain p hp
    · refine ⟨fun c hc => ?_, fun c hc => ?_⟩
      · obtain ⟨hmem, hspace⟩ := List.mem_filter.mp hc
        exact ⟨by simpa using hspace, by simpa using List.mem_takeWhile_imp hmem⟩
      · simpa using (List.mem_filter.mp hc).2

lemma plain_length (n : Nat) : Plain (text "Content-Length", toDecimal n) := by
  have hname : ∀ c ∈ text "Content-Length", isSpace c = false ∧ c ≠ 58 :=
    List.all_iff_forall_prop.mp (by decide)
  exact ⟨hname, fun c hc => not_isSpace_of_isDigit (isDigit_of_mem_toDecimal hc)⟩

/-- A token that is a version stands behind a path. -/
lemma path_of_version {start : List UInt8} {version : HttpVersion}
    (h : stringToVersion (nextToken (nextToken start).2).1 = .ok version) : (nextToken start).1 ≠ [] := by
  intro hempty
  have hrest : (nextToken start).2 = [] := by
    simp only [nextToken] at hempty ⊢
    cases hdrop : start.dropWhile isSpace with
    | nil => rfl
    | cons c cs =>
      have hc : isSpace c = false := by
        have hhead := List.head?_dropWhile_not isSpace start
        simpa [hdrop] using hhead
      rw [hdrop, List.takeWhile_cons_of_pos (by simp [hc])] at hempty
      cases hempty
  have hnone : stringToVersion (nextToken []).1 =
      .error (.invalidArgument (text "Unexpected HTTP version")) := by decide
  rw [hrest, hnone] at h
  cases h

lemma isSpace_toLower {c : UInt8} (h : isSpace c = false) : isSpace (toLower c) = false := by
  rw [toLower]
  split_ifs with hupper
  · simp only [isSpace, decide_eq_false_iff_not, UInt8.le_iff_toNat_le, UInt8.toNat_add, UInt8.reduceToNat,
      ← UInt8.toNat_inj] at h hupper ⊢
    omega
  · exact h

/-- What is parsed is canonical. -/
lemma canonical_of_parsed (h : PromEndp.stringToRequest s = .ok r) : r.Canonical := by
  rw [PromEndp.stringToRequest] at h
  split at h
  · cases h
  next start rest hstart =>
    obtain ⟨method, hmethod, h⟩ := except_bind_eq_ok h
    obtain ⟨version, hversion, h⟩ := except_bind_eq_ok h
    split_ifs at h with hne
    · cases h
    · cases h
      obtain ⟨hsorted, hplain⟩ := plain_parseHeaders
        (getLines ((splitFirst (text "\r\n\r\n") rest).getD ([], [])).1) [] List.Pairwise.nil
        (fun p hp => by cases hp)
      refine ⟨rfl, ?_, ?_, hsorted.set _ _, ?_, Headers.mem_set _ _ _⟩
      · exact fun hnil => path_of_version hversion (List.map_eq_nil_iff.mp hnil)
      · intro c hc
        obtain ⟨d, hd, rfl⟩ := List.mem_map.mp hc
        have hword := List.mem_takeWhile_imp hd
        exact isSpace_toLower (by simpa using hword)
      · intro p hp
        rcases Headers.mem_of_mem_set hp with hp | rfl
        · exact hplain p hp
        · exact plain_length _

/-- The requests that are parsed to themselves are the canonical ones, and so are those that any text is
parsed to: what has been parsed is printed and parsed again without a change. -/
theorem parsed_iff_canonical (r : HttpRequest) :
    (PromEndp.stringToRequest r.toText = .ok r ↔ r.Canonical) ∧
      ((∃ s, PromEndp.stringToRequest s = .ok r) ↔ r.Canonical) :=
  ⟨⟨canonical_of_parsed, Canonical.stringToRequest⟩,
    ⟨fun ⟨_, h⟩ => canonical_of_parsed h, fun h => ⟨_, h.stringToRequest⟩⟩⟩

end HttpRequest

end PromEndp

end Dibibase
