import Dibibase.Api.ErrorHandling
import Dibibase.Api.MetadataBody
import Dibibase.Api.ResultSize

/-!
# The frames of a response

What a client finds in the bytes of a response when it goes from header to header by the lengths
that they give. The lengths are written by hand: that of a `SELECT` is cut to one byte, and those
of the two frames for a `CREATE TABLE` stand where the next header does not begin.
-/

namespace Dibibase

open Library

namespace ServerMsg

/-! ### Frames in an array -/

section Frames

/-- The number of bytes behind the header at `p`, which its last four bytes give. -/
def bodyLength (a : Nat → UInt8) (p : Nat) : Nat :=
  beValue [a (p + 5), a (p + 6), a (p + 7), a (p + 8)]

/-- From `p` up to `q` there are complete frames, with these starts. -/
inductive CompleteFrames (a : Nat → UInt8) : Nat → Nat → List Nat → Prop where
  | nil (p : Nat) : CompleteFrames a p p []
  | cons {p q : Nat} {starts : List Nat} (h : CompleteFrames a (p + 9 + bodyLength a p) q starts) :
      CompleteFrames a p q (p :: starts)

/-- From `p` up to `q` there are complete frames, which are all events. -/
def OnlyEvents (a : Nat → UInt8) (p q : Nat) : Prop :=
  ∃ starts, CompleteFrames a p q starts ∧ ∀ start ∈ starts, a (start + 4) = EVENT

/-- The first `n` bytes are complete frames, of which one is not an event; this one belongs to the
stream. -/
def WellFramed (streamId : UInt8 × UInt8) (a : Nat → UInt8) (n : Int) : Prop :=
  ∃ starts, CompleteFrames a 0 n.toNat starts ∧
    ∃ start, starts.filter (fun start => a (start + 4) ≠ EVENT) = [start] ∧
      (a (start + 2), a (start + 3)) = streamId

variable {a b : Nat → UInt8} {p q : Nat} {starts : List Nat}

lemma bodyLength_eq (a : Nat → UInt8) (p : Nat) :
    bodyLength a p = (a (p + 5)).toNat * 16777216 + (a (p + 6)).toNat * 65536 +
      (a (p + 7)).toNat * 256 + (a (p + 8)).toNat := by
  simp only [bodyLength, beValue, List.reverse_cons, List.reverse_nil, List.nil_append,
    List.cons_append, leValue]
  omega

lemma CompleteFrames.le (h : CompleteFrames a p q starts) : p ≤ q := by
  induction h with
  | nil => exact le_refl _
  | cons _ ih => omega

/-- Where bytes are left there is a frame. -/
lemma CompleteFrames.exists_cons (h : CompleteFrames a p q starts) (hlt : p < q) :
    ∃ rest, starts = p :: rest ∧ CompleteFrames a (p + 9 + bodyLength a p) q rest := by
  cases h with
  | nil => exact absurd hlt (lt_irrefl _)
  | cons h => exact ⟨_, rfl, h⟩

/-- Frames are where they are in an array that is copied to another place. -/
lemma CompleteFrames.shift {m n : Nat} (hcopy : ∀ k < n, a (m + k) = b k)
    (h : CompleteFrames b p q starts) (hn : q ≤ n) : CompleteFrames a (m + p) (m + q) (starts.map (m + ·)) := by
  induction h with
  | nil => exact .nil _
  | @cons p q starts h ih =>
    have hle := h.le
    have hlength : bodyLength a (m + p) = bodyLength b p := by
      simp only [bodyLength, Nat.add_assoc]
      rw [hcopy _ (by omega), hcopy _ (by omega), hcopy _ (by omega), hcopy _ (by omega)]
    refine .cons ?_
    rw [hlength]
    have hnext : m + (p + 9 + bodyLength b p) = m + p + 9 + bodyLength b p := by omega
    rw [← hnext]
    exact ih hn

lemma CompleteFrames.unshift {m n : Nat} (hcopy : ∀ k < n, a (m + k) = b k)
    (h : CompleteFrames a (m + p) (m + q) starts) (hn : q ≤ n) :
    ∃ starts', starts = starts'.map (m + ·) ∧ CompleteFrames b p q starts' := by
  generalize hfirst : m + p = first at h
  generalize hlast : m + q = last at h
  induction h generalizing p with
  | nil r =>
    have heq : p = q := by omega
    subst heq
    exact ⟨[], rfl, .nil p⟩
  | @cons r s starts h ih =>
    have hle := h.le
    subst hfirst hlast
    have hlength : bodyLength a (m + p) = bodyLength b p := by
      simp only [bodyLength, Nat.add_assoc]
      rw [hcopy _ (by omega), hcopy _ (by omega), hcopy _ (by omega), hcopy _ (by omega)]
    obtain ⟨starts', hstarts, hrest⟩ := @ih (p + 9 + bodyLength b p) (by rw [hlength]; omega) rfl
    exact ⟨p :: starts', by rw [hstarts, List.map_cons], .cons hrest⟩

lemma CompleteFrames.bounds (h : CompleteFrames a p q starts) : ∀ start ∈ starts, start + 9 ≤ q := by
  induction h with
  | nil => simp
  | cons h ih =>
    have hle := h.le
    rw [List.forall_mem_cons]
    exact ⟨by omega, ih⟩

lemma onlyEvents_shift {m n : Nat} (hcopy : ∀ k < n, a (m + k) = b k) (hn : q ≤ n) :
    OnlyEvents a (m + p) (m + q) ↔ OnlyEvents b p q := by
  have hopcode : ∀ start, start + 9 ≤ q → a (m + start + 4) = b (start + 4) := by
    intro start hstart
    rw [Nat.add_assoc, hcopy _ (by omega)]
  constructor
  · rintro ⟨starts, hcomplete, hevents⟩
    obtain ⟨starts', rfl, hcomplete'⟩ := hcomplete.unshift hcopy hn
    refine ⟨starts', hcomplete', ?_⟩
    intro start hstart
    rw [← hopcode start (hcomplete'.bounds start hstart)]
    exact hevents _ (List.mem_map_of_mem hstart)
  · rintro ⟨starts, hcomplete, hevents⟩
    refine ⟨_, hcomplete.shift hcopy hn, ?_⟩
    intro start hstart
    obtain ⟨start', hmem, rfl⟩ := List.mem_map.mp hstart
    rw [hopcode start' (hcomplete.bounds start' hmem)]
    exact hevents start' hmem

/-- Behind a header of the stream which is no event, only events may follow. -/
lemma wellFramed_iff {streamId : UInt8 × UInt8} {n : Int} (hn : 0 < n) (hevent : a 4 ≠ EVENT)
    (hstream : (a 2, a 3) = streamId) :
    WellFramed streamId a n ↔ OnlyEvents a (9 + bodyLength a 0) n.toNat := by
  constructor
  · rintro ⟨starts, hcomplete, start, hfilter, -⟩
    obtain ⟨rest, rfl, hrest⟩ := hcomplete.exists_cons (by omega)
    rw [Nat.zero_add] at hrest
    refine ⟨rest, hrest, ?_⟩
    rw [List.filter_cons_of_pos (by simpa using hevent), List.cons.injEq, List.filter_eq_nil_iff]
      at hfilter
    intro start hstart
    simpa using hfilter.2 start hstart
  · rintro ⟨rest, hrest, hevents⟩
    refine ⟨0 :: rest, .cons (by rwa [Nat.zero_add]), 0, ?_, hstream⟩
    rw [List.filter_cons_of_pos (by simpa using hevent), List.cons.injEq, List.filter_eq_nil_iff]
    refine ⟨rfl, ?_⟩
    intro start hstart
    simpa using hevents start hstart

/-- A message of one frame. -/
lemma wellFramed_single {streamId : UInt8 × UInt8} {n : Int} (hevent : a 4 ≠ EVENT)
    (hstream : (a 2, a 3) = streamId) (hn : n = 9 + bodyLength a 0) : WellFramed streamId a n := by
  refine (wellFramed_iff (by omega) hevent hstream).mpr ⟨[], ?_, by simp⟩
  have hend : n.toNat = 9 + bodyLength a 0 := by omega
  rw [hend]
  exact .nil _

end Frames

/-! ### Requests -/

section Requests

/-- The text of the request is one statement, whose execution gives back the string. -/
structure Executes (env : Environment) (f : Frame) (st : Server × Posix Path) (stmt : CqlStatement)
    (recordStr : List UInt8) (st' : Server × Posix Path) : Prop where
  opcode : f.opcode = QUERY
  semicolon : 59 ∈ extractQuery false (f.body.getD [])
  executed : ∃ query cql,
    restoreQuery (cutQuery (extractQuery false (f.body.getD []))) = .ok query ∧
    env.root query = [cql] ∧ CQL3Visitor.visitCql env.strtold cql = .ok stmt ∧
    QueryProcessor.process env.config Server.onStore (reply env)
      (StatementParser.process env.root env.strtold) query st = .ok recordStr st'

/-- The response and the array, before a response is made to a statement. -/
abbrev unanswered (env : Environment) (f : Frame) : Response := ⟨9, resultHeader env f, env.stack⟩

/-- The response to the executed statement is made. -/
def Responds (env : Environment) (f : Frame) (recordStr : List UInt8) (st : Server × Posix Path) :
    CqlStatement → Prop
  | .createTable keyspace table schema => ∃ r st',
    respondCreateTable (f.version + 0x80) keyspace table schema (unanswered env f) st = .ok r st'
  | .insert _ _ _ _ => ∃ r st', respondInsert (unanswered env f) st = .ok r st'
  | .select keyspace table _ => ∃ r st',
    respondSelect keyspace table recordStr (unanswered env f) st = .ok r st'

/-- What a request asks for; of a statement, what it gives back and the databases behind it. -/
inductive Request where
  | options
  | ready
  | metadata (answer : Metadata.Answer)
  | statement (stmt : CqlStatement) (recordStr : List UInt8) (st : Server × Posix Path)

/-- The request is one of those that are answered, and a statement is executed successfully. -/
inductive Answered (env : Environment) (f : Frame) (st : Server × Posix Path) : Request → Prop where
  | options (hopcode : f.opcode = OPTIONS) : Answered env f st .options
  | ready (hopcode : f.opcode = STARTUP ∨ f.opcode = REGISTER) : Answered env f st .ready
  | metadata {answer : Metadata.Answer} (hopcode : f.opcode = QUERY)
      (hsemicolon : 59 ∉ extractQuery false (f.body.getD []))
      (hanswer : Metadata.answer (extractQuery false (f.body.getD [])) = some answer) :
      Answered env f st (.metadata answer)
  | statement {stmt : CqlStatement} {recordStr : List UInt8} {st' : Server × Posix Path}
      (hexecutes : Executes env f st stmt recordStr st')
      (hresponds : Responds env f recordStr st' stmt) :
      Answered env f st (.statement stmt recordStr st')

/-- The length of the body of a result fits into one byte; or what stands behind the bytes that are
counted happens to be events. -/
def FitsByte (size : Int) (body : Nat → UInt8) : Prop :=
  0 ≤ size ∧ (size < 256 ∨ OnlyEvents body (size.toNat % 256) size.toNat)

/-- The requests whose responses are frames. -/
def Request.Framed : Request → Prop
  | .options | .ready | .metadata _ => True
  | .statement (.createTable _ _ _) _ _ => False
  | .statement (.insert _ _ _ _) _ _ => True
  | .statement (.select keyspace table _) recordStr st =>
    ∃ tm values, OrderedMap.find nameLt table st.1.db.tableManagers = .ok (some tm) ∧
      QueryResult.recordValues recordStr = .ok values ∧
      ∀ memory size body,
        QueryResult.selectResult keyspace table tm.schema recordStr memory = .ok size body →
          FitsByte (QueryResult.selectSize keyspace table tm.schema.fields values) body

variable {env : Environment} {f : Frame} {st st' st'' : Server × Posix Path} {stmt : CqlStatement}
  {recordStr : List UInt8} {r : Response}

/-- What stands in the memory does not matter for the execution. -/
lemma Executes.memory (h : Executes env f st stmt recordStr st') (stack header : Nat → UInt8) :
    Executes { env with stack := stack, header := header } f st stmt recordStr st' :=
  ⟨h.opcode, h.semicolon, h.executed⟩

lemma createResponse_executes (h : Executes env f st stmt recordStr st')
    (hrespond : respond (f.version + 0x80) recordStr (unanswered env f) stmt st' = .ok r st'') :
    createResponse env f st = .ok (r.msgLength, r.header) st'' := by
  obtain ⟨query, cql, hquery, hroot, hvisit, hprocess⟩ := h.executed
  have hstatements := Method.ofExcept_ok (visit_ok hroot hvisit) st
  have hloop : [stmt].foldlM (respond (f.version + 0x80) recordStr) (unanswered env f) =
      respond (f.version + 0x80) recordStr (unanswered env f) stmt := by
    simp
  have hexecute : execute env (f.version + 0x80) query (unanswered env f) st = .ok r st'' := by
    unfold execute
    rw [bind_of_ok hstatements, bind_of_ok hprocess, hloop]
    exact hrespond
  rw [createResponse_statement h.opcode (parserText_eq_some.mpr ⟨h.semicolon, hquery⟩)]
  exact bind_of_ok (tryCatch_of_ok hexecute)

end Requests

/-! ### The frames of one branch -/

section Branches

variable {env : Environment} {f : Frame} {st st' : Server × Posix Path}

lemma write_of_lt {start : Nat} {bytes : List UInt8} {h : Header} {i : Nat} (hi : i < start) :
    write start bytes h i = h i := if_neg (by omega)

lemma write_getElem {start : Nat} {bytes : List UInt8} {h : Header} {k : Nat}
    (hk : k < bytes.length) : write start bytes h (start + k) = bytes[k] := by
  rw [write, if_pos (by omega), Nat.add_sub_cancel_left, List.getElem?_eq_getElem hk,
    Option.getD_some]

lemma write_of_le {start : Nat} {bytes : List UInt8} {h : Header} {i : Nat}
    (hi : start + bytes.length ≤ i) : write start bytes h i = h i := by
  rw [write, List.getElem?_eq_none (by omega), Option.getD_none, ite_self]

lemma copy_of_lt {start n : Nat} {array : Nat → UInt8} {h : Header} {i : Nat} (hi : i < start) :
    copy start n array h i = h i := if_neg (by omega)

lemma copy_of_le {start n : Nat} {array : Nat → UInt8} {h : Header} {i : Nat}
    (hi : start + n ≤ i) : copy start n array h i = h i := if_neg (by omega)

lemma copy_add {start n : Nat} {array : Nat → UInt8} {h : Header} {k : Nat} (hk : k < n) :
    copy start n array h (start + k) = array k := by
  rw [copy, if_pos (by omega), Nat.add_sub_cancel_left]

/-- A header that is written with a length of one byte. -/
lemma bodyLength_write (opcode n : UInt8) (bytes : List UInt8) (h : Header) :
    bodyLength (write 4 ([opcode, 0, 0, 0, n] ++ bytes) h) 0 = n.toNat := by
  rw [bodyLength_eq]
  simp [write]

lemma wellFramed_options (hopcode : f.opcode = OPTIONS) (st : Server × Posix Path) :
    ∃ n H st', createResponse env f st = .ok (n, H) st' ∧ WellFramed f.streamId H n := by
  refine ⟨_, _, st, by simp only [createResponse, if_pos hopcode]; rfl, ?_⟩
  apply wellFramed_single
  · exact (by decide : SUPPORTED ≠ EVENT)
  · rfl
  · have hlength : (supportedBytes supportedOptions).length < 256 := by decide
    rw [bodyLength_write, UInt8.toNat_ofNat_of_lt' hlength]

lemma wellFramed_ready (hopcode : f.opcode = STARTUP ∨ f.opcode = REGISTER)
    (st : Server × Posix Path) :
    ∃ n H st', createResponse env f st = .ok (n, H) st' ∧ WellFramed f.streamId H n := by
  have hne : f.opcode ≠ OPTIONS := by
    rcases hopcode with h | h <;> rw [h] <;> decide
  refine ⟨_, _, st, by simp only [createResponse, if_neg hne, if_pos hopcode]; rfl, ?_⟩
  apply wellFramed_single
  · exact (by decide : READY ≠ EVENT)
  · rfl
  · have hlength := bodyLength_write READY 0 [] (write 0 [f.version + 0x80, f.flags, f.streamId.1,
      f.streamId.2] env.header)
    rw [List.append_nil] at hlength
    rw [hlength]
    rfl

/-! #### Metadata -/

/-- The first four bytes of an answer are the length of what is copied behind them. -/
lemma metaResult_length (staticTables : Metadata.StaticTable → Nat → UInt8) (stack : Nat → UInt8)
    {query : List UInt8} {answer : Metadata.Answer} (hanswer : Metadata.answer query = some answer) :
    (Metadata.metaResult staticTables stack query).1 =
      9 + beValue ((List.range 4).map (Metadata.metaResult staticTables stack query).2) := by
  rw [Metadata.metaResult, hanswer]
  cases answer with
  | static table =>
    have hfirst : (List.range 4).map (Metadata.fill table.head (staticTables table)) = table.head := by
      cases table <;> rfl
    have hlength : table.msgLength = 9 + beValue table.head := by cases table <;> decide
    dsimp only
    rw [hfirst, hlength]
  | generated table =>
    have hsize : table.size < 2 ^ 24 := by
      have hcontent := MetadataBody.length_content_lt table
      cases table <;> simp only [Metadata.GeneratedTable.size] <;> omega
    have hbytes := MetadataBody.totalSize_bytes hsize
    have hfirst : (List.range 4).map (Metadata.fill (Metadata.totalSize table.size ++ table.content)
        stack) = beBytes 4 table.size := by
      rw [hbytes]
      rfl
    dsimp only
    rw [hfirst, beValue_beBytes, Nat.mod_eq_of_lt (by omega)]
    omega

/-- A length that is copied with the bytes behind it. -/
lemma bodyLength_copy {n : Nat} (hn : 4 ≤ n) (array : Nat → UInt8) (h : Header) :
    bodyLength (copy 5 n array h) 0 = beValue ((List.range 4).map array) := by
  have h₀ := @copy_add 5 n array h 0 (by omega)
  have h₁ := @copy_add 5 n array h 1 (by omega)
  have h₂ := @copy_add 5 n array h 2 (by omega)
  have h₃ := @copy_add 5 n array h 3 (by omega)
  simp only [bodyLength, Nat.zero_add]
  rw [h₀, h₁, h₂, h₃]
  rfl

lemma wellFramed_metadata {answer : Metadata.Answer} (hopcode : f.opcode = QUERY)
    (hsemicolon : 59 ∉ extractQuery false (f.body.getD []))
    (hanswer : Metadata.answer (extractQuery false (f.body.getD [])) = some answer)
    (st : Server × Posix Path) :
    ∃ n H st', createResponse env f st = .ok (n, H) st' ∧ WellFramed f.streamId H n := by
  have hlength := metaResult_length env.staticTables env.stack hanswer
  refine ⟨_, _, st, createResponse_metadata hopcode hsemicolon, ?_⟩
  apply wellFramed_single
  · rw [copy_of_lt (by omega)]
    exact (by decide : RESULT ≠ EVENT)
  · rw [copy_of_lt (by omega), copy_of_lt (by omega)]
    rfl
  · rw [bodyLength_copy (by omega), hlength]
    push_cast
    rfl

/-! #### INSERT and SELECT -/

lemma wellFramed_insert {keyspace table recordStr : List UInt8} {columns : List (List UInt8)}
    {values : List Data}
    (hexecutes : Executes env f st (.insert keyspace table columns values) recordStr st') :
    ∃ n H st'', createResponse env f st = .ok (n, H) st'' ∧ WellFramed f.streamId H n := by
  obtain ⟨body, hinsert, h₀, h₁, h₂, h₃⟩ := QueryResult.insertRecord_ok env.stack
  have hrespond : respond (f.version + 0x80) recordStr (unanswered env f)
      (.insert keyspace table columns values) st' =
        .ok ⟨8 + 5, copy 5 (8 : Int).toNat body (resultHeader env f), body⟩ st' :=
    tryCatch_of_ok (respondInsert_ok hinsert)
  refine ⟨_, _, st', createResponse_executes hexecutes hrespond, ?_⟩
  apply wellFramed_single
  · exact (by decide : RESULT ≠ EVENT)
  · rfl
  · have hfirst : (List.range 4).map body = [0, 0, 0, 4] := by
      change [body 0, body 1, body 2, body 3] = _
      rw [h₀, h₁, h₂, h₃]
    rw [bodyLength_copy (by decide), hfirst]
    rfl

/-- The body of a result behind a header with its length cut to one byte. -/
lemma wellFramed_select_iff (size : Int) (body : Nat → UInt8) :
    WellFramed f.streamId (copy 9 size.toNat body
      (write 5 [0, 0, 0, UInt8.ofInt size] (resultHeader env f))) (size + 9) ↔
        FitsByte size body := by
  generalize hH : copy 9 size.toNat body
    (write 5 [0, 0, 0, UInt8.ofInt size] (resultHeader env f)) = H
  have hstart : ∀ i < 5, H i = resultHeader env f i := by
    intro i hi
    rw [← hH, copy_of_lt (by omega), write_of_lt hi]
  have hcopy : ∀ k < size.toNat, H (9 + k) = body k := by
    intro k hk
    rw [← hH, copy_add hk]
  by_cases hsize : 0 ≤ size
  · have hlength : bodyLength H 0 = size.toNat % 256 := by
      have hbyte : (UInt8.ofInt size).toNat = size.toNat % 256 := by
        obtain ⟨n, rfl⟩ := Int.eq_ofNat_of_zero_le hsize
        rw [ofInt_natCast, UInt8.toNat_ofNat']
        rfl
      rw [bodyLength_eq, ← hH]
      simpa [copy, write] using hbyte
    have hevent : H 4 ≠ EVENT := by
      rw [hstart 4 (by omega)]
      exact (by decide : RESULT ≠ EVENT)
    have hstream : (H 2, H 3) = f.streamId := by
      rw [hstart 2 (by omega), hstart 3 (by omega)]
      rfl
    have hend : (size + 9).toNat = 9 + size.toNat := by omega
    rw [wellFramed_iff (by omega) hevent hstream, hlength, hend, onlyEvents_shift hcopy le_rfl,
      FitsByte, and_iff_right hsize]
    constructor
    · exact .inr
    · rintro (hlt | hevents)
      · rw [Nat.mod_eq_of_lt (by omega)]
        exact ⟨[], .nil _, by simp⟩
      · exact hevents
  · refine iff_of_false ?_ (fun h => hsize h.1)
    rintro ⟨starts, hcomplete, start, hfilter, -⟩
    cases starts with
    | nil => simp at hfilter
    | cons first rest =>
      have hbound := hcomplete.bounds first (by simp)
      omega

lemma onBody_inv {α : Type} {m : BodyM α} {a : α} {body body' : Nat → UInt8}
    (h : onBody m body st = .ok (a, body') st') : m body = .ok a body' := by
  cases hm : m body with
  | ok a' body₁ =>
    rw [onBody_ok hm] at h
    cases h
    rfl
  | error e body₁ =>
    rw [onBody_error hm] at h
    cases h

lemma respondSelect_inv {keyspace table recordStr : List UInt8} {r r' : Response}
    (h : respondSelect keyspace table recordStr r st = .ok r' st') : ∃ tm size body,
      OrderedMap.find nameLt table st.1.db.tableManagers = .ok (some tm) ∧
        QueryResult.selectResult keyspace table tm.schema recordStr r.body = .ok size body := by
  obtain ⟨found, hfind⟩ := OrderedMap.find_total ordersOn_nameLt (Set.mem_univ table)
    st.1.db.tableManagers (fun _ _ => Set.mem_univ _)
  unfold respondSelect at h
  rw [bind_of_ok (get_apply st), bind_of_ok (Method.ofExcept_ok hfind st)] at h
  cases found with
  | none => cases h
  | some tm =>
    obtain ⟨⟨size, body⟩, _, hbody, -⟩ := bind_eq_ok h
    exact ⟨tm, size, body, hfind, onBody_inv hbody⟩

lemma wellFramed_select {keyspace table recordStr : List UInt8} {relations : List RelationElement}
    (hexecutes : Executes env f st (.select keyspace table relations) recordStr st')
    (hresponds : Responds env f recordStr st' (.select keyspace table relations)) :
    (∀ stack header, ∃ n H st'',
      createResponse { env with stack := stack, header := header } f st = .ok (n, H) st'' ∧
        WellFramed f.streamId H n) ↔
      (Request.statement (.select keyspace table relations) recordStr st').Framed := by
  obtain ⟨r, st'', hrespond⟩ := hresponds
  obtain ⟨tm, size, body, hfind, hselect⟩ := respondSelect_inv hrespond
  obtain ⟨values, hvalues, hsize⟩ := QueryResult.selectResult_size hselect
  -- Whatever stands in the memory, a result of this size is made.
  have hrun : ∀ stack header, ∃ body,
      QueryResult.selectResult keyspace table tm.schema recordStr stack = .ok size body ∧
      ∀ n H st'', createResponse { env with stack := stack, header := header } f st =
          .ok (n, H) st'' ↔
        n = size + 9 ∧ H = copy 9 size.toNat body (write 5 [0, 0, 0, UInt8.ofInt size]
          (resultHeader { env with stack := stack, header := header } f)) ∧ st'' = st' := by
    intro stack header
    obtain ⟨body', hselect'⟩ := QueryResult.Alike.selectResult keyspace table tm.schema recordStr
      env.stack _ _ hselect stack
    refine ⟨body', hselect', ?_⟩
    intro n H st''
    have hrespond' : respond (f.version + 0x80) recordStr
        (unanswered { env with stack := stack, header := header } f)
        (.select keyspace table relations) st' = _ := respondSelect_ok hfind hselect'
    rw [createResponse_executes (hexecutes.memory stack header) hrespond']
    constructor
    · intro h
      cases h
      exact ⟨rfl, rfl, rfl⟩
    · rintro ⟨rfl, rfl, rfl⟩
      rfl
  constructor
  · intro h
    refine ⟨tm, values, hfind, hvalues, ?_⟩
    intro memory size body' hselect'
    obtain ⟨body₁, hselect₁, hcreate⟩ := hrun memory env.header
    obtain ⟨n, H, st₁, hresponse, hframed⟩ := h memory env.header
    obtain ⟨rfl, rfl, -⟩ := (hcreate n H st₁).mp hresponse
    rw [hselect₁] at hselect'
    cases hselect'
    rw [← hsize]
    exact (wellFramed_select_iff _ _).mp hframed
  · rintro ⟨tm', values', hfind', hvalues', hfits⟩ stack header
    rw [hfind] at hfind'
    rw [hvalues] at hvalues'
    cases hfind'
    cases hvalues'
    obtain ⟨body₁, hselect₁, hcreate⟩ := hrun stack header
    have hframed := hfits _ _ _ hselect₁
    rw [← hsize] at hframed
    exact ⟨_, _, _, (hcreate _ _ _).mpr ⟨rfl, rfl, rfl⟩, (wellFramed_select_iff _ _).mpr hframed⟩

end Branches

/-! ### The two frames for CREATE TABLE -/

section CreateTable

lemma one_le_toNat {c : UInt8} (h : c ≠ 0) : 1 ≤ c.toNat := by
  have hne : c.toNat ≠ 0 := fun hzero => h (UInt8.toNat_inj.mp hzero)
  omega

/-- Of the body of the result, whose two names have `a` and `b` bytes, no four bytes from the one with
index `6 + 256 * m` on are a length of what is left: one of them is a character or lies behind the
body, or they have the length of a name in front. -/
lemma length_beyond {c : Nat → UInt8} {a b m : Nat} (hm : 1 ≤ m) (hfit : a + b ≤ 3458)
    (hin : 256 * m ≤ 17 + a + b) (hkeyspace : ∀ k < a, c (22 + k) ≠ 0)
    (htable : ∀ k < b, c (24 + a + k) ≠ 0)
    (hlength : if b = 256 then 18 ≤ a → c (22 + a) ≠ 0
      else c (22 + a) = UInt8.ofNat (b / 256) ∧ c (22 + a + 1) = UInt8.ofNat b)
    (hend : ∀ k, 24 + a + b ≤ k → k < 27 + a + b → c k = 255) :
    17 + a + b < 256 * m + ((c (6 + 256 * m)).toNat * 16777216 + (c (7 + 256 * m)).toNat * 65536 +
      (c (8 + 256 * m)).toNat * 256 + (c (9 + 256 * m)).toNat) := by
  rcases lt_or_ge (6 + 256 * m) (22 + a) with hname | hname
  · have hchar := one_le_toNat (hkeyspace (256 * m - 16) (by omega))
    rw [show 22 + (256 * m - 16) = 6 + 256 * m by omega] at hchar
    omega
  rcases eq_or_lt_of_le hname with hfirst | hname
  · rw [← hfirst, show 7 + 256 * m = 22 + a + 1 by omega, show 8 + 256 * m = 24 + a by omega]
    by_cases hb : b = 256
    · rw [if_pos hb] at hlength
      have hchar := one_le_toNat (hlength (by omega))
      omega
    · rw [if_neg hb] at hlength
      rw [hlength.1, hlength.2, UInt8.toNat_ofNat', UInt8.toNat_ofNat']
      rcases Nat.eq_zero_or_pos b with rfl | hpos
      · rw [hend (24 + a) (by omega) (by omega)]
        have h255 : (255 : UInt8).toNat = 255 := rfl
        omega
      · omega
  rcases eq_or_lt_of_le (Nat.succ_le_of_lt hname) with hsecond | hname
  · rw [show 7 + 256 * m = 24 + a by omega]
    rcases Nat.eq_zero_or_pos b with rfl | hpos
    · rw [hend (24 + a) (by omega) (by omega)]
      have h255 : (255 : UInt8).toNat = 255 := rfl
      omega
    · have hchar := one_le_toNat (htable 0 hpos)
      rw [Nat.add_zero] at hchar
      omega
  · have hchar := one_le_toNat (htable (256 * m - 18 - a) (by omega))
    rw [show 24 + a + (256 * m - 18 - a) = 6 + 256 * m by omega] at hchar
    omega

/-- The first length is one too large, or is not written where it is 256. So the second header is
read one byte too late, and its length is a multiple of 256. What stands at the end of that is no
header: it is a letter of the body or one of the places of the last lemma. -/
lemma not_complete {H : Header} {a b : Nat} {starts : List Nat} (hfit : a + b ≤ 3458)
    (hfirst : if 36 + a + b = 256 then bodyLength H 0 = 0 ∧ H 14 ≠ 0
      else bodyLength H 0 = 36 + a + b)
    (hsecond : bodyLength H (45 + a + b) = 256 * ((24 + a + b) % 256))
    (hletter : H (53 + a + b + 6) ≠ 0)
    (hkeyspace : ∀ k < a, H (53 + a + b + (22 + k)) ≠ 0)
    (htable : ∀ k < b, H (53 + a + b + (24 + a + k)) ≠ 0)
    (hlength : if b = 256 then 18 ≤ a → H (53 + a + b + (22 + a)) ≠ 0
      else H (53 + a + b + (22 + a)) = UInt8.ofNat (b / 256) ∧
        H (53 + a + b + (22 + a + 1)) = UInt8.ofNat b)
    (hend : ∀ k, 24 + a + b ≤ k → k < 27 + a + b → H (53 + a + b + k) = 255) :
    ¬CompleteFrames H 0 (80 + 2 * (a + b)) starts := by
  intro h
  obtain ⟨_, -, h⟩ := h.exists_cons (by omega)
  by_cases hunset : 36 + a + b = 256
  · rw [if_pos hunset] at hfirst
    rw [hfirst.1] at h
    obtain ⟨_, -, h⟩ := h.exists_cons (by omega)
    have hle := h.le
    have hchar := one_le_toNat hfirst.2
    rw [bodyLength_eq] at hle
    norm_num at hle
    omega
  · rw [if_neg hunset] at hfirst
    rw [hfirst, show 0 + 9 + (36 + a + b) = 45 + a + b by omega] at h
    obtain ⟨_, -, h⟩ := h.exists_cons (by omega)
    have hle := h.le
    rw [hsecond] at h hle
    obtain ⟨_, -, h⟩ := h.exists_cons (by omega)
    have hle' := h.le
    rw [bodyLength_eq] at hle'
    generalize hm : (24 + a + b) % 256 = m at hle hle'
    rcases Nat.eq_zero_or_pos m with rfl | hpos
    · have hchar := one_le_toNat hletter
      rw [show 53 + a + b + 6 = 45 + a + b + 9 + 256 * 0 + 5 by omega] at hchar
      omega
    · have hbeyond := @length_beyond (fun k => H (53 + a + b + k)) a b m hpos hfit (by omega)
        hkeyspace htable hlength hend
      simp only [show 53 + a + b + (6 + 256 * m) = 45 + a + b + 9 + 256 * m + 5 by omega,
        show 53 + a + b + (7 + 256 * m) = 45 + a + b + 9 + 256 * m + 6 by omega,
        show 53 + a + b + (8 + 256 * m) = 45 + a + b + 9 + 256 * m + 7 by omega,
        show 53 + a + b + (9 + 256 * m) = 45 + a + b + 9 + 256 * m + 8 by omega] at hbeyond
      omega

variable {env : Environment} {f : Frame} {st st' : Server × Posix Path}
  {keyspace table recordStr : List UInt8} {schema : Schema}

lemma respondCreateTable_inv {version : UInt8} {r r' : Response} (hkeyspace : keyspace.length < 2 ^ 31)
    (htable : table.length < 2 ^ 31)
    (h : respondCreateTable version keyspace table schema r st = .ok r' st') :
    keyspace.length + table.length ≤ 3458 := by
  obtain ⟨_, st₁, -, h⟩ := bind_eq_ok h
  obtain ⟨⟨size, body⟩, st₂, hchange, -⟩ := bind_eq_ok h
  have hfit := QueryResult.schemaChange_inv hkeyspace htable (onBody_inv hchange)
  omega

/-- The array after the two frames have been written, where the names have `a` and `b` bytes. -/
def createArray (version streamId : UInt8) (a b : Nat) (body₁ body₂ : Nat → UInt8) (h : Header) :
    Header :=
  copy (42 + a + b + 11) (24 + a + b) body₂
    (write (42 + a + b + 7) [0, 0, 0, UInt8.ofNat (24 + a + b)]
      (write (42 + a + b + 2) [version, 0, 0, streamId, 8] (copy 2 (42 + a + b) body₁ h)))

section Array

variable {version streamId : UInt8} {a b k : Nat} {body₁ body₂ : Nat → UInt8} {h : Header}

lemma createArray_event (hk : k < 42 + a + b) :
    createArray version streamId a b body₁ body₂ h (2 + k) = body₁ k := by
  rw [createArray, copy_of_lt (by omega), write_of_lt (by omega), write_of_lt (by omega),
    copy_add hk]

lemma createArray_length (hk : k < 4) :
    createArray version streamId a b body₁ body₂ h (49 + a + b + k) =
      [0, 0, 0, UInt8.ofNat (24 + a + b)][k] := by
  rw [createArray, show 49 + a + b + k = 42 + a + b + 7 + k by omega, copy_of_lt (by omega),
    write_getElem (by simpa using hk)]

lemma createArray_result (hk : k < 24 + a + b) :
    createArray version streamId a b body₁ body₂ h (53 + a + b + k) = body₂ k := by
  rw [createArray, show 53 + a + b + k = 42 + a + b + 11 + k by omega, copy_add hk]

/-- Three bytes of the message are not written. -/
lemma createArray_behind (hk : 24 + a + b ≤ k) :
    createArray version streamId a b body₁ body₂ h (53 + a + b + k) = h (53 + a + b + k) := by
  rw [createArray, copy_of_le (by omega), write_of_le (by simp; omega), write_of_le (by simp; omega),
    copy_of_le (by omega)]

lemma bodyLength_event :
    bodyLength (createArray version streamId a b body₁ body₂ h) 0 =
      (body₁ 3).toNat * 16777216 + (body₁ 4).toNat * 65536 + (body₁ 5).toNat * 256 +
        (body₁ 6).toNat := by
  rw [bodyLength_eq]
  iterate 4 rw [← @createArray_event version streamId a b _ body₁ body₂ h (by omega)]

/-- The last byte of the length is read as the one before it. -/
lemma bodyLength_result (hzero : body₂ 0 = 0) :
    bodyLength (createArray version streamId a b body₁ body₂ h) (45 + a + b) =
      256 * ((24 + a + b) % 256) := by
  have h₁ := @createArray_length version streamId a b 1 body₁ body₂ h (by omega)
  have h₂ := @createArray_length version streamId a b 2 body₁ body₂ h (by omega)
  have h₃ := @createArray_length version streamId a b 3 body₁ body₂ h (by omega)
  have h₄ := @createArray_result version streamId a b 0 body₁ body₂ h (by omega)
  rw [hzero] at h₄
  rw [bodyLength_eq, show 45 + a + b + 5 = 49 + a + b + 1 by omega, h₁,
    show 45 + a + b + 6 = 49 + a + b + 2 by omega, h₂,
    show 45 + a + b + 7 = 49 + a + b + 3 by omega, h₃,
    show 45 + a + b + 8 = 53 + a + b + 0 by omega, h₄]
  have hz : (0 : UInt8).toNat = 0 := rfl
  simp only [List.getElem_cons_succ, List.getElem_cons_zero, UInt8.toNat_ofNat', hz]
  omega

end Array

/-- In an array of 255s the two frames are not complete, if the stack holds zeros. -/
lemma not_complete_createTable {h : Header} {version streamId : UInt8}
    {body₁ body₂ : Nat → UInt8} {starts : List Nat}
    (hfit : keyspace.length + table.length ≤ 3458) (hkeyspace : ∀ c ∈ keyspace, c ≠ 0)
    (htable : ∀ c ∈ table, c ≠ 0)
    (hchange : QueryResult.schemaChange keyspace table (fun _ => 0) =
      .ok ((42 + keyspace.length + table.length : Nat) : Int) body₁)
    (hcreate : QueryResult.createTable keyspace table body₁ =
      .ok ((24 + keyspace.length + table.length : Nat) : Int) body₂)
    (hh : ∀ i, 5 ≤ i → h i = 255) :
    ¬CompleteFrames (createArray version streamId keyspace.length table.length body₁ body₂ h) 0
      (80 + 2 * (keyspace.length + table.length)) starts := by
  obtain ⟨body₁', hchange', hnames₁, hletter₁, hlength₁⟩ :=
    @QueryResult.schemaChange_ok keyspace table (by omega) (fun _ => 0)
  rw [hchange] at hchange'
  cases hchange'
  obtain ⟨body₂', hcreate', hzero, hletter₂, hnames₂, htables₂, hlength₂⟩ :=
    @QueryResult.createTable_ok keyspace table (by omega) body₁
  rw [hcreate] at hcreate'
  cases hcreate'
  refine not_complete hfit ?_ (bodyLength_result hzero) ?_ ?_ ?_ ?_ ?_
  · have hz : (0 : UInt8).toNat = 0 := rfl
    rw [bodyLength_event]
    by_cases hunset : 36 + keyspace.length + table.length = 256
    · rw [if_pos hunset] at hlength₁ ⊢
      rw [hlength₁ 3 (by omega) (by omega), hlength₁ 4 (by omega) (by omega),
        hlength₁ 5 (by omega) (by omega), hlength₁ 6 (by omega) (by omega)]
      refine ⟨by rw [hz], ?_⟩
      rw [@createArray_event _ _ _ _ 12 _ _ _ (by omega), hletter₁]
      decide
    · rw [if_neg hunset] at hlength₁ ⊢
      obtain ⟨h₃, h₄, h₅, h₆⟩ := hlength₁
      rw [h₃, h₄, h₅, h₆, hz, UInt8.toNat_ofNat', UInt8.toNat_ofNat']
      omega
  · rw [createArray_result (by omega), hletter₂]
    decide
  · intro k hk
    rw [createArray_result (by omega), hnames₂ k hk]
    exact hkeyspace _ (List.getElem_mem hk)
  · intro k hk
    rw [createArray_result (by omega), htables₂ k hk]
    exact htable _ (List.getElem_mem hk)
  · rw [createArray_result (by omega), createArray_result (by omega)]
    by_cases hunset : table.length = 256
    · rw [if_pos hunset] at hlength₂ ⊢
      intro hlong
      rw [hlength₂ hlong, show 22 + keyspace.length = 40 + (keyspace.length - 18) by omega,
        hnames₁ _ (by omega)]
      exact hkeyspace _ (List.getElem_mem _)
    · rw [if_neg hunset] at hlength₂ ⊢
      exact hlength₂
  · intro k hk _
    rw [createArray_behind hk, hh _ (by omega)]

lemma length_body_le (f : Frame) : (f.body.getD []).length ≤ f.maxSize - 9 := by
  unfold Frame.body
  split_ifs
  · simp
  · simp

/-- The parser takes the names of a table from the text that it is given. -/
def TakesNames (env : Environment) (f : Frame) : Prop :=
  ∀ query ctx, parserText (f.body.getD []) = some query → .createTable ctx ∈ env.root query →
    ctx.keyspace.getD [] <:+: query ∧ ctx.table <:+: query

/-- The names of a table are parts of the text that the parser reads. -/
lemma names_of_executes
    (hexecutes : Executes env f st (.createTable keyspace table schema) recordStr st')
    (hsize : f.maxSize < 2 ^ 31)
    (hroot : TakesNames env f) :
    (keyspace.length < 2 ^ 31 ∧ table.length < 2 ^ 31) ∧
      (∀ c ∈ keyspace, c ≠ 0) ∧ ∀ c ∈ table, c ≠ 0 := by
  obtain ⟨query, cql, hquery, hcql, hvisit, -⟩ := hexecutes.executed
  obtain ⟨ctx, rfl, rfl, rfl⟩ := visitCql_createTable hvisit
  obtain ⟨hkeyspace, htable⟩ := hroot query ctx
    (parserText_eq_some.mpr ⟨hexecutes.semicolon, hquery⟩) (by simp [hcql])
  have hlength := length_query_le hquery
  have hbody := length_body_le f
  have hk := hkeyspace.length_le
  have ht := htable.length_le
  exact ⟨⟨by omega, by omega⟩, fun c hc => ne_zero_of_mem_query hquery c (hkeyspace.subset hc),
    fun c hc => ne_zero_of_mem_query hquery c (htable.subset hc)⟩

/-- What the node does itself for a `CREATE TABLE` decides, and the text that comes back is fixed. -/
lemma process_createTable {query : List UInt8} {result : Option Record}
    (hparse : StatementParser.process env.root env.strtold query =
      .ok (.createTable keyspace table schema))
    (hlocal : Server.onStore (StatementExecutor.execute env.config.localAddress
      (.createTable table schema)) st = .ok result st') :
    QueryProcessor.process env.config Server.onStore (reply env)
      (StatementParser.process env.root env.strtold) query st =
        .ok (text "All nodes have been updated") st' := by
  unfold QueryProcessor.process
  rw [bind_of_ok (onStore_ofExcept hparse st)]
  dsimp only [CqlStatement.statement]
  unfold MultinodeQueryExecutor.execute
  rw [bind_of_ok hlocal, bind_of_ok (sendAll_reply env query st')]
  rfl

/-- A response that is not framed, in a memory of zeros and 255s. -/
lemma createTable_not_wellFramed
    (hexecutes : Executes env f st (.createTable keyspace table schema) recordStr st')
    (hfit : keyspace.length + table.length ≤ 3458) (hkeyspace : ∀ c ∈ keyspace, c ≠ 0)
    (htable : ∀ c ∈ table, c ≠ 0) :
    ∃ n H st'', createResponse { env with stack := fun _ => 0, header := fun _ => 255 } f st =
        .ok (n, H) st'' ∧ ∀ streamId, ¬WellFramed streamId H n := by
  obtain ⟨st₂, hdatabase⟩ := onDatabase_createTable table schema st'
  obtain ⟨body₁, hchange, -⟩ :=
    @QueryResult.schemaChange_ok keyspace table (by omega) (fun _ => 0)
  obtain ⟨body₂, hcreate, -⟩ := @QueryResult.createTable_ok keyspace table (by omega) body₁
  have hrespond : respond (f.version + 0x80) recordStr
      (unanswered { env with stack := fun _ => 0, header := fun _ => 255 } f)
      (.createTable keyspace table schema) st' = _ :=
    tryCatch_of_ok (respondCreateTable_ok hdatabase hchange hcreate)
  refine ⟨_, _, _, createResponse_executes (hexecutes.memory _ _) hrespond, ?_⟩
  rintro streamId ⟨starts, hcomplete, -⟩
  have hend : (((42 + keyspace.length + table.length : Nat) : Int) + 2 +
      ((24 + keyspace.length + table.length : Nat) : Int) + 12).toNat =
        80 + 2 * (keyspace.length + table.length) := by omega
  rw [hend] at hcomplete
  dsimp only [unanswered] at hcomplete
  rw [Int.toNat_natCast, Int.toNat_natCast, ofInt_natCast] at hcomplete
  refine not_complete_createTable hfit hkeyspace htable hchange hcreate ?_ hcomplete
  intro i hi
  rw [resultHeader, write_of_le (by simpa using hi), write_of_le (by simp; omega)]

end CreateTable

/-- In whatever memory a response is made, it consists of complete frames exactly when the request is
none for a `CREATE TABLE`, and the result of a `SELECT` fits. The parser takes the names of a table
from its input. -/
theorem createResponse_wellFramed_iff {env : Environment} {f : Frame} {st : Server × Posix Path}
    {request : Request} (hanswered : Answered env f st request) (hsize : f.maxSize < 2 ^ 31)
    (hroot : TakesNames env f) :
    (∀ stack header, ∃ n H st',
      createResponse { env with stack := stack, header := header } f st = .ok (n, H) st' ∧
        WellFramed f.streamId H n) ↔ request.Framed := by
  cases hanswered with
  | options hopcode => exact iff_of_true (fun _ _ => wellFramed_options hopcode st) trivial
  | ready hopcode => exact iff_of_true (fun _ _ => wellFramed_ready hopcode st) trivial
  | metadata hopcode hsemicolon hanswer =>
    exact iff_of_true (fun _ _ => wellFramed_metadata hopcode hsemicolon hanswer st) trivial
  | @statement stmt recordStr st' hexecutes hresponds =>
    cases stmt with
    | createTable keyspace table schema =>
      obtain ⟨hlength, hkeyspace, htable⟩ := names_of_executes hexecutes hsize hroot
      obtain ⟨r, st₁, hrespond⟩ := hresponds
      have hfit := respondCreateTable_inv hlength.1 hlength.2 hrespond
      obtain ⟨n, H, st₂, hresponse, hframed⟩ :=
        createTable_not_wellFramed hexecutes hfit hkeyspace htable
      refine iff_of_false ?_ id
      intro h
      obtain ⟨n', H', st₃, hresponse', hframed'⟩ := h (fun _ => 0) (fun _ => 255)
      rw [hresponse] at hresponse'
      cases hresponse'
      exact hframed _ hframed'
    | insert keyspace table columns values =>
      exact iff_of_true
        (fun stack header => wellFramed_insert (hexecutes.memory stack header)) trivial
    | select keyspace table relations => exact wellFramed_select hexecutes hresponds

/-- An `INSERT` into a table that is not there, in a memory full of ones. -/
theorem createResponse_wellFramed_insert :
    ∃ n H st', createResponse
        { insertEnvironment (text "u") with stack := fun _ => 1, header := fun _ => 1 }
        (queryFrame (text "INSERT INTO u VALUES (1, 2) USING TTL 9;")) oneTable = .ok (n, H) st' ∧
      WellFramed (0, 1) H n := by
  have hquery : restoreQuery (cutQuery (extractQuery false
      ((queryFrame (text "INSERT INTO u VALUES (1, 2) USING TTL 9;")).body.getD []))) =
        .ok (text "INSERT INTO u VALUES (1, 2) USING TTL 9;") := by decide +kernel
  have hexecutes : Executes (insertEnvironment (text "u"))
      (queryFrame (text "INSERT INTO u VALUES (1, 2) USING TTL 9;")) oneTable
      (.insert [] (text "u") [] [.int 1, .int 2]) _ _ :=
    ⟨rfl, by decide +kernel, _, _, hquery, rfl, rfl, rfl⟩
  exact (createResponse_wellFramed_iff (.statement hexecutes ⟨_, _, rfl⟩) (by decide)
    (fun _ _ _ h => by simp [insertEnvironment] at h)).mpr trivial (fun _ => 1) (fun _ => 1)

/-- Of the 82 bytes for a `CREATE TABLE` the first frame has 46, and the second one would have 6409. -/
theorem createResponse_not_wellFramed_u :
    ∃ n H st', createResponse
        { insertEnvironment (text "u") with
          root := fun _ => [.createTable ⟨none, text "u", [⟨text "k", .int, true⟩], none⟩]
          header := fun _ => 255 }
        (queryFrame (text "CREATE TABLE u (k INT PRIMARY KEY);")) oneTable = .ok (n, H) st' ∧
      ¬WellFramed (queryFrame (text "CREATE TABLE u (k INT PRIMARY KEY);")).streamId H n := by
  have hquery : restoreQuery (cutQuery (extractQuery false
      ((queryFrame (text "CREATE TABLE u (k INT PRIMARY KEY);")).body.getD []))) =
        .ok (text "CREATE TABLE u (k INT PRIMARY KEY);") := by decide +kernel
  have hexecutes : Executes { insertEnvironment (text "u") with
      root := fun _ => [.createTable ⟨none, text "u", [⟨text "k", .int, true⟩], none⟩] }
      (queryFrame (text "CREATE TABLE u (k INT PRIMARY KEY);")) oneTable
      (.createTable [] (text "u") ⟨0, 0, [⟨text "k", ⟨.int, 4⟩⟩]⟩) _ _ :=
    ⟨rfl, by decide +kernel, _, _, hquery, rfl, rfl, process_createTable rfl rfl⟩
  obtain ⟨n, H, st', hresponse, hframed⟩ :=
    createTable_not_wellFramed hexecutes (by decide) (by simp) (by simp [text])
  exact ⟨n, H, st', hresponse, hframed _⟩

end ServerMsg

end Dibibase
