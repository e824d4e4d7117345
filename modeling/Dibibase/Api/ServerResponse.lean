import Dibibase.Api.Framing
import Dibibase.Api.Metadata
import Dibibase.Api.ResultBody
import Dibibase.Dht.Executors

/-!
# Responses

`ServerMsg` makes the response to one request frame in the array `Header`. A query without a
semicolon is taken for a metadata query. Any other is parsed, processed on behalf of the whole
cluster, and parsed statements are then turned into the response. The database that the server
itself has opened is not the one of the keyspace in which statements are executed.
-/

namespace Dibibase

open Library

/-- What a response depends on besides the frame and the databases: the generated parser, the C
library, the configuration, the replies of the other nodes, and the parts of static tables and of
uninitialised arrays that the code does not set. -/
structure Environment where
  root : List UInt8 → List CqlParser.Cql
  strtold : List UInt8 → BitVec 64
  config : Config
  streamer : List UInt8 → List UInt8 → List UInt8
  staticTables : Metadata.StaticTable → Nat → UInt8
  stack : Nat → UInt8
  header : Nat → UInt8

/-- The database of the server and the keyspaces of its node. -/
structure Server where
  db : Database
  store : StateStore

namespace Server

/-- A step of `StateStore`. -/
def onStore {α : Type} (m : Method StateStore α) : Method Server α := fun st =>
  match m (st.1.store, st.2) with
  | .ok a st' => .ok a ({ st.1 with store := st'.1 }, st'.2)
  | .error e st' => .error e ({ st.1 with store := st'.1 }, st'.2)

/-- A step of the database of the server. -/
def onDatabase {α : Type} (m : Method Database α) : Method Server α := fun st =>
  match m (st.1.db, st.2) with
  | .ok a st' => .ok a ({ st.1 with db := st'.1 }, st'.2)
  | .error e st' => .error e ({ st.1 with db := st'.1 }, st'.2)

end Server

namespace ServerMsg

/-- `enum Opcode`, as far as it is used. -/
def STARTUP : UInt8 := 0x01
def READY : UInt8 := 0x02
def OPTIONS : UInt8 := 0x05
def SUPPORTED : UInt8 := 0x06
def QUERY : UInt8 := 0x07
def RESULT : UInt8 := 0x08
def REGISTER : UInt8 := 0x0B
def EVENT : UInt8 := 0x0C

/-- The array `Header`. -/
abbrev Header := Nat → UInt8

/-- Assignments to the elements from `start` on. -/
def write (start : Nat) (bytes : List UInt8) (h : Header) : Header := fun i =>
  if start ≤ i then (bytes[i - start]?).getD (h i) else h i

/-- The loops that copy `n` elements of another array. -/
def copy (start n : Nat) (array : Nat → UInt8) (h : Header) : Header := fun i =>
  if start ≤ i ∧ i < start + n then array (i - start) else h i

/-- The strings with their lengths in `SupportedMessage`. -/
def supportedString (s : List UInt8) : List UInt8 := [0, UInt8.ofNat s.length] ++ s

/-- `SupportedMessage`: what is written from the tenth byte on. -/
def supportedBytes (supportedOptions : List (String × List String)) : List UInt8 :=
  (if supportedOptions = [] then [] else [0, UInt8.ofNat supportedOptions.length]) ++
    supportedOptions.flatMap (fun p => supportedString (text p.1) ++
      (if p.2 = [] then [] else [0, UInt8.ofNat p.2.length]) ++
        p.2.flatMap (fun s => supportedString (text s)))

/-- The map of options in the order of its keys. -/
def supportedOptions : List (String × List String) :=
  [("COMPRESSION", ["snappy", "lz4"]), ("CQL_VERSION", ["3.4.5"]),
    ("PROTOCOL_VERSIONS", ["3/V3"])]

/-- The loop that takes the query out of the body: a byte that is no positive `char` is left out,
and so is the next byte that is one. -/
def extractQuery : Bool → List UInt8 → List UInt8
  | _, [] => []
  | escape, c :: cs =>
    if c.toBitVec.toInt ≤ 0 then extractQuery true cs
    else if escape then extractQuery false cs
    else c :: extractQuery false cs

/-- A query ends at its first semicolon, unless its last character is one. -/
def cutQuery (query : List UInt8) : List UInt8 :=
  if query.getLast? = some 59 then query else query.takeWhile (· ≠ 59) ++ [59]

/-- `tolower` in the C locale. -/
def toLower (c : UInt8) : UInt8 := if 65 ≤ c ∧ c ≤ 90 then c + 32 else c

/-- `query[4]`, with the NUL behind the last character. -/
def fifth (query : List UInt8) : Except Exception UInt8 :=
  match query[4]? with
  | some c => return c
  | none => if query.length = 4 then return 0 else throw .undefinedBehaviour

/-- "Handling sliced user queries": a query that lacks its first letter gets it back. -/
def restoreQuery (query : List UInt8) : Except Exception (List UInt8) :=
  match query with
  | [] => return []
  | c :: _ =>
    if toLower c = 110 then return 73 :: query
    else if toLower c = 114 then return 67 :: query
    else if toLower c = 101 then do
      let c ← fifth query
      if toLower c = 99 then return 83 :: query
      else if toLower c = 116 then return 68 :: query
      else return query
    else return query

/-- `msg_length`, and the arrays `Header` and `body`. -/
structure Response where
  msgLength : Int
  header : Header
  body : Nat → UInt8

/-- A step of `QueryResult`, with the array after it. -/
def onBody {α : Type} (m : BodyM α) (body : Nat → UInt8) : Method Server (α × (Nat → UInt8)) :=
  match m body with
  | .ok a body => return (a, body)
  | .error e _ => throw e

/-- `CREATE TABLE`: a frame of an event, and the frame of the result behind it. -/
def respondCreateTable (version : UInt8) (keyspace table : List UInt8) (schema : Schema)
    (r : Response) : Method Server Response := do
  Server.onDatabase (Database.createTable table schema)
  let streamId := r.header 3
  let (size1, body) ← onBody (QueryResult.schemaChange keyspace table) r.body
  let header := copy 2 size1.toNat body r.header
  let header := write (size1.toNat + 2) [version, 0, 0, streamId, 8] header
  let (size2, body) ← onBody (QueryResult.createTable keyspace table) body
  let header := write (size1.toNat + 7) [0, 0, 0, UInt8.ofInt size2] header
  let header := copy (size1.toNat + 11) size2.toNat body header
  return ⟨size1 + 2 + size2 + 12, header, body⟩

/-- `INSERT`: the statement has been executed before. -/
def respondInsert (r : Response) : Method Server Response := do
  let (size, body) ← onBody QueryResult.insertRecord r.body
  return ⟨size + 5, copy 5 size.toNat body r.header, body⟩

/-- `SELECT`: the columns are those of the table in the server's own database. -/
def respondSelect (keyspace table recordStr : List UInt8) (r : Response) :
    Method Server Response := do
  let db := (← get).1.db
  match ← Method.ofExcept (OrderedMap.find nameLt table db.tableManagers) with
  | none => throw .undefinedBehaviour
  | some tm =>
    let (size, body) ← onBody (QueryResult.selectResult keyspace table tm.schema recordStr) r.body
    let header := write 5 [0, 0, 0, UInt8.ofInt size] r.header
    return ⟨size + 9, copy 9 size.toNat body header, body⟩

/-- One round of the loop over the statements, with the handlers around it. -/
def respond (version : UInt8) (recordStr : List UInt8) (r : Response) :
    CqlStatement → Method Server Response
  | .createTable keyspace table schema =>
    tryCatch (respondCreateTable version keyspace table schema r) (fun e =>
      if e = .unsupportedCqlStatement then return r else throw e)
  | .insert _ _ _ _ =>
    tryCatch (respondInsert r) (fun e => if e = .schemaMismatch then return r else throw e)
  | .select keyspace table _ => respondSelect keyspace table recordStr r

/-- What stands in the `try` block. -/
def execute (env : Environment) (version : UInt8) (query : List UInt8) (r : Response) :
    Method Server Response := do
  let statements ← Method.ofExcept ((env.root query).mapM (CQL3Visitor.visitCql env.strtold))
  let recordStr ← QueryProcessor.process env.config Server.onStore
    (fun address query => return env.streamer address query)
    (StatementParser.process env.root env.strtold) query
  statements.foldlM (respond version recordStr) r

/-- The `try` block and its handlers, behind which the length and the array are what they were. -/
def handled (env : Environment) (version : UInt8) (query : List UInt8) (r : Response) :
    Method Server Response :=
  tryCatch (execute env version query r) (fun e =>
    if e = .nonExistentRecord ∨ e = .unsupportedCqlStatement then return r else throw e)

/-- `CreateResponse`: the length of the message, and the array that has it at its front. -/
def createResponse (env : Environment) (f : Frame) : Method Server (Int × Header) := do
  let version := f.version + 0x80
  let header := write 0 [version, f.flags, f.streamId.1, f.streamId.2] env.header
  if f.opcode = OPTIONS then
    let bytes := supportedBytes supportedOptions
    let header := write 4 ([SUPPORTED, 0, 0, 0, UInt8.ofNat bytes.length] ++ bytes) header
    return (9 + bytes.length, header)
  else if f.opcode = STARTUP ∨ f.opcode = REGISTER then
    return (9, write 4 [READY, 0, 0, 0, 0] header)
  else if f.opcode = QUERY then
    let header := write 4 [RESULT] header
    let query := extractQuery false (f.body.getD [])
    if 59 ∈ query then
      let query ← Method.ofExcept (restoreQuery (cutQuery query))
      let r ← handled env version query ⟨9, header, env.stack⟩
      return (r.msgLength, r.header)
    else
      let (msgLength, body) := Metadata.metaResult env.staticTables env.stack query
      return (msgLength, copy 5 (msgLength - 5) body header)
  else return (9, header)

/-! ### The text of a query -/

/-- The text that the parser is given; nothing where the query is taken for one of metadata. -/
def parserText (body : List UInt8) : Option (List UInt8) :=
  if 59 ∈ extractQuery false body then (restoreQuery (cutQuery (extractQuery false body))).toOption
  else none

lemma parserText_eq_some {body query : List UInt8} : parserText body = some query ↔
    59 ∈ extractQuery false body ∧
      restoreQuery (cutQuery (extractQuery false body)) = .ok query := by
  unfold parserText
  cases restoreQuery (cutQuery (extractQuery false body)) <;> simp [Except.toOption]

/-- At most one letter is put in front. -/
lemma restoreQuery_ok {x y : List UInt8} (h : restoreQuery x = .ok y) :
    y = x ∨ ∃ c, c ≠ 0 ∧ y = c :: x := by
  cases x with
  | nil =>
    cases h
    exact .inl rfl
  | cons c cs =>
    simp only [restoreQuery] at h
    split at h
    · cases h
      exact .inr ⟨73, by decide, rfl⟩
    · split at h
      · cases h
        exact .inr ⟨67, by decide, rfl⟩
      · split at h
        · cases hfifth : fifth (c :: cs) with
          | error e =>
            rw [hfifth] at h
            cases h
          | ok d =>
            rw [hfifth] at h
            replace h : (if toLower d = 99 then pure (83 :: c :: cs)
              else if toLower d = 116 then pure (68 :: c :: cs)
              else pure (c :: cs) : Except Exception (List UInt8)) = .ok y := h
            split at h
            · cases h
              exact .inr ⟨83, by decide, rfl⟩
            · split at h
              · cases h
                exact .inr ⟨68, by decide, rfl⟩
              · cases h
                exact .inl rfl
        · cases h
          exact .inl rfl

lemma extractQuery_ne_zero (escape : Bool) (bs : List UInt8) :
    ∀ c ∈ extractQuery escape bs, c ≠ 0 := by
  induction bs generalizing escape with
  | nil => simp [extractQuery]
  | cons b bs ih =>
    unfold extractQuery
    split_ifs with hb
    · exact ih true
    · exact ih false
    · rw [List.forall_mem_cons]
      refine ⟨?_, ih false⟩
      rintro rfl
      exact hb (by decide)

lemma length_extractQuery_le (escape : Bool) (bs : List UInt8) :
    (extractQuery escape bs).length ≤ bs.length := by
  induction bs generalizing escape with
  | nil => simp [extractQuery]
  | cons b bs ih =>
    unfold extractQuery
    split_ifs
    · exact (ih true).trans (Nat.le_succ _)
    · exact (ih false).trans (Nat.le_succ _)
    · exact Nat.succ_le_succ (ih false)

lemma cutQuery_ne_zero {query : List UInt8} (h : ∀ c ∈ query, c ≠ 0) :
    ∀ c ∈ cutQuery query, c ≠ 0 := by
  intro c hc
  unfold cutQuery at hc
  split_ifs at hc
  · exact h c hc
  · rcases List.mem_append.mp hc with hc | hc
    · exact h c ((List.takeWhile_sublist _).subset hc)
    · rw [List.mem_singleton.mp hc]
      decide

lemma length_cutQuery_le (query : List UInt8) : (cutQuery query).length ≤ query.length + 1 := by
  unfold cutQuery
  split_ifs
  · omega
  · have htake := (List.takeWhile_sublist (· ≠ 59) (l := query)).length_le
    rw [List.length_append, List.length_singleton]
    omega

/-- No character of a query is a NUL. -/
lemma ne_zero_of_mem_query {body query : List UInt8}
    (h : restoreQuery (cutQuery (extractQuery false body)) = .ok query) :
    ∀ c ∈ query, c ≠ 0 := by
  have hcut := cutQuery_ne_zero (extractQuery_ne_zero false body)
  rcases restoreQuery_ok h with rfl | ⟨c, hc, rfl⟩
  · exact hcut
  · rw [List.forall_mem_cons]
    exact ⟨hc, hcut⟩

/-- A query is hardly longer than the body that it is taken from. -/
lemma length_query_le {body query : List UInt8}
    (h : restoreQuery (cutQuery (extractQuery false body)) = .ok query) :
    query.length ≤ body.length + 2 := by
  have hextract := length_extractQuery_le false body
  have hcut := length_cutQuery_le (extractQuery false body)
  rcases restoreQuery_ok h with rfl | ⟨c, -, rfl⟩
  · omega
  · rw [List.length_cons]
    omega

/-! ### The responses to executed statements -/

section Respond

variable {version : UInt8} {keyspace table recordStr : List UInt8} {schema : Schema} {r : Response}
  {st st' : Server × Posix Path} {body body' : Nat → UInt8}

lemma onBody_ok {α : Type} {m : BodyM α} {a : α} (h : m body = .ok a body')
    (st : Server × Posix Path) : onBody m body st = .ok (a, body') st := by
  simp [onBody, h]

lemma onBody_error {α : Type} {m : BodyM α} {e : Exception} (h : m body = .error e body')
    (st : Server × Posix Path) : onBody m body st = .error e st := by
  simp [onBody, h]

lemma respondCreateTable_ok {size1 size2 : Int}
    (hcreate : Server.onDatabase (Database.createTable table schema) st = .ok () st')
    (hchange : QueryResult.schemaChange keyspace table r.body = .ok size1 body)
    (htable : QueryResult.createTable keyspace table body = .ok size2 body') :
    respondCreateTable version keyspace table schema r st = .ok ⟨size1 + 2 + size2 + 12,
      copy (size1.toNat + 11) size2.toNat body' (write (size1.toNat + 7)
        [0, 0, 0, UInt8.ofInt size2] (write (size1.toNat + 2) [version, 0, 0, r.header 3, 8]
          (copy 2 size1.toNat body r.header))), body'⟩ st' := by
  unfold respondCreateTable
  rw [bind_of_ok hcreate, bind_of_ok (onBody_ok hchange st')]
  dsimp only
  rw [bind_of_ok (onBody_ok htable st')]
  rfl

lemma respondInsert_ok {size : Int} (h : QueryResult.insertRecord r.body = .ok size body) :
    respondInsert r st = .ok ⟨size + 5, copy 5 size.toNat body r.header, body⟩ st := by
  unfold respondInsert
  rw [bind_of_ok (onBody_ok h st)]
  rfl

lemma respondSelect_ok {tm : TableManager} {size : Int}
    (hfind : OrderedMap.find nameLt table st.1.db.tableManagers = .ok (some tm))
    (hselect : QueryResult.selectResult keyspace table tm.schema recordStr r.body =
      .ok size body) :
    respondSelect keyspace table recordStr r st = .ok ⟨size + 9,
      copy 9 size.toNat body (write 5 [0, 0, 0, UInt8.ofInt size] r.header), body⟩ st := by
  unfold respondSelect
  rw [bind_of_ok (get_apply st), bind_of_ok (Method.ofExcept_ok hfind st)]
  dsimp only
  rw [bind_of_ok (onBody_ok hselect st)]
  rfl

end Respond

/-! ### The branches of `CreateResponse` -/

section Branches

variable {env : Environment} {f : Frame} {query : List UInt8} {st : Server × Posix Path}

/-- The header of a result up to its opcode. -/
def resultHeader (env : Environment) (f : Frame) : Header :=
  write 4 [RESULT] (write 0 [f.version + 0x80, f.flags, f.streamId.1, f.streamId.2] env.header)

lemma createResponse_metadata (hopcode : f.opcode = QUERY)
    (h : 59 ∉ extractQuery false (f.body.getD [])) :
    createResponse env f st =
      .ok ((Metadata.metaResult env.staticTables env.stack (extractQuery false (f.body.getD []))).1,
        copy 5 ((Metadata.metaResult env.staticTables env.stack
            (extractQuery false (f.body.getD []))).1 - 5)
          (Metadata.metaResult env.staticTables env.stack (extractQuery false (f.body.getD []))).2
          (resultHeader env f)) st := by
  have hne : f.opcode ≠ OPTIONS ∧ ¬(f.opcode = STARTUP ∨ f.opcode = REGISTER) := by
    rw [hopcode]
    decide
  simp only [createResponse, if_neg hne.1, if_neg hne.2, if_pos hopcode, if_neg h]
  rfl

lemma createResponse_statement (hopcode : f.opcode = QUERY)
    (h : parserText (f.body.getD []) = some query) :
    createResponse env f st =
      (handled env (f.version + 0x80) query ⟨9, resultHeader env f, env.stack⟩ >>=
        fun r => pure (r.msgLength, r.header)) st := by
  have hne : f.opcode ≠ OPTIONS ∧ ¬(f.opcode = STARTUP ∨ f.opcode = REGISTER) := by
    rw [hopcode]
    decide
  obtain ⟨hsemicolon, hquery⟩ := parserText_eq_some.mp h
  simp only [createResponse, if_neg hne.1, if_neg hne.2, if_pos hopcode, if_pos hsemicolon]
  rw [bind_of_ok (Method.ofExcept_ok hquery st)]
  rfl

end Branches

end ServerMsg

end Dibibase
