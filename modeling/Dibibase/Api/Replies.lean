import Dibibase.Api.ResultBytes

/-!
# Replies

The frame that is made for a request, and what the body of this frame says. Of a `CREATE TABLE` there are
two frames, which are found in what is sent.
-/

namespace Dibibase

open Library RowsResult

/-- A frame of a response, as a client reads it: a header of nine bytes, which ends in the length of the
body as a big-endian number, and the body. -/
structure ResponseFrame where
  version : UInt8
  flags : UInt8
  streamId : UInt8 × UInt8
  opcode : UInt8
  body : List UInt8
  length_lt : body.length < 2 ^ 32

namespace ResponseFrame

def bytes (f : ResponseFrame) : List UInt8 :=
  [f.version, f.flags, f.streamId.1, f.streamId.2, f.opcode] ++ (beBytes 4 f.body.length ++ f.body)

def decode : Decoder ResponseFrame := do
  let version ← Decoder.byte
  let flags ← Decoder.byte
  let high ← Decoder.byte
  let low ← Decoder.byte
  let opcode ← Decoder.byte
  let length ← Decoder.beNat 4
  let body ← Decoder.take length
  if h : body.length < 2 ^ 32 then return ⟨version, flags, (high, low), opcode, body, h⟩
  else Decoder.fail

lemma length_bytes (f : ResponseFrame) : f.bytes.length = 9 + f.body.length := by
  simp only [bytes, List.length_append, List.length_cons, List.length_nil, length_beBytes]
  omega

lemma decodes_bytes (f : ResponseFrame) : Decodes decode f.bytes f := by
  have hlength : f.body.length < 256 ^ 4 := f.length_lt
  refine (Decodes.byte _).bind ((Decodes.byte _).bind ((Decodes.byte _).bind ((Decodes.byte _).bind
    ((Decodes.byte _).bind ((Decodes.beNat hlength).bind ?_)))))
  have hbody : Decodes (do
      let body ← Decoder.take f.body.length
      if h : body.length < 2 ^ 32 then
        return ⟨f.version, f.flags, (f.streamId.1, f.streamId.2), f.opcode, body, h⟩
      else Decoder.fail) (f.body ++ []) f := by
    refine (Decodes.take rfl).bind ?_
    rw [dif_pos f.length_lt]
    exact Decodes.pure f
  rwa [List.append_nil] at hbody

/-- The opcode of a frame is the fifth byte, whatever stands there. -/
lemma decode_opcode {a b c d e : UInt8} {bs rest : List UInt8} {frame : ResponseFrame}
    (h : decode (a :: b :: c :: d :: e :: bs) = some (frame, rest)) : frame.opcode = e := by
  change (Decoder.beNat 4 bs).bind (fun r => (Decoder.take r.1 r.2).bind (fun r =>
    (if hlt : r.1.length < 2 ^ 32 then pure ⟨a, b, (c, d), e, r.1, hlt⟩ else Decoder.fail :
      Decoder ResponseFrame) r.2)) = some (frame, rest) at h
  obtain ⟨⟨length, bs₁⟩, -, h⟩ := Option.bind_eq_some_iff.mp h
  obtain ⟨⟨body, bs₂⟩, -, h⟩ := Option.bind_eq_some_iff.mp h
  split at h
  · cases h
    rfl
  · cases h

end ResponseFrame

namespace ServerMsg

open Server (length_segment getElem_segment)

/-- The opcode of a reply. -/
def Request.opcode : Request → UInt8
  | .options => SUPPORTED
  | .ready => READY
  | .metadata _ | .statement _ _ _ => RESULT

/-- What the body of a reply is: the options of the server, nothing, the table that was asked for, a result
without rows, or that of a `SELECT`. -/
def Request.Body (env : Environment) (f : Frame) : Request → List UInt8 → Prop
  | .options, body => body = supportedBytes supportedOptions
  | .ready, body => body = []
  | .metadata _, body => ∃ n array,
    Metadata.metaResult env.staticTables env.stack (extractQuery false (f.body.getD [])) = (n, array) ∧
      body = Server.segment array 4 (n - 5)
  | .statement (.createTable _ _ _) _ _, _ => False
  | .statement (.insert _ _ _ _) _ _, body => body = beBytes 4 1
  | .statement (.select keyspace table _) recordStr st, body => ∃ tm size array,
    OrderedMap.find nameLt table st.1.db.tableManagers = .ok (some tm) ∧
      QueryResult.selectResult keyspace table tm.schema recordStr env.stack = .ok size array ∧
        body = Server.segment array 0 size.toNat

/-- The frame is a reply to the request, for the stream on which it came. -/
structure Replies (env : Environment) (f : Frame) (request : Request) (frame : ResponseFrame) : Prop where
  version : frame.version = f.version + 0x80
  flags : frame.flags = f.flags
  streamId : frame.streamId = f.streamId
  opcode : frame.opcode = request.opcode
  body : request.Body env f frame.body

/-- The length of the result of a `SELECT` fits into the byte that it gets, and there is no
`CREATE TABLE`. -/
def Request.Fits : Request → Prop
  | .options | .ready | .metadata _ => True
  | .statement (.createTable _ _ _) _ _ => False
  | .statement (.insert _ _ _ _) _ _ => True
  | .statement (.select keyspace table _) recordStr st => ∃ tm values,
    OrderedMap.find nameLt table st.1.db.tableManagers = .ok (some tm) ∧
      QueryResult.recordValues recordStr = .ok values ∧
        0 ≤ QueryResult.selectSize keyspace table tm.schema.fields values ∧
          QueryResult.selectSize keyspace table tm.schema.fields values < 256

/-- The databases after a request that has been answered with one frame. -/
def Request.after (st : Server × Posix Path) : Request → Server × Posix Path
  | .options | .ready | .metadata _ => st
  | .statement _ _ st' => st'

/-! ### The frame in the array -/

section Frames

variable {env : Environment} {f : Frame} {st st' : Server × Posix Path}

/-- The first bytes of a response. -/
abbrev start (f : Frame) : List UInt8 := [f.version + 0x80, f.flags, f.streamId.1, f.streamId.2]

/-- The request is answered with one frame, which stands at the front of the array of 71680 elements. -/
def Single (env : Environment) (f : Frame) (st : Server × Posix Path) (request : Request) : Prop :=
  ∃ frame : ResponseFrame, createResponse env f st =
    .ok ((frame.bytes.length : Int), write 0 frame.bytes env.header) (request.after st) ∧
      frame.bytes.length < 71680 ∧ Replies env f request frame

/-- A response is a frame if the length and the body stand behind its opcode. -/
lemma single_of_write {request : Request} {opcode : UInt8} {n : Int} {header : Header}
    (body : List UInt8) (h : createResponse env f st = .ok (n, header) (request.after st))
    (hn : n = 9 + body.length)
    (hheader : header = write 4 ([opcode] ++ (beBytes 4 body.length ++ body)) (write 0 (start f) env.header))
    (hlength : body.length < 71671) (hopcode : opcode = request.opcode)
    (hbody : request.Body env f body) : Single env f st request := by
  refine ⟨⟨f.version + 0x80, f.flags, f.streamId, opcode, body, by omega⟩, ?_, ?_, rfl, rfl, rfl,
    hopcode, hbody⟩
  swap
  · have hsize : 9 + body.length < 71680 := by omega
    rwa [ResponseFrame.length_bytes]
  have hwrite := write_append 0 (start f) ([opcode] ++ (beBytes 4 body.length ++ body)) env.header
  rw [ResponseFrame.length_bytes, h, hn, hheader]
  simp only [ResponseFrame.bytes]
  rw [Nat.cast_add]
  exact congrArg (fun header => EStateM.Result.ok (9 + (body.length : Int), header) (request.after st)) hwrite

lemma single_options (hopcode : f.opcode = OPTIONS) (st : Server × Posix Path) :
    Single env f st .options := by
  have hlength : (supportedBytes supportedOptions).length < 256 := by decide
  have hbytes : beBytes 4 (supportedBytes supportedOptions).length =
      [0, 0, 0, UInt8.ofNat (supportedBytes supportedOptions).length] := by decide
  refine single_of_write (supportedBytes supportedOptions)
    (by simp only [createResponse, if_pos hopcode]; rfl) rfl ?_ (by omega) rfl rfl
  rw [hbytes]
  rfl

lemma single_ready (hopcode : f.opcode = STARTUP ∨ f.opcode = REGISTER) (st : Server × Posix Path) :
    Single env f st .ready := by
  have hne : f.opcode ≠ OPTIONS := by
    rcases hopcode with h | h <;> rw [h] <;> decide
  refine single_of_write [] (by simp only [createResponse, if_neg hne, if_pos hopcode]; rfl) rfl
    rfl (by decide) rfl rfl

lemma metaResult_lt (staticTables : Metadata.StaticTable → Nat → UInt8) (stack : Nat → UInt8)
    {query : List UInt8} {answer : Metadata.Answer} (hanswer : Metadata.answer query = some answer) :
    (Metadata.metaResult staticTables stack query).1 < 71680 := by
  rw [Metadata.metaResult, hanswer]
  cases answer with
  | static table =>
    have hlength : table.msgLength < 71680 := by cases table <;> decide
    exact hlength
  | generated table =>
    have hcontent : table.content.length < 60000 := by cases table <;> decide +kernel
    cases table <;> simp only [Metadata.GeneratedTable.size] <;> omega

lemma single_metadata {answer : Metadata.Answer} (hopcode : f.opcode = QUERY)
    (hsemicolon : 59 ∉ extractQuery false (f.body.getD []))
    (hanswer : Metadata.answer (extractQuery false (f.body.getD [])) = some answer)
    (st : Server × Posix Path) : Single env f st (.metadata answer) := by
  have hresponse := @createResponse_metadata env f st hopcode hsemicolon
  have hlength := metaResult_length env.staticTables env.stack hanswer
  have hbound := metaResult_lt env.staticTables env.stack hanswer
  obtain ⟨n, array, hresult⟩ : ∃ n array, Metadata.metaResult env.staticTables env.stack
      (extractQuery false (f.body.getD [])) = (n, array) := ⟨_, _, rfl⟩
  rw [hresult] at hresponse hlength hbound
  -- The first four bytes of the array are the length of the others.
  have hfirst : beBytes 4 (beValue (Server.segment array 0 4)) = Server.segment array 0 4 := by
    have hbytes := beBytes_beValue (Server.segment array 0 4)
    rwa [length_segment] at hbytes
  have hvalue : n = 9 + beValue (Server.segment array 0 4) := by
    rw [Server.segment]
    simpa only [Nat.zero_add] using hlength
  have hsize : (Server.segment array 4 (n - 5)).length = beValue (Server.segment array 0 4) := by
    rw [length_segment]
    omega
  refine single_of_write (Server.segment array 4 (n - 5)) hresponse (by omega) ?_ (by omega) rfl
    ⟨n, array, hresult, rfl⟩
  rw [hsize, hfirst, Server.segment_append array (by omega) (by omega), copy_eq_write]
  exact write_append 4 [RESULT] (Server.segment array 0 (n - 5)) _

lemma single_insert {keyspace table recordStr : List UInt8} {columns : List (List UInt8)}
    {values : List Data}
    (hexecutes : Executes env f st (.insert keyspace table columns values) recordStr st') :
    Single env f st (.statement (.insert keyspace table columns values) recordStr st') := by
  have hinsert := QueryResult.insertRecord_write env.stack
  have hrespond : respond (f.version + 0x80) recordStr (unanswered env f)
      (.insert keyspace table columns values) st' = _ := tryCatch_of_ok (respondInsert_ok hinsert)
  refine single_of_write (beBytes 4 1) (createResponse_executes hexecutes hrespond)
    (by rw [length_beBytes]; rfl) ?_ (by decide) rfl rfl
  have hsegment := segment_write_self 0 (beBytes 4 4 ++ beBytes 4 1) env.stack
  have hcopy := copy_eq_write 5 8 (write 0 (beBytes 4 4 ++ beBytes 4 1) env.stack) (resultHeader env f)
  rw [List.length_append, length_beBytes, length_beBytes] at hsegment
  rw [hsegment] at hcopy
  rw [length_beBytes]
  exact hcopy.trans (write_append 4 [RESULT] (beBytes 4 4 ++ beBytes 4 1) _)

lemma single_select {keyspace table recordStr : List UInt8} {relations : List RelationElement}
    (hexecutes : Executes env f st (.select keyspace table relations) recordStr st')
    (hresponds : Responds env f recordStr st' (.select keyspace table relations))
    (hfits : (Request.statement (.select keyspace table relations) recordStr st').Fits) :
    Single env f st (.statement (.select keyspace table relations) recordStr st') := by
  obtain ⟨r, st'', hrespond⟩ := hresponds
  obtain ⟨tm, size, array, hfind, hselect⟩ := respondSelect_inv hrespond
  obtain ⟨tm', values, hfind', hvalues, hlow, hhigh⟩ := hfits
  rw [hfind] at hfind'
  cases hfind'
  obtain ⟨values', hvalues', hsize⟩ := QueryResult.selectResult_size hselect
  rw [hvalues] at hvalues'
  cases hvalues'
  rw [← hsize] at hlow hhigh
  obtain ⟨n, rfl⟩ := Int.eq_ofNat_of_zero_le hlow
  have hrespond' : respond (f.version + 0x80) recordStr (unanswered env f)
      (.select keyspace table relations) st' = _ := respondSelect_ok hfind hselect
  have hlength : (Server.segment array 0 n).length = n := length_segment array 0 n
  refine single_of_write (Server.segment array 0 n) (createResponse_executes hexecutes hrespond') ?_ ?_ ?_ rfl
    ⟨tm, n, array, hfind, hselect, rfl⟩
  · rw [hlength]
    exact Int.add_comm _ _
  · have hbytes : beBytes 4 n = [0, 0, 0, UInt8.ofInt n] := by
      rw [QueryResult.beBytes_four, ofInt_natCast, Nat.div_eq_of_lt (by omega),
        Nat.div_eq_of_lt (by omega), Nat.div_eq_of_lt (by omega)]
      rfl
    rw [hlength, hbytes, Int.toNat_natCast, copy_eq_write]
    exact (write_append 5 [0, 0, 0, UInt8.ofInt n] (Server.segment array 0 n) _).trans
      (write_append 4 [RESULT] ([0, 0, 0, UInt8.ofInt n] ++ Server.segment array 0 n) _)
  · rw [hlength]
    omega

/-- A request that fits is answered with one frame, a reply to it. -/
lemma single_of_answered {request : Request} (hanswered : Answered env f st request)
    (hfits : request.Fits) : Single env f st request := by
  cases hanswered with
  | options hopcode => exact single_options hopcode st
  | ready hopcode => exact single_ready hopcode st
  | metadata hopcode hsemicolon hanswer => exact single_metadata hopcode hsemicolon hanswer st
  | @statement stmt recordStr st' hexecutes hresponds =>
    cases stmt with
    | createTable keyspace table schema => exact hfits.elim
    | insert keyspace table columns values => exact single_insert hexecutes
    | select keyspace table relations => exact single_select hexecutes hresponds hfits

end Frames

end ServerMsg

end Dibibase
