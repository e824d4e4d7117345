import Mathlib.Logic.Function.Basic
import Dibibase.PromEndp.Handlers

/-!
# Connections of the endpoint for metrics

A connection waits for a request or for room to send. The serialised response is copied into a buffer
of 4096 bytes, from which `send` takes as much as it can whenever the connection is ready.
-/

namespace Dibibase

open Library

namespace PromEndp

def kMaxBufferSize : Nat := 4096

/-- What ends the thread of a worker. -/
inductive ServerException where
  | runtimeError (what : String)
  | undefinedBehaviour
  deriving DecidableEq, Repr

/-! ### Buffers -/

/-- The C string at the start of a sequence of bytes. -/
def cString (bytes : List UInt8) : List UInt8 := bytes.takeWhile (· ≠ 0)

/-- The bytes that `strncpy` writes for a source of `n` bytes at most. -/
def strncpy (source : List UInt8) (n : Nat) : List UInt8 :=
  let copied := (cString source).take n
  copied ++ List.replicate (n - copied.length) 0

lemma length_strncpy (source : List UInt8) (n : Nat) : (strncpy source n).length = n := by
  rw [strncpy, List.length_append, List.length_replicate, List.length_take]
  omega

/-- `EventData`. -/
structure EventData where
  fd : Int
  length : Nat
  cursor : Nat
  buffer : List UInt8
  size_buffer : buffer.length = kMaxBufferSize

/-- What `recv` has written into a buffer. -/
structure Received where
  bytes : List UInt8
  nonempty : bytes ≠ []
  fits : bytes.length ≤ kMaxBufferSize

namespace EventData

/-- `new EventData()` with a descriptor. -/
def new (fd : Int) : EventData where
  fd := fd
  length := 0
  cursor := 0
  buffer := List.replicate kMaxBufferSize 0
  size_buffer := List.length_replicate

/-- The buffer behind the received bytes stays as it is. -/
def receive (data : EventData) (received : Received) : EventData :=
  { data with
    buffer := received.bytes ++ data.buffer.drop received.bytes.length
    size_buffer := by
      have hfits := received.fits
      rw [List.length_append, List.length_drop, data.size_buffer]
      omega }

/-- The first `count` bytes from the cursor on. -/
def read (data : EventData) (count : Nat) : Except ServerException (List UInt8) :=
  if data.cursor + count ≤ kMaxBufferSize then return (data.buffer.drop data.cursor).take count
  else throw .undefinedBehaviour

end EventData

/-! ### `epoll` -/

inductive EpollEvents where
  | epollIn | epollOut
  deriving DecidableEq, Repr

/-- `epoll_event`. -/
structure EpollEvent where
  events : EpollEvents
  data : EventData

/-- The descriptors that are registered with an `epoll` instance. -/
abbrev Epoll := Int → Option EpollEvent

inductive EpollOp where
  | add (event : EpollEvent)
  | mod (event : EpollEvent)
  | del

/-- `epoll_ctl`, or `none` when it fails: a descriptor is added once, and changed or removed while it is
registered. -/
def epollCtl (epoll : Epoll) (fd : Int) : EpollOp → Option Epoll
  | .add event => if (epoll fd).isSome then none else some (Function.update epoll fd (some event))
  | .mod event => if (epoll fd).isSome then some (Function.update epoll fd (some event)) else none
  | .del => if (epoll fd).isSome then some (Function.update epoll fd none) else none

/-- `control_epoll_event`. -/
def controlEpollEvent (epoll : Epoll) (op : EpollOp) (fd : Int) : Except ServerException Epoll :=
  match epollCtl epoll fd op with
  | some epoll => return epoll
  | none =>
    match op with
    | .del => throw (.runtimeError "Failed to remove file descriptor (Prometheus Server)")
    | _ => throw (.runtimeError "Failed to add file descriptor (Prometheus Server)")

/-! ### The server -/

/-- The answer to an exception. -/
def exceptionResponse : StdException → HttpResponse
  | .invalidArgument what => .ofContent .badRequest (cString what)
  | .logicError what => .ofContent .httpVersionNotSupported (cString what)
  | .other what => .ofContent .internalServerError (cString what)

/-- The serialised response to a request. While the request is parsed, it is still a `GET`. -/
def responseString (handlers : Handlers HttpRequestHandler) (buffer : List UInt8) :
    Except ServerException (List UInt8) :=
  if 0 ∈ buffer then
    match stringToRequest (cString buffer) with
    | .error e => return (exceptionResponse e).toText true
    | .ok request =>
      match handleHttpRequest handlers request with
      | .error e => return (exceptionResponse e).toText (request.method ≠ .head)
      | .ok response => return response.toText (request.method ≠ .head)
  else
    -- the constructor of the string reads past the buffer
    throw .undefinedBehaviour

/-- `HandleHttpData`. -/
def handleHttpData (handlers : Handlers HttpRequestHandler) (rawRequest rawResponse : EventData) :
    Except ServerException EventData := do
  let responseString ← responseString handlers rawRequest.buffer
  return { rawResponse with
    length := responseString.length
    buffer := strncpy responseString kMaxBufferSize
    size_buffer := length_strncpy responseString kMaxBufferSize }

/-- What a call of `recv` comes to. -/
inductive RecvResult where
  | received (received : Received)
  | closed
  | again
  | failed

/-- What a call of `send` comes to. -/
inductive SendResult where
  | sent (count : Nat)
  | again
  | failed
  deriving DecidableEq, Repr

/-- What the socket does with the next call of `recv` or `send`. -/
structure Socket where
  recv : RecvResult
  send : SendResult

/-- `HandleEpollEvent`, with the bytes that the socket takes. -/
def handleEpollEvent (handlers : Handlers HttpRequestHandler) (epoll : Epoll) (data : EventData)
    (events : EpollEvents) (socket : Socket) : Except ServerException (Epoll × List UInt8) :=
  let fd := data.fd
  match events with
  | .epollIn =>
    match socket.recv with
    | .received received => do
      let response ← handleHttpData handlers (data.receive received) (.new fd)
      let epoll ← controlEpollEvent epoll (.mod ⟨.epollOut, response⟩) fd
      return (epoll, [])
    | .closed => do
      let epoll ← controlEpollEvent epoll .del fd
      return (epoll, [])
    | .again => do
      let epoll ← controlEpollEvent epoll (.mod ⟨.epollIn, { data with fd }⟩) fd
      return (epoll, [])
    | .failed => do
      let epoll ← controlEpollEvent epoll .del fd
      return (epoll, [])
  | .epollOut =>
    match socket.send with
    | .sent count => do
      let bytes ← data.read count
      if count < data.length then
        let response := { data with cursor := data.cursor + count, length := data.length - count }
        let epoll ← controlEpollEvent epoll (.mod ⟨.epollOut, response⟩) fd
        return (epoll, bytes)
      else
        let epoll ← controlEpollEvent epoll (.mod ⟨.epollIn, .new fd⟩) fd
        return (epoll, bytes)
    | .again => do
      let epoll ← controlEpollEvent epoll (.add ⟨.epollOut, data⟩) fd
      return (epoll, [])
    | .failed => do
      let epoll ← controlEpollEvent epoll .del fd
      return (epoll, [])

/-- The events of one connection, with all bytes that its socket takes. -/
def run (handlers : Handlers HttpRequestHandler) (fd : Int) :
    Epoll → List Socket → Except ServerException (Epoll × List UInt8)
  | epoll, [] => return (epoll, [])
  | epoll, socket :: sockets =>
    match epoll fd with
    | none => return (epoll, [])
    | some event => do
      let (epoll, bytes) ← handleEpollEvent handlers epoll event.data event.events socket
      let (epoll, more) ← run handlers fd epoll sockets
      return (epoll, bytes ++ more)

/-! ### Delivery -/

/-- What `send` can come to while a response is sent: it takes no more than it is asked to, and nothing
follows the last byte or a failure. -/
def Possible : Nat → List SendResult → Prop
  | _, [] => True
  | remaining, .sent count :: sends =>
    count ≤ remaining ∧ (count < remaining ∧ Possible (remaining - count) sends ∨
      count = remaining ∧ sends = [])
  | remaining, .again :: sends => Possible remaining sends
  | _, .failed :: sends => sends = []

/-- How many bytes `send` takes. -/
def taken : List SendResult → Nat
  | [] => 0
  | .sent count :: sends => count + taken sends
  | _ :: sends => taken sends

/-- A response is sent from its start on, and in full when the connection waits for a request again. -/
def Delivered (handlers : Handlers HttpRequestHandler) (fd : Int) (epoll : Epoll)
    (sockets : List Socket) (response : List UInt8) : Prop :=
  ∃ last sent, run handlers fd epoll sockets = .ok (last, sent) ∧ sent <+: response ∧
    ∀ event, last fd = some event → event.events = .epollIn → sent = response

/-- Behind a NUL there are only others. -/
def NulsLast (bytes : List UInt8) : Prop := ∀ b ∈ bytes.dropWhile (· ≠ 0), b = 0

instance (bytes : List UInt8) : Decidable (NulsLast bytes) :=
  inferInstanceAs (Decidable (∀ b ∈ bytes.dropWhile (· ≠ 0), b = 0))

/-- What `send` comes to is harmless for a response. -/
structure Deliverable (response : List UInt8) (sends : List SendResult) : Prop where
  ready : SendResult.again ∉ sends
  buffered : taken sends ≤ kMaxBufferSize
  nulsLast : NulsLast (response.take (taken sends))

/-! ### One event -/

section Events

variable {handlers : Handlers HttpRequestHandler} {epoll : Epoll} {fd : Int} {event : EpollEvent}
  {data : EventData} {socket : Socket}

lemma controlEpollEvent_mod (h : epoll fd = some event) (new : EpollEvent) :
    controlEpollEvent epoll (.mod new) fd = .ok (Function.update epoll fd (some new)) := by
  simp [controlEpollEvent, epollCtl, h, Pure.pure, Except.pure]

lemma controlEpollEvent_del (h : epoll fd = some event) :
    controlEpollEvent epoll .del fd = .ok (Function.update epoll fd none) := by
  simp [controlEpollEvent, epollCtl, h, Pure.pure, Except.pure]

lemma controlEpollEvent_add (h : epoll fd = some event) (new : EpollEvent) :
    controlEpollEvent epoll (.add new) fd =
      .error (.runtimeError "Failed to add file descriptor (Prometheus Server)") := by
  simp [controlEpollEvent, epollCtl, h, throw, throwThe, MonadExceptOf.throw]

/-- The data of a response. -/
def EventData.ofResponse (fd : Int) (response : List UInt8) : EventData where
  fd := fd
  length := response.length
  cursor := 0
  buffer := strncpy response kMaxBufferSize
  size_buffer := length_strncpy response kMaxBufferSize

/-- The data once more bytes are sent. -/
def EventData.advance (data : EventData) (count : Nat) : EventData :=
  { data with cursor := data.cursor + count, length := data.length - count }

lemma handleEpollEvent_received {received : Received} {response : List UInt8}
    (h : epoll data.fd = some event) (hrecv : socket.recv = .received received)
    (hresponse : responseString handlers (data.receive received).buffer = .ok response) :
    handleEpollEvent handlers epoll data .epollIn socket = .ok
      (Function.update epoll data.fd (some ⟨.epollOut, .ofResponse data.fd response⟩), []) := by
  rw [handleEpollEvent, hrecv]
  simp only [handleHttpData, hresponse, controlEpollEvent_mod h, Bind.bind, Except.bind, Pure.pure,
    Except.pure]
  rfl

lemma handleEpollEvent_sent_lt {count : Nat} (h : epoll data.fd = some event)
    (hsend : socket.send = .sent count) (hbuffer : data.cursor + count ≤ kMaxBufferSize)
    (hcount : count < data.length) :
    handleEpollEvent handlers epoll data .epollOut socket = .ok
      (Function.update epoll data.fd (some ⟨.epollOut, data.advance count⟩),
        (data.buffer.drop data.cursor).take count) := by
  rw [handleEpollEvent, hsend]
  simp only [EventData.read, hbuffer, hcount, if_true, controlEpollEvent_mod h, Bind.bind, Except.bind,
    Pure.pure, Except.pure]
  rfl

lemma handleEpollEvent_sent_ge {count : Nat} (h : epoll data.fd = some event)
    (hsend : socket.send = .sent count) (hbuffer : data.cursor + count ≤ kMaxBufferSize)
    (hcount : data.length ≤ count) :
    handleEpollEvent handlers epoll data .epollOut socket = .ok
      (Function.update epoll data.fd (some ⟨.epollIn, .new data.fd⟩),
        (data.buffer.drop data.cursor).take count) := by
  rw [handleEpollEvent, hsend]
  simp only [EventData.read, hbuffer, Nat.not_lt.mpr hcount, if_true, if_false,
    controlEpollEvent_mod h, Bind.bind, Except.bind, Pure.pure, Except.pure]

lemma handleEpollEvent_sent_overread {count : Nat} (hsend : socket.send = .sent count)
    (hbuffer : kMaxBufferSize < data.cursor + count) :
    handleEpollEvent handlers epoll data .epollOut socket = .error .undefinedBehaviour := by
  rw [handleEpollEvent, hsend]
  simp only [EventData.read, Nat.not_le.mpr hbuffer, if_false, Bind.bind, Except.bind, throw,
    throwThe, MonadExceptOf.throw]

/-- A connection that waits for room to send is still registered when its descriptor is added again. -/
lemma handleEpollEvent_again (h : epoll data.fd = some event) (hsend : socket.send = .again) :
    handleEpollEvent handlers epoll data .epollOut socket =
      .error (.runtimeError "Failed to add file descriptor (Prometheus Server)") := by
  rw [handleEpollEvent, hsend]
  simp only [controlEpollEvent_add h, Bind.bind, Except.bind]

lemma handleEpollEvent_failed (h : epoll data.fd = some event) (hsend : socket.send = .failed) :
    handleEpollEvent handlers epoll data .epollOut socket =
      .ok (Function.update epoll data.fd none, []) := by
  rw [handleEpollEvent, hsend]
  simp only [controlEpollEvent_del h, Bind.bind, Except.bind, Pure.pure, Except.pure]

end Events

/-! ### Many events -/

section Runs

variable {handlers : Handlers HttpRequestHandler} {epoll next : Epoll} {data : EventData}
  {event : EpollEvent} {socket : Socket} {sockets : List Socket} {bytes : List UInt8}

lemma run_cons (fd : Int) (h : epoll fd = some event)
    (hstep : handleEpollEvent handlers epoll event.data event.events socket = .ok (next, bytes)) :
    run handlers fd epoll (socket :: sockets) =
      (run handlers fd next sockets).map (fun r => (r.1, bytes ++ r.2)) := by
  simp only [run, h, hstep, Bind.bind, Except.bind]
  cases run handlers fd next sockets <;> rfl

lemma run_cons_error (fd : Int) {e : ServerException} (h : epoll fd = some event)
    (hstep : handleEpollEvent handlers epoll event.data event.events socket = .error e) :
    run handlers fd epoll (socket :: sockets) = .error e := by
  simp only [run, h, hstep, Bind.bind, Except.bind]

lemma run_received {received : Received} {response : List UInt8}
    (h : epoll data.fd = some ⟨.epollIn, data⟩) (hrecv : socket.recv = .received received)
    (hresponse : responseString handlers (data.receive received).buffer = .ok response) :
    run handlers data.fd epoll (socket :: sockets) = run handlers data.fd
      (Function.update epoll data.fd (some ⟨.epollOut, .ofResponse data.fd response⟩)) sockets := by
  rw [run_cons data.fd h (handleEpollEvent_received h hrecv hresponse)]
  cases run handlers data.fd
    (Function.update epoll data.fd (some ⟨.epollOut, .ofResponse data.fd response⟩)) sockets <;> rfl

lemma run_sent_lt {count : Nat} (h : epoll data.fd = some ⟨.epollOut, data⟩)
    (hsend : socket.send = .sent count) (hbuffer : data.cursor + count ≤ kMaxBufferSize)
    (hcount : count < data.length) :
    run handlers data.fd epoll (socket :: sockets) = (run handlers (data.advance count).fd
      (Function.update epoll data.fd (some ⟨.epollOut, data.advance count⟩)) sockets).map
        (fun r => (r.1, (data.buffer.drop data.cursor).take count ++ r.2)) :=
  run_cons data.fd h (handleEpollEvent_sent_lt h hsend hbuffer hcount)

lemma run_sent_ge {count : Nat} (h : epoll data.fd = some ⟨.epollOut, data⟩)
    (hsend : socket.send = .sent count) (hbuffer : data.cursor + count ≤ kMaxBufferSize)
    (hcount : data.length ≤ count) :
    run handlers data.fd epoll [socket] =
      .ok (Function.update epoll data.fd (some ⟨.epollIn, .new data.fd⟩),
        (data.buffer.drop data.cursor).take count) := by
  rw [run_cons data.fd h (handleEpollEvent_sent_ge h hsend hbuffer hcount)]
  simp [run, Except.map, Pure.pure, Except.pure]

lemma run_failed (h : epoll data.fd = some ⟨.epollOut, data⟩) (hsend : socket.send = .failed) :
    run handlers data.fd epoll [socket] = .ok (Function.update epoll data.fd none, []) :=
  run_cons data.fd h (handleEpollEvent_failed h hsend)

lemma update_advance (count : Nat) :
    Function.update epoll data.fd (some ⟨.epollOut, data.advance count⟩) (data.advance count).fd =
      some ⟨.epollOut, data.advance count⟩ :=
  Function.update_self _ _ _

/-- While no call has to be repeated and the buffer is not left, the bytes from the cursor on are
sent. -/
lemma run_sending (handlers : Handlers HttpRequestHandler)
    (h : epoll data.fd = some ⟨.epollOut, data⟩)
    (hpossible : Possible data.length (sockets.map Socket.send))
    (hready : SendResult.again ∉ sockets.map Socket.send)
    (hbuffer : data.cursor + taken (sockets.map Socket.send) ≤ kMaxBufferSize) :
    ∃ last, run handlers data.fd epoll sockets =
        .ok (last, (data.buffer.drop data.cursor).take (taken (sockets.map Socket.send))) ∧
      ∀ event, last data.fd = some event → event.events = .epollIn →
        taken (sockets.map Socket.send) = data.length := by
  induction sockets generalizing epoll data with
  | nil =>
    refine ⟨epoll, rfl, ?_⟩
    intro event hevent hin
    rw [h, Option.some.injEq] at hevent
    rw [← hevent] at hin
    cases hin
  | cons socket sockets ih =>
    rw [List.map_cons] at hpossible hready hbuffer ⊢
    cases hsend : socket.send with
    | sent count =>
      rw [hsend] at hpossible hready hbuffer
      rw [taken, ← Nat.add_assoc] at hbuffer
      have hcount : data.cursor + count ≤ kMaxBufferSize := le_trans (Nat.le_add_right _ _) hbuffer
      obtain ⟨-, ⟨hlt, hrest⟩ | ⟨heq, hnil⟩⟩ := hpossible
      · have hready' : SendResult.again ∉ sockets.map Socket.send :=
          fun hmem => hready (List.mem_cons_of_mem _ hmem)
        obtain ⟨last, hrun, hlast⟩ := ih (update_advance count) hrest hready' hbuffer
        refine ⟨last, ?_, ?_⟩
        · rw [run_sent_lt h hsend hcount hlt, hrun, taken, List.take_add, List.drop_drop]
          rfl
        · intro event hevent hin
          have hlength := hlast event hevent hin
          rw [taken, hlength]
          exact Nat.add_sub_cancel' hlt.le
      · have hsockets : sockets = [] := List.map_eq_nil_iff.mp hnil
        subst hsockets
        exact ⟨_, run_sent_ge h hsend hcount heq.ge, fun _ _ _ => heq⟩
    | again => exact absurd (by rw [hsend]; exact List.mem_cons_self) hready
    | failed =>
      rw [hsend] at hpossible
      have hsockets : sockets = [] := List.map_eq_nil_iff.mp hpossible
      subst hsockets
      refine ⟨_, run_failed h hsend, ?_⟩
      intro event hevent
      rw [Function.update_self] at hevent
      cases hevent

/-- A run of a connection that sends neither repeats a call nor leaves the buffer. -/
lemma ready_of_run (h : epoll data.fd = some ⟨.epollOut, data⟩)
    (hpossible : Possible data.length (sockets.map Socket.send))
    (hcursor : data.cursor ≤ kMaxBufferSize)
    (hrun : run handlers data.fd epoll sockets = .ok (next, bytes)) :
    SendResult.again ∉ sockets.map Socket.send ∧
      data.cursor + taken (sockets.map Socket.send) ≤ kMaxBufferSize := by
  induction sockets generalizing epoll data next bytes with
  | nil => exact ⟨List.not_mem_nil, hcursor⟩
  | cons socket sockets ih =>
    rw [List.map_cons] at hpossible ⊢
    cases hsend : socket.send with
    | sent count =>
      rw [hsend] at hpossible
      rw [taken, ← Nat.add_assoc]
      have hcount : data.cursor + count ≤ kMaxBufferSize := by
        by_contra hover
        have hover : kMaxBufferSize < data.cursor + count := Nat.lt_of_not_le hover
        rw [run_cons_error _ h (handleEpollEvent_sent_overread hsend hover)] at hrun
        cases hrun
      obtain ⟨-, ⟨hlt, hrest⟩ | ⟨heq, hnil⟩⟩ := hpossible
      · rw [run_sent_lt h hsend hcount hlt] at hrun
        cases hmore : run handlers (data.advance count).fd
            (Function.update epoll data.fd (some ⟨.epollOut, data.advance count⟩)) sockets with
        | error e =>
          rw [hmore] at hrun
          cases hrun
        | ok result =>
          obtain ⟨hready, hbuffer⟩ := ih (update_advance count) hrest hcount hmore
          exact ⟨by simpa using hready, hbuffer⟩
      · rw [hnil]
        exact ⟨by simp, hcount⟩
    | again =>
      rw [run_cons_error _ h (handleEpollEvent_again h hsend)] at hrun
      cases hrun
    | failed =>
      rw [hsend] at hpossible
      rw [show sockets.map Socket.send = [] from hpossible]
      exact ⟨by simp, hcursor⟩

end Runs

/-! ### Other connections -/

section Frame

variable {handlers : Handlers HttpRequestHandler} {epoll next : Epoll} {fd : Int} {data : EventData}
  {events : EpollEvents} {socket : Socket} {sockets : List Socket} {bytes : List UInt8}

/-- What an operation leaves registered for its descriptor. -/
def EpollOp.registration : EpollOp → Option EpollEvent
  | .add event => some event
  | .mod event => some event
  | .del => none

lemma epollCtl_eq_some {op : EpollOp} (h : epollCtl epoll fd op = some next) :
    next = Function.update epoll fd (op.registration) := by
  cases op with
  | add event =>
    rw [epollCtl, Option.ite_none_left_eq_some] at h
    exact (Option.some.inj h.2).symm
  | mod event =>
    rw [epollCtl, Option.ite_none_right_eq_some] at h
    exact (Option.some.inj h.2).symm
  | del =>
    rw [epollCtl, Option.ite_none_right_eq_some] at h
    exact (Option.some.inj h.2).symm

lemma eq_update_of_control {op : EpollOp} {sent : List UInt8}
    (h : (do let epoll ← controlEpollEvent epoll op fd
             return (epoll, sent)) = (.ok (next, bytes) : Except ServerException _)) :
    next = Function.update epoll fd (op.registration) := by
  cases hctl : epollCtl epoll fd op with
  | none =>
    cases op <;> simp [controlEpollEvent, hctl, Bind.bind, Except.bind, throw, throwThe,
      MonadExceptOf.throw] at h
  | some changed =>
    simp only [controlEpollEvent, hctl, Bind.bind, Except.bind, Pure.pure, Except.pure, Except.ok.injEq,
      Prod.mk.injEq] at h
    rw [← h.1]
    exact epollCtl_eq_some hctl

/-- An event of a connection changes the registration of its descriptor and of no other. -/
lemma handleEpollEvent_update
    (h : handleEpollEvent handlers epoll data events socket = .ok (next, bytes)) :
    ∃ registration, next = Function.update epoll data.fd registration ∧
      ∀ event ∈ registration, event.data.fd = data.fd := by
  cases events with
  | epollIn =>
    rw [handleEpollEvent] at h
    cases hrecv : socket.recv with
    | received received =>
      cases hresponse : responseString handlers (data.receive received).buffer with
      | error e => simp [hrecv, handleHttpData, hresponse, Bind.bind, Except.bind] at h
      | ok response =>
        simp only [hrecv, handleHttpData, hresponse] at h
        refine ⟨_, eq_update_of_control h, ?_⟩
        rintro event ⟨⟩
        rfl
    | closed =>
      rw [hrecv] at h
      exact ⟨_, eq_update_of_control h, fun _ hnone => nomatch hnone⟩
    | again =>
      rw [hrecv] at h
      refine ⟨_, eq_update_of_control h, ?_⟩
      rintro event ⟨⟩
      rfl
    | failed =>
      rw [hrecv] at h
      exact ⟨_, eq_update_of_control h, fun _ hnone => nomatch hnone⟩
  | epollOut =>
    rw [handleEpollEvent] at h
    cases hsend : socket.send with
    | sent count =>
      rw [hsend] at h
      by_cases hbuffer : data.cursor + count ≤ kMaxBufferSize
      · by_cases hcount : count < data.length
        · simp only [EventData.read, hbuffer, hcount, if_true] at h
          refine ⟨_, eq_update_of_control h, ?_⟩
          rintro event ⟨⟩
          rfl
        · simp only [EventData.read, hbuffer, hcount, if_true, if_false] at h
          refine ⟨_, eq_update_of_control h, ?_⟩
          rintro event ⟨⟩
          rfl
      · simp only [EventData.read, hbuffer, if_false] at h
        cases h
    | again =>
      rw [hsend] at h
      refine ⟨_, eq_update_of_control h, ?_⟩
      rintro event ⟨⟩
      rfl
    | failed =>
      rw [hsend] at h
      exact ⟨_, eq_update_of_control h, fun _ hnone => nomatch hnone⟩

/-- Every descriptor is registered with data of its own. -/
def Owned (epoll : Epoll) : Prop := ∀ fd event, epoll fd = some event → event.data.fd = fd

lemma Owned.update {registration : Option EpollEvent} (howned : Owned epoll)
    (h : ∀ event ∈ registration, event.data.fd = fd) : Owned (Function.update epoll fd registration) := by
  intro other event hevent
  by_cases hother : other = fd
  · subst hother
    rw [Function.update_self] at hevent
    exact h event hevent
  · rw [Function.update_of_ne hother] at hevent
    exact howned other event hevent

/-- The events of a connection leave the registrations of all others alone. -/
theorem run_frame (howned : Owned epoll) (h : run handlers fd epoll sockets = .ok (next, bytes)) :
    Owned next ∧ ∀ other, other ≠ fd → next other = epoll other := by
  induction sockets generalizing epoll next bytes with
  | nil =>
    cases h
    exact ⟨howned, fun _ _ => rfl⟩
  | cons socket sockets ih =>
    cases hregistered : epoll fd with
    | none =>
      rw [run, hregistered] at h
      cases h
      exact ⟨howned, fun _ _ => rfl⟩
    | some event =>
      cases hstep : handleEpollEvent handlers epoll event.data event.events socket with
      | error e =>
        rw [run_cons_error fd hregistered hstep] at h
        cases h
      | ok result =>
        obtain ⟨changed, sent⟩ := result
        rw [run_cons fd hregistered hstep] at h
        obtain ⟨registration, hchanged, hdata⟩ := handleEpollEvent_update hstep
        rw [howned fd event hregistered] at hchanged hdata
        cases hrest : run handlers fd changed sockets with
        | error e =>
          rw [hrest] at h
          cases h
        | ok rest =>
          rw [hrest] at h
          cases h
          obtain ⟨howned', hother⟩ := ih (by rw [hchanged]; exact howned.update hdata) hrest
          refine ⟨howned', fun other hne => ?_⟩
          rw [hother other hne, hchanged, Function.update_of_ne hne]

end Frame

/-! ### The greeting -/

/-- What a handler returns is serialised, without its content for `HEAD`. -/
lemma responseString_of_handler {handlers : Handlers HttpRequestHandler} {buffer : List UInt8}
    {request : HttpRequest} {callback : HttpRequestHandler} {response : HttpResponse}
    (hnul : 0 ∈ buffer) (hparse : stringToRequest (cString buffer) = .ok request)
    (hdispatch : dispatch handlers request.uri request.method = .run callback)
    (hcallback : callback request = .ok response) :
    responseString handlers buffer = .ok (response.toText (request.method ≠ .head)) := by
  rw [responseString, if_pos hnul]
  simp only [hparse, handleHttpRequest, hdispatch, hcallback]
  rfl

/-- A connection that has been accepted. -/
def accepted (fd : Int) : Epoll := Function.update (fun _ => none) fd (some ⟨.epollIn, .new fd⟩)

def greetingsRequest : Received := ⟨text "GET / HTTP/1.1\r\n\r\n", by decide, by decide⟩

def greetingsResponse : List UInt8 :=
  text "HTTP/1.1 200 OK\r\nContent-Length: 13\r\nContent-Type: text/plain\r\n\r\nGOTO /metrics"

lemma responseString_greetings (fd : Int) :
    responseString (registerAll (serverCalls greetings []))
      ((EventData.new fd).receive greetingsRequest).buffer = .ok greetingsResponse := by
  let buffer := ((EventData.new fd).receive greetingsRequest).buffer
  have hnul : 0 ∈ buffer := by
    apply List.mem_append_right
    rw [EventData.new, List.drop_replicate]
    exact List.mem_replicate.mpr ⟨by decide, rfl⟩
  have hparse : stringToRequest (cString buffer) =
      .ok { toHttpMessage := HttpMessage.setContent {} [], uri := Uri.ofPath (text "/") } := (rfl)
  have hdispatch : dispatch (registerAll (serverCalls greetings [])) (Uri.ofPath (text "/")) .get =
      .run greetings := rfl
  exact responseString_of_handler hnul hparse hdispatch rfl

/-! ### Whole responses -/

lemma strncpy_cons_of_ne {b : UInt8} (h : b ≠ 0) (source : List UInt8) (n : Nat) :
    strncpy (b :: source) (n + 1) = b :: strncpy source n := by
  simp [strncpy, cString, h]

lemma strncpy_cons_nul (source : List UInt8) (n : Nat) :
    strncpy (0 :: source) n = List.replicate n 0 := by
  simp [strncpy, cString]

/-- The copy begins like its source as long as no NUL of the source hides anything. -/
lemma strncpy_take_prefix_iff {source : List UInt8} {n taken : Nat} (hn : taken ≤ n)
    (hsource : taken ≤ source.length) :
    (strncpy source n).take taken <+: source ↔ NulsLast (source.take taken) := by
  induction source generalizing n taken with
  | nil =>
    obtain rfl : taken = 0 := Nat.le_zero.mp hsource
    simp [NulsLast]
  | cons b source ih =>
    cases taken with
    | zero => simp [NulsLast]
    | succ taken =>
      obtain ⟨n, rfl⟩ : ∃ m, n = m + 1 := ⟨n - 1, by omega⟩
      by_cases hb : b = 0
      · subst hb
        rw [strncpy_cons_nul, List.take_replicate, Nat.min_eq_left hn, List.prefix_iff_eq_take,
          List.length_replicate, eq_comm, List.eq_replicate_iff, List.length_take,
          Nat.min_eq_left hsource, NulsLast, List.take_succ_cons]
        simp
      · rw [strncpy_cons_of_ne hb, List.take_succ_cons, List.take_succ_cons, List.cons_prefix_cons,
          ih (by omega) (Nat.le_of_succ_le_succ hsource)]
        simp [NulsLast, hb]

lemma taken_le {remaining : Nat} {sends : List SendResult} (h : Possible remaining sends) :
    taken sends ≤ remaining := by
  induction sends generalizing remaining with
  | nil => exact Nat.zero_le _
  | cons result sends ih =>
    cases result with
    | sent count =>
      rw [taken]
      obtain ⟨-, ⟨hlt, hrest⟩ | ⟨heq, hnil⟩⟩ := h
      · have hle := ih hrest
        omega
      · rw [hnil]
        exact heq.le
    | again => exact ih h
    | failed =>
      rw [show sends = [] from h]
      exact Nat.zero_le _

/-- A response is delivered exactly when no call of `send` has to be repeated, no more than the buffer
is sent, and no NUL of the response hides any of it. -/
theorem delivered_iff {handlers : Handlers HttpRequestHandler} {epoll : Epoll} {request : EventData}
    {socket : Socket} {sockets : List Socket} {received : Received} {response : List UInt8}
    (hregistered : epoll request.fd = some ⟨.epollIn, request⟩)
    (hrecv : socket.recv = .received received)
    (hresponse : responseString handlers (request.receive received).buffer = .ok response)
    (hpossible : Possible response.length (sockets.map Socket.send)) :
    Delivered handlers request.fd epoll (socket :: sockets) response ↔
      Deliverable response (sockets.map Socket.send) := by
  let data := EventData.ofResponse request.fd response
  let sending := Function.update epoll data.fd (some ⟨.epollOut, data⟩)
  have hsending : sending data.fd = some ⟨.epollOut, data⟩ := Function.update_self _ _ _
  have hrun : run handlers request.fd epoll (socket :: sockets) =
      run handlers data.fd sending sockets := run_received hregistered hrecv hresponse
  have htaken := taken_le hpossible
  have hcursor : data.cursor + taken (sockets.map Socket.send) = taken (sockets.map Socket.send) :=
    Nat.zero_add _
  rw [Delivered, hrun]
  constructor
  · rintro ⟨last, sent, hlast, hprefix, -⟩
    obtain ⟨hready, hbuffer⟩ := ready_of_run hsending hpossible (Nat.zero_le _) hlast
    obtain ⟨last', hlast', -⟩ := run_sending handlers hsending hpossible hready hbuffer
    rw [hlast] at hlast'
    cases hlast'
    rw [hcursor] at hbuffer
    exact ⟨hready, hbuffer, (strncpy_take_prefix_iff hbuffer htaken).mp hprefix⟩
  · rintro ⟨hready, hbuffer, hnuls⟩
    have hprefix := (strncpy_take_prefix_iff hbuffer htaken).mpr hnuls
    have hroom : data.cursor + taken (sockets.map Socket.send) ≤ kMaxBufferSize := by
      rw [hcursor]
      exact hbuffer
    obtain ⟨last, hlast, hin⟩ := run_sending handlers hsending hpossible hready hroom
    refine ⟨last, _, hlast, hprefix, ?_⟩
    intro event hevent hevents
    have hall : taken (sockets.map Socket.send) = response.length := hin event hevent hevents
    apply hprefix.eq_of_length
    rw [List.length_take, length_strncpy, ← hall, Nat.min_eq_left hbuffer]

/-- The greeting of the server may be sent in pieces. -/
theorem delivered_greetings :
    Delivered (registerAll (serverCalls greetings [])) 5 (accepted 5)
      [⟨.received greetingsRequest, .failed⟩, ⟨.again, .sent 50⟩, ⟨.again, .sent 0⟩,
        ⟨.again, .sent 28⟩] greetingsResponse := by
  have hpossible : Possible greetingsResponse.length [.sent 50, .sent 0, .sent 28] := by
    simp [Possible, show greetingsResponse.length = 78 from rfl]
  have hnuls : greetingsResponse.dropWhile (· ≠ 0) = [] := rfl
  have hdeliverable : Deliverable greetingsResponse [.sent 50, .sent 0, .sent 28] := by
    refine ⟨by decide, by decide, ?_⟩
    rw [NulsLast, List.take_of_length_le (by rfl), hnuls]
    exact fun _ hb => nomatch hb
  exact (@delivered_iff _ (accepted 5) (.new 5) _ [⟨.again, .sent 50⟩, ⟨.again, .sent 0⟩,
    ⟨.again, .sent 28⟩] _ _ rfl rfl (responseString_greetings 5) hpossible).mpr hdeliverable

/-- A client that does not read for a while ends the worker, although the greeting is short. -/
theorem greetings_not_delivered :
    responseString (registerAll (serverCalls greetings []))
        ((EventData.new 5).receive greetingsRequest).buffer = .ok greetingsResponse ∧
      Possible greetingsResponse.length [.again] ∧
      ¬Delivered (registerAll (serverCalls greetings [])) 5 (accepted 5)
        [⟨.received greetingsRequest, .failed⟩, ⟨.again, .again⟩] greetingsResponse := by
  refine ⟨responseString_greetings 5, trivial, ?_⟩
  rintro ⟨last, sent, hrun, -, -⟩
  have herror : run (registerAll (serverCalls greetings [])) 5 (accepted 5)
      [⟨.received greetingsRequest, .failed⟩, ⟨.again, .again⟩] =
        .error (.runtimeError "Failed to add file descriptor (Prometheus Server)") := by
    rfl
  rw [herror] at hrun
  cases hrun

end PromEndp

end Dibibase
