import Mathlib.Data.Finset.Basic
import Dibibase.Library.Execution
import Dibibase.PromEndp.HttpServer

/-!
# The threads of the endpoint for metrics

The listener hands the connections it accepts to the workers in turn. Each worker has an `epoll`
instance of its own, asks it for ready connections and handles them one after the other. The data of a
connection is on the heap, and `epoll` keeps its address. Meanwhile the thread of the CQL server registers
the handler for the metrics again and again, and no lock protects the map of the handlers.
-/

namespace Dibibase

open Library

namespace PromEndp

def kThreadPoolSize : Nat := 5

instance : NeZero kThreadPoolSize := ⟨by decide⟩

def kMaxEvents : Nat := 10000

/-- The bits of an event. -/
structure EventMask where
  epollIn : Bool := false
  epollOut : Bool := false
  epollErr : Bool := false
  epollHup : Bool := false
  deriving DecidableEq, Repr

/-- One event alone. -/
def EpollEvents.mask : EpollEvents → EventMask
  | .epollIn => { epollIn := true }
  | .epollOut => { epollOut := true }

/-- What `epoll_wait` can report of a connection: the requested event, errors and hang-ups. -/
def EventMask.Reports (mask : EventMask) (events : EpollEvents) : Prop :=
  (mask.epollIn → events = .epollIn) ∧ (mask.epollOut → events = .epollOut)

/-- The socket as the worker meets it: every other event than one alone ends the connection. -/
def EventMask.observed (mask : EventMask) (socket : Socket) : Socket :=
  if mask.epollHup ∨ mask.epollErr then ⟨.closed, .failed⟩
  else if mask = EpollEvents.epollIn.mask ∨ mask = EpollEvents.epollOut.mask then socket
  else ⟨.closed, .failed⟩

/-- What `epoll` keeps of a connection: the requested event and the address of the data. -/
structure Interest where
  events : EpollEvents
  ptr : Nat
  deriving DecidableEq, Repr

/-- `HttpServer`, with the connections of the process, the data on the heap, and the call of
`RegisterHttpRequestHandler` that is under way. -/
structure HttpServer where
  handlers : Handlers HttpRequestHandler
  registering : Option (Registration HttpRequestHandler)
  heap : Nat → Option EventData
  connections : Finset Int
  epolls : Fin kThreadPoolSize → Int → Option Interest
  /-- `worker_events_`, from the next event on. -/
  pending : Fin kThreadPoolSize → List (EventMask × Nat)
  currentWorker : Fin kThreadPoolSize

abbrev ServerM := EStateM ServerException HttpServer

namespace HttpServer

/-- The server after `Start`, with the handlers that have been registered before. -/
def start (handlers : Handlers HttpRequestHandler) : HttpServer where
  handlers := handlers
  registering := none
  heap := fun _ => none
  connections := ∅
  epolls := fun _ _ => none
  pending := fun _ => []
  currentWorker := ⟨0, by decide⟩

/-! ### Memory and descriptors -/

def ofExcept {α : Type} : Except ServerException α → ServerM α
  | .ok a => return a
  | .error e => throw e

/-- The server with other data at an address. -/
def setHeap (ptr : Nat) (data : Option EventData) (s : HttpServer) : HttpServer :=
  { s with heap := Function.update s.heap ptr data }

/-- A read through an address, which must not be dangling. -/
def load (ptr : Nat) : ServerM EventData := do
  match (← get).heap ptr with
  | some data => return data
  | none => throw .undefinedBehaviour

/-- The data at an allocated address. -/
def store (ptr : Nat) (data : EventData) : ServerM Unit := do
  let _ ← load ptr
  modify (setHeap ptr (some data))

/-- `new EventData()`, at the address that the allocator chooses. -/
def newData (fresh : Nat) (data : EventData) : ServerM Unit :=
  modify (setHeap fresh (some data))

/-- `delete`. -/
def delete (ptr : Nat) : ServerM Unit := do
  let _ ← load ptr
  modify (setHeap ptr none)

/-- The registration of a descriptor. -/
def register (worker : Fin kThreadPoolSize) (fd : Int) (interest : Option Interest) (s : HttpServer) :
    HttpServer :=
  { s with epolls := Function.update s.epolls worker (Function.update (s.epolls worker) fd interest) }

inductive Control where
  | add (interest : Interest)
  | mod (interest : Interest)
  | del

/-- `control_epoll_event`. -/
def controlEpollEvent (worker : Fin kThreadPoolSize) (op : Control) (fd : Int) : ServerM Unit := do
  let registered := ((← get).epolls worker fd).isSome
  match op with
  | .add interest =>
    if registered then throw (.runtimeError "Failed to add file descriptor (Prometheus Server)")
    else modify (register worker fd (some interest))
  | .mod interest =>
    if registered then modify (register worker fd (some interest))
    else throw (.runtimeError "Failed to add file descriptor (Prometheus Server)")
  | .del =>
    if registered then modify (register worker fd none)
    else throw (.runtimeError "Failed to remove file descriptor (Prometheus Server)")

/-- The end of a connection. -/
def hangUp (worker : Fin kThreadPoolSize) (ptr : Nat) (fd : Int) : ServerM Unit := do
  controlEpollEvent worker .del fd
  modify (fun s => { s with connections := s.connections.erase fd })
  delete ptr

/-! ### The threads -/

/-- `HandleHttpData` gets as far as `HandleHttpRequest`. -/
def LooksUp (buffer : List UInt8) : Prop := 0 ∈ buffer ∧ (stringToRequest (cString buffer)).isOk

instance (buffer : List UInt8) : Decidable (LooksUp buffer) :=
  inferInstanceAs (Decidable (0 ∈ buffer ∧ (stringToRequest (cString buffer)).isOk))

/-- `HandleHttpData`. To look for a handler in a map that another thread is changing is a race. -/
def handleHttpData (rawRequest rawResponse : EventData) : ServerM EventData := do
  let s ← get
  if s.registering.isSome ∧ LooksUp rawRequest.buffer then throw .undefinedBehaviour
  else ofExcept (PromEndp.handleHttpData s.handlers rawRequest rawResponse)

/-- `HandleEpollEvent`, with the bytes that the socket takes. -/
def handleEpollEvent (worker : Fin kThreadPoolSize) (ptr : Nat)
    (events : EpollEvents) (socket : Socket) (fresh : Nat) : ServerM (List UInt8) := do
  let data ← load ptr
  let fd := data.fd
  match events with
  | .epollIn =>
    match socket.recv with
    | .received received =>
      let request := data.receive received
      store ptr request
      newData fresh (.new fd)
      let response ← handleHttpData request (.new fd)
      store fresh response
      controlEpollEvent worker (.mod ⟨.epollOut, fresh⟩) fd
      delete ptr
      return []
    | .closed =>
      hangUp worker ptr fd
      return []
    | .again =>
      store ptr { data with fd }
      controlEpollEvent worker (.mod ⟨.epollIn, ptr⟩) fd
      return []
    | .failed =>
      hangUp worker ptr fd
      return []
  | .epollOut =>
    match socket.send with
    | .sent count =>
      let bytes ← ofExcept (data.read count)
      if count < data.length then
        store ptr { data with cursor := data.cursor + count, length := data.length - count }
        controlEpollEvent worker (.mod ⟨.epollOut, ptr⟩) fd
      else
        newData fresh (.new fd)
        controlEpollEvent worker (.mod ⟨.epollIn, fresh⟩) fd
        delete ptr
      return bytes
    | .again =>
      controlEpollEvent worker (.add ⟨.epollOut, ptr⟩) fd
      return []
    | .failed =>
      hangUp worker ptr fd
      return []

def setPending (worker : Fin kThreadPoolSize) (events : List (EventMask × Nat)) (s : HttpServer) :
    HttpServer :=
  { s with pending := Function.update s.pending worker events }

/-- One event of the loop in `ProcessEvents`. -/
def processEvent (worker : Fin kThreadPoolSize) (socket : Socket) (fresh : Nat) :
    ServerM (List (Int × List UInt8)) := do
  match (← get).pending worker with
  | [] => return []
  | (mask, ptr) :: pending =>
    modify (setPending worker pending)
    let data ← load ptr
    if mask.epollHup ∨ mask.epollErr then
      hangUp worker ptr data.fd
      return [(data.fd, [])]
    else if mask = EpollEvents.epollIn.mask then
      let bytes ← handleEpollEvent worker ptr .epollIn socket fresh
      return [(data.fd, bytes)]
    else if mask = EpollEvents.epollOut.mask then
      let bytes ← handleEpollEvent worker ptr .epollOut socket fresh
      return [(data.fd, bytes)]
    else
      hangUp worker ptr data.fd
      return [(data.fd, [])]

/-- After the last worker it is the turn of the first. -/
def nextWorker (worker : Fin kThreadPoolSize) : Fin kThreadPoolSize :=
  if h : worker.val + 1 = kThreadPoolSize then ⟨0, by decide⟩ else ⟨worker.val + 1, by omega⟩

/-- One connection of the loop in `Listen`. -/
def accept (fd : Int) (fresh : Nat) : ServerM Unit := do
  modify (fun s => { s with connections := insert fd s.connections })
  newData fresh (.new fd)
  let worker := (← get).currentWorker
  controlEpollEvent worker (.add ⟨.epollIn, fresh⟩) fd
  modify (fun s => { s with currentWorker := nextWorker s.currentWorker })

/-- The server while a handler is registered. -/
def beginRegistration (registration : Registration HttpRequestHandler) (s : HttpServer) : HttpServer :=
  { s with registering := some registration }

/-- The server when the handler has been registered. -/
def endRegistration (registration : Registration HttpRequestHandler) (s : HttpServer) : HttpServer :=
  { s with handlers := PromEndp.register s.handlers registration, registering := none }

/-- A step of one of the threads, with what the kernel and the allocator give to it. A call of
`RegisterHttpRequestHandler` takes two steps, and the other threads go on between them. -/
inductive Action where
  | accept (fd : Int) (fresh : Nat)
  | wait (worker : Fin kThreadPoolSize) (ready : List (EventMask × Nat))
  | event (worker : Fin kThreadPoolSize) (socket : Socket) (fresh : Nat)
  | beginRegistration (registration : Registration HttpRequestHandler)
  | endRegistration

/-- The step, with the bytes that are sent. -/
def Action.run : Action → ServerM (List (Int × List UInt8))
  | .accept fd fresh => do
    HttpServer.accept fd fresh
    return []
  | .wait worker ready => do
    modify (setPending worker ready)
    return []
  | .event worker socket fresh => processEvent worker socket fresh
  | .beginRegistration registration => do
    modify (HttpServer.beginRegistration registration)
    return []
  | .endRegistration => do
    match (← get).registering with
    | none => return []
    | some registration =>
      modify (HttpServer.endRegistration registration)
      return []

/-- What ends the process at an event: a request that leaves no room for its end or whose handler is looked
for while one is registered, a response that goes beyond the buffer, and a client that does not take any of
it now. -/
def Fatal (s : HttpServer) (data : EventData) : EpollEvents → Socket → Prop
  | .epollIn, socket => ∃ received, socket.recv = .received received ∧
      (0 ∉ (data.receive received).buffer ∨
        s.registering.isSome ∧ LooksUp (data.receive received).buffer)
  | .epollOut, socket =>
    socket.send = .again ∨ ∃ count, socket.send = .sent count ∧ kMaxBufferSize < data.cursor + count

/-- The next event of the worker ends the process. -/
def Action.Fatal (s : HttpServer) : Action → Prop
  | .accept _ _ => False
  | .wait _ _ => False
  | .event worker socket _ =>
    ∃ mask ptr rest data interest, s.pending worker = (mask, ptr) :: rest ∧ s.heap ptr = some data ∧
      s.epolls worker data.fd = some interest ∧
      HttpServer.Fatal s data interest.events (mask.observed socket)
  | .beginRegistration _ => False
  | .endRegistration => False

/-- The steps of the threads in any order. -/
def runActions : List Action → ServerM (List (Int × List UInt8))
  | [] => return []
  | action :: actions => do
    let sent ← action.run
    let more ← runActions actions
    return sent ++ more

/-- What the kernel and the allocator can give: a descriptor and an address that are not in use, and
events of registered connections, one for each. Handlers are registered by one thread. -/
def Action.Possible (s : HttpServer) : Action → Prop
  | .accept fd fresh => fd ∉ s.connections ∧ s.heap fresh = none
  | .wait worker ready =>
    s.pending worker = [] ∧ ready.length ≤ kMaxEvents ∧ (ready.map Prod.snd).Nodup ∧
      ∀ event ∈ ready, ∃ fd interest, s.epolls worker fd = some interest ∧ interest.ptr = event.2 ∧
        event.1.Reports interest.events
  | .event worker _ fresh => s.pending worker ≠ [] ∧ s.heap fresh = none
  | .beginRegistration _ => s.registering = none
  | .endRegistration => s.registering ≠ none

def PossibleRun : List Action → HttpServer → Prop
  | [], _ => True
  | action :: actions, s =>
    action.Possible s ∧ ∀ sent s', action.run s = .ok sent s' → PossibleRun actions s'

/-- What a connection meets at a step: the handlers of the server, and what its socket does. -/
def Action.meets (fd : Int) (s : HttpServer) : Action → List (Handlers HttpRequestHandler × Socket)
  | .accept _ _ => []
  | .wait _ _ => []
  | .event worker socket _ =>
    match s.pending worker with
    | [] => []
    | (mask, ptr) :: _ =>
      match s.heap ptr with
      | none => []
      | some data => if data.fd = fd then [(s.handlers, mask.observed socket)] else []
  | .beginRegistration _ => []
  | .endRegistration => []

/-- What a connection meets in a run. -/
def meetingsOf (fd : Int) : List Action → HttpServer → List (Handlers HttpRequestHandler × Socket)
  | [], _ => []
  | action :: actions, s => action.meets fd s ++ meetingsOf fd actions (stateAfter action.run s)

/-! ### One event -/

/-- The serialised response to a request, unless its handler is looked for while one is registered. -/
def answer (s : HttpServer) (buffer : List UInt8) : Except ServerException (List UInt8) :=
  if s.registering.isSome ∧ LooksUp buffer then throw .undefinedBehaviour
  else responseString s.handlers buffer

/-- What an event comes to: what is registered for the connection then, and the bytes that its socket
takes. -/
def reaction (answer : List UInt8 → Except ServerException (List UInt8)) (data : EventData) :
    EpollEvents → Socket → Except ServerException (Option EpollEvent × List UInt8)
  | .epollIn, socket =>
    match socket.recv with
    | .received received => do
      let response ← answer (data.receive received).buffer
      return (some ⟨.epollOut, .ofResponse data.fd response⟩, [])
    | .again => return (some ⟨.epollIn, data⟩, [])
    | .closed => return (none, [])
    | .failed => return (none, [])
  | .epollOut, socket =>
    match socket.send with
    | .sent count => do
      let bytes ← data.read count
      if count < data.length then return (some ⟨.epollOut, data.advance count⟩, bytes)
      else return (some ⟨.epollIn, .new data.fd⟩, bytes)
    | .again => throw (.runtimeError "Failed to add file descriptor (Prometheus Server)")
    | .failed => return (none, [])

/-- The server once the data of a connection has been replaced, at the address that is given with it, or
freed. -/
def replace (s : HttpServer) (worker : Fin kThreadPoolSize) (fd : Int) (ptr : Nat) :
    Option (EpollEvent × Nat) → HttpServer
  | none => setHeap ptr none { register worker fd none s with connections := s.connections.erase fd }
  | some (event, next) =>
    setHeap next (some event.data) (setHeap ptr none (register worker fd (some ⟨event.events, next⟩) s))

/-- A connection that waits for the same as before keeps its data. -/
def located (ptr fresh : Nat) (events : EpollEvents) (event : EpollEvent) : EpollEvent × Nat :=
  (event, if event.events = events then ptr else fresh)

section Event

variable {answer : List UInt8 → Except ServerException (List UInt8)} {s : HttpServer}
  {worker : Fin kThreadPoolSize} {ptr fresh : Nat} {data : EventData} {events : EpollEvents}
  {socket : Socket} {interest : Interest} {fd : Int}

lemma load_of_live (h : s.heap ptr = some data) : load ptr s = .ok data s := by
  rw [load, bind_of_ok (get_apply s)]
  simp only [h, pure_apply]

lemma store_of_live {old : EventData} (h : s.heap ptr = some old) (data : EventData) :
    store ptr data s = .ok () (setHeap ptr (some data) s) := by
  rw [store, bind_of_ok (load_of_live h), modify_apply]

lemma delete_of_live (h : s.heap ptr = some data) :
    delete ptr s = .ok () (setHeap ptr none s) := by
  rw [delete, bind_of_ok (load_of_live h), modify_apply]

lemma control_mod (h : s.epolls worker fd = some interest) (new : Interest) :
    controlEpollEvent worker (.mod new) fd s = .ok () (register worker fd (some new) s) := by
  rw [controlEpollEvent, bind_of_ok (get_apply s)]
  simp only [h, Option.isSome_some, if_true, modify_apply]

lemma control_del (h : s.epolls worker fd = some interest) :
    controlEpollEvent worker .del fd s = .ok () (register worker fd none s) := by
  rw [controlEpollEvent, bind_of_ok (get_apply s)]
  simp only [h, Option.isSome_some, if_true, modify_apply]

lemma control_add_registered (h : s.epolls worker fd = some interest) (new : Interest) :
    controlEpollEvent worker (.add new) fd s =
      .error (.runtimeError "Failed to add file descriptor (Prometheus Server)") s := by
  rw [controlEpollEvent, bind_of_ok (get_apply s)]
  simp only [h, Option.isSome_some, if_true, throw_apply]

lemma control_add (h : s.epolls worker fd = none) (new : Interest) :
    controlEpollEvent worker (.add new) fd s = .ok () (register worker fd (some new) s) := by
  rw [controlEpollEvent, bind_of_ok (get_apply s)]
  simp only [h, Option.isSome_none, Bool.false_eq_true, if_false, modify_apply]

lemma hangUp_eq (hheap : s.heap ptr = some data) (h : s.epolls worker fd = some interest) :
    hangUp worker ptr fd s = .ok () (s.replace worker fd ptr none) := by
  rw [hangUp, bind_of_ok (control_del h), bind_of_ok (modify_apply _ _)]
  exact delete_of_live hheap

/-- With values in the place of addresses, an event changes one registration. -/
lemma handleEpollEvent_eq_reaction {epoll : Epoll} {event : EpollEvent}
    (handlers : Handlers HttpRequestHandler) (h : epoll data.fd = some event) :
    PromEndp.handleEpollEvent handlers epoll data events socket =
      (reaction (responseString handlers) data events socket).map
        (fun r => (Function.update epoll data.fd r.1, r.2)) := by
  cases events with
  | epollIn =>
    rw [PromEndp.handleEpollEvent, reaction]
    cases hrecv : socket.recv with
    | received received =>
      cases hresponse : responseString handlers (data.receive received).buffer with
      | error e => simp only [PromEndp.handleHttpData, hresponse, Bind.bind, Except.bind, Except.map]
      | ok response =>
        simp only [PromEndp.handleHttpData, hresponse, controlEpollEvent_mod h, Bind.bind, Except.bind, Pure.pure,
          Except.pure, Except.map]
        rfl
    | closed => simp only [controlEpollEvent_del h, Bind.bind, Except.bind, Pure.pure, Except.pure, Except.map]
    | again => simp only [controlEpollEvent_mod h, Bind.bind, Except.bind, Pure.pure, Except.pure, Except.map]
    | failed => simp only [controlEpollEvent_del h, Bind.bind, Except.bind, Pure.pure, Except.pure, Except.map]
  | epollOut =>
    rw [PromEndp.handleEpollEvent, reaction]
    cases hsend : socket.send with
    | sent count =>
      cases hread : data.read count with
      | error e => simp only [hread, Bind.bind, Except.bind, Except.map]
      | ok bytes =>
        by_cases hcount : count < data.length
        · simp only [hread, hcount, if_true, controlEpollEvent_mod h, Bind.bind, Except.bind, Pure.pure,
            Except.pure, Except.map]
          rfl
        · simp only [hread, hcount, if_false, controlEpollEvent_mod h, Bind.bind, Except.bind, Pure.pure,
            Except.pure, Except.map]
    | again => simp only [controlEpollEvent_add h, Bind.bind, Except.bind, throw, throwThe,
        MonadExceptOf.throw, Except.map]
    | failed => simp only [controlEpollEvent_del h, Bind.bind, Except.bind, Pure.pure, Except.pure, Except.map]

lemma setHeap_heap_self (data : Option EventData) : (setHeap ptr data s).heap ptr = data :=
  Function.update_self _ _ _

lemma setHeap_heap_of_ne {ptr' : Nat} (h : ptr' ≠ ptr) (data : Option EventData) :
    (setHeap ptr data s).heap ptr' = s.heap ptr' := Function.update_of_ne h _ _

lemma setHeap_setHeap (data data' : Option EventData) :
    setHeap ptr data' (setHeap ptr data s) = setHeap ptr data' s := by
  rw [setHeap, setHeap, setHeap, Function.update_idem]

lemma setHeap_comm {ptr' : Nat} (h : ptr ≠ ptr') (data data' : Option EventData) :
    setHeap ptr data (setHeap ptr' data' s) = setHeap ptr' data' (setHeap ptr data s) := by
  simp only [setHeap, Function.update_comm h]

lemma register_setHeap (data : Option EventData) (new : Option Interest) :
    register worker fd new (setHeap ptr data s) = setHeap ptr data (register worker fd new s) := rfl

lemma replace_in_place (event : EpollEvent) :
    s.replace worker fd ptr (some (event, ptr)) =
      setHeap ptr (some event.data) (register worker fd (some ⟨event.events, ptr⟩) s) :=
  setHeap_setHeap none (some event.data)

/-- The end of a step that leaves the connection with new data. -/
lemma renew_eq (hheap : s.heap ptr = some data) (hepoll : s.epolls worker fd = some interest)
    (new : Interest) (bytes : List UInt8) :
    (do controlEpollEvent worker (.mod new) fd
        delete ptr
        return bytes) s = .ok bytes (setHeap ptr none (register worker fd (some new) s)) := by
  have hlive : (register worker fd (some new) s).heap ptr = some data := hheap
  rw [bind_of_ok (control_mod hepoll new), bind_of_ok (delete_of_live hlive), pure_apply]

/-- The end of a step that leaves the connection with its data. -/
lemma keep_eq (hepoll : s.epolls worker fd = some interest) (new : Interest) (bytes : List UInt8) :
    (do controlEpollEvent worker (.mod new) fd
        return bytes) s = .ok bytes (register worker fd (some new) s) := by
  rw [bind_of_ok (control_mod hepoll new), pure_apply]

/-- The end of a step that ends the connection. -/
lemma end_eq {α : Type} (hheap : s.heap ptr = some data) (hepoll : s.epolls worker fd = some interest)
    (a : α) :
    (do hangUp worker ptr fd
        return a) s = .ok a (s.replace worker fd ptr none) := by
  rw [bind_of_ok (hangUp_eq hheap hepoll), pure_apply]

lemma handleHttpData_eq {raw : EventData} {response : List UInt8} (fd : Int)
    (h : s.answer raw.buffer = .ok response) :
    handleHttpData raw (.new fd) s = .ok (.ofResponse fd response) s := by
  rw [HttpServer.answer] at h
  rw [handleHttpData, bind_of_ok (get_apply s)]
  by_cases hrace : s.registering.isSome ∧ LooksUp raw.buffer
  · rw [if_pos hrace] at h
    cases h
  · rw [if_neg hrace] at h
    rw [if_neg hrace, PromEndp.handleHttpData, h]
    rfl

lemma handleHttpData_error {raw : EventData} {e : ServerException} (fd : Int)
    (h : s.answer raw.buffer = .error e) : handleHttpData raw (.new fd) s = .error e s := by
  rw [HttpServer.answer] at h
  rw [handleHttpData, bind_of_ok (get_apply s)]
  by_cases hrace : s.registering.isSome ∧ LooksUp raw.buffer
  · rw [if_pos hrace] at h
    cases h
    rw [if_pos hrace, throw_apply]
  · rw [if_neg hrace] at h
    rw [if_neg hrace, PromEndp.handleHttpData, h]
    rfl

/-- A request has been received: its data is replaced by that of the response. -/
lemma handleEpollEvent_received {received : Received} {response : List UInt8}
    (hheap : s.heap ptr = some data) (hepoll : s.epolls worker data.fd = some interest)
    (hne : fresh ≠ ptr) (hrecv : socket.recv = .received received)
    (hresponse : s.answer (data.receive received).buffer = .ok response) :
    handleEpollEvent worker ptr .epollIn socket fresh s =
      .ok [] (s.replace worker data.fd ptr (some (⟨.epollOut, .ofResponse data.fd response⟩, fresh))) := by
  rw [handleEpollEvent, bind_of_ok (load_of_live hheap)]
  dsimp only
  rw [hrecv]
  dsimp only
  rw [bind_of_ok (store_of_live hheap _), newData, bind_of_ok (modify_apply _ _),
    bind_of_ok (handleHttpData_eq _ (by exact hresponse)),
    bind_of_ok (store_of_live (setHeap_heap_self _) _), setHeap_setHeap]
  have hrequest : (setHeap fresh (some (.ofResponse data.fd response))
      (setHeap ptr (some (data.receive received)) s)).heap ptr = some (data.receive received) := by
    rw [setHeap_heap_of_ne hne.symm, setHeap_heap_self]
  refine (renew_eq hrequest (by exact hepoll) _ _).trans ?_
  rw [register_setHeap, register_setHeap, setHeap_comm hne.symm, setHeap_setHeap]
  rfl

/-- A part of the response has been sent: what is left waits, or the connection waits for a request. -/
lemma handleEpollEvent_sent {count : Nat} {bytes : List UInt8}
    (hheap : s.heap ptr = some data) (hepoll : s.epolls worker data.fd = some interest)
    (hne : fresh ≠ ptr) (hsend : socket.send = .sent count) (hread : data.read count = .ok bytes) :
    handleEpollEvent worker ptr .epollOut socket fresh s = .ok bytes (s.replace worker data.fd ptr
      (if count < data.length then some (⟨.epollOut, data.advance count⟩, ptr)
      else some (⟨.epollIn, .new data.fd⟩, fresh))) := by
  rw [handleEpollEvent, bind_of_ok (load_of_live hheap)]
  dsimp only
  rw [hsend]
  dsimp only
  rw [hread, ofExcept, bind_of_ok (pure_apply _ _)]
  by_cases hcount : count < data.length
  · rw [if_pos hcount, if_pos hcount, bind_of_ok (store_of_live hheap _)]
    refine (keep_eq (by exact hepoll) _ _).trans ?_
    exact congrArg _ (replace_in_place ⟨.epollOut, data.advance count⟩).symm
  · rw [if_neg hcount, if_neg hcount, newData, bind_of_ok (modify_apply _ _)]
    have hresponse : (setHeap fresh (some (.new data.fd)) s).heap ptr = some data := by
      rw [setHeap_heap_of_ne hne.symm, hheap]
    refine (renew_eq hresponse (by exact hepoll) _ _).trans ?_
    rw [register_setHeap, setHeap_comm hne.symm]
    rfl

lemma handleEpollEvent_of_ok {next : Option EpollEvent} {bytes : List UInt8}
    (hheap : s.heap ptr = some data) (hepoll : s.epolls worker data.fd = some interest)
    (hfresh : s.heap fresh = none)
    (h : reaction s.answer data events socket = .ok (next, bytes)) :
    handleEpollEvent worker ptr events socket fresh s =
      .ok bytes (s.replace worker data.fd ptr (next.map (located ptr fresh events))) := by
  have hne : fresh ≠ ptr := by
    rintro rfl
    rw [hheap] at hfresh
    cases hfresh
  cases events with
  | epollIn =>
    rw [reaction] at h
    cases hrecv : socket.recv with
    | received received =>
      rw [hrecv] at h
      obtain ⟨response, hresponse, hnext⟩ := except_bind_eq_ok h
      cases hnext
      exact handleEpollEvent_received hheap hepoll hne hrecv hresponse
    | closed | failed =>
      rw [hrecv] at h
      cases h
      rw [handleEpollEvent, bind_of_ok (load_of_live hheap)]
      dsimp only
      rw [hrecv]
      exact end_eq hheap hepoll []
    | again =>
      rw [hrecv] at h
      cases h
      rw [handleEpollEvent, bind_of_ok (load_of_live hheap)]
      dsimp only
      rw [hrecv]
      dsimp only
      rw [bind_of_ok (store_of_live hheap _)]
      refine (keep_eq (by exact hepoll) _ _).trans ?_
      exact congrArg _ (replace_in_place ⟨.epollIn, data⟩).symm
  | epollOut =>
    rw [reaction] at h
    cases hsend : socket.send with
    | sent count =>
      rw [hsend] at h
      obtain ⟨read, hread, hnext⟩ := except_bind_eq_ok h
      rw [handleEpollEvent_sent hheap hepoll hne hsend hread]
      by_cases hcount : count < data.length
      · rw [if_pos hcount] at hnext ⊢
        cases hnext
        rfl
      · rw [if_neg hcount] at hnext ⊢
        cases hnext
        rfl
    | again =>
      rw [hsend] at h
      cases h
    | failed =>
      rw [hsend] at h
      cases h
      rw [handleEpollEvent, bind_of_ok (load_of_live hheap)]
      dsimp only
      rw [hsend]
      exact end_eq hheap hepoll []

lemma handleEpollEvent_of_error {e : ServerException} (hheap : s.heap ptr = some data)
    (hepoll : s.epolls worker data.fd = some interest)
    (h : reaction s.answer data events socket = .error e) :
    ∃ s', handleEpollEvent worker ptr events socket fresh s = .error e s' := by
  rw [handleEpollEvent, bind_of_ok (load_of_live hheap)]
  cases events with
  | epollIn =>
    rw [reaction] at h
    cases hrecv : socket.recv with
    | received received =>
      rw [hrecv] at h
      cases hresponse : s.answer (data.receive received).buffer with
      | error e' =>
        simp only [hresponse, Bind.bind, Except.bind, Except.error.injEq] at h
        subst h
        dsimp only
        rw [bind_of_ok (store_of_live hheap _), newData, bind_of_ok (modify_apply _ _)]
        exact ⟨_, bind_of_error (handleHttpData_error _ (by exact hresponse))⟩
      | ok response => simp [hresponse, Bind.bind, Except.bind, Pure.pure, Except.pure] at h
    | closed | again | failed =>
      rw [hrecv] at h
      cases h
  | epollOut =>
    rw [reaction] at h
    cases hsend : socket.send with
    | sent count =>
      rw [hsend] at h
      cases hread : data.read count with
      | error e' =>
        simp only [hread, Bind.bind, Except.bind, Except.error.injEq] at h
        subst h
        dsimp only
        rw [hread]
        exact ⟨_, bind_of_error (throw_apply _ _)⟩
      | ok read =>
        by_cases hcount : count < data.length <;>
          simp [hread, hcount, Bind.bind, Except.bind, Pure.pure, Except.pure] at h
    | again =>
      rw [hsend] at h
      cases h
      exact ⟨_, bind_of_error (control_add_registered hepoll _)⟩
    | failed =>
      rw [hsend] at h
      cases h

lemma reaction_hangUp (data : EventData) (events : EpollEvents) :
    reaction answer data events ⟨.closed, .failed⟩ = .ok (none, []) := by
  cases events <;> rfl

/-- What one event does to the server, from what it comes to for its connection. -/
lemma processEvent_of_ok {mask : EventMask} {rest : List (EventMask × Nat)} {next : Option EpollEvent}
    {bytes : List UInt8} (hpending : s.pending worker = (mask, ptr) :: rest)
    (hheap : s.heap ptr = some data) (hepoll : s.epolls worker data.fd = some interest)
    (hmask : mask.Reports interest.events) (hfresh : s.heap fresh = none)
    (h : reaction s.answer data interest.events (mask.observed socket) = .ok (next, bytes)) :
    processEvent worker socket fresh s = .ok [(data.fd, bytes)]
      ((setPending worker rest s).replace worker data.fd ptr
        (next.map (located ptr fresh interest.events))) := by
  have hheap' : (setPending worker rest s).heap ptr = some data := hheap
  have hepoll' : (setPending worker rest s).epolls worker data.fd = some interest := hepoll
  rw [processEvent, bind_of_ok (get_apply s)]
  simp only [hpending]
  rw [bind_of_ok (modify_apply _ _), bind_of_ok (load_of_live hheap')]
  rw [EventMask.observed] at h
  by_cases hhup : mask.epollHup ∨ mask.epollErr
  · rw [if_pos hhup, reaction_hangUp] at h
    cases h
    rw [if_pos hhup]
    exact end_eq hheap' hepoll' _
  · rw [if_neg hhup] at h
    rw [if_neg hhup]
    by_cases hin : mask = EpollEvents.epollIn.mask
    · have hevents : interest.events = .epollIn := hmask.1 (by rw [hin]; rfl)
      rw [if_pos (.inl hin), hevents] at h
      rw [if_pos hin, bind_of_ok (handleEpollEvent_of_ok hheap' hepoll' hfresh h),
        pure_apply, hevents]
    · rw [if_neg hin]
      by_cases hout : mask = EpollEvents.epollOut.mask
      · have hevents : interest.events = .epollOut := hmask.2 (by rw [hout]; rfl)
        rw [if_pos (.inr hout), hevents] at h
        rw [if_pos hout, bind_of_ok (handleEpollEvent_of_ok hheap' hepoll' hfresh h),
          pure_apply, hevents]
      · rw [if_neg (not_or.mpr ⟨hin, hout⟩), reaction_hangUp] at h
        cases h
        rw [if_neg hout]
        exact end_eq hheap' hepoll' _

lemma processEvent_of_error {mask : EventMask} {rest : List (EventMask × Nat)} {e : ServerException}
    (hpending : s.pending worker = (mask, ptr) :: rest) (hheap : s.heap ptr = some data)
    (hepoll : s.epolls worker data.fd = some interest) (hmask : mask.Reports interest.events)
    (h : reaction s.answer data interest.events (mask.observed socket) = .error e) :
    ∃ s', processEvent worker socket fresh s = .error e s' := by
  have hheap' : (setPending worker rest s).heap ptr = some data := hheap
  have hepoll' : (setPending worker rest s).epolls worker data.fd = some interest := hepoll
  rw [processEvent, bind_of_ok (get_apply s)]
  simp only [hpending]
  rw [bind_of_ok (modify_apply _ _), bind_of_ok (load_of_live hheap')]
  rw [EventMask.observed] at h
  by_cases hhup : mask.epollHup ∨ mask.epollErr
  · rw [if_pos hhup, reaction_hangUp] at h
    cases h
  · rw [if_neg hhup] at h
    rw [if_neg hhup]
    by_cases hin : mask = EpollEvents.epollIn.mask
    · have hevents : interest.events = .epollIn := hmask.1 (by rw [hin]; rfl)
      rw [if_pos (.inl hin), hevents] at h
      obtain ⟨s', hs'⟩ := handleEpollEvent_of_error hheap' hepoll' h
      rw [if_pos hin]
      exact ⟨s', bind_of_error hs'⟩
    · rw [if_neg hin]
      by_cases hout : mask = EpollEvents.epollOut.mask
      · have hevents : interest.events = .epollOut := hmask.2 (by rw [hout]; rfl)
        rw [if_pos (.inr hout), hevents] at h
        obtain ⟨s', hs'⟩ := handleEpollEvent_of_error hheap' hepoll' h
        rw [if_pos hout]
        exact ⟨s', bind_of_error hs'⟩
      · rw [if_neg (not_or.mpr ⟨hin, hout⟩), reaction_hangUp] at h
        cases h

end Event

end HttpServer

end PromEndp

end Dibibase
