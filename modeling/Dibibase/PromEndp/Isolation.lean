import Dibibase.PromEndp.Ownership

/-!
# Isolation of connections

In any order of the steps of the threads, a connection sees and sends what it would see and send alone:
the run of one connection is what remains of a run of the server when all others are left out. Of the rest
of the server only the handlers matter that are there when the connection is served.
-/

namespace Dibibase

open Library

namespace PromEndp

namespace HttpServer

/-- What a worker knows about a descriptor, with the data in the place of its address. -/
def view (s : HttpServer) (worker : Fin kThreadPoolSize) (fd : Int) : Option EpollEvent :=
  (s.epolls worker fd).bind (fun interest => (s.heap interest.ptr).map (fun data => ⟨interest.events, data⟩))

/-- The events of one connection, each with the handlers of its moment. -/
def runAmong (fd : Int) : Epoll → List (Handlers HttpRequestHandler × Socket) →
    Except ServerException (Epoll × List UInt8)
  | epoll, [] => return (epoll, [])
  | epoll, (handlers, socket) :: meetings =>
    match epoll fd with
    | none => return (epoll, [])
    | some event => do
      let (epoll, bytes) ← PromEndp.handleEpollEvent handlers epoll event.data event.events socket
      let (epoll, more) ← runAmong fd epoll meetings
      return (epoll, bytes ++ more)

/-- What is sent on a descriptor. -/
def bytesTo (fd : Int) (sent : List (Int × List UInt8)) : List UInt8 :=
  (sent.filter (fun p => p.1 = fd)).flatMap Prod.snd

/-- How many connections a run accepts. -/
def accepts : List Action → Nat
  | [] => 0
  | .accept _ _ :: actions => accepts actions + 1
  | _ :: actions => accepts actions

/-- One connection without all others. -/
def alone (fd : Int) (event : Option EpollEvent) : Epoll := Function.update (fun _ => none) fd event

/-- No other worker knows the descriptor. -/
def OnlyWith (worker : Fin kThreadPoolSize) (fd : Int) (s : HttpServer) : Prop :=
  ∀ other, other ≠ worker → s.epolls other fd = none

/-! ### One connection -/

section Alone

variable {handlers : Handlers HttpRequestHandler} {fd : Int} {event : EpollEvent} {socket : Socket}
  {meetings : List (Handlers HttpRequestHandler × Socket)}

/-- With the same handlers all the time these are the events of a connection. -/
lemma runAmong_map (handlers : Handlers HttpRequestHandler) (epoll : Epoll) (sockets : List Socket) :
    runAmong fd epoll (sockets.map (fun socket => (handlers, socket))) =
      PromEndp.run handlers fd epoll sockets := by
  induction sockets generalizing epoll with
  | nil => rfl
  | cons socket sockets ih =>
    rw [List.map_cons, runAmong, PromEndp.run]
    cases epoll fd with
    | none => rfl
    | some event =>
      cases hstep : PromEndp.handleEpollEvent handlers epoll event.data event.events socket with
      | error e => simp only [hstep, Bind.bind, Except.bind]
      | ok result => simp only [hstep, ih, Bind.bind, Except.bind]

/-- The run of a connection takes what its events come to, one after the other. -/
lemma runAmong_alone_cons {next : Option EpollEvent} {bytes : List UInt8} (hfd : event.data.fd = fd)
    (h : reaction (responseString handlers) event.data event.events socket = .ok (next, bytes)) :
    runAmong fd (alone fd (some event)) ((handlers, socket) :: meetings) =
      (runAmong fd (alone fd next) meetings).map (fun r => (r.1, bytes ++ r.2)) := by
  have hregistered : alone fd (some event) fd = some event := Function.update_self _ _ _
  have hstep : PromEndp.handleEpollEvent handlers (alone fd (some event)) event.data event.events socket =
      .ok (alone fd next, bytes) := by
    rw [handleEpollEvent_eq_reaction handlers (by rw [hfd]; exact hregistered), h, hfd]
    exact congrArg (fun epoll => Except.ok (epoll, bytes)) (Function.update_idem _ _ _)
  simp only [runAmong, hregistered, hstep, Bind.bind, Except.bind]
  cases runAmong fd (alone fd next) meetings <;> rfl

end Alone

/-- What does not race is answered with the handlers of the server. -/
lemma reaction_of_answer {s : HttpServer} {data : EventData} {events : EpollEvents} {socket : Socket}
    {result : Option EpollEvent × List UInt8} (h : reaction s.answer data events socket = .ok result) :
    reaction (responseString s.handlers) data events socket = .ok result := by
  cases events with
  | epollIn =>
    cases hrecv : socket.recv with
    | received received =>
      rw [reaction, hrecv] at h ⊢
      obtain ⟨response, hresponse, hok⟩ := except_bind_eq_ok h
      have hquiet : ¬(s.registering.isSome ∧ LooksUp (data.receive received).buffer) := fun hrace => by
        rw [HttpServer.answer, if_pos hrace] at hresponse
        cases hresponse
      rw [HttpServer.answer, if_neg hquiet] at hresponse
      dsimp only
      rw [hresponse]
      exact hok
    | closed | again | failed =>
      rw [reaction, hrecv] at h ⊢
      exact h
  | epollOut =>
    rw [reaction] at h ⊢
    exact h

lemma bytesTo_append (fd : Int) (sent more : List (Int × List UInt8)) :
    bytesTo fd (sent ++ more) = bytesTo fd sent ++ bytesTo fd more := by
  rw [bytesTo, List.filter_append, List.flatMap_append, bytesTo, bytesTo]

lemma bytesTo_singleton (fd : Int) (bytes : List UInt8) : bytesTo fd [(fd, bytes)] = bytes := by
  simp [bytesTo]

lemma bytesTo_singleton_of_ne {fd fd' : Int} (h : fd' ≠ fd) (bytes : List UInt8) :
    bytesTo fd [(fd', bytes)] = [] := by
  simp [bytesTo, h]

/-! ### One step -/

section Steps

variable {s s' : HttpServer} {worker other : Fin kThreadPoolSize} {fd : Int} {action : Action}
  {sent : List (Int × List UInt8)}

/-- A step that is not one of the connection. -/
structure Elsewhere (fd : Int) (action : Action) (sent : List (Int × List UInt8)) (s s' : HttpServer) :
    Prop where
  meets : action.meets fd s = []
  bytes : bytesTo fd sent = []
  view : ∀ worker, s'.view worker fd = s.view worker fd
  epolls : ∀ worker, s'.epolls worker fd = s.epolls worker fd

/-- A step of the connection. -/
structure Handles (worker : Fin kThreadPoolSize) (fd : Int)
    (action : Action) (sent : List (Int × List UInt8)) (s s' : HttpServer) (event : EpollEvent)
    (next : Option EpollEvent) (socket : Socket) : Prop where
  before : s.view worker fd = some event
  data : event.data.fd = fd
  meets : action.meets fd s = [(s.handlers, socket)]
  comes : reaction s.answer event.data event.events socket = .ok (next, bytesTo fd sent)
  after : s'.view worker fd = next
  epolls : ∀ other, other ≠ worker → s'.epolls other fd = s.epolls other fd

lemma view_of_eq {interest : Interest} {data : EventData} (h : s.epolls worker fd = some interest)
    (hheap : s.heap interest.ptr = some data) : s.view worker fd = some ⟨interest.events, data⟩ := by
  rw [view, h, Option.bind_some, hheap]
  rfl

/-- The view of a descriptor depends on its registration and the data that this points to. -/
lemma view_congr (hepolls : s'.epolls worker fd = s.epolls worker fd)
    (hheap : ∀ interest, s.epolls worker fd = some interest → s'.heap interest.ptr = s.heap interest.ptr) :
    s'.view worker fd = s.view worker fd := by
  rw [view, view, hepolls]
  cases h : s.epolls worker fd with
  | none => rfl
  | some interest => rw [Option.bind_some, Option.bind_some, hheap interest h]

lemma elsewhere_accept {fd' : Int} {fresh : Nat} (hs : Sound s) (hfresh : s.heap fresh = none)
    (hne : fd ≠ fd') : Elsewhere fd (.accept fd' fresh) [] s (s.withConnection fd' fresh) := by
  refine ⟨rfl, rfl, fun w => ?_, fun w => withConnection_epolls_of_fd_ne hne⟩
  refine view_congr (withConnection_epolls_of_fd_ne hne) fun interest hinterest => ?_
  obtain ⟨-, data, hdata, -⟩ := hs.registered _ _ _ hinterest
  apply setHeap_heap_of_ne
  rintro heq
  rw [heq, hfresh] at hdata
  cases hdata

/-- An event of another connection. -/
lemma elsewhere_event {mask : EventMask} {ptr fresh : Nat} {rest : List (EventMask × Nat)}
    {data : EventData} {interest : Interest} {next : Option EpollEvent} {bytes : List UInt8}
    {socket : Socket} (hs : Sound s) (hpending : s.pending worker = (mask, ptr) :: rest)
    (hheap : s.heap ptr = some data) (hepoll : s.epolls worker data.fd = some interest)
    (hptr : interest.ptr = ptr) (hfresh : s.heap fresh = none) (hne : fd ≠ data.fd) :
    Elsewhere fd (.event worker socket fresh) [(data.fd, bytes)] s
      ((setPending worker rest s).replace worker data.fd ptr
        (next.map (located ptr fresh interest.events))) := by
  have hepolls : ∀ w, ((setPending worker rest s).replace worker data.fd ptr
      (next.map (located ptr fresh interest.events))).epolls w fd = s.epolls w fd :=
    fun w => replace_epolls_of_fd_ne hne
  refine ⟨?_, bytesTo_singleton_of_ne hne.symm bytes, fun w => view_congr (hepolls w) ?_, hepolls⟩
  · simp only [Action.meets, hpending, hheap, if_neg hne.symm]
  · intro other hother
    obtain ⟨hold, hnew⟩ := hs.apart hepoll hptr (located_ptr hfresh) hne hother
    exact replace_heap_of_ne hold hnew

/-- An event of the connection. -/
lemma handles_event {mask : EventMask} {ptr fresh : Nat} {rest : List (EventMask × Nat)}
    {data : EventData} {interest : Interest} {next : Option EpollEvent} {bytes : List UInt8}
    {socket : Socket} (hpending : s.pending worker = (mask, ptr) :: rest)
    (hheap : s.heap ptr = some data) (hepoll : s.epolls worker data.fd = some interest)
    (hptr : interest.ptr = ptr)
    (hreaction : reaction s.answer data interest.events (mask.observed socket) = .ok (next, bytes)) :
    Handles worker data.fd (.event worker socket fresh) [(data.fd, bytes)] s
      ((setPending worker rest s).replace worker data.fd ptr
        (next.map (located ptr fresh interest.events))) ⟨interest.events, data⟩ next
      (mask.observed socket) := by
  subst hptr
  refine ⟨view_of_eq hepoll hheap, rfl, ?_, ?_, ?_, fun w hw => ?_⟩
  · simp only [Action.meets, hpending, hheap, if_true]
  · rw [bytesTo_singleton]
    exact hreaction
  · rw [view, replace_epolls_self]
    cases next with
    | none => rfl
    | some event =>
      rw [Option.map_some, Option.map_some, Option.bind_some, replace, setHeap_heap_self]
      rfl
  · rw [replace_epolls_of_worker_ne hw]
    rfl

/-- A step concerns the connection, or leaves everything about it as it is. -/
lemma step_isolated (hs : Sound s) (h : Stepped s action sent s')
    (hkept : ∀ fresh, action ≠ .accept fd fresh) (honly : OnlyWith worker fd s) :
    Elsewhere fd action sent s s' ∨
      ∃ event next socket, Handles worker fd action sent s s' event next socket := by
  cases h with
  | @accept fd' fresh hfd hfresh =>
    have hne : fd ≠ fd' := by
      rintro rfl
      exact hkept fresh rfl
    exact .inl (elsewhere_accept hs hfresh hne)
  | wait => exact .inl ⟨rfl, rfl, fun _ => rfl, fun _ => rfl⟩
  | beginRegistration => exact .inl ⟨rfl, rfl, fun _ => rfl, fun _ => rfl⟩
  | endRegistration => exact .inl ⟨rfl, rfl, fun _ => rfl, fun _ => rfl⟩
  | @event w socket fresh ptr mask rest data interest next bytes hpending hheap hepoll hptr hfresh
      hreaction =>
    by_cases hfd : fd = data.fd
    · subst hfd
      obtain rfl : w = worker := by
        by_contra hne
        rw [honly w hne] at hepoll
        cases hepoll
      exact .inr ⟨_, _, _, handles_event hpending hheap hepoll hptr hreaction⟩
    · exact .inl (elsewhere_event hs hpending hheap hepoll hptr hfresh hfd)

end Steps

/-! ### Every run -/

section Runs

variable {s s' : HttpServer} {worker : Fin kThreadPoolSize} {fd : Int} {action : Action}
  {actions : List Action} {sent : List (Int × List UInt8)}

/-- What a run does for a connection is what the connection does alone. -/
lemma run_isolated (hs : Sound s) (hpossible : PossibleRun actions s)
    (hkept : ∀ fresh, .accept fd fresh ∉ actions) (honly : OnlyWith worker fd s)
    (hrun : runActions actions s = .ok sent s') :
    runAmong fd (alone fd (s.view worker fd)) (meetingsOf fd actions s) =
      .ok (alone fd (s'.view worker fd), bytesTo fd sent) ∧ OnlyWith worker fd s' := by
  induction actions generalizing s sent with
  | nil =>
    cases hrun
    exact ⟨rfl, honly⟩
  | cons action actions ih =>
    obtain ⟨first, s₁, hfirst, hrun⟩ := bind_eq_ok hrun
    obtain ⟨more, s₂, hmore, hrun⟩ := bind_eq_ok hrun
    cases hrun
    obtain ⟨hstep, hs₁⟩ := stepped_of_ok hs hpossible.1 hfirst
    have hkept' : ∀ fresh, action ≠ .accept fd fresh := by
      rintro fresh rfl
      exact hkept fresh List.mem_cons_self
    have hrest := fun honly => ih hs₁ (hpossible.2 _ _ hfirst)
      (fun fresh hmem => hkept fresh (List.mem_cons_of_mem _ hmem)) honly hmore
    rw [meetingsOf, stateAfter_of_ok hfirst, bytesTo_append]
    rcases step_isolated hs hstep hkept' honly with helse | ⟨event, next, socket, hhandles⟩
    · have honly₁ : OnlyWith worker fd s₁ := fun other hne => by
        rw [helse.epolls]
        exact honly other hne
      rw [helse.meets, helse.bytes, ← helse.view]
      exact hrest honly₁
    · have honly₁ : OnlyWith worker fd s₁ := fun other hne => by
        rw [hhandles.epolls other hne]
        exact honly other hne
      obtain ⟨halone, honly'⟩ := hrest honly₁
      refine ⟨?_, honly'⟩
      rw [hhandles.after] at halone
      rw [hhandles.meets, hhandles.before, List.singleton_append,
        runAmong_alone_cons hhandles.data (reaction_of_answer hhandles.comes), halone]
      rfl

lemma runActions_append {before after : List Action}
    (h : runActions (before ++ after) s = .ok sent s') :
    ∃ first more s₁, runActions before s = .ok first s₁ ∧
      runActions after s₁ = .ok more s' ∧ sent = first ++ more := by
  induction before generalizing s sent with
  | nil => exact ⟨[], sent, s, rfl, h, rfl⟩
  | cons action before ih =>
    obtain ⟨first, s₁, hfirst, h⟩ := bind_eq_ok h
    obtain ⟨more, s₂, hmore, h⟩ := bind_eq_ok h
    cases h
    obtain ⟨first', more', s₃, hbefore, hafter, rfl⟩ := ih hmore
    refine ⟨first ++ first', more', s₃, ?_, hafter, (List.append_assoc _ _ _).symm⟩
    rw [runActions, bind_of_ok hfirst, bind_of_ok hbefore, pure_apply]

lemma PossibleRun.of_append {before after : List Action} (h : PossibleRun (before ++ after) s)
    (hrun : runActions before s = .ok sent s') : PossibleRun after s' := by
  induction before generalizing s sent with
  | nil =>
    cases hrun
    exact h
  | cons action before ih =>
    obtain ⟨first, s₁, hfirst, hrun⟩ := bind_eq_ok hrun
    obtain ⟨more, s₂, hmore, hrun⟩ := bind_eq_ok hrun
    cases hrun
    exact ih (h.2 _ _ hfirst) hmore

lemma PossibleRun.left {before after : List Action} (h : PossibleRun (before ++ after) s) :
    PossibleRun before s := by
  induction before generalizing s with
  | nil => trivial
  | cons action before ih => exact ⟨h.1, fun sent s' hrun => ih (h.2 sent s' hrun)⟩

lemma nextWorker_val (worker : Fin kThreadPoolSize) :
    (nextWorker worker).val = (worker.val + 1) % kThreadPoolSize := by
  rw [nextWorker]
  by_cases h : worker.val + 1 = kThreadPoolSize
  · rw [dif_pos h, h, Nat.mod_self]
  · rw [dif_neg h, Nat.mod_eq_of_lt (by omega)]

/-- The workers take turns. -/
lemma currentWorker_run (hs : Sound s) (hpossible : PossibleRun actions s)
    (hrun : runActions actions s = .ok sent s') :
    s'.currentWorker.val = (s.currentWorker.val + accepts actions) % kThreadPoolSize := by
  induction actions generalizing s sent with
  | nil =>
    cases hrun
    exact (Nat.mod_eq_of_lt s'.currentWorker.isLt).symm
  | cons action actions ih =>
    obtain ⟨first, s₁, hfirst, hrun⟩ := bind_eq_ok hrun
    obtain ⟨more, s₂, hmore, hrun⟩ := bind_eq_ok hrun
    cases hrun
    obtain ⟨hstep, hs₁⟩ := stepped_of_ok hs hpossible.1 hfirst
    rw [ih hs₁ (hpossible.2 _ _ hfirst) hmore]
    cases hstep with
    | accept =>
      rw [withConnection, nextWorker_val, accepts, Nat.mod_add_mod, Nat.add_assoc, Nat.add_comm 1]
    | wait | beginRegistration | endRegistration => rfl
    | event => rw [replace_currentWorker]; rfl

lemma replace_handlers {fd : Int} {ptr : Nat} {next : Option (EpollEvent × Nat)} :
    (s.replace worker fd ptr next).handlers = s.handlers := by
  cases next <;> rfl

/-- Handlers change only when a call of `RegisterHttpRequestHandler` ends. -/
lemma handlers_of_stepped (h : Stepped s action sent s') (hunregistered : action ≠ .endRegistration) :
    s'.handlers = s.handlers := by
  cases h with
  | accept | wait | beginRegistration => rfl
  | event => rw [replace_handlers]; rfl
  | endRegistration => exact absurd rfl hunregistered

lemma handlers_of_meets {meeting : Handlers HttpRequestHandler × Socket}
    (h : meeting ∈ action.meets fd s) : meeting.1 = s.handlers := by
  cases action with
  | accept | wait | beginRegistration | endRegistration => cases h
  | event worker socket fresh =>
    cases hpending : s.pending worker with
    | nil => simp [Action.meets, hpending] at h
    | cons event rest =>
      cases hheap : s.heap event.2 with
      | none => simp [Action.meets, hpending, hheap] at h
      | some data =>
        simp only [Action.meets, hpending, hheap] at h
        by_cases hfd : data.fd = fd
        · rw [if_pos hfd, List.mem_singleton] at h
          rw [h]
        · rw [if_neg hfd] at h
          cases h

/-- Until the next handler has been registered, a connection meets the same ones. -/
lemma handlers_of_meetingsOf (hs : Sound s) (hpossible : PossibleRun actions s)
    (hunregistered : .endRegistration ∉ actions) (hrun : runActions actions s = .ok sent s') :
    ∀ meeting ∈ meetingsOf fd actions s, meeting.1 = s.handlers := by
  induction actions generalizing s sent with
  | nil => exact fun _ h => nomatch h
  | cons action actions ih =>
    obtain ⟨first, s₁, hfirst, hrun⟩ := bind_eq_ok hrun
    obtain ⟨more, s₂, hmore, hrun⟩ := bind_eq_ok hrun
    cases hrun
    obtain ⟨hstep, hs₁⟩ := stepped_of_ok hs hpossible.1 hfirst
    have hkept := handlers_of_stepped hstep
      (fun heq => hunregistered (by rw [heq]; exact List.mem_cons_self))
    intro meeting hmeeting
    rw [meetingsOf, stateAfter_of_ok hfirst, List.mem_append] at hmeeting
    rcases hmeeting with hmeeting | hmeeting
    · exact handlers_of_meets hmeeting
    · rw [← hkept]
      exact ih hs₁ (hpossible.2 _ _ hfirst) (fun h => hunregistered (List.mem_cons_of_mem _ h)) hmore
        meeting hmeeting

/-- Until the next handler has been registered, a run is the one of a connection with the handlers of its
beginning. -/
lemma runAmong_meetingsOf (epoll : Epoll) (hs : Sound s) (hpossible : PossibleRun actions s)
    (hunregistered : .endRegistration ∉ actions) (hrun : runActions actions s = .ok sent s') :
    runAmong fd epoll (meetingsOf fd actions s) =
      PromEndp.run s.handlers fd epoll ((meetingsOf fd actions s).map Prod.snd) := by
  have hmeetings := @handlers_of_meetingsOf _ _ fd _ _ hs hpossible hunregistered hrun
  have hsame : (meetingsOf fd actions s).map ((fun socket => (s.handlers, socket)) ∘ Prod.snd) =
      (meetingsOf fd actions s).map id :=
    List.map_congr_left (fun meeting hmeeting => Prod.ext (hmeetings meeting hmeeting).symm rfl)
  rw [← runAmong_map, List.map_map, hsame, List.map_id]

end Runs

/-- In any order of the steps of the listener, the workers and the clients, the connections are served by
the workers in turn, each by one only, and what is seen and sent on a connection until its descriptor is
given away again is what the run of this connection alone sees and sends, with the handlers that are
registered when it is served. -/
theorem connections_are_isolated (handlers : Handlers HttpRequestHandler) (before after : List Action)
    (fd : Int) (fresh : Nat) {sent₁ sent₂ : List (Int × List UInt8)} {s₁ s₂ : HttpServer}
    (hpossible : PossibleRun (before ++ .accept fd fresh :: after) (start handlers))
    (hkept : ∀ other, .accept fd other ∉ after)
    (hbefore : runActions (before ++ [.accept fd fresh]) (start handlers) = .ok sent₁ s₁)
    (hafter : runActions after s₁ = .ok sent₂ s₂) :
    ∃ last, runAmong fd (accepted fd) (meetingsOf fd after s₁) = .ok (last, bytesTo fd sent₂) ∧
      ∀ worker, s₂.view worker fd =
        if worker.val = accepts before % kThreadPoolSize then last fd else none := by
  obtain ⟨first, more, s₀, hfirst, haccept, -⟩ := runActions_append hbefore
  have hs₀ : Sound s₀ := (runActions_sound (Sound.start handlers) hpossible.left).1 _ _ hfirst
  have hrest := hpossible.of_append hfirst
  obtain ⟨hfd, hfresh⟩ := hrest.1
  have hrun : Action.run (.accept fd fresh) s₀ = .ok [] (s₀.withConnection fd fresh) := by
    rw [Action.run, bind_of_ok (accept_eq (hs₀.unregistered hfd)), pure_apply]
  obtain rfl : s₁ = s₀.withConnection fd fresh := by
    rw [runActions, bind_of_ok hrun] at haccept
    cases haccept
    rfl
  have hs₁ := hs₀.withConnection hfd hfresh
  have honly : OnlyWith s₀.currentWorker fd (s₀.withConnection fd fresh) := fun other hne => by
    rw [withConnection_epolls_of_worker_ne hne]
    exact hs₀.unregistered hfd other
  have hview : (s₀.withConnection fd fresh).view s₀.currentWorker fd = some ⟨.epollIn, .new fd⟩ :=
    view_of_eq withConnection_epolls_self (setHeap_heap_self _)
  obtain ⟨halone, honly₂⟩ := run_isolated hs₁ (hrest.2 _ _ hrun) hkept honly hafter
  rw [hview] at halone
  refine ⟨_, halone, fun worker => ?_⟩
  have hturn : s₀.currentWorker.val = accepts before % kThreadPoolSize := by
    rw [currentWorker_run (Sound.start handlers) hpossible.left hfirst]
    exact congrArg (· % kThreadPoolSize) (Nat.zero_add _)
  by_cases hworker : worker = s₀.currentWorker
  · rw [hworker, if_pos hturn, alone, Function.update_self]
  · have hne : worker.val ≠ accepts before % kThreadPoolSize := by
      rw [← hturn]
      exact fun heq => hworker (Fin.ext heq)
    rw [if_neg hne, view, honly₂ worker hworker, Option.bind_none]

/-- The client that gets a used descriptor is sent the greeting in two pieces, also while the handler for the
metrics is registered. -/
theorem connections_are_isolated_thirdClient :
    let before := registerAll (serverCalls greetings [])
    let after := PromEndp.register before (.path (text "/metrics") .head greetings)
    ∃ last, ∃ s : HttpServer,
      runAmong 6 (accepted 6) [(before, ⟨.received greetingsRequest, .failed⟩),
        (before, ⟨.again, .sent 50⟩), (after, ⟨.again, .sent 28⟩), (after, ⟨.closed, .failed⟩)] =
          .ok (last, greetingsResponse) ∧
        ∀ worker, s.view worker 6 = if worker.val = 2 then last 6 else none := by
  have hkept : ∀ other, .accept 6 other ∉ thirdClient := fun other => by simp [thirdClient]
  obtain ⟨hpossible, -, -⟩ := observed_twoClients observed_thirdClient
  have hnone : Observed 6 thirdAccepted [] [] [] := ⟨trivial, ⟨_, rfl⟩, rfl⟩
  obtain ⟨-, ⟨s₁, hbefore⟩, -⟩ := observed_twoClients hnone
  obtain ⟨-, ⟨s₂, hafter⟩, hmeets⟩ := observed_thirdClient
  obtain rfl : thirdAccepted = s₁ := stateAfter_of_ok hbefore
  obtain ⟨last, hlast, hview⟩ := connections_are_isolated _ twoClients thirdClient 6 1 hpossible hkept
    hbefore hafter
  rw [hmeets] at hlast
  refine ⟨last, s₂, ?_, hview⟩
  rw [hlast]
  rfl

end HttpServer

end PromEndp

end Dibibase
