import Dibibase.PromEndp.Workers

/-!
# Ownership of connections

Which worker a connection belongs to, and whose the data on the heap is. A step of a thread concerns one
connection, so the invariant holds for every order of the steps.
-/

namespace Dibibase

open Library

namespace PromEndp

namespace HttpServer

/-- Every connection is registered with one worker and has data of its own on the heap, where nothing else
is; the events that a worker still has to handle are those of connections of its own. -/
structure Sound (s : HttpServer) : Prop where
  registered : ∀ worker fd interest, s.epolls worker fd = some interest →
    fd ∈ s.connections ∧ ∃ data, s.heap interest.ptr = some data ∧ data.fd = fd
  served : ∀ fd ∈ s.connections, ∃ worker interest, s.epolls worker fd = some interest
  unique : ∀ worker other fd, (s.epolls worker fd).isSome → (s.epolls other fd).isSome → worker = other
  owned : ∀ ptr data, s.heap ptr = some data →
    ∃ worker interest, s.epolls worker data.fd = some interest ∧ interest.ptr = ptr
  reported : ∀ worker, ∀ event ∈ s.pending worker, ∃ fd interest,
    s.epolls worker fd = some interest ∧ interest.ptr = event.2 ∧ event.1.Reports interest.events
  once : ∀ worker, ((s.pending worker).map Prod.snd).Nodup

section Replace

variable {s : HttpServer} {worker other : Fin kThreadPoolSize} {fd fd' : Int} {ptr ptr' : Nat}
  {next : Option (EpollEvent × Nat)} {data : EventData}

lemma setPending_self (events : List (EventMask × Nat)) :
    (setPending worker events s).pending worker = events := Function.update_self _ _ _

lemma setPending_of_ne (h : other ≠ worker) (events : List (EventMask × Nat)) :
    (setPending worker events s).pending other = s.pending other := Function.update_of_ne h _ _

lemma replace_epolls_self :
    (s.replace worker fd ptr next).epolls worker fd = next.map (fun p => ⟨p.1.events, p.2⟩) := by
  cases next <;> simp [replace, setHeap, register]

lemma replace_epolls_of_fd_ne (h : fd' ≠ fd) :
    (s.replace worker fd ptr next).epolls other fd' = s.epolls other fd' := by
  by_cases hworker : other = worker
  · subst hworker
    cases next <;> simp [replace, setHeap, register, h]
  · cases next <;> simp [replace, setHeap, register, hworker]

lemma replace_epolls_of_worker_ne (h : other ≠ worker) :
    (s.replace worker fd ptr next).epolls other = s.epolls other := by
  cases next <;> simp [replace, setHeap, register, h]

lemma replace_pending : (s.replace worker fd ptr next).pending = s.pending := by
  cases next <;> rfl

lemma replace_currentWorker : (s.replace worker fd ptr next).currentWorker = s.currentWorker := by
  cases next <;> rfl

lemma replace_heap_of_ne (h : ptr' ≠ ptr) (hnext : ∀ p ∈ next, ptr' ≠ p.2) :
    (s.replace worker fd ptr next).heap ptr' = s.heap ptr' := by
  cases next with
  | none => simp [replace, setHeap, register, h]
  | some p => simp [replace, setHeap, register, h, hnext p rfl]

lemma replace_heap_eq_some (h : (s.replace worker fd ptr next).heap ptr' = some data) :
    (∃ p ∈ next, ptr' = p.2 ∧ data = p.1.data) ∨ ptr' ≠ ptr ∧ s.heap ptr' = some data := by
  by_cases hnext : ∃ p ∈ next, ptr' = p.2
  · obtain ⟨p, rfl, rfl⟩ := hnext
    rw [replace, setHeap_heap_self] at h
    exact .inl ⟨p, rfl, rfl, (Option.some.inj h).symm⟩
  · have hother : ∀ p ∈ next, ptr' ≠ p.2 := fun p hp heq => hnext ⟨p, hp, heq⟩
    have hptr : ptr' ≠ ptr := by
      rintro rfl
      cases next with
      | none => simp [replace, setHeap] at h
      | some p => simp [replace, setHeap, hother p rfl] at h
    rw [replace_heap_of_ne hptr hother] at h
    exact .inr ⟨hptr, h⟩

lemma mem_replace_connections :
    fd' ∈ (s.replace worker fd ptr next).connections ↔
      fd' ∈ s.connections ∧ (fd' = fd → next.isSome) := by
  cases next with
  | none => simp [replace, setHeap, and_comm]
  | some p => simp [replace, setHeap, register]

end Replace

namespace Sound

variable {s : HttpServer} {worker other : Fin kThreadPoolSize} {fd fd' : Int} {ptr : Nat}
  {interest interest' : Interest} {data : EventData}

lemma start (handlers : Handlers HttpRequestHandler) : Sound (start handlers) where
  registered := fun _ _ _ h => nomatch h
  served := fun _ h => absurd h (Finset.notMem_empty _)
  unique := fun _ _ _ h => nomatch h
  owned := fun _ _ h => nomatch h
  reported := fun _ _ h => absurd h List.not_mem_nil
  once := fun _ => List.nodup_nil

/-- Two connections never share their data. -/
lemma fd_eq (hs : Sound s) (h : s.epolls worker fd = some interest)
    (h' : s.epolls other fd' = some interest') (hptr : interest.ptr = interest'.ptr) : fd = fd' := by
  obtain ⟨-, data, hdata, hfd⟩ := hs.registered _ _ _ h
  obtain ⟨-, data', hdata', hfd'⟩ := hs.registered _ _ _ h'
  rw [hptr, hdata'] at hdata
  cases hdata
  rw [← hfd, ← hfd']

/-- No other worker has the connection. -/
lemma worker_eq (hs : Sound s) (h : s.epolls worker fd = some interest)
    (h' : s.epolls other fd = some interest') : other = worker :=
  hs.unique other worker fd (by rw [h']; rfl) (by rw [h]; rfl)

/-- The next event of a worker is one of a connection of its own, whose data is still there. -/
lemma front {mask : EventMask} {rest : List (EventMask × Nat)} (hs : Sound s)
    (hpending : s.pending worker = (mask, ptr) :: rest) :
    ∃ data interest, s.heap ptr = some data ∧ s.epolls worker data.fd = some interest ∧
      interest.ptr = ptr ∧ mask.Reports interest.events := by
  have hmem : (mask, ptr) ∈ s.pending worker := by
    rw [hpending]
    exact List.mem_cons_self
  obtain ⟨fd, interest, hepoll, hptr, hmask⟩ := hs.reported worker _ hmem
  obtain ⟨-, data, hheap, rfl⟩ := hs.registered _ _ _ hepoll
  rw [hptr] at hheap
  exact ⟨data, interest, hheap, hepoll, hptr, hmask⟩

/-- Behind the next event there is no other one of its connection. -/
lemma behind {mask : EventMask} {rest : List (EventMask × Nat)} {event : EventMask × Nat} (hs : Sound s)
    (hpending : s.pending worker = (mask, ptr) :: rest)
    (h : event ∈ (setPending worker rest s).pending other) :
    event ∈ s.pending other ∧ (other = worker → event.2 ≠ ptr) := by
  by_cases hother : other = worker
  · subst hother
    rw [setPending_self] at h
    have honce := hs.once other
    rw [hpending, List.map_cons, List.nodup_cons] at honce
    refine ⟨by rw [hpending]; exact List.mem_cons_of_mem _ h, fun _ heq => honce.1 ?_⟩
    have hmem : event.2 ∈ rest.map Prod.snd := List.mem_map_of_mem h
    rwa [heq] at hmem
  · rw [setPending_of_ne hother] at h
    exact ⟨h, fun heq => absurd heq hother⟩

/-- The data of other connections is elsewhere. -/
lemma apart {next : Option (EpollEvent × Nat)} (hs : Sound s)
    (hepoll : s.epolls worker fd = some interest) (hptr : interest.ptr = ptr)
    (hnext : ∀ p ∈ next, p.2 = ptr ∨ s.heap p.2 = none)
    (hne : fd' ≠ fd) (h : s.epolls other fd' = some interest') :
    interest'.ptr ≠ ptr ∧ ∀ p ∈ next, interest'.ptr ≠ p.2 := by
  have hold : interest'.ptr ≠ ptr := fun heq => hne (hs.fd_eq h hepoll (by rw [heq, hptr]))
  refine ⟨hold, fun p hp heq => ?_⟩
  obtain ⟨-, data', hdata', -⟩ := hs.registered _ _ _ h
  rw [heq] at hold hdata'
  rw [(hnext p hp).resolve_left hold] at hdata'
  cases hdata'

/-- The data of the connection that the next event is about may be replaced. -/
lemma replace {mask : EventMask} {rest : List (EventMask × Nat)} {next : Option (EpollEvent × Nat)}
    (hs : Sound s) (hpending : s.pending worker = (mask, ptr) :: rest)
    (hepoll : s.epolls worker data.fd = some interest) (hptr : interest.ptr = ptr)
    (hnext : ∀ p ∈ next, p.1.data.fd = data.fd ∧ (p.2 = ptr ∨ s.heap p.2 = none)) :
    Sound ((setPending worker rest s).replace worker data.fd ptr next) := by
  have hself : ∀ w, s.epolls w data.fd = none ∨ w = worker := by
    intro w
    cases hw : s.epolls w data.fd with
    | none => exact .inl rfl
    | some i => exact .inr (hs.worker_eq hepoll hw)
  constructor
  · intro w fd' i hi
    rw [mem_replace_connections]
    by_cases hfd : fd' = data.fd
    · subst hfd
      by_cases hw : w = worker
      · subst hw
        rw [replace_epolls_self] at hi
        obtain ⟨p, hp, rfl⟩ := Option.map_eq_some_iff.mp hi
        subst hp
        exact ⟨⟨(hs.registered _ _ _ hepoll).1, fun _ => rfl⟩, p.1.data, setHeap_heap_self _,
          (hnext p rfl).1⟩
      · rw [replace_epolls_of_worker_ne hw] at hi
        have hnone := (hself w).resolve_right hw
        rw [show s.epolls w data.fd = some i from hi] at hnone
        cases hnone
    · rw [replace_epolls_of_fd_ne hfd] at hi
      obtain ⟨hmem, data', hdata', hfd'⟩ := hs.registered _ _ _ hi
      obtain ⟨hne, hnext'⟩ := hs.apart hepoll hptr (fun p hp => (hnext p hp).2) hfd hi
      refine ⟨⟨hmem, fun heq => absurd heq hfd⟩, data', ?_, hfd'⟩
      rw [replace_heap_of_ne hne hnext']
      exact hdata'
  · intro fd' hmem
    rw [mem_replace_connections] at hmem
    obtain ⟨hmem, hsome⟩ := hmem
    by_cases hfd : fd' = data.fd
    · obtain ⟨p, hp⟩ := Option.isSome_iff_exists.mp (hsome hfd)
      refine ⟨worker, ⟨p.1.events, p.2⟩, ?_⟩
      rw [hfd, replace_epolls_self, hp]
      rfl
    · obtain ⟨w, i, hi⟩ := hs.served fd' hmem
      exact ⟨w, i, by rw [replace_epolls_of_fd_ne hfd]; exact hi⟩
  · intro w w' fd' hw hw'
    by_cases hfd : fd' = data.fd
    · subst hfd
      have howner : ∀ v, (((setPending worker rest s).replace worker data.fd ptr next).epolls v
          data.fd).isSome → v = worker := by
        intro v hv
        by_contra hne
        rw [replace_epolls_of_worker_ne hne] at hv
        have hnone := (hself v).resolve_right hne
        rw [show (setPending worker rest s).epolls v data.fd = none from hnone] at hv
        cases hv
      rw [howner w hw, howner w' hw']
    · rw [replace_epolls_of_fd_ne hfd] at hw hw'
      exact hs.unique w w' fd' hw hw'
  · intro ptr' data' hdata'
    rcases replace_heap_eq_some hdata' with ⟨p, hp, rfl, rfl⟩ | ⟨hne, hold⟩
    · refine ⟨worker, ⟨p.1.events, p.2⟩, ?_, rfl⟩
      rw [(hnext p hp).1, replace_epolls_self, hp]
      rfl
    · obtain ⟨w, i, hi, rfl⟩ := hs.owned ptr' data' hold
      have hfd : data'.fd ≠ data.fd := by
        intro heq
        rw [heq] at hi
        obtain rfl := hs.worker_eq hepoll hi
        rw [hepoll] at hi
        cases hi
        exact hne hptr
      exact ⟨w, i, by rw [replace_epolls_of_fd_ne hfd]; exact hi, rfl⟩
  · intro w event hevent
    rw [replace_pending] at hevent
    have hold := hs.behind hpending hevent
    obtain ⟨fd', i, hi, hiptr, hmask⟩ := hs.reported w event hold.1
    have hfd : fd' ≠ data.fd := by
      rintro rfl
      obtain rfl := hs.worker_eq hepoll hi
      rw [hepoll] at hi
      cases hi
      exact hold.2 rfl (by rw [← hiptr, hptr])
    exact ⟨fd', i, by rw [replace_epolls_of_fd_ne hfd]; exact hi, hiptr, hmask⟩
  · intro w
    rw [replace_pending]
    have honce := hs.once w
    by_cases hw : w = worker
    · subst hw
      rw [hpending, List.map_cons, List.nodup_cons] at honce
      rw [setPending_self]
      exact honce.2
    · rw [setPending_of_ne hw]
      exact honce

lemma wait {ready : List (EventMask × Nat)} (hs : Sound s) (h : (Action.wait worker ready).Possible s) :
    Sound (setPending worker ready s) := by
  obtain ⟨-, -, hnodup, hready⟩ := h
  refine ⟨hs.registered, hs.served, hs.unique, hs.owned, ?_, ?_⟩
  · intro w event hevent
    by_cases hw : w = worker
    · subst hw
      rw [setPending_self] at hevent
      exact hready event hevent
    · rw [setPending_of_ne hw] at hevent
      exact hs.reported w event hevent
  · intro w
    by_cases hw : w = worker
    · subst hw
      rw [setPending_self]
      exact hnodup
    · rw [setPending_of_ne hw]
      exact hs.once w

/-- To register a handler is no concern of any connection. -/
lemma beginRegistration (hs : Sound s) (registration : Registration HttpRequestHandler) :
    Sound (beginRegistration registration s) :=
  ⟨hs.registered, hs.served, hs.unique, hs.owned, hs.reported, hs.once⟩

lemma endRegistration (hs : Sound s) (registration : Registration HttpRequestHandler) :
    Sound (endRegistration registration s) :=
  ⟨hs.registered, hs.served, hs.unique, hs.owned, hs.reported, hs.once⟩

end Sound

/-! ### Every run -/

/-- The server with one more connection. -/
def withConnection (s : HttpServer) (fd : Int) (fresh : Nat) : HttpServer :=
  { register s.currentWorker fd (some ⟨.epollIn, fresh⟩) (setHeap fresh (some (.new fd)) s) with
    connections := insert fd s.connections
    currentWorker := nextWorker s.currentWorker }

section Steps

variable {answer : List UInt8 → Except ServerException (List UInt8)} {s s' : HttpServer}
  {worker other : Fin kThreadPoolSize} {fd fd' : Int} {fresh ptr : Nat} {data : EventData}
  {events : EpollEvents} {socket : Socket} {action : Action}

lemma accept_eq (h : ∀ worker, s.epolls worker fd = none) :
    accept fd fresh s = .ok () (s.withConnection fd fresh) := by
  rw [accept, bind_of_ok (modify_apply _ _), newData, bind_of_ok (modify_apply _ _),
    bind_of_ok (get_apply _), bind_of_ok (control_add (by exact h _) _), modify_apply]
  rfl

lemma withConnection_epolls_self :
    (s.withConnection fd fresh).epolls s.currentWorker fd = some ⟨.epollIn, fresh⟩ := by
  simp [withConnection, register, setHeap]

lemma withConnection_epolls_of_fd_ne (h : fd' ≠ fd) :
    (s.withConnection fd fresh).epolls other fd' = s.epolls other fd' := by
  by_cases hworker : other = s.currentWorker
  · subst hworker
    simp [withConnection, register, setHeap, h]
  · simp [withConnection, register, setHeap, hworker]

lemma withConnection_epolls_of_worker_ne (h : other ≠ s.currentWorker) :
    (s.withConnection fd fresh).epolls other = s.epolls other := by
  simp [withConnection, register, setHeap, h]

lemma Sound.unregistered (hs : Sound s) (h : fd ∉ s.connections) (worker : Fin kThreadPoolSize) :
    s.epolls worker fd = none := by
  cases hepoll : s.epolls worker fd with
  | none => rfl
  | some interest => exact absurd (hs.registered _ _ _ hepoll).1 h

lemma Sound.withConnection (hs : Sound s) (hfd : fd ∉ s.connections) (hfresh : s.heap fresh = none) :
    Sound (s.withConnection fd fresh) := by
  have hnone := hs.unregistered hfd
  have hlive : ∀ ptr data, s.heap ptr = some data → ptr ≠ fresh := by
    rintro ptr data hdata rfl
    rw [hfresh] at hdata
    cases hdata
  have hne : ∀ w fd' i, s.epolls w fd' = some i → fd' ≠ fd := by
    rintro w fd' i hi rfl
    rw [hnone w] at hi
    cases hi
  constructor
  · intro w fd' i hi
    by_cases hfd' : fd' = fd
    · subst hfd'
      refine ⟨Finset.mem_insert_self _ _, .new fd', ?_, rfl⟩
      by_cases hw : w = s.currentWorker
      · subst hw
        rw [withConnection_epolls_self] at hi
        cases hi
        exact setHeap_heap_self _
      · rw [withConnection_epolls_of_worker_ne hw, hnone w] at hi
        cases hi
    · rw [withConnection_epolls_of_fd_ne hfd'] at hi
      obtain ⟨hmem, data, hdata, hdatafd⟩ := hs.registered _ _ _ hi
      refine ⟨Finset.mem_insert_of_mem hmem, data, ?_, hdatafd⟩
      exact (setHeap_heap_of_ne (hlive _ _ hdata) _).trans hdata
  · intro fd' hmem
    rcases Finset.mem_insert.mp hmem with rfl | hold
    · exact ⟨_, _, withConnection_epolls_self⟩
    · obtain ⟨w, i, hi⟩ := hs.served fd' hold
      exact ⟨w, i, by rw [withConnection_epolls_of_fd_ne (hne _ _ _ hi)]; exact hi⟩
  · intro w w' fd' hw hw'
    by_cases hfd' : fd' = fd
    · subst hfd'
      have howner : ∀ v, ((s.withConnection fd' fresh).epolls v fd').isSome → v = s.currentWorker := by
        intro v hv
        by_contra hv'
        rw [withConnection_epolls_of_worker_ne hv', hnone v] at hv
        cases hv
      rw [howner w hw, howner w' hw']
    · rw [withConnection_epolls_of_fd_ne hfd'] at hw hw'
      exact hs.unique w w' fd' hw hw'
  · intro ptr data hdata
    by_cases hptr : ptr = fresh
    · subst hptr
      rw [show (s.withConnection fd ptr).heap ptr = some (.new fd) from setHeap_heap_self _] at hdata
      cases hdata
      exact ⟨_, _, withConnection_epolls_self, rfl⟩
    · rw [show (s.withConnection fd fresh).heap ptr = s.heap ptr from setHeap_heap_of_ne hptr _] at hdata
      obtain ⟨w, i, hi, hiptr⟩ := hs.owned ptr data hdata
      exact ⟨w, i, by rw [withConnection_epolls_of_fd_ne (hne _ _ _ hi)]; exact hi, hiptr⟩
  · intro w event hevent
    obtain ⟨fd', i, hi, hiptr, hmask⟩ := hs.reported w event hevent
    exact ⟨fd', i, by rw [withConnection_epolls_of_fd_ne (hne _ _ _ hi)]; exact hi, hiptr, hmask⟩
  · exact hs.once

lemma responseString_error_iff {handlers : Handlers HttpRequestHandler} {buffer : List UInt8} :
    (∃ e, responseString handlers buffer = .error e) ↔ 0 ∉ buffer := by
  rw [responseString]
  by_cases hnul : 0 ∈ buffer
  · rw [if_pos hnul]
    refine iff_of_false ?_ (not_not.mpr hnul)
    rintro ⟨e, he⟩
    cases hrequest : stringToRequest (cString buffer) with
    | error e' => simp [hrequest, Pure.pure, Except.pure] at he
    | ok request =>
      cases hresponse : handleHttpRequest handlers request <;>
        simp [hrequest, hresponse, Pure.pure, Except.pure] at he
  · rw [if_neg hnul]
    exact iff_of_true ⟨_, rfl⟩ hnul

lemma answer_error_iff {buffer : List UInt8} :
    (∃ e, s.answer buffer = .error e) ↔ 0 ∉ buffer ∨ s.registering.isSome ∧ LooksUp buffer := by
  rw [HttpServer.answer]
  by_cases hrace : s.registering.isSome ∧ LooksUp buffer
  · rw [if_pos hrace]
    exact iff_of_true ⟨_, rfl⟩ (Or.inr hrace)
  · rw [if_neg hrace, responseString_error_iff, or_iff_left hrace]

lemma answer_of_quiet (h : s.registering = none) : s.answer = responseString s.handlers := by
  funext buffer
  have hfree : ¬(s.registering.isSome = true ∧ LooksUp buffer) := by
    rw [h]
    exact fun hrace => Bool.false_ne_true hrace.1
  rw [HttpServer.answer, if_neg hfree]

lemma bind_error_iff {α β : Type} {x : Except ServerException α} {f : α → Except ServerException β}
    (h : ∀ a, ∃ b, f a = .ok b) : (∃ e, x >>= f = .error e) ↔ ∃ e, x = .error e := by
  cases x with
  | error e => exact iff_of_true ⟨e, rfl⟩ ⟨e, rfl⟩
  | ok a =>
    obtain ⟨b, hb⟩ := h a
    refine iff_of_false ?_ (by rintro ⟨e, he⟩; cases he)
    rintro ⟨e, he⟩
    rw [show (Except.ok a >>= f) = f a from rfl, hb] at he
    cases he

lemma read_error_iff {count : Nat} :
    (∃ e, data.read count = .error e) ↔ kMaxBufferSize < data.cursor + count := by
  rw [EventData.read]
  by_cases hcount : data.cursor + count ≤ kMaxBufferSize
  · rw [if_pos hcount]
    refine iff_of_false ?_ (Nat.not_lt.mpr hcount)
    rintro ⟨e, he⟩
    cases he
  · rw [if_neg hcount]
    exact iff_of_true ⟨_, rfl⟩ (Nat.lt_of_not_le hcount)

/-- An event comes to an exception exactly when it is fatal. -/
lemma reaction_error_iff :
    (∃ e, reaction s.answer data events socket = .error e) ↔ Fatal s data events socket := by
  cases events with
  | epollIn =>
    cases hrecv : socket.recv with
    | received received =>
      simp only [reaction, Fatal, hrecv, RecvResult.received.injEq, exists_eq_left']
      rw [bind_error_iff, answer_error_iff]
      exact fun response => ⟨_, rfl⟩
    | closed | again | failed => simp [reaction, Fatal, hrecv, Pure.pure, Except.pure]
  | epollOut =>
    cases hsend : socket.send with
    | sent count =>
      simp only [reaction, Fatal, hsend, reduceCtorEq, SendResult.sent.injEq, exists_eq_left', false_or]
      rw [bind_error_iff, read_error_iff]
      intro bytes
      by_cases hcount : count < data.length
      · exact ⟨_, if_pos hcount⟩
      · exact ⟨_, if_neg hcount⟩
    | again => simp [reaction, Fatal, hsend, throw, throwThe, MonadExceptOf.throw]
    | failed => simp [reaction, Fatal, hsend, Pure.pure, Except.pure]

/-- The data that an event leaves is still that of its connection. -/
lemma fd_of_reaction {event : EpollEvent} {bytes : List UInt8}
    (h : reaction answer data events socket = .ok (some event, bytes)) : event.data.fd = data.fd := by
  cases events with
  | epollIn =>
    cases hrecv : socket.recv with
    | received received =>
      rw [reaction, hrecv] at h
      obtain ⟨response, -, hok⟩ := except_bind_eq_ok h
      cases hok
      rfl
    | again =>
      rw [reaction, hrecv] at h
      cases h
      rfl
    | closed | failed =>
      rw [reaction, hrecv] at h
      cases h
  | epollOut =>
    cases hsend : socket.send with
    | sent count =>
      rw [reaction, hsend] at h
      obtain ⟨read, -, hok⟩ := except_bind_eq_ok h
      by_cases hcount : count < data.length
      · rw [if_pos hcount] at hok
        cases hok
        rfl
      · rw [if_neg hcount] at hok
        cases hok
        rfl
    | again | failed =>
      rw [reaction, hsend] at h
      cases h

lemma located_ptr {next : Option EpollEvent} (hfresh : s.heap fresh = none) :
    ∀ p ∈ next.map (located ptr fresh events), p.2 = ptr ∨ s.heap p.2 = none := by
  intro p hp
  obtain ⟨event, rfl, rfl⟩ := Option.map_eq_some_iff.mp hp
  by_cases hevents : event.events = events
  · exact .inl (if_pos hevents)
  · right
    rw [located, if_neg hevents]
    exact hfresh

/-- What a step of a sound server comes to. -/
inductive Stepped (s : HttpServer) : Action → List (Int × List UInt8) → HttpServer → Prop where
  | accept {fd : Int} {fresh : Nat} (hfd : fd ∉ s.connections) (hfresh : s.heap fresh = none) :
      Stepped s (.accept fd fresh) [] (s.withConnection fd fresh)
  | wait {worker : Fin kThreadPoolSize} {ready : List (EventMask × Nat)} :
      Stepped s (.wait worker ready) [] (setPending worker ready s)
  | event {worker : Fin kThreadPoolSize} {socket : Socket} {fresh ptr : Nat} {mask : EventMask}
      {rest : List (EventMask × Nat)} {data : EventData} {interest : Interest}
      {next : Option EpollEvent} {bytes : List UInt8}
      (hpending : s.pending worker = (mask, ptr) :: rest) (hheap : s.heap ptr = some data)
      (hepoll : s.epolls worker data.fd = some interest) (hptr : interest.ptr = ptr)
      (hfresh : s.heap fresh = none)
      (hreaction : reaction s.answer data interest.events (mask.observed socket) = .ok (next, bytes)) :
      Stepped s (.event worker socket fresh) [(data.fd, bytes)]
        ((setPending worker rest s).replace worker data.fd ptr
          (next.map (located ptr fresh interest.events)))
  | beginRegistration {registration : Registration HttpRequestHandler} :
      Stepped s (.beginRegistration registration) [] (beginRegistration registration s)
  | endRegistration {registration : Registration HttpRequestHandler}
      (hregistering : s.registering = some registration) :
      Stepped s .endRegistration [] (endRegistration registration s)

/-- A step of a sound server leaves a sound server, or ends the process with a fatal event. -/
lemma step_cases (hs : Sound s) (h : action.Possible s) :
    (∃ sent s', action.run s = .ok sent s' ∧ Stepped s action sent s' ∧ Sound s' ∧
      ¬action.Fatal s) ∨
    (∃ e s', action.run s = .error e s') ∧ action.Fatal s := by
  cases action with
  | accept fd fresh =>
    obtain ⟨hfd, hfresh⟩ := h
    have hnone := hs.unregistered hfd
    refine .inl ⟨[], _, ?_, .accept hfd hfresh, hs.withConnection hfd hfresh, id⟩
    rw [Action.run, bind_of_ok (accept_eq hnone), pure_apply]
  | wait worker ready =>
    refine .inl ⟨[], _, ?_, .wait, hs.wait h, id⟩
    rw [Action.run, bind_of_ok (modify_apply _ _), pure_apply]
  | event worker socket fresh =>
    obtain ⟨hpending, hfresh⟩ := h
    obtain ⟨⟨mask, ptr⟩, rest, hpending⟩ := List.exists_cons_of_ne_nil hpending
    obtain ⟨data, interest, hheap, hepoll, hptr, hmask⟩ := hs.front hpending
    cases hreaction : reaction s.answer data interest.events (mask.observed socket) with
    | error e =>
      refine .inr ⟨⟨e, processEvent_of_error hpending hheap hepoll hmask hreaction⟩, ?_⟩
      exact ⟨mask, ptr, rest, data, interest, hpending, hheap, hepoll,
        reaction_error_iff.mp ⟨e, hreaction⟩⟩
    | ok result =>
      obtain ⟨next, bytes⟩ := result
      refine .inl ⟨_, _, processEvent_of_ok hpending hheap hepoll hmask hfresh hreaction,
        .event hpending hheap hepoll hptr hfresh hreaction, hs.replace hpending hepoll hptr ?_, ?_⟩
      · intro p hp
        refine ⟨?_, located_ptr hfresh p hp⟩
        obtain ⟨event, rfl, rfl⟩ := Option.map_eq_some_iff.mp hp
        exact fd_of_reaction hreaction
      · rintro ⟨mask', ptr', rest', data', interest', hpending', hheap', hepoll', hfatal⟩
        rw [hpending] at hpending'
        cases hpending'
        rw [hheap] at hheap'
        cases hheap'
        rw [hepoll] at hepoll'
        cases hepoll'
        obtain ⟨e, he⟩ := reaction_error_iff.mpr hfatal
        rw [hreaction] at he
        cases he
  | beginRegistration registration =>
    refine .inl ⟨[], _, ?_, .beginRegistration, hs.beginRegistration registration, id⟩
    rw [Action.run, bind_of_ok (modify_apply _ _), pure_apply]
  | endRegistration =>
    obtain ⟨registration, hregistering⟩ := Option.ne_none_iff_exists'.mp h
    refine .inl ⟨[], _, ?_, .endRegistration hregistering, hs.endRegistration registration, id⟩
    rw [Action.run, bind_of_ok (get_apply s)]
    simp only [hregistering]
    rw [bind_of_ok (modify_apply _ _), pure_apply]

lemma stepped_of_ok {sent : List (Int × List UInt8)} (hs : Sound s) (h : action.Possible s)
    (hrun : action.run s = .ok sent s') : Stepped s action sent s' ∧ Sound s' := by
  rcases step_cases hs h with ⟨_, _, hok, hstep, hsound, -⟩ | ⟨⟨e, _, herror⟩, -⟩
  · rw [hrun] at hok
    cases hok
    exact ⟨hstep, hsound⟩
  · rw [hrun] at herror
    cases herror

/-- In any order of the steps of the threads, the server stays sound, and nothing but a fatal event ends
the process. -/
lemma runActions_sound {actions : List Action} (hs : Sound s) (h : PossibleRun actions s) :
    (∀ sent s', runActions actions s = .ok sent s' → Sound s') ∧
      ((∃ e s', runActions actions s = .error e s') ↔
        ∃ before action after sent s', actions = before ++ action :: after ∧
          runActions before s = .ok sent s' ∧ action.Fatal s') := by
  induction actions generalizing s with
  | nil =>
    refine ⟨?_, iff_of_false (fun ⟨_, _, herror⟩ => nomatch herror) ?_⟩
    · rintro sent s' hrun
      cases hrun
      exact hs
    · rintro ⟨before, action, after, -, -, happend, -⟩
      simp at happend
  | cons action actions ih =>
    obtain ⟨hpossible, hrest⟩ := h
    rcases step_cases hs hpossible with ⟨sent, s₁, hrun, -, hs₁, hharmless⟩ | ⟨⟨e, s₁, hrun⟩, hfatal⟩
    · obtain ⟨hsound, herror⟩ := ih hs₁ (hrest sent s₁ hrun)
      have hcons : ∀ tail more s₂, runActions tail s₁ = .ok more s₂ →
          runActions (action :: tail) s = .ok (sent ++ more) s₂ := by
        intro tail more s₂ htail
        rw [runActions, bind_of_ok hrun, bind_of_ok htail, pure_apply]
      constructor
      · intro sent' s' hok
        obtain ⟨sent₁, s₁', hfirst, hok⟩ := bind_eq_ok hok
        rw [hrun] at hfirst
        cases hfirst
        obtain ⟨more, s₂, hmore, hok⟩ := bind_eq_ok hok
        cases hok
        exact hsound more s' hmore
      · constructor
        · rintro ⟨e, s', he⟩
          have htail : ∃ e s', runActions actions s₁ = .error e s' := by
            cases hmore : runActions actions s₁ with
            | error e' s₂ => exact ⟨e', s₂, rfl⟩
            | ok more s₂ =>
              rw [hcons actions more s₂ hmore] at he
              cases he
          obtain ⟨before, last, after, more, s₂, rfl, hbefore, hfatal⟩ := herror.mp htail
          exact ⟨action :: before, last, after, _, s₂, rfl, hcons before more s₂ hbefore, hfatal⟩
        · rintro ⟨before, last, after, more, s₂, happend, hbefore, hfatal⟩
          cases before with
          | nil =>
            cases happend
            cases hbefore
            exact absurd hfatal hharmless
          | cons first before =>
            cases happend
            obtain ⟨sent₁, s₁', hfirst, hbefore⟩ := bind_eq_ok hbefore
            rw [hrun] at hfirst
            cases hfirst
            obtain ⟨more', s₂', hmore, hbefore⟩ := bind_eq_ok hbefore
            cases hbefore
            obtain ⟨e, s', he⟩ := herror.mpr ⟨before, last, after, more', _, rfl, hmore, hfatal⟩
            exact ⟨e, s', by rw [runActions, bind_of_ok hrun, bind_of_error he]⟩
    · have herror : runActions (action :: actions) s = .error e s₁ := by
        rw [runActions, bind_of_error hrun]
      refine ⟨?_, iff_of_true ⟨e, s₁, herror⟩ ⟨[], action, actions, [], s, rfl, rfl, hfatal⟩⟩
      intro sent s' hok
      rw [herror] at hok
      cases hok

end Steps

section Clients

variable {s s' : HttpServer} {worker : Fin kThreadPoolSize} {ptr fresh : Nat} {data : EventData}
  {events : EpollEvents} {socket : Socket} {action : Action} {actions : List Action}
  {sent more : List (Int × List UInt8)}

/-- A possible run, with what it sends and what a connection meets. -/
structure Observed (fd : Int) (s : HttpServer) (actions : List Action)
    (sent : List (Int × List UInt8)) (meetings : List (Handlers HttpRequestHandler × Socket)) : Prop where
  possible : PossibleRun actions s
  runs : ∃ s', runActions actions s = .ok sent s'
  meets : meetingsOf fd actions s = meetings

/-- A possible step before a possible run. -/
lemma Observed.cons {fd : Int} {meets meetings : List (Handlers HttpRequestHandler × Socket)}
    (h : action.Possible s ∧ action.run s = .ok sent s') (hmeets : action.meets fd s = meets)
    (hrest : Observed fd s' actions more meetings) :
    Observed fd s (action :: actions) (sent ++ more) (meets ++ meetings) := by
  obtain ⟨s'', hrun⟩ := hrest.runs
  refine ⟨⟨h.1, fun sent' s₁ hfirst => ?_⟩, ⟨s'', ?_⟩, ?_⟩
  · rw [h.2] at hfirst
    cases hfirst
    exact hrest.possible
  · rw [runActions, bind_of_ok h.2, bind_of_ok hrun, pure_apply]
  · rw [meetingsOf, stateAfter_of_ok h.2, hmeets, hrest.meets]

lemma Observed.quiet {fd : Int} {meetings : List (Handlers HttpRequestHandler × Socket)}
    (hpossible : action.Possible s) (hrun : action.run s = .ok [] s') (hmeets : action.meets fd s = [])
    (hrest : Observed fd s' actions more meetings) : Observed fd s (action :: actions) more meetings :=
  Observed.cons ⟨hpossible, hrun⟩ hmeets hrest

lemma reports_mask (events : EpollEvents) : events.mask.Reports events := by
  cases events <;> exact ⟨by decide, by decide⟩

lemma observed_mask (events : EpollEvents) (socket : Socket) : events.mask.observed socket = socket := by
  cases events <;> rfl

/-- A worker is told of one connection. -/
lemma wait_possible {fd : Int} {mask : EventMask} (hpending : s.pending worker = [])
    (hepoll : s.epolls worker fd = some ⟨events, ptr⟩) (hmask : mask.Reports events) :
    (Action.wait worker [(mask, ptr)]).Possible s := by
  refine ⟨hpending, Nat.le_of_ble_eq_true rfl, List.nodup_singleton _, fun event hevent => ?_⟩
  obtain rfl := List.mem_singleton.mp hevent
  exact ⟨fd, _, hepoll, rfl, hmask⟩

/-- A worker handles one event. -/
lemma Observed.event {fd : Int} {answer : List UInt8 → Except ServerException (List UInt8)}
    {next : Option EpollEvent} {bytes : List UInt8}
    {meets meetings : List (Handlers HttpRequestHandler × Socket)}
    (hpending : s.pending worker = [(events.mask, ptr)]) (hheap : s.heap ptr = some data)
    (hepoll : s.epolls worker data.fd = some ⟨events, ptr⟩) (hfresh : s.heap fresh = none)
    (hanswer : s.answer = answer) (h : reaction answer data events socket = .ok (next, bytes))
    (hmeets : (if data.fd = fd then [(s.handlers, socket)] else []) = meets)
    (hrest : Observed fd ((setPending worker [] s).replace worker data.fd ptr
      (next.map (located ptr fresh events))) actions more meetings) :
    Observed fd s (.event worker socket fresh :: actions) ((data.fd, bytes) :: more)
      (meets ++ meetings) := by
  rw [← hanswer, ← observed_mask events socket] at h
  have hpossible : (Action.event worker socket fresh).Possible s :=
    ⟨by rw [hpending]; exact List.cons_ne_nil _ _, hfresh⟩
  refine @Observed.cons _ _ _ _ [(data.fd, bytes)] _ fd meets meetings ⟨hpossible, ?_⟩ ?_ hrest
  · exact processEvent_of_ok hpending hheap hepoll (reports_mask events) hfresh h
  · simp only [Action.meets, hpending, hheap, observed_mask, hmeets]

end Clients

/-- One client hangs up while another one sends nothing. -/
def twoClients : List Action :=
  [.accept 5 0, .accept 6 1, .wait 0 [(EpollEvents.epollIn.mask, 0)],
    .wait 1 [({ epollHup := true }, 1)], .event 1 ⟨.again, .again⟩ 2]

/-- A third client has the descriptor and the data of the one that hung up, with another worker. It gets
the greeting in two pieces, while the handler for the metrics is registered, and leaves. -/
def thirdClient : List Action :=
  [.event 0 ⟨.again, .again⟩ 2, .wait 2 [(EpollEvents.epollIn.mask, 1)],
    .event 2 ⟨.received greetingsRequest, .failed⟩ 2,
    .beginRegistration (.path (text "/metrics") .head greetings),
    .wait 2 [(EpollEvents.epollOut.mask, 2)], .event 2 ⟨.again, .sent 50⟩ 3, .endRegistration,
    .wait 2 [(EpollEvents.epollOut.mask, 2)], .event 2 ⟨.again, .sent 28⟩ 3,
    .wait 2 [(EpollEvents.epollIn.mask, 3)], .event 2 ⟨.closed, .failed⟩ 4]

/-- The server as it starts, with the greeting. -/
def greeting : HttpServer := start (registerAll (serverCalls greetings []))

/-- The server when the third client has been accepted. -/
def thirdAccepted : HttpServer := stateAfter (runActions (twoClients ++ [.accept 6 1])) greeting

lemma observed_twoClients {actions : List Action} {sent : List (Int × List UInt8)}
    {meetings : List (Handlers HttpRequestHandler × Socket)}
    (h : Observed 6 thirdAccepted actions sent meetings) :
    Observed 6 greeting (twoClients ++ .accept 6 1 :: actions) ((6, []) :: sent)
      ((greeting.handlers, ⟨.closed, .failed⟩) :: meetings) := by
  refine .quiet ⟨by decide, rfl⟩ rfl rfl (.quiet ⟨by decide, rfl⟩ rfl rfl ?_)
  refine .quiet (@wait_possible _ _ _ .epollIn 5 _ rfl rfl (reports_mask _)) rfl rfl ?_
  refine .quiet (@wait_possible _ _ _ .epollIn 6 _ rfl rfl ⟨by decide, by decide⟩) rfl rfl ?_
  refine @Observed.cons _ _ _ _ [(6, [])] _ 6 [_] _ ⟨⟨by decide, rfl⟩, rfl⟩ rfl ?_
  exact .quiet ⟨by decide, rfl⟩ rfl rfl h

/-- The request of the third client is answered before the handler for the metrics is touched. -/
lemma reaction_greetings :
    reaction (responseString (registerAll (serverCalls greetings []))) (.new 6) .epollIn
      ⟨.received greetingsRequest, .failed⟩ =
        .ok (some ⟨.epollOut, .ofResponse 6 greetingsResponse⟩, []) := by
  rw [reaction]
  dsimp only
  rw [responseString_greetings 6]
  rfl

lemma buffer_greetings :
    (EventData.ofResponse 6 greetingsResponse).buffer = greetingsResponse ++ List.replicate 4018 0 := by
  have hstring : cString greetingsResponse = greetingsResponse := rfl
  have hlength : greetingsResponse.length = 78 := rfl
  change strncpy greetingsResponse kMaxBufferSize = _
  simp only [strncpy, hstring]
  rw [List.take_of_length_le (by rw [hlength]; decide), hlength]
  rfl

/-- `send` takes the next bytes of the greeting. -/
lemma read_greetings {data : EventData} {sent count : Nat}
    (hbuffer : data.buffer = (EventData.ofResponse 6 greetingsResponse).buffer)
    (hcursor : data.cursor = sent) (hcount : sent + count ≤ greetingsResponse.length) :
    data.read count = .ok ((greetingsResponse.drop sent).take count) := by
  have hlength : greetingsResponse.length = 78 := rfl
  have hfits : data.cursor + count ≤ kMaxBufferSize := by
    rw [hcursor, kMaxBufferSize]
    omega
  rw [EventData.read, if_pos hfits, hbuffer, buffer_greetings, hcursor,
    List.drop_append_of_le_length (by omega),
    List.take_append_of_le_length (by rw [List.length_drop]; omega)]
  rfl

lemma observed_thirdClient :
    let before := registerAll (serverCalls greetings [])
    let after := PromEndp.register before (.path (text "/metrics") .head greetings)
    Observed 6 thirdAccepted thirdClient
      [(5, []), (6, []), (6, greetingsResponse.take 50), (6, greetingsResponse.drop 50), (6, [])]
      [(before, ⟨.received greetingsRequest, .failed⟩), (before, ⟨.again, .sent 50⟩),
        (after, ⟨.again, .sent 28⟩), (after, ⟨.closed, .failed⟩)] := by
  intro before after
  let data := EventData.ofResponse 6 greetingsResponse
  have hfirst : ∀ answer, reaction answer data .epollOut ⟨.again, .sent 50⟩ =
      .ok (some ⟨.epollOut, data.advance 50⟩, greetingsResponse.take 50) := by
    intro answer
    rw [reaction]
    dsimp only
    rw [@read_greetings data 0 50 rfl rfl (by decide)]
    rfl
  have hrest : ∀ answer, reaction answer (data.advance 50) .epollOut ⟨.again, .sent 28⟩ =
      .ok (some ⟨.epollIn, .new 6⟩, greetingsResponse.drop 50) := by
    intro answer
    rw [reaction]
    dsimp only
    rw [@read_greetings (data.advance 50) 50 28 rfl rfl (by decide)]
    rfl
  refine @Observed.event _ _ _ _ (.new 5) .epollIn _ _ _ 6 _ _ [] [] _ rfl rfl rfl rfl rfl rfl rfl ?_
  refine .quiet (@wait_possible _ _ _ .epollIn 6 _ rfl rfl (reports_mask _)) rfl rfl ?_
  refine @Observed.event _ _ _ _ (.new 6) .epollIn _ _ _ 6 _ _ _ [_] _ rfl rfl rfl rfl
    (answer_of_quiet rfl) reaction_greetings rfl ?_
  refine .quiet rfl rfl rfl ?_
  refine .quiet (@wait_possible _ _ _ .epollOut 6 _ rfl rfl (reports_mask _)) rfl rfl ?_
  refine @Observed.event _ _ _ _ data .epollOut _ _ _ 6 _ _ _ [_] _ rfl rfl rfl rfl rfl (hfirst _) rfl ?_
  refine .quiet (Option.some_ne_none _) rfl rfl ?_
  refine .quiet (@wait_possible _ _ _ .epollOut 6 _ rfl rfl (reports_mask _)) rfl rfl ?_
  refine @Observed.event _ _ _ _ (data.advance 50) .epollOut _ _ _ 6 _ _ _ [_] _ rfl rfl rfl rfl rfl
    (hrest _) rfl ?_
  refine .quiet (@wait_possible _ _ _ .epollIn 6 _ rfl rfl (reports_mask _)) rfl rfl ?_
  exact @Observed.event _ _ _ _ (.new 6) .epollIn _ _ _ 6 _ none [] [_] [] rfl rfl rfl rfl rfl rfl rfl
    ⟨trivial, ⟨_, rfl⟩, rfl⟩

end HttpServer

end PromEndp

end Dibibase
