import Mathlib.Data.List.AList
import Dibibase.PromEndp.HttpMessage

/-!
# Request handlers

The server keeps its handlers in a map from paths to maps from methods. Both ways to register a handler
insert it with `std::map::insert`, which does not replace a handler that is there, and one of them
first throws away all handlers of the path.
-/

namespace Dibibase

open Library

namespace PromEndp

variable {H : Type}

/-- `request_handlers_`. -/
abbrev Handlers (H : Type) := AList (fun _ : Uri => AList (fun _ : HttpMethod => H))

/-- `RegisterHttpRequestHandler` for a `Uri`. -/
def registerUri (handlers : Handlers H) (uri : Uri) (method : HttpMethod) (callback : H) : Handlers H :=
  let methods := (handlers.lookup uri).getD ∅
  handlers.insert uri (if method ∈ methods then methods else methods.insert method callback)

/-- `RegisterHttpRequestHandler` for a path. -/
def registerPath (handlers : Handlers H) (path : List UInt8) (method : HttpMethod) (callback : H) :
    Handlers H :=
  let uri := Uri.ofPath path
  let handlers := handlers.erase uri
  let methods := (handlers.lookup uri).getD ∅
  handlers.insert uri (if method ∈ methods then methods else methods.insert method callback)

/-- A call of one of the two. -/
inductive Registration (H : Type) where
  | path (path : List UInt8) (method : HttpMethod) (callback : H)
  | uri (uri : Uri) (method : HttpMethod) (callback : H)

namespace Registration

/-- The path of the call, in lower case. -/
def target : Registration H → Uri
  | path p _ _ => Uri.ofPath p
  | uri u _ _ => u

def method : Registration H → HttpMethod
  | path _ m _ => m
  | uri _ m _ => m

def callback : Registration H → H
  | path _ _ c => c
  | uri _ _ c => c

/-- The call throws away the handlers of its path. -/
def Replaces : Registration H → Prop
  | path _ _ _ => True
  | uri _ _ _ => False

instance (c : Registration H) : Decidable c.Replaces :=
  match c with
  | path _ _ _ => .isTrue trivial
  | uri _ _ _ => .isFalse id

end Registration

def register (handlers : Handlers H) : Registration H → Handlers H
  | .path path method callback => registerPath handlers path method callback
  | .uri uri method callback => registerUri handlers uri method callback

/-- The handlers after a sequence of calls. -/
def registerAll (calls : List (Registration H)) : Handlers H := calls.foldl register ∅

/-- What `HandleHttpRequest` does with a request: it runs a handler, or answers by itself. -/
inductive Dispatch (H : Type) where
  | run (callback : H)
  | methodNotAllowed
  | notFound
  deriving DecidableEq

/-- The two lookups of `HandleHttpRequest`. -/
def dispatch (handlers : Handlers H) (uri : Uri) (method : HttpMethod) : Dispatch H :=
  match handlers.lookup uri with
  | none => .notFound
  | some methods =>
    match methods.lookup method with
    | none => .methodNotAllowed
    | some callback => .run callback

/-- `HttpRequestHandler_t`. -/
abbrev HttpRequestHandler := HttpRequest → Except StdException HttpResponse

def handleHttpRequest (handlers : Handlers HttpRequestHandler) (request : HttpRequest) :
    Except StdException HttpResponse :=
  match dispatch handlers request.uri request.method with
  | .notFound => return { statusCode := .notFound }
  | .methodNotAllowed => return { statusCode := .methodNotAllowed }
  | .run callback => callback request

/-! ### A map of handlers -/

/-- The handler that has been registered last for a path and a method. -/
def latest (calls : List (Registration H)) (uri : Uri) (method : HttpMethod) : Option H :=
  (calls.filter (fun c => c.target = uri ∧ c.method = method)).getLast?.map (fun c => c.callback)

/-- What is done with a request when registering a handler updates a map. -/
def expected (calls : List (Registration H)) (uri : Uri) (method : HttpMethod) : Dispatch H :=
  match latest calls uri method with
  | some callback => .run callback
  | none => if ∃ c ∈ calls, c.target = uri then .methodNotAllowed else .notFound

/-- The calls from the last one on that throws handlers away; all of them when none does. -/
def sinceReplaced : List (Registration H) → List (Registration H)
  | [] => []
  | c :: calls => if ∃ d ∈ calls, d.Replaces then sinceReplaced calls else c :: calls

/-- The calls for a method of a path, from the last call on that has thrown away the handlers of the
path. -/
def current (calls : List (Registration H)) (uri : Uri) (method : HttpMethod) : List (Registration H) :=
  (sinceReplaced (calls.filter (fun c => c.target = uri))).filter (fun c => c.method = method)

/-- The method has never been registered for the path, or of its current calls the first and the last
have the same handler. -/
def Kept (calls : List (Registration H)) (uri : Uri) (method : HttpMethod) : Prop :=
  (∀ c ∈ calls, c.target = uri → c.method ≠ method) ∨
    ∃ first last, (current calls uri method).head? = some first ∧
      (current calls uri method).getLast? = some last ∧ first.callback = last.callback

/-! ### What a call does -/

section Register

variable {handlers : Handlers H} {c : Registration H} {uri : Uri} {method : HttpMethod}

/-- The map of the methods of a path after a call for it. -/
def methodsAfter (handlers : Handlers H) (c : Registration H) : AList (fun _ : HttpMethod => H) :=
  let methods := if c.Replaces then ∅ else (handlers.lookup c.target).getD ∅
  if c.method ∈ methods then methods else methods.insert c.method c.callback

lemma lookup_register_self (handlers : Handlers H) (c : Registration H) :
    (register handlers c).lookup c.target = some (methodsAfter handlers c) := by
  cases c with
  | path path method callback =>
    simp [register, registerPath, methodsAfter, Registration.target, Registration.method,
      Registration.callback, Registration.Replaces]
  | uri uri method callback =>
    simp [register, registerUri, methodsAfter, Registration.target, Registration.method,
      Registration.callback, Registration.Replaces]

lemma lookup_register_ne (h : uri ≠ c.target) : (register handlers c).lookup uri = handlers.lookup uri := by
  cases c with
  | path path method callback =>
    have hpath : uri ≠ Uri.ofPath path := h
    rw [register, registerPath, AList.lookup_insert_ne hpath, AList.lookup_erase_ne hpath]
  | uri target method callback =>
    have htarget : uri ≠ target := h
    rw [register, registerUri, AList.lookup_insert_ne htarget]

/-- `std::map::insert` keeps the handlers that are there. -/
lemma lookup_insertNew (methods : AList (fun _ : HttpMethod => H)) (m : HttpMethod) (callback : H) :
    (if m ∈ methods then methods else methods.insert m callback).lookup method =
      (methods.lookup method).or (if m = method then some callback else none) := by
  by_cases hmem : m ∈ methods
  · obtain ⟨h, hlookup⟩ := Option.isSome_iff_exists.mp (AList.lookup_isSome.mpr hmem)
    rw [if_pos hmem]
    by_cases hm : m = method
    · subst hm
      simp [hlookup]
    · simp [hm]
  · rw [if_neg hmem]
    by_cases hm : m = method
    · subst hm
      simp [AList.lookup_eq_none.mpr hmem]
    · rw [AList.lookup_insert_ne (Ne.symm hm)]
      simp [hm]

end Register

/-! ### What a sequence of calls does -/

section RegisterAll

variable {calls : List (Registration H)} {uri : Uri} {method : HttpMethod}

lemma sinceReplaced_append (calls : List (Registration H)) (c : Registration H) :
    sinceReplaced (calls ++ [c]) = if c.Replaces then [c] else sinceReplaced calls ++ [c] := by
  induction calls with
  | nil => simp [sinceReplaced]
  | cons d calls ih =>
    rw [List.cons_append, sinceReplaced, ih, sinceReplaced]
    by_cases hc : c.Replaces
    · simp [hc]
    · by_cases hd : ∃ d ∈ calls, d.Replaces
      · simp [hc, hd]
      · simp [hc, hd]

lemma sinceReplaced_suffix (calls : List (Registration H)) : sinceReplaced calls <:+ calls := by
  induction calls with
  | nil => exact List.suffix_rfl
  | cons c calls ih =>
    rw [sinceReplaced]
    split
    · exact ih.trans (List.suffix_cons c calls)
    · exact List.suffix_rfl

/-- The handlers are those of the first current calls. -/
structure Represents (calls : List (Registration H)) (handlers : Handlers H) : Prop where
  missing : ∀ uri, handlers.lookup uri = none ↔ ∀ c ∈ calls, c.target ≠ uri
  methods : ∀ uri methods, handlers.lookup uri = some methods → ∀ method,
    methods.lookup method = (current calls uri method).head?.map (fun c => c.callback)

lemma represents_empty : Represents ([] : List (Registration H)) ∅ := by
  constructor
  · intro uri
    simp
  · intro uri methods h
    simp at h

lemma current_append_self (c : Registration H) : current (calls ++ [c]) c.target method =
    (if c.Replaces then [] else current calls c.target method) ++
      if c.method = method then [c] else [] := by
  have hfilter : (calls ++ [c]).filter (fun d => d.target = c.target) =
      calls.filter (fun d => d.target = c.target) ++ [c] := by simp
  rw [current, hfilter, sinceReplaced_append]
  by_cases hc : c.Replaces
  · by_cases hm : c.method = method <;> simp [hc, hm]
  · by_cases hm : c.method = method <;> simp [hc, hm, current]

lemma current_append_ne {c : Registration H} (h : c.target ≠ uri) :
    current (calls ++ [c]) uri method = current calls uri method := by
  simp [current, h]

lemma Represents.register {handlers : Handlers H} (h : Represents calls handlers) (c : Registration H) :
    Represents (calls ++ [c]) (register handlers c) := by
  constructor
  · intro uri
    by_cases huri : uri = c.target
    · subst huri
      simp [lookup_register_self]
    · rw [lookup_register_ne huri, h.missing]
      constructor
      · intro hcalls d hd
        rcases List.mem_append.mp hd with hd | hd
        · exact hcalls d hd
        · rw [List.mem_singleton.mp hd]
          exact Ne.symm huri
      · exact fun hcalls d hd => hcalls d (List.mem_append_left _ hd)
  · intro uri methods hlookup method
    by_cases huri : uri = c.target
    · subst huri
      rw [lookup_register_self, Option.some.injEq] at hlookup
      rw [← hlookup, methodsAfter, lookup_insertNew, current_append_self]
      have hold : AList.lookup method
          (if c.Replaces then ∅ else (handlers.lookup c.target).getD ∅) =
            (if c.Replaces then [] else current calls c.target method).head?.map
              (fun c => c.callback) := by
        by_cases hc : c.Replaces
        · simp [hc]
        · cases hmethods : handlers.lookup c.target with
          | none =>
            have hnone : calls.filter (fun d => d.target = c.target) = [] := by
              simpa using (h.missing c.target).mp hmethods
            simp [hc, current, hnone, sinceReplaced]
          | some methods => simp [hc, h.methods _ _ hmethods method]
      rw [hold]
      by_cases hm : c.method = method
      · simp [hm]
      · simp [hm]
    · rw [lookup_register_ne huri] at hlookup
      rw [current_append_ne (Ne.symm huri)]
      exact h.methods uri methods hlookup method

/-- A call after another the handlers stay those of the first current calls. -/
lemma represents_registerAll (calls : List (Registration H)) : Represents calls (registerAll calls) := by
  induction calls using List.reverseRecOn with
  | nil => exact represents_empty
  | append_singleton calls c ih =>
    rw [registerAll, List.foldl_append]
    exact ih.register c

/-- The two lookups find the handler of the first current call. -/
lemma dispatch_registerAll (calls : List (Registration H)) (uri : Uri) (method : HttpMethod) :
    dispatch (registerAll calls) uri method =
      match (current calls uri method).head? with
      | some c => .run c.callback
      | none => if ∃ c ∈ calls, c.target = uri then .methodNotAllowed else .notFound := by
  have hrep := represents_registerAll calls
  cases hlookup : (registerAll calls).lookup uri with
  | none =>
    have hnone := (hrep.missing uri).mp hlookup
    have hfilter : calls.filter (fun c => c.target = uri) = [] := by simpa using hnone
    have hcurrent : current calls uri method = [] := by simp [current, hfilter, sinceReplaced]
    have hexists : ¬∃ c ∈ calls, c.target = uri := by
      rintro ⟨c, hc, htarget⟩
      exact hnone c hc htarget
    simp only [dispatch, hlookup, hcurrent, List.head?_nil]
    rw [if_neg hexists]
  | some methods =>
    have hexists : ∃ c ∈ calls, c.target = uri := by
      by_contra hnone
      have hmissing := (hrep.missing uri).mpr (fun c hc htarget => hnone ⟨c, hc, htarget⟩)
      rw [hlookup] at hmissing
      exact Option.some_ne_none methods hmissing
    have hmethod := hrep.methods uri methods hlookup method
    cases hhead : (current calls uri method).head? with
    | none => simp [dispatch, hlookup, hmethod, hhead, hexists]
    | some c => simp [dispatch, hlookup, hmethod, hhead]

/-- The current calls are the last ones of a path and a method. -/
lemma current_suffix (calls : List (Registration H)) (uri : Uri) (method : HttpMethod) :
    current calls uri method <:+ calls.filter (fun c => c.target = uri ∧ c.method = method) := by
  have hfilter : calls.filter (fun c => c.target = uri ∧ c.method = method) =
      (calls.filter (fun c => c.target = uri)).filter (fun c => c.method = method) := by
    rw [List.filter_filter]
    apply List.filter_congr
    intro c _
    simp [and_comm]
  rw [hfilter]
  exact (sinceReplaced_suffix _).filter _

lemma latest_eq_of_getLast? {c : Registration H} (h : (current calls uri method).getLast? = some c) :
    latest calls uri method = some c.callback := by
  obtain ⟨earlier, hcalls⟩ := current_suffix calls uri method
  rw [latest, ← hcalls, List.getLast?_append, h]
  rfl

lemma latest_eq_none_iff :
    latest calls uri method = none ↔ ∀ c ∈ calls, c.target = uri → c.method ≠ method := by
  simp [latest]

end RegisterAll

/-- Registering a handler updates a map for just those requests whose current calls begin and end with
the same handler. -/
theorem dispatch_registerAll_iff (calls : List (Registration H)) (uri : Uri) (method : HttpMethod) :
    dispatch (registerAll calls) uri method = expected calls uri method ↔ Kept calls uri method := by
  rw [dispatch_registerAll, Kept]
  by_cases hnever : ∀ c ∈ calls, c.target = uri → c.method ≠ method
  · have hcurrent : current calls uri method = [] := by
      have hsuffix := current_suffix calls uri method
      have hfilter : calls.filter (fun c => c.target = uri ∧ c.method = method) = [] := by
        simpa using hnever
      rw [hfilter] at hsuffix
      exact List.suffix_nil.mp hsuffix
    rw [expected, latest_eq_none_iff.mpr hnever, hcurrent]
    exact iff_of_true rfl (Or.inl hnever)
  · rw [or_iff_right hnever]
    cases hhead : (current calls uri method).head? with
    | none =>
      -- a handler has been registered, and none runs
      obtain ⟨callback, hlatest⟩ :=
        Option.ne_none_iff_exists'.mp (fun hnone => hnever (latest_eq_none_iff.mp hnone))
      rw [expected, hlatest]
      apply iff_of_false
      · dsimp only
        split <;> simp
      · rintro ⟨first, last, hfirst, -⟩
        exact Option.some_ne_none first hfirst.symm
    | some first =>
      cases hlast : (current calls uri method).getLast? with
      | none =>
        rw [List.getLast?_eq_none_iff.mp hlast] at hhead
        exact absurd hhead.symm (Option.some_ne_none first)
      | some last => simp [expected, latest_eq_of_getLast? hlast]

/-! ### The server -/

/-- `Greetings`, which points to the metrics. -/
def greetings : HttpRequestHandler := fun _ =>
  let response : HttpResponse := { statusCode := .ok }
  let headers := response.headers.set (text "Content-Type") (text "text/plain")
  .ok { toHttpMessage := { response.toHttpMessage with headers }.setContent (text "GOTO /metrics")
        statusCode := response.statusCode }

/-- The calls of the server: for the greeting when it starts, and for the metrics in every turn of its
loop. -/
def serverCalls (greeting : H) (turns : List H) : List (Registration H) :=
  [.path (text "/") .head greeting, .path (text "/") .get greeting] ++
    turns.flatMap (fun metrics =>
      [.path (text "/metrics") .head metrics, .path (text "/metrics") .get metrics])

/-- After any turn only `GET` is left for the metrics, with the handler of this turn. -/
theorem dispatch_serverCalls (greeting : H) (turns : List H) (metrics : H) (method : HttpMethod) :
    dispatch (registerAll (serverCalls greeting (turns ++ [metrics]))) (Uri.ofPath (text "/metrics"))
      method = if method = .get then .run metrics else .methodNotAllowed := by
  have hcalls : serverCalls greeting (turns ++ [metrics]) =
      (serverCalls greeting turns ++ [.path (text "/metrics") .head metrics]) ++
        [.path (text "/metrics") .get metrics] := by
    simp [serverCalls]
  let get : Registration H := .path (text "/metrics") .get metrics
  have hcurrent : current (serverCalls greeting (turns ++ [metrics])) (Uri.ofPath (text "/metrics"))
      method = if HttpMethod.get = method then [get] else [] := by
    rw [hcalls]
    exact current_append_self get
  have hregistered : ∃ c ∈ serverCalls greeting (turns ++ [metrics]),
      c.target = Uri.ofPath (text "/metrics") := by
    refine ⟨get, ?_, rfl⟩
    rw [hcalls]
    exact List.mem_append_right _ (List.mem_singleton.mpr rfl)
  rw [dispatch_registerAll, hcurrent]
  by_cases hmethod : method = .get
  · subst hmethod
    rfl
  · rw [if_neg (Ne.symm hmethod), if_neg hmethod]
    exact if_pos hregistered

/-- The second call of a turn takes the handler for `HEAD` away. -/
theorem registerAll_not_map :
    dispatch (registerAll [.path (text "/metrics") .head 0, .path (text "/metrics") .get 1])
        (Uri.ofPath (text "/metrics")) .head = .methodNotAllowed ∧
      expected [.path (text "/metrics") .head 0, .path (text "/metrics") .get 1]
        (Uri.ofPath (text "/metrics")) .head = .run 0 ∧
      dispatch (registerAll [.uri (Uri.ofPath (text "/metrics")) .get 0,
        .uri (Uri.ofPath (text "/metrics")) .get 1]) (Uri.ofPath (text "/metrics")) .get = .run 0 ∧
      expected [.uri (Uri.ofPath (text "/metrics")) .get 0,
        .uri (Uri.ofPath (text "/metrics")) .get 1] (Uri.ofPath (text "/metrics")) .get = .run 1 := by
  decide

end PromEndp

end Dibibase
