import Mathlib.Data.Nat.Find
import Dibibase.Api.Replies

/-!
# How responses are sent

The server looks for a second header in a response that begins with an event, and hands the response to
`send` in two pieces if it finds one. The byte where the second header begins is in both pieces. A client
reads frame after frame from what the connection brings, so what counts is all that was sent.
-/

namespace Dibibase

open Library

/-! ### The loop over the bytes of a response -/

namespace Server

open ServerMsg (Header)

/-- The first two bytes of the response stand here once more, and it begins with an event. -/
def BeginsAgain (header : Header) (i : Nat) : Prop :=
  header i = header 0 ∧ header (i + 1) = header 1 ∧ header 2 = 255

instance (header : Header) : DecidablePred (BeginsAgain header) :=
  fun _ => inferInstanceAs (Decidable (_ ∧ _ ∧ _))

/-- One round of the loop, with `index` and the array `div` of 1000 characters. -/
def divideRound (header : Header) (s : Nat × (Nat → UInt8)) (i : Nat) :
    Except Exception (Nat × (Nat → UInt8)) :=
  let index := if BeginsAgain header i then i else s.1
  if index = 0 then return (index, s.2)
  else if i - index < 1000 then return (index, Function.update s.2 (i - index) (header i))
  else throw .undefinedBehaviour

/-- The loop over the bytes, where `div` starts with whatever the stack held. -/
def divide (header : Header) (count : Nat) (div : Nat → UInt8) :
    Except Exception (Nat × (Nat → UInt8)) :=
  (List.range count).foldlM (divideRound header) (0, div)

/-- What is handed to `send` for one response. A length below zero is a huge one there, and `Header` has
71680 elements. -/
def sends (header : Header) (bytesSent : Int) (div : Nat → UInt8) : Except Exception (List (List UInt8)) :=
  if 0 ≤ bytesSent ∧ bytesSent < 71680 then do
    let (index, div) ← divide header bytesSent.toNat div
    if index = 0 then return [segment header 0 bytesSent.toNat]
    else return [segment header 0 (index + 1), segment div 0 (bytesSent.toNat - index)]
  else throw .undefinedBehaviour

/-- The loop over the frames that one `recv` has brought: all that is handed to `send`. Each response is
made in a memory of its own. -/
def serve (div : Nat → UInt8) : List (Environment × Frame) → Method Server (List (List UInt8))
  | [] => return []
  | (env, f) :: requests => do
    let (bytesSent, header) ← ServerMsg.createResponse env f
    let sent ← Method.ofExcept (sends header bytesSent div)
    let later ← serve div requests
    return sent ++ later

/-! #### What the loop leaves -/

section Loop

variable {header : Header} {count : Nat} {div : Nat → UInt8}

/-- Where the response has begun again for the last time, after so many further rounds. -/
def lastBegin (header : Header) (i : Nat) : Nat := Nat.findGreatest (BeginsAgain header) i

/-- From where the response begins again for the last time, the piece so far fits into `div`. -/
def PieceFits (header : Header) (count : Nat) : Prop :=
  ∀ i < count, lastBegin header i ≠ 0 → i - lastBegin header i < 1000

lemma lastBegin_succ (i : Nat) : lastBegin header (i + 1) =
    if BeginsAgain header (i + 1) then i + 1 else lastBegin header i := Nat.findGreatest_succ i

lemma lastBegin_le (i : Nat) : lastBegin header i ≤ i := Nat.findGreatest_le i

lemma segment_update {buffer : Nat → UInt8} {p q : Nat} (hpq : p ≤ q) (b : UInt8) :
    segment (Function.update buffer q b) p (q + 1) = segment buffer p q ++ [b] := by
  have hsplit := segment_append (Function.update buffer q b) hpq (Nat.le_succ q)
  have hlast : segment (Function.update buffer q b) q q.succ = [b] := by
    rw [segment, Nat.succ_sub (le_refl q), Nat.sub_self]
    simp
  rw [← hsplit, hlast]
  congr 1
  apply List.map_congr_left
  intro k hk
  have hlt := List.mem_range.mp hk
  rw [Function.update_of_ne (by omega)]

lemma segment_succ {buffer : Nat → UInt8} {p q : Nat} (hpq : p ≤ q) :
    segment buffer p (q + 1) = segment buffer p q ++ [buffer q] := by
  have hupdate := @segment_update buffer p q hpq (buffer q)
  rwa [Function.update_eq_self] at hupdate

lemma divide_succ (count : Nat) : divide header (count + 1) div =
    divide header count div >>= fun s => divideRound header s count := by
  rw [divide, List.range_succ, List.foldlM_append]
  apply congrArg
  funext s
  exact bind_pure (divideRound header s count)

/-- The index moves on to a byte where the response begins again. -/
lemma divideRound_eq (n : Nat) (div₁ : Nat → UInt8) :
    divideRound header (lastBegin header n, div₁) (n + 1) =
      if lastBegin header (n + 1) = 0 then .ok (lastBegin header (n + 1), div₁)
      else if n + 1 - lastBegin header (n + 1) < 1000 then .ok (lastBegin header (n + 1),
        Function.update div₁ (n + 1 - lastBegin header (n + 1)) (header (n + 1)))
      else .error .undefinedBehaviour := by
  rw [lastBegin_succ]
  rfl

/-- After a round, the index is where the response has begun again for the last time, and `div` has the
bytes from there. -/
lemma divide_ok (h : PieceFits header (count + 1)) :
    ∃ div', divide header (count + 1) div = .ok (lastBegin header count, div') ∧
      (lastBegin header count ≠ 0 → segment div' 0 (count + 1 - lastBegin header count) =
        segment header (lastBegin header count) (count + 1)) := by
  induction count with
  | zero =>
    refine ⟨div, ?_, fun hne => absurd rfl hne⟩
    rw [divide_succ]
    by_cases hagain : BeginsAgain header 0
    · simp [divide, divideRound, lastBegin, Pure.pure, Except.pure, Bind.bind, Except.bind]
    · simp [divide, divideRound, lastBegin, Pure.pure, Except.pure, Bind.bind, Except.bind]
  | succ n ih =>
    obtain ⟨div₁, hrun, hbytes⟩ := ih (fun i hi => h i (by omega))
    have hfits := h (n + 1) (by omega)
    have hle := @lastBegin_le header (n + 1)
    have hround : divide header (n + 1 + 1) div =
        divideRound header (lastBegin header n, div₁) (n + 1) := by
      rw [divide_succ, hrun]
      rfl
    rw [hround, divideRound_eq]
    by_cases hzero : lastBegin header (n + 1) = 0
    · rw [if_pos hzero]
      exact ⟨div₁, rfl, fun hne => absurd hzero hne⟩
    · rw [if_neg hzero, if_pos (hfits hzero)]
      refine ⟨_, rfl, fun _ => ?_⟩
      have hsize : n + 1 + 1 - lastBegin header (n + 1) = n + 1 - lastBegin header (n + 1) + 1 := by
        omega
      rw [hsize, segment_update (Nat.zero_le _), segment_succ hle]
      congr 1
      rw [lastBegin_succ] at hzero ⊢
      by_cases hagain : BeginsAgain header (n + 1)
      · rw [if_pos hagain, segment, segment, Nat.sub_self]
        rfl
      · rw [if_neg hagain] at hzero ⊢
        exact hbytes hzero

/-- Where the piece does not fit, the loop writes behind the array. -/
lemma divide_error (h : ¬PieceFits header count) : divide header count div = .error .undefinedBehaviour := by
  induction count with
  | zero => exact absurd (fun i hi => absurd hi (Nat.not_lt_zero i)) h
  | succ n ih =>
    rw [divide_succ]
    by_cases hbefore : PieceFits header n
    · obtain ⟨i, hi, hne, hlarge⟩ : ∃ i < n + 1, lastBegin header i ≠ 0 ∧ 1000 ≤ i - lastBegin header i := by
        simpa [PieceFits] using h
      have hlast : i = n := by
        by_contra hother
        exact absurd (hbefore i (by omega) hne) (not_lt.mpr hlarge)
      subst hlast
      cases i with
      | zero => exact absurd rfl hne
      | succ m =>
        obtain ⟨div₁, hrun, -⟩ := @divide_ok header m div hbefore
        rw [hrun]
        refine (divideRound_eq m div₁).trans ?_
        rw [if_neg hne, if_neg (not_lt.mpr hlarge)]
    · rw [ih hbefore]
      rfl

/-- The pieces in which a response is sent. -/
def pieces (header : Header) (count : Nat) : List (List UInt8) :=
  if lastBegin header (count - 1) = 0 then [segment header 0 count]
  else [segment header 0 (lastBegin header (count - 1) + 1),
    segment header (lastBegin header (count - 1)) count]

lemma sends_ok (hcount : count < 71680) (h : PieceFits header count) :
    sends header count div = .ok (pieces header count) := by
  rw [sends, if_pos (by omega), Int.toNat_natCast]
  cases count with
  | zero => simp [divide, pieces, lastBegin, Pure.pure, Except.pure, Bind.bind, Except.bind]
  | succ n =>
    obtain ⟨div', hrun, hbytes⟩ := @divide_ok header n div h
    rw [hrun, pieces, Nat.add_sub_cancel]
    by_cases hzero : lastBegin header n = 0
    · rw [if_pos hzero]
      exact if_pos hzero
    · rw [if_neg hzero, ← hbytes hzero]
      exact if_neg hzero

lemma sends_error (h : ¬PieceFits header count) : sends header count div = .error .undefinedBehaviour := by
  rw [sends]
  by_cases hcount : 0 ≤ (count : Int) ∧ (count : Int) < 71680
  · rw [if_pos hcount, Int.toNat_natCast, divide_error h]
    rfl
  · exact if_neg hcount

/-- The byte where the response begins again is sent twice. -/
lemma flatten_pieces (hne : lastBegin header (count - 1) ≠ 0) : (pieces header count).flatten =
    segment header 0 (lastBegin header (count - 1)) ++ (header (lastBegin header (count - 1)) ::
      segment header (lastBegin header (count - 1)) count) := by
  rw [pieces, if_neg hne, segment_succ (Nat.zero_le _)]
  simp

lemma sends_eq_ok {sent : List (List UInt8)} (h : sends header count div = .ok sent) :
    count < 71680 ∧ PieceFits header count ∧ sent = pieces header count := by
  have hfits : PieceFits header count := by
    by_contra hnot
    rw [sends_error hnot] at h
    cases h
  have hcount : count < 71680 := by
    by_contra hnot
    rw [sends, if_neg (by omega)] at h
    cases h
  rw [sends_ok hcount hfits] at h
  cases h
  exact ⟨hcount, hfits, rfl⟩

/-- What is sent is the response, unless a second header is found in it. -/
lemma sends_verbatim_iff {sent : List (List UInt8)} (h : sends header count div = .ok sent) :
    sent.flatten = segment header 0 count ↔ ∀ i, 0 < i → i < count → ¬BeginsAgain header i := by
  obtain ⟨-, -, rfl⟩ := sends_eq_ok h
  have hnone : lastBegin header (count - 1) = 0 ↔ ∀ i, 0 < i → i < count → ¬BeginsAgain header i := by
    rw [lastBegin, Nat.findGreatest_eq_zero_iff]
    constructor
    · intro h i hi hlt
      exact h hi (by omega)
    · intro h i hi hle
      exact h i hi (by omega)
  rw [← hnone]
  constructor
  · intro hverbatim
    by_contra hne
    have hle := @lastBegin_le header (count - 1)
    have hlength := congrArg List.length hverbatim
    rw [flatten_pieces hne, List.length_append, List.length_cons, length_segment, length_segment,
      length_segment] at hlength
    omega
  · intro hzero
    rw [pieces, if_pos hzero, List.flatten_singleton]

end Loop

/-! ### Conversations -/

section Conversations

open ServerMsg (createResponse Answered Request Replies write write_of_lt write_getElem single_of_answered)

variable {env : Environment} {f : Frame} {st st' st'' : Server × Posix Path}

/-- Requests that are answered with one frame each, from the state that the ones before have left. The
streams of clients have numbers that are not negative, so that the first byte of one is not 255. -/
inductive Conversation : Server × Posix Path → List (Environment × Frame × Request) →
    Server × Posix Path → Prop where
  | nil (st : Server × Posix Path) : Conversation st [] st
  | cons {st st' st'' : Server × Posix Path} {env : Environment} {f : Frame} {request : Request}
      {response : Int × ServerMsg.Header} {requests : List (Environment × Frame × Request)}
      (hanswered : Answered env f st request) (hfits : request.Fits) (hstream : f.streamId.1 ≠ 255)
      (hresponse : createResponse env f st = .ok response st')
      (hrest : Conversation st' requests st'') :
      Conversation st ((env, f, request) :: requests) st''

/-- What the server gets of the requests. -/
def received (requests : List (Environment × Frame × Request)) : List (Environment × Frame) :=
  requests.map (fun r => (r.1, r.2.1))

lemma serve_cons {div : Nat → UInt8} {n : Int} {header : ServerMsg.Header} {sent later : List (List UInt8)}
    {requests : List (Environment × Frame)} (hresponse : createResponse env f st = .ok (n, header) st')
    (hsent : sends header n div = .ok sent) (hlater : serve div requests st' = .ok later st'') :
    serve div ((env, f) :: requests) st = .ok (sent ++ later) st'' := by
  rw [serve, bind_of_ok hresponse]
  dsimp only
  rw [bind_of_ok (Method.ofExcept_ok hsent st'), bind_of_ok hlater]
  rfl

/-- A frame for a stream of a client is sent as it is. -/
lemma sends_frame {frame : ResponseFrame} (hstream : frame.streamId.1 ≠ 255)
    (hlength : frame.bytes.length < 71680) (h : ServerMsg.Header) (div : Nat → UInt8) :
    sends (write 0 frame.bytes h) (frame.bytes.length : Int) div = .ok [frame.bytes] := by
  have hnone : ∀ i, ¬BeginsAgain (write 0 frame.bytes h) i := by
    rintro i ⟨-, -, hthird⟩
    have hbyte : write 0 frame.bytes h 2 = frame.streamId.1 := by rfl
    exact hstream (hbyte.symm.trans hthird)
  have hzero : ∀ i, lastBegin (write 0 frame.bytes h) i = 0 := by
    intro i
    rw [lastBegin, Nat.findGreatest_eq_zero_iff]
    exact fun k _ _ => hnone k
  rw [sends_ok hlength (fun i _ hne => absurd (hzero i) hne), pieces, if_pos (hzero _)]
  have hsegment := ServerMsg.segment_write_self 0 frame.bytes h
  rw [Nat.zero_add] at hsegment
  rw [hsegment]

/-- In a conversation `send` is called once for each request, with the frame of a reply. -/
lemma conversation_sent {requests : List (Environment × Frame × Request)}
    (h : Conversation st requests st') (div : Nat → UInt8) :
    ∃ frames : List ResponseFrame,
      serve div (received requests) st = .ok (frames.map ResponseFrame.bytes) st' ∧
        List.Forall₂ (fun r frame => Replies r.1 r.2.1 r.2.2 frame) requests frames := by
  induction h with
  | nil st => exact ⟨[], rfl, .nil⟩
  | @cons st st₁ st₂ env f request response requests hanswered hfits hstream hresponse hrest ih =>
    obtain ⟨frame, hcreate, hlength, hreplies⟩ := single_of_answered hanswered hfits
    obtain ⟨frames, hlater, hothers⟩ := ih
    rw [hresponse] at hcreate
    cases hcreate
    have hsent := sends_frame (by rwa [hreplies.streamId]) hlength env.header div
    exact ⟨frame :: frames, serve_cons hresponse hsent hlater, .cons hreplies hothers⟩

end Conversations

end Server

end Dibibase
