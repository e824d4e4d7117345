import Mathlib.Data.List.Sort
import Dibibase.Api.Delivery

/-!
# Requests that arrive together

What is done with the bytes that one `recv` has brought, from the search for frames in them to the last byte
that is sent. The last frame lacks its last byte: one of the body, or of the length where there is no body.
-/

namespace Dibibase

open Library

namespace Server

open ServerMsg (Request Replies)

/-- Where requests begin that stand behind each other. -/
def starts : Nat → List RequestFrame → List Nat
  | _, [] => []
  | p, r :: rs => p :: starts (p + r.bytes.length) rs

section Frames

variable {buffer newBuffer : Nat → UInt8} {requests : List RequestFrame} {r last : RequestFrame} {p : Nat}

/-- The frame consists of the first bytes of the request, which reach beyond its opcode. -/
def FrontOf (f : Frame) (r : RequestFrame) : Prop := f.bytes <+: r.bytes ∧ 8 ≤ f.maxSize

lemma FrontOf.buffer_eq {f : Frame} (h : FrontOf f r) {i : Nat} (hi : i < 8) :
    f.buffer i = r.bytes.getD i 0 := by
  have hget : f.bytes[i]? = some (f.buffer i) := by
    rw [Frame.bytes, List.getElem?_map, List.getElem?_range (by have := h.2; omega)]
    rfl
  obtain ⟨tail, htail⟩ := h.1
  have hlt : i < f.bytes.length := (List.getElem?_eq_some_iff.mp hget).1
  rw [List.getD_eq_getElem?_getD, ← htail, List.getElem?_append_left hlt, hget]
  rfl

/-- What the response takes of a frame is what the request says. -/
lemma FrontOf.header {f : Frame} (h : FrontOf f r) :
    f.version = r.version ∧ f.flags = r.flags ∧ f.streamId = r.streamId ∧ f.opcode = r.opcode := by
  refine ⟨h.buffer_eq (by omega), h.buffer_eq (by omega), ?_, h.buffer_eq (by omega)⟩
  rw [Frame.streamId, h.buffer_eq (by omega), h.buffer_eq (by omega)]
  rfl

end Frames

/-! ### The responses to them -/

section Responses

variable {env : Nat → Environment} {buffer : Nat → UInt8} {requests : List RequestFrame}
  {last : RequestFrame} {st st' : Server × Posix Path} {asked : List (Environment × Frame × Request)}

/-- The reply has the version of the request with the highest bit flipped, its flags and its stream. -/
structure Answers (r : RequestFrame) (reply : ResponseFrame) : Prop where
  version : reply.version = r.version + 0x80
  flags : reply.flags = r.flags
  streamId : reply.streamId = r.streamId

end Responses

end Server

end Dibibase
