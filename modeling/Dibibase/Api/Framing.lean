import Dibibase.Library.Bytes

/-!
# Request frames

The server looks for frames in what one `recv` has brought: a frame begins wherever the
first two bytes of the buffer occur again. The last frame ends before the last byte, so
it always lacks this byte.
-/

namespace Dibibase

open Library

/-- `MAX_MESSAGE_LEN`. -/
def maxMessageLen : Nat := 2048

/-- A `Frame` after `parse()`: the buffer it was made of, and the number of bytes that belong to
the frame. The header is read from the first nine bytes in any case. -/
structure Frame where
  buffer : Nat → UInt8
  maxSize : Nat

namespace Frame

/-- The bytes that belong to the frame. -/
def bytes (f : Frame) : List UInt8 := (List.range f.maxSize).map f.buffer

def version (f : Frame) : UInt8 := f.buffer 0

def flags (f : Frame) : UInt8 := f.buffer 1

def streamId (f : Frame) : UInt8 × UInt8 := (f.buffer 2, f.buffer 3)

def opcode (f : Frame) : UInt8 := f.buffer 4

/-- `substr(buffer, 9, max_size - 9)`; without a body the pointer stays unset. -/
def body (f : Frame) : Option (List UInt8) :=
  if f.maxSize > 9 then some ((List.range (f.maxSize - 9)).map (fun i => f.buffer (9 + i))) else none

end Frame

namespace Server

/-- The vector `indeces`: where the first two bytes occur, and the last index. The byte behind
the last one received is compared too. -/
def indeces (buffer : Nat → UInt8) (received : Nat) : List Nat :=
  (List.range received).filter (fun i => buffer i = buffer 0 ∧ buffer (i + 1) = buffer 1) ++
    [received - 1]

/-- The loop over the indices. What a shorter frame leaves of a longer one before it stays in
the new buffer. -/
def splitLoop (buffer : Nat → UInt8) : List Nat → (Nat → UInt8) → List Frame
  | p :: q :: rest, newBuffer =>
    let newBuffer := fun i => if i < q - p then buffer (p + i) else newBuffer i
    ⟨newBuffer, q - p⟩ :: splitLoop buffer (q :: rest) newBuffer
  | _, _ => []

/-- The frames that are made of the bytes received by one call of `recv`, which stand at the
front of the buffer. -/
def splitFrames (buffer newBuffer : Nat → UInt8) (received : Nat) : List Frame :=
  if received = 0 then [] else splitLoop buffer (indeces buffer received) newBuffer

end Server

/-- A frame of the protocol: a header of nine bytes, which ends in the length of the body as a
big-endian number, and the body. -/
structure RequestFrame where
  version : UInt8
  flags : UInt8
  streamId : UInt8 × UInt8
  opcode : UInt8
  body : List UInt8
  length_lt : body.length < 2 ^ 32

def RequestFrame.bytes (f : RequestFrame) : List UInt8 :=
  [f.version, f.flags, f.streamId.1, f.streamId.2, f.opcode] ++
    ((leBytes 4 f.body.length).reverse ++ f.body)

/-! ### What the loop makes of the bytes -/

namespace Server

/-- The bytes of the buffer from `p` up to `q`. -/
def segment (buffer : Nat → UInt8) (p q : Nat) : List UInt8 :=
  (List.range (q - p)).map (fun i => buffer (p + i))

lemma segment_append (buffer : Nat → UInt8) {p q r : Nat} (hpq : p ≤ q) (hqr : q ≤ r) :
    segment buffer p q ++ segment buffer q r = segment buffer p r := by
  have hsplit : r - p = (q - p) + (r - q) := by omega
  rw [segment, segment, segment, hsplit, List.range_add, List.map_append, List.map_map]
  congr 1
  apply List.map_congr_left
  intro i _
  have hindex : p + (q - p + i) = q + i := by omega
  simp [hindex]

lemma bytes_copied (buffer newBuffer : Nat → UInt8) (p q : Nat) :
    Frame.bytes ⟨fun i => if i < q - p then buffer (p + i) else newBuffer i, q - p⟩ =
      segment buffer p q := by
  rw [Frame.bytes, segment]
  apply List.map_congr_left
  intro i hi
  exact if_pos (List.mem_range.mp hi)

/-- The frames of a rising list of indices follow each other without a gap. -/
lemma flatMap_splitLoop (buffer : Nat → UInt8) (is : List Nat) (p last : Nat)
    (newBuffer : Nat → UInt8) (hrise : (p :: is ++ [last]).Pairwise (· ≤ ·)) :
    (splitLoop buffer (p :: is ++ [last]) newBuffer).flatMap Frame.bytes =
      segment buffer p last := by
  induction is generalizing p newBuffer with
  | nil =>
    simp only [List.cons_append, List.nil_append, splitLoop, List.flatMap_cons, List.flatMap_nil,
      List.append_nil, bytes_copied]
  | cons q is ih =>
    obtain ⟨hfirst, hrest⟩ := List.pairwise_cons.mp hrise
    have hpq : p ≤ q := hfirst q (by simp)
    have hlast : q ≤ last := (List.pairwise_cons.mp hrest).1 last (by simp)
    rw [List.cons_append, List.cons_append, splitLoop, List.flatMap_cons,
      bytes_copied, ← List.cons_append, ih q _ hrest, segment_append buffer hpq hlast]

/-- The indices rise from zero to the last one. -/
lemma indeces_rise (buffer : Nat → UInt8) {received : Nat} (hpos : 0 < received) :
    ∃ is, indeces buffer received = 0 :: is ++ [received - 1] ∧
      (0 :: is ++ [received - 1]).Pairwise (· ≤ ·) := by
  obtain ⟨n, rfl⟩ := Nat.exists_eq_add_of_lt hpos
  have hfilter : (List.range (0 + n + 1)).filter
      (fun i => decide (buffer i = buffer 0 ∧ buffer (i + 1) = buffer 1)) =
        0 :: ((List.range n).map Nat.succ).filter
          (fun i => decide (buffer i = buffer 0 ∧ buffer (i + 1) = buffer 1)) := by
    rw [Nat.zero_add, List.range_succ_eq_map, List.filter_cons]
    simp
  refine ⟨_, by rw [indeces, hfilter], ?_⟩
  rw [← hfilter, List.pairwise_append]
  refine ⟨?_, by simp, ?_⟩
  · exact ((List.pairwise_lt_range (n := 0 + n + 1)).imp Nat.le_of_lt).filter _
  · intro i hi j hj
    have hlt := List.mem_range.mp (List.mem_filter.mp hi).1
    rw [List.mem_singleton.mp hj]
    omega

/-- Together the frames have all bytes that were received but the last. -/
theorem flatMap_splitFrames (buffer newBuffer : Nat → UInt8) (received : Nat) :
    (splitFrames buffer newBuffer received).flatMap Frame.bytes =
      ((List.range received).map buffer).dropLast := by
  rcases Nat.eq_zero_or_pos received with rfl | hpos
  · simp [splitFrames]
  · obtain ⟨is, hindeces, hrise⟩ := indeces_rise buffer hpos
    rw [splitFrames, if_neg (by omega), hindeces, flatMap_splitLoop buffer is 0 _ newBuffer hrise,
      segment, List.dropLast_eq_take, List.length_map, List.length_range, ← List.map_take,
      List.take_range, Nat.sub_zero, Nat.min_eq_left (by omega)]
    simp

/-- The frames that the server makes are the request frames only if nothing was received. -/
theorem splitFrames_eq_iff (requests : List RequestFrame)
    (hsame : ∀ f ∈ requests, ∀ g ∈ requests, f.version = g.version ∧ f.flags = g.flags)
    (hlen : (requests.flatMap RequestFrame.bytes).length ≤ maxMessageLen)
    (buffer newBuffer : Nat → UInt8) {received : Nat}
    (hrecv : (List.range received).map buffer = requests.flatMap RequestFrame.bytes) :
    (splitFrames buffer newBuffer received).map Frame.bytes = requests.map RequestFrame.bytes ↔
      requests = [] := by
  constructor
  · intro h
    have hbytes := flatMap_splitFrames buffer newBuffer received
    have hflat : (splitFrames buffer newBuffer received).flatMap Frame.bytes =
        requests.flatMap RequestFrame.bytes := by
      rw [List.flatMap_def, List.flatMap_def, h]
    rw [hflat, hrecv] at hbytes
    have hlength := congrArg List.length hbytes
    rw [List.length_dropLast] at hlength
    cases requests with
    | nil => rfl
    | cons f requests =>
      simp only [List.flatMap_cons, List.length_append, RequestFrame.bytes, List.length_cons] at hlength
      omega
  · rintro rfl
    have hzero := congrArg List.length hrecv
    simp only [List.length_map, List.length_range, List.flatMap_nil, List.length_nil] at hzero
    simp [splitFrames, hzero]

/-- An `OPTIONS` request, which has no body. -/
def optionsRequest : RequestFrame := ⟨4, 0, (0, 1), 5, [], by decide⟩

/-- A buffer that holds the request, with zeros behind it. -/
def optionsBuffer (i : Nat) : UInt8 := (optionsRequest.bytes[i]?).getD 0

theorem splitFrames_eq_iff_options :
    (splitFrames optionsBuffer (fun _ => 0) 9).map Frame.bytes = [optionsRequest].map RequestFrame.bytes ↔
      [optionsRequest] = [] :=
  splitFrames_eq_iff [optionsRequest] (by simp) (by decide) optionsBuffer (fun _ => 0) (by decide)

/-- One request, of which the server makes a frame that lacks the last byte. -/
theorem splitFrames_options :
    (List.range 9).map optionsBuffer = [optionsRequest].flatMap RequestFrame.bytes ∧
      (splitFrames optionsBuffer (fun _ => 0) 9).map Frame.bytes = [[4, 0, 0, 1, 5, 0, 0, 0]] ∧
      (splitFrames optionsBuffer (fun _ => 0) 9).map Frame.bytes ≠
        [optionsRequest].map RequestFrame.bytes := by
  decide

end Server

end Dibibase
