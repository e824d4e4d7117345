import Dibibase.Util.Buffer

/-!
# The cursor of a buffer

The operations of `MemoryBuffer` once more, with the accesses to `m_buf` and with the buffer that is
left when they throw. The bounds check adds the size to the offset in `size_t`, so a size that is
negative as an `int` can pass it and move the offset backwards.
-/

namespace Dibibase

open Library

/-- `count` bytes of `m_buf` from the index `first` on. -/
structure Access where
  first : Int
  count : Nat
  deriving DecidableEq, Repr

/-- The access stays in a buffer of `size` bytes. -/
def Access.Within (size : Nat) (a : Access) : Prop :=
  a.count = 0 ∨ 0 ≤ a.first ∧ a.first + a.count ≤ size

instance (size : Nat) (a : Access) : Decidable (a.Within size) := by
  unfold Access.Within
  infer_instance

/-- A buffer and what an operation has accessed of it so far. -/
structure Cursor where
  buffer : MemoryBuffer
  accesses : List Access
  deriving DecidableEq, Repr

/-- Operations that leave a buffer behind also when they throw. -/
abbrev CursorM := EStateM Exception Cursor

namespace CursorM

/-- The check that starts every operation. -/
def checkOverflow (size : Nat) : CursorM Unit := fun c =>
  if c.buffer.isOverflow size then .error .bufferOverflow c else .ok () c

/-- Nothing is known about the program behind an access outside the buffer. -/
def access (first : Int) (count : Nat) : CursorM Unit := fun c =>
  let c' := { c with accesses := c.accesses ++ [⟨first, count⟩] }
  if Access.Within c.buffer.size ⟨first, count⟩ then .ok () c' else .error .undefinedBehaviour c'

def advance (step : Nat) : CursorM Unit := fun c =>
  .ok () { c with buffer := { c.buffer with offset := c.buffer.advanced step } }

/-- `memcpy` of `n` bytes from the offset on. -/
def copyOut (n : Nat) : CursorM (List UInt8) := do
  let b := (← get).buffer
  access b.offset n
  return (b.buf.drop b.offset).take n

/-- `memcpy` of `n` bytes of the memory `data` to the offset. -/
def copyIn (data : Nat → UInt8) (n : Nat) : CursorM Unit := do
  let b := (← get).buffer
  access b.offset n
  modify fun c => { c with buffer := { c.buffer with
    buf := b.buf.take b.offset ++ (List.range n).map data ++ b.buf.drop (b.offset + n) } }

/-- The operations `get` of one width. -/
def getFixed (n : Nat) : CursorM (List UInt8) := do
  checkOverflow n
  let data ← copyOut n
  advance n
  return data

/-- The operations `put` of one width. -/
def putFixed (bs : List UInt8) : CursorM Unit := do
  checkOverflow bs.length
  copyIn (fun i => bs.getD i 0) bs.length
  advance bs.length

/-- The loop from the index `first` to the index `last`, which are of type `int`. -/
def copyLoop (first last : Int) : CursorM (List UInt8) := do
  let b := (← get).buffer
  access first (last - first).toNat
  return (b.buf.drop first.toNat).take (last - first).toNat

def getString (size : Int) : CursorM (List UInt8) := do
  checkOverflow (toSizeT size)
  let b := (← get).buffer
  let data ← copyLoop (toInt b.offset) (toInt ((toSizeT size + b.offset) % 2 ^ 64))
  advance (toSizeT size)
  return data

def putString (data : List UInt8) : CursorM Unit := do
  let size := toInt data.length
  checkOverflow (toSizeT size)
  copyIn (fun i => data.getD i 0) (toSizeT size)
  advance (toSizeT size)

/-- `make_unique` of a negative size fails. -/
def getBlob (size : Int) : CursorM (List UInt8) := do
  checkOverflow (toSizeT size)
  if size < 0 then throw .badAlloc
  let data ← copyOut (toSizeT size)
  advance (toSizeT size)
  return data

/-- `data` is the memory behind the pointer. -/
def putBlob (data : Nat → UInt8) (size : Int) : CursorM Unit := do
  checkOverflow (toSizeT size)
  copyIn data (toSizeT size)
  advance (toSizeT size)

end CursorM

/-! ### What an operation does -/

lemma Access.within_iff {b : MemoryBuffer} (hoff : b.offset ≤ b.size) (n : Nat) :
    Access.Within b.size ⟨b.offset, n⟩ ↔ b.offset + n ≤ b.size := by
  simp only [Access.Within]
  omega

/-- The cursor behind an access to the `n` bytes at the offset. -/
def Cursor.touched (c : Cursor) (n : Nat) : Cursor :=
  { c with accesses := c.accesses ++ [⟨c.buffer.offset, n⟩] }

/-- The operation checks the size `n`, accesses the `n` bytes at the offset and advances by them. -/
structure Transfers {α : Type} (n : Nat) (m : CursorM α) : Prop where
  refused : ∀ c, c.buffer.isOverflow n = true → m c = .error .bufferOverflow c
  outside : ∀ c, c.buffer.isOverflow n = false → c.buffer.offset ≤ c.buffer.size →
    c.buffer.size < c.buffer.offset + n → m c = .error .undefinedBehaviour (c.touched n)
  done : ∀ c, c.buffer.isOverflow n = false → c.buffer.offset + n ≤ c.buffer.size →
    ∃ a buf, buf.length = c.buffer.size ∧
      m c = .ok a { c.touched n with buffer := ⟨buf, c.buffer.advanced n⟩ }

/-- The value that the operation returns does not matter. -/
lemma Transfers.discard {α : Type} {n : Nat} {m : CursorM α} (h : Transfers n m) :
    Transfers n (do let _ ← m) := by
  constructor
  · intro c hover
    exact bind_of_error (h.refused c hover)
  · intro c hover hoff hout
    exact bind_of_error (h.outside c hover hoff hout)
  · intro c hover hroom
    obtain ⟨a, buf, hlength, hrun⟩ := h.done c hover hroom
    exact ⟨(), buf, hlength, bind_of_ok hrun⟩

namespace CursorM

lemma checkOverflow_bind {α : Type} {c : Cursor} {size : Nat} (h : c.buffer.isOverflow size = false)
    (m : CursorM α) : (do checkOverflow size; m) c = m c := by
  have hcheck : checkOverflow size c = .ok () c := by simp [checkOverflow, h]
  exact bind_of_ok hcheck

lemma checkOverflow_bind_error {α : Type} {c : Cursor} {size : Nat}
    (h : c.buffer.isOverflow size = true) (m : CursorM α) :
    (do checkOverflow size; m) c = .error .bufferOverflow c := by
  have hcheck : checkOverflow size c = .error .bufferOverflow c := by simp [checkOverflow, h]
  exact bind_of_error hcheck

lemma access_ok {first : Int} {count : Nat} {c : Cursor}
    (h : Access.Within c.buffer.size ⟨first, count⟩) : access first count c =
      .ok () { c with accesses := c.accesses ++ [⟨first, count⟩] } := by
  simp [access, h]

lemma access_error {first : Int} {count : Nat} {c : Cursor}
    (h : ¬Access.Within c.buffer.size ⟨first, count⟩) : access first count c =
      .error .undefinedBehaviour { c with accesses := c.accesses ++ [⟨first, count⟩] } := by
  simp [access, h]

section Copies

variable {c : Cursor} {data : Nat → UInt8} {n : Nat} {first last : Int}

lemma copyOut_ok (h : Access.Within c.buffer.size ⟨c.buffer.offset, n⟩) :
    copyOut n c = .ok ((c.buffer.buf.drop c.buffer.offset).take n) (c.touched n) := by
  rw [copyOut, bind_of_ok (get_apply c), bind_of_ok (access_ok h)]
  rfl

lemma copyOut_error (h : ¬Access.Within c.buffer.size ⟨c.buffer.offset, n⟩) :
    copyOut n c = .error .undefinedBehaviour (c.touched n) := by
  rw [copyOut, bind_of_ok (get_apply c), bind_of_error (access_error h)]
  rfl

variable (data) in
lemma copyIn_ok (h : Access.Within c.buffer.size ⟨c.buffer.offset, n⟩) :
    copyIn data n c = .ok () { c.touched n with buffer := { c.buffer with
      buf := c.buffer.buf.take c.buffer.offset ++ (List.range n).map data ++
        c.buffer.buf.drop (c.buffer.offset + n) } } := by
  rw [copyIn, bind_of_ok (get_apply c), bind_of_ok (access_ok h)]
  rfl

variable (data) in
lemma copyIn_error (h : ¬Access.Within c.buffer.size ⟨c.buffer.offset, n⟩) :
    copyIn data n c = .error .undefinedBehaviour (c.touched n) := by
  rw [copyIn, bind_of_ok (get_apply c), bind_of_error (access_error h)]
  rfl

lemma copyLoop_ok (h : Access.Within c.buffer.size ⟨first, (last - first).toNat⟩) :
    copyLoop first last c =
      .ok ((c.buffer.buf.drop first.toNat).take (last - first).toNat)
        { c with accesses := c.accesses ++ [⟨first, (last - first).toNat⟩] } := by
  rw [copyLoop, bind_of_ok (get_apply c), bind_of_ok (access_ok h)]
  rfl

lemma copyLoop_error (h : ¬Access.Within c.buffer.size ⟨first, (last - first).toNat⟩) :
    copyLoop first last c = .error .undefinedBehaviour
      { c with accesses := c.accesses ++ [⟨first, (last - first).toNat⟩] } := by
  rw [copyLoop, bind_of_ok (get_apply c), bind_of_error (access_error h)]

end Copies

lemma transfers_getFixed (n : Nat) : Transfers n (getFixed n) := by
  constructor
  · intro c h
    exact checkOverflow_bind_error h _
  · intro c h hoff hout
    have hwithin := (Access.within_iff hoff n).not.mpr (by omega)
    rw [getFixed, checkOverflow_bind h]
    exact bind_of_error (copyOut_error hwithin)
  · intro c h hroom
    have hwithin := (Access.within_iff (by omega) n).mpr hroom
    rw [getFixed, checkOverflow_bind h]
    exact ⟨(c.buffer.buf.drop c.buffer.offset).take n, c.buffer.buf, rfl,
      bind_of_ok (copyOut_ok hwithin)⟩

lemma transfers_copyIn (data : Nat → UInt8) (n : Nat) :
    Transfers n (do checkOverflow n; copyIn data n; advance n) := by
  constructor
  · intro c h
    exact checkOverflow_bind_error h _
  · intro c h hoff hout
    have hwithin := (Access.within_iff hoff n).not.mpr (by omega)
    rw [checkOverflow_bind h]
    exact bind_of_error (copyIn_error data hwithin)
  · intro c h hroom
    have hwithin := (Access.within_iff (by omega) n).mpr hroom
    rw [checkOverflow_bind h]
    refine ⟨(), c.buffer.buf.take c.buffer.offset ++ (List.range n).map data ++
      c.buffer.buf.drop (c.buffer.offset + n), ?_, bind_of_ok (copyIn_ok data hwithin)⟩
    simp only [MemoryBuffer.size, List.length_append, List.length_take, List.length_map,
      List.length_range, List.length_drop] at hroom ⊢
    omega

/-- The loop, and the advance when the loop has stayed in the buffer. -/
lemma copyLoop_advance (first last : Int) (n : Nat) (b : MemoryBuffer) :
    (do let _ ← (do let data ← copyLoop first last; advance n; return data) : CursorM Unit) ⟨b, []⟩ =
      if Access.Within b.size ⟨first, (last - first).toNat⟩ then
        .ok () ⟨{ b with offset := b.advanced n }, [⟨first, (last - first).toNat⟩]⟩
      else .error .undefinedBehaviour ⟨b, [⟨first, (last - first).toNat⟩]⟩ := by
  split
  · next hwithin => exact bind_of_ok (bind_of_ok (@copyLoop_ok ⟨b, []⟩ first last hwithin))
  · next hwithin =>
    exact bind_of_error (bind_of_error (@copyLoop_error ⟨b, []⟩ first last hwithin))

/-- A blob whose size is not negative is read like a value of that width. -/
lemma getBlob_eq {size : Int} (h : 0 ≤ size) : getBlob size = getFixed (toSizeT size) := by
  simp [getBlob, getFixed, show ¬size < 0 by omega]

/-- A blob of negative size is refused, or cannot be allocated. -/
lemma getBlob_negative {size : Int} (h : size < 0) (c : Cursor) : ∃ e, getBlob size c = .error e c := by
  cases hover : c.buffer.isOverflow (toSizeT size) with
  | true => exact ⟨_, checkOverflow_bind_error hover _⟩
  | false =>
    refine ⟨.badAlloc, ?_⟩
    rw [getBlob, checkOverflow_bind hover, if_pos h]
    rfl

end CursorM

/-- An operation of `MemoryBuffer` with its arguments. A size of type `int` has 32 bits. -/
inductive BufferOp where
  | getUint64 | putUint64 (data : BitVec 64)
  | getUint32 | putUint32 (data : BitVec 32)
  | getUint16 | putUint16 (data : BitVec 16)
  | getUint8 | putUint8 (data : BitVec 8)
  | getInt64 | putInt64 (data : BitVec 64)
  | getInt32 | putInt32 (data : BitVec 32)
  | getInt16 | putInt16 (data : BitVec 16)
  | getInt8 | putInt8 (data : BitVec 8)
  | getDouble | putDouble (data : BitVec 64)
  | getFloat | putFloat (data : BitVec 32)
  | getBoolean | putBoolean (data : Bool)
  | getString (size : BitVec 32) | putString (data : List UInt8)
  | getBlob (size : BitVec 32) | putBlob (data : Nat → UInt8) (size : BitVec 32)

namespace BufferOp

/-- What the operation does to the buffer, without the value that it returns. -/
def run : BufferOp → CursorM Unit
  | getUint64 | getInt64 | getDouble => do let _ ← CursorM.getFixed 8
  | getUint32 | getInt32 | getFloat => do let _ ← CursorM.getFixed 4
  | getUint16 | getInt16 => do let _ ← CursorM.getFixed 2
  | getUint8 | getInt8 | getBoolean => do let _ ← CursorM.getFixed 1
  | putUint64 data | putInt64 data | putDouble data => CursorM.putFixed (leBytes 8 data.toNat)
  | putUint32 data | putInt32 data | putFloat data => CursorM.putFixed (leBytes 4 data.toNat)
  | putUint16 data | putInt16 data => CursorM.putFixed (leBytes 2 data.toNat)
  | putUint8 data | putInt8 data => CursorM.putFixed (leBytes 1 data.toNat)
  | putBoolean data => CursorM.putFixed (leBytes 1 data.toNat)
  | getString size => do let _ ← CursorM.getString size.toInt
  | putString data => CursorM.putString data
  | getBlob size => do let _ ← CursorM.getBlob size.toInt
  | putBlob data size => CursorM.putBlob data size.toInt

/-- The size that the operation checks, as a `size_t`. -/
def amount : BufferOp → Nat
  | getUint64 | getInt64 | getDouble | putUint64 _ | putInt64 _ | putDouble _ => 8
  | getUint32 | getInt32 | getFloat | putUint32 _ | putInt32 _ | putFloat _ => 4
  | getUint16 | getInt16 | putUint16 _ | putInt16 _ => 2
  | getUint8 | getInt8 | getBoolean | putUint8 _ | putInt8 _ | putBoolean _ => 1
  | getString size | getBlob size | putBlob _ size => toSizeT size.toInt
  | putString data => toSizeT (toInt data.length)

/-- The buffer that the operation leaves, and its accesses to it. -/
def after (op : BufferOp) (b : MemoryBuffer) : Cursor :=
  match op.run ⟨b, []⟩ with
  | .ok _ c => c
  | .error _ c => c

/-- The offset does not decrease or pass the end, every access lies in the buffer, and an operation
that throws changes nothing. -/
structure Safe (op : BufferOp) (b : MemoryBuffer) : Prop where
  monotone : b.offset ≤ (op.after b).buffer.offset
  bounded : (op.after b).buffer.offset ≤ b.size
  inside : ∀ a ∈ (op.after b).accesses, a.Within b.size
  unchanged : ∀ e c, op.run ⟨b, []⟩ = .error e c → c.buffer = b

/-- The size and the offset do not wrap around in `size_t`. A string is also not read at an offset
that is negative as an `int`, and a blob of negative size is never read. -/
def Admissible (op : BufferOp) (b : MemoryBuffer) : Prop :=
  match op with
  | getString size => toSizeT size.toInt + b.offset < 2 ^ 64 ∧
      (toSizeT size.toInt + b.offset ≤ b.size →
        toInt b.offset < toInt (toSizeT size.toInt + b.offset) → 0 ≤ toInt b.offset)
  | getBlob size => size.toInt < 0 ∨ toSizeT size.toInt + b.offset < 2 ^ 64
  | op => op.amount + b.offset < 2 ^ 64

/-- The operations that copy as many bytes as they check. -/
def Copies : BufferOp → Prop
  | getString _ => False
  | getBlob size => 0 ≤ size.toInt
  | _ => True

section Steps

variable {op : BufferOp} {b : MemoryBuffer}

lemma transfers_run (h : op.Copies) : Transfers op.amount op.run := by
  have hput : ∀ w x, Transfers w (CursorM.putFixed (leBytes w x)) := by
    intro w x
    have hcopy := CursorM.transfers_copyIn (fun i => (leBytes w x).getD i 0) (leBytes w x).length
    rw [length_leBytes] at hcopy
    rwa [CursorM.putFixed, length_leBytes]
  cases op with
  | getString size => exact h.elim
  | getBlob size =>
    have hget := CursorM.transfers_getFixed (toSizeT size.toInt)
    rw [← CursorM.getBlob_eq h] at hget
    exact hget.discard
  | putString data => exact CursorM.transfers_copyIn _ _
  | putBlob data size => exact CursorM.transfers_copyIn data _
  | putUint64 data | putInt64 data | putDouble data => exact hput 8 data.toNat
  | putUint32 data | putInt32 data | putFloat data => exact hput 4 data.toNat
  | putUint16 data | putInt16 data => exact hput 2 data.toNat
  | putUint8 data | putInt8 data => exact hput 1 data.toNat
  | putBoolean data => exact hput 1 data.toNat
  | getUint64 | getInt64 | getDouble => exact (CursorM.transfers_getFixed 8).discard
  | getUint32 | getInt32 | getFloat => exact (CursorM.transfers_getFixed 4).discard
  | getUint16 | getInt16 => exact (CursorM.transfers_getFixed 2).discard
  | getUint8 | getInt8 | getBoolean => exact (CursorM.transfers_getFixed 1).discard

lemma amount_lt (op : BufferOp) : op.amount < 2 ^ 64 := by
  have hcast : ∀ n : Int, toSizeT n < 2 ^ 64 := by
    intro n
    unfold toSizeT
    omega
  cases op with
  | getString size | getBlob size | putBlob data size => exact hcast size.toInt
  | putString data => exact hcast _
  | _ => norm_num [amount]

/-- The check fails exactly when the operation goes past the end, unless the sum wraps around. -/
lemma isOverflow_iff {n : Nat} (hwrap : n + b.offset < 2 ^ 64) :
    b.isOverflow n = true ↔ b.size < b.offset + n := by
  rw [MemoryBuffer.isOverflow, decide_eq_true_iff, Nat.mod_eq_of_lt hwrap]
  omega

/-- When the sum wraps around the check passes. -/
lemma isOverflow_of_wrap {n : Nat} (hn : n < 2 ^ 64) (hoff : b.offset ≤ b.size) (hsize : b.size < 2 ^ 64)
    (hwrap : 2 ^ 64 ≤ n + b.offset) : b.isOverflow n = false := by
  rw [MemoryBuffer.isOverflow, decide_eq_false_iff_not]
  omega

lemma safe_iff_of_copies (h : op.Copies) (hoff : b.offset ≤ b.size) (hsize : b.size < 2 ^ 64) :
    op.Safe b ↔ op.amount + b.offset < 2 ^ 64 := by
  have hrun := transfers_run h
  have hamount := op.amount_lt
  constructor
  · intro hsafe
    by_contra hwrap
    have hrun := hrun.outside ⟨b, []⟩ (isOverflow_of_wrap hamount hoff hsize (not_lt.mp hwrap)) hoff
      (by dsimp only; omega)
    have hinside := hsafe.inside ⟨b.offset, op.amount⟩ (by simp [after, hrun, Cursor.touched])
    rw [Access.within_iff hoff] at hinside
    omega
  · intro hwrap
    by_cases hroom : b.offset + op.amount ≤ b.size
    · obtain ⟨_, buf, -, hrun⟩ := hrun.done ⟨b, []⟩
        (by rw [← Bool.not_eq_true, isOverflow_iff hwrap]; omega) hroom
      have hadvanced : b.advanced op.amount = b.offset + op.amount := by
        rw [MemoryBuffer.advanced, Nat.mod_eq_of_lt (by omega)]
      constructor
      · simp [after, hrun, hadvanced]
      · simpa [after, hrun, hadvanced] using hroom
      · simpa [after, hrun, Cursor.touched, Access.within_iff hoff] using hroom
      · simp [hrun]
    · have hrun := hrun.refused ⟨b, []⟩ ((isOverflow_iff hwrap).mpr (by omega))
      constructor
      · simp [after, hrun]
      · simpa [after, hrun] using hoff
      · simp [after, hrun]
      · simp [hrun]

/-- An operation that throws before it has accessed or changed anything. -/
lemma safe_of_error {e : Exception} (h : op.run ⟨b, []⟩ = .error e ⟨b, []⟩) (hoff : b.offset ≤ b.size) :
    op.Safe b := by
  constructor
  · simp [after, h]
  · simpa [after, h] using hoff
  · simp [after, h]
  · intro e' c hrun
    rw [h] at hrun
    cases hrun
    rfl

lemma safe_getBlob_negative {size : BitVec 32} (h : size.toInt < 0) (hoff : b.offset ≤ b.size) :
    (getBlob size).Safe b := by
  obtain ⟨e, hrun⟩ := CursorM.getBlob_negative h ⟨b, []⟩
  exact @safe_of_error _ b e (bind_of_error hrun) hoff

/-- What `get_string` does when the check passes. -/
lemma run_getString {size : BitVec 32} (h : b.isOverflow (toSizeT size.toInt) = false) :
    (getString size).run ⟨b, []⟩ = (do let _ ← (do
      let data ← CursorM.copyLoop (toInt b.offset) (toInt ((toSizeT size.toInt + b.offset) % 2 ^ 64))
      CursorM.advance (toSizeT size.toInt)
      return data) : CursorM Unit) ⟨b, []⟩ := by
  rw [run, CursorM.getString, bind_assoc, CursorM.checkOverflow_bind (c := ⟨b, []⟩) h, bind_assoc,
    bind_of_ok (get_apply (⟨b, []⟩ : Cursor))]

/-- The loop of `get_string` stays in the buffer when it does not start below zero. -/
lemma within_loop_iff {n : Nat} (hroom : n + b.offset ≤ b.size) :
    Access.Within b.size ⟨toInt b.offset, (toInt (n + b.offset) - toInt b.offset).toNat⟩ ↔
      (toInt b.offset < toInt (n + b.offset) → 0 ≤ toInt b.offset) := by
  have hlast := toInt_toNat_le (n + b.offset)
  simp only [Access.Within]
  omega

/-- An operation with one access, which advances when the access has stayed in the buffer. -/
lemma safe_iff_of_run {n : Nat} {a : Access} (h : op.run ⟨b, []⟩ = if a.Within b.size then
      .ok () ⟨{ b with offset := b.advanced n }, [a]⟩ else .error .undefinedBehaviour ⟨b, [a]⟩) :
    op.Safe b ↔ a.Within b.size ∧ b.offset ≤ b.advanced n ∧ b.advanced n ≤ b.size := by
  constructor
  · intro hsafe
    by_cases hwithin : a.Within b.size
    · rw [if_pos hwithin] at h
      have hmonotone := hsafe.monotone
      have hbounded := hsafe.bounded
      simp only [after, h] at hmonotone hbounded
      exact ⟨hwithin, hmonotone, hbounded⟩
    · rw [if_neg hwithin] at h
      exact absurd (hsafe.inside a (by simp [after, h])) hwithin
  · rintro ⟨hwithin, hmonotone, hbounded⟩
    rw [if_pos hwithin] at h
    constructor
    · simpa [after, h] using hmonotone
    · simpa [after, h] using hbounded
    · simpa [after, h] using hwithin
    · simp [h]

lemma safe_getString_iff {size : BitVec 32} (hoff : b.offset ≤ b.size) (hsize : b.size < 2 ^ 64) :
    (getString size).Safe b ↔ (getString size).Admissible b := by
  have hn : toSizeT size.toInt < 2 ^ 64 := (getString size).amount_lt
  have hrun := @run_getString b size
  rw [Admissible]
  generalize hamount : toSizeT size.toInt = n at hn hrun ⊢
  by_cases hover : b.isOverflow n = true
  · have hwrap : n + b.offset < 2 ^ 64 := by
      by_contra hwrap
      rw [isOverflow_of_wrap hn hoff hsize (not_lt.mp hwrap)] at hover
      cases hover
    have hout := (isOverflow_iff hwrap).mp hover
    have hthrow : (getString size).run ⟨b, []⟩ = .error .bufferOverflow ⟨b, []⟩ := by
      rw [run, CursorM.getString, bind_assoc]
      exact CursorM.checkOverflow_bind_error (by rwa [hamount]) _
    exact iff_of_true (safe_of_error hthrow hoff) ⟨hwrap, fun hroom => absurd hroom (by omega)⟩
  · rw [Bool.not_eq_true] at hover
    have hrun := hrun hover
    rw [CursorM.copyLoop_advance] at hrun
    rw [safe_iff_of_run hrun, MemoryBuffer.advanced, Nat.add_comm b.offset]
    by_cases hwrap : n + b.offset < 2 ^ 64
    · have hroom : n + b.offset ≤ b.size := by
        by_contra hout
        have hrefuse := (isOverflow_iff hwrap).mpr (by omega)
        rw [hover] at hrefuse
        cases hrefuse
      rw [Nat.mod_eq_of_lt hwrap, within_loop_iff hroom]
      constructor
      · rintro ⟨hloop, -, -⟩
        exact ⟨hwrap, fun _ => hloop⟩
      · rintro ⟨-, hloop⟩
        exact ⟨hloop hroom, by omega, hroom⟩
    · constructor
      · rintro ⟨-, hmonotone, -⟩
        omega
      · rintro ⟨h, -⟩
        exact absurd h hwrap

lemma safe_iff_admissible (hoff : b.offset ≤ b.size) (hsize : b.size < 2 ^ 64) :
    op.Safe b ↔ op.Admissible b := by
  cases op with
  | getString size => exact safe_getString_iff hoff hsize
  | getBlob size =>
    by_cases hneg : size.toInt < 0
    · exact iff_of_true (safe_getBlob_negative hneg hoff) (.inl hneg)
    · have hcopies : (getBlob size).Copies := not_lt.mp hneg
      rw [safe_iff_of_copies hcopies hoff hsize, Admissible, or_iff_right hneg]
      rfl
  | _ => exact safe_iff_of_copies trivial hoff hsize

/-- The size that a string or a copied blob has as an `int`. -/
def intSize : BufferOp → Option Int
  | getString size | putBlob _ size => some size.toInt
  | putString data => some (toInt data.length)
  | _ => none

/-- The sum wraps around only for a negative size that leads back into the buffer. -/
lemma wrap_iff {size : Int} (hlow : -2 ^ 31 ≤ size) (hhigh : size < 2 ^ 31) (hoff : b.offset ≤ b.size)
    (hsize : b.size < 2 ^ 31) :
    toSizeT size + b.offset < 2 ^ 64 ↔ (size < 0 → b.offset + size < 0) := by
  unfold toSizeT
  omega

/-- In a buffer of fewer than `2 ^ 31` bytes only negative sizes of strings and copied blobs are not
admissible, when the offset is at least as large. -/
theorem admissible_iff_of_lt (hoff : b.offset ≤ b.size) (hsize : b.size < 2 ^ 31) :
    op.Admissible b ↔ ∀ size ∈ op.intSize, size < 0 → b.offset + size < 0 := by
  cases op with
  | getString size =>
    have hwrap := wrap_iff size.le_toInt size.toInt_lt hoff hsize
    have hfirst : 0 ≤ toInt b.offset := by
      rw [toInt_of_lt (by omega)]
      omega
    rw [Admissible, hwrap]
    simp [intSize, hfirst]
  | putBlob data size =>
    have hwrap := wrap_iff size.le_toInt size.toInt_lt hoff hsize
    simpa [Admissible, amount, intSize] using hwrap
  | putString data =>
    have hbounds := toInt_bounds data.length
    have hwrap := wrap_iff hbounds.1 hbounds.2 hoff hsize
    simpa [Admissible, amount, intSize] using hwrap
  | getBlob size =>
    have hwrap := wrap_iff size.le_toInt size.toInt_lt hoff hsize
    rw [Admissible, hwrap]
    simp only [intSize, Option.mem_def, reduceCtorEq, false_implies, implies_true, iff_true]
    omega
  | _ =>
    simp only [Admissible, amount, intSize, Option.mem_def, reduceCtorEq, false_implies, implies_true,
      iff_true]
    omega

/-- No operation changes the size of the buffer. -/
lemma size_after (op : BufferOp) (hoff : b.offset ≤ b.size) : (op.after b).buffer.size = b.size := by
  by_cases hcopies : op.Copies
  · have hrun := transfers_run hcopies
    cases hover : b.isOverflow op.amount with
    | true => simp [after, hrun.refused ⟨b, []⟩ hover]
    | false =>
      by_cases hroom : b.offset + op.amount ≤ b.size
      · obtain ⟨_, buf, hlength, hdone⟩ := hrun.done ⟨b, []⟩ hover hroom
        rw [after, hdone]
        exact hlength
      · simp [after, hrun.outside ⟨b, []⟩ hover hoff (not_le.mp hroom), Cursor.touched]
  · cases op with
    | getString size =>
      cases hover : b.isOverflow (toSizeT size.toInt) with
      | true =>
        have hrun : (getString size).run ⟨b, []⟩ = .error .bufferOverflow ⟨b, []⟩ := by
          rw [run, CursorM.getString, bind_assoc]
          exact CursorM.checkOverflow_bind_error hover _
        simp [after, hrun]
      | false =>
        have hrun := CursorM.copyLoop_advance (toInt b.offset)
          (toInt ((toSizeT size.toInt + b.offset) % 2 ^ 64)) (toSizeT size.toInt) b
        rw [after, run_getString hover, hrun]
        by_cases hwithin : Access.Within b.size ⟨toInt b.offset,
            (toInt ((toSizeT size.toInt + b.offset) % 2 ^ 64) - toInt b.offset).toNat⟩
        · rw [if_pos hwithin]
          rfl
        · rw [if_neg hwithin]
    | getBlob size =>
      obtain ⟨e, hrun⟩ := CursorM.getBlob_negative (not_le.mp hcopies) ⟨b, []⟩
      have hop : (getBlob size).run ⟨b, []⟩ = .error e ⟨b, []⟩ := bind_of_error hrun
      simp [after, hop]
    | _ => exact absurd trivial hcopies

end Steps

/-! ### The operations without the accesses -/

section Forget

variable {b : MemoryBuffer}

/-- The operation without its accesses and without the buffer that is left when it throws. -/
def forget {α : Type} (m : CursorM α) : BufferM α := fun b =>
  match m ⟨b, []⟩ with
  | .ok a c => .ok (a, c.buffer)
  | .error e _ => .error e

/-- The same operation in the model of the buffer that the serialisers use. -/
def program : BufferOp → BufferM Unit
  | getUint64 => do let _ ← BufferM.getUint64
  | getUint32 => do let _ ← BufferM.getUint32
  | getUint16 => do let _ ← BufferM.getUint16
  | getUint8 => do let _ ← BufferM.getUint8
  | getInt64 => do let _ ← BufferM.getInt64
  | getInt32 => do let _ ← BufferM.getInt32
  | getInt16 => do let _ ← BufferM.getInt16
  | getInt8 => do let _ ← BufferM.getInt8
  | getDouble => do let _ ← BufferM.getDouble
  | getFloat => do let _ ← BufferM.getFloat
  | getBoolean => do let _ ← BufferM.getBoolean
  | putUint64 data => BufferM.putUint64 data
  | putUint32 data => BufferM.putUint32 data
  | putUint16 data => BufferM.putUint16 data
  | putUint8 data => BufferM.putUint8 data
  | putInt64 data => BufferM.putInt64 data
  | putInt32 data => BufferM.putInt32 data
  | putInt16 data => BufferM.putInt16 data
  | putInt8 data => BufferM.putInt8 data
  | putDouble data => BufferM.putDouble data
  | putFloat data => BufferM.putFloat data
  | putBoolean data => BufferM.putBoolean data
  | getString size => do let _ ← BufferM.getString size.toInt
  | putString data => BufferM.putString data
  | getBlob size => do let _ ← BufferM.getBlob size.toInt
  | putBlob data size => BufferM.putBlob ((List.range size.toInt.toNat).map data) size.toInt

lemma forget_get {α : Type} (f : Cursor → CursorM α) :
    forget (do let c ← get; f c) b = forget (f ⟨b, []⟩) b := rfl

lemma forget_bind_pure {α : Type} {m : CursorM α} {m' : BufferM α} (h : forget m b = m' b) :
    forget (do let _ ← m) b = (do let _ ← m') b := by
  have hright : (do let _ ← m') b = (m' b).bind (fun r => .ok ((), r.2)) := rfl
  rw [hright, ← h]
  cases hrun : m ⟨b, []⟩ with
  | ok a c =>
    rw [forget, bind_of_ok hrun, forget, hrun]
    rfl
  | error e c =>
    rw [forget, bind_of_error hrun, forget, hrun]
    rfl

lemma forget_checkOverflow {α : Type} {n : Nat} {m : CursorM α} {m' : BufferM α}
    (h : forget m b = m' b) :
    forget (do CursorM.checkOverflow n; m) b = (do BufferM.checkOverflow n; m') b := by
  cases hover : b.isOverflow n with
  | true =>
    rw [BufferM.checkOverflow_bind_error hover, forget,
      CursorM.checkOverflow_bind_error (c := ⟨b, []⟩) hover]
  | false =>
    rw [BufferM.checkOverflow_bind hover, forget, CursorM.checkOverflow_bind (c := ⟨b, []⟩) hover]
    exact h

lemma forget_getFixed (hoff : b.offset ≤ b.size) (n : Nat) :
    forget (CursorM.getFixed n) b = BufferM.getFixed n b := by
  refine forget_checkOverflow ?_
  have hwithin := Access.within_iff hoff n
  rw [BufferM.copyOut, forget]
  by_cases hroom : b.offset + n ≤ b.size
  · rw [if_pos hroom, bind_of_ok (@CursorM.copyOut_ok ⟨b, []⟩ n (hwithin.mpr hroom))]
    rfl
  · rw [if_neg hroom, bind_of_error (@CursorM.copyOut_error ⟨b, []⟩ n (hwithin.not.mpr hroom))]

lemma forget_copyIn (hoff : b.offset ≤ b.size) (data : Nat → UInt8) (n : Nat) :
    forget (do CursorM.copyIn data n; CursorM.advance n) b =
      BufferM.copyIn ((List.range n).map data) b := by
  have hlength : ((List.range n).map data).length = n := by simp
  have hwithin := Access.within_iff hoff n
  rw [BufferM.copyIn, hlength, forget]
  by_cases hroom : b.offset + n ≤ b.size
  · rw [if_pos hroom, bind_of_ok (@CursorM.copyIn_ok ⟨b, []⟩ data n (hwithin.mpr hroom))]
    rfl
  · rw [if_neg hroom,
      bind_of_error (@CursorM.copyIn_error ⟨b, []⟩ data n (hwithin.not.mpr hroom))]

lemma forget_copyLoop (first last : Int) (n : Nat) (b : MemoryBuffer) :
    forget (do let data ← CursorM.copyLoop first last; CursorM.advance n; return data) b =
      if first < last ∧ (first < 0 ∨ (b.size : Int) < last) then .error .undefinedBehaviour
      else .ok ((b.buf.drop first.toNat).take (last - first).toNat,
        { b with offset := b.advanced n }) := by
  have hwithin : Access.Within b.size ⟨first, (last - first).toNat⟩ ↔
      ¬(first < last ∧ (first < 0 ∨ (b.size : Int) < last)) := by
    simp only [Access.Within]
    omega
  rw [forget]
  by_cases hout : first < last ∧ (first < 0 ∨ (b.size : Int) < last)
  · have hloop := @CursorM.copyLoop_error ⟨b, []⟩ first last (hwithin.not.mpr (not_not.mpr hout))
    rw [if_pos hout, bind_of_error hloop]
  · have hloop := @CursorM.copyLoop_ok ⟨b, []⟩ first last (hwithin.mpr hout)
    rw [if_neg hout, bind_of_ok hloop]
    rfl

/-- A copy of negative size goes past the end of every buffer. -/
lemma forget_copyIn_negative (hoff : b.offset ≤ b.size) (hsize : b.size < 2 ^ 63) {size : Int}
    (hneg : size < 0) (hlow : -2 ^ 31 ≤ size) (data : Nat → UInt8) :
    forget (do CursorM.copyIn data (toSizeT size); CursorM.advance (toSizeT size)) b =
      .error .undefinedBehaviour := by
  have hlarge : 2 ^ 63 ≤ toSizeT size := by
    unfold toSizeT
    omega
  rw [forget_copyIn hoff, BufferM.copyIn, if_neg]
  rw [List.length_map, List.length_range]
  omega

/-- A string in memory, up to its `n`-th byte. -/
lemma map_range_getD (bs : List UInt8) {n : Nat} (hn : n ≤ bs.length) :
    (List.range n).map (fun i => bs.getD i 0) = bs.take n := by
  apply List.ext_getElem
  · simp [hn]
  · intro i hi hi'
    rw [List.length_map, List.length_range] at hi
    simp [List.getElem?_eq_getElem (show i < bs.length by omega)]

/-- The two models of an operation agree. -/
theorem forget_run (op : BufferOp) (hoff : b.offset ≤ b.size) (hsize : b.size < 2 ^ 63) :
    forget op.run b = op.program b := by
  have hget : ∀ (n : Nat) {α : Type} (f : List UInt8 → α),
      forget (do let _ ← CursorM.getFixed n) b =
        (do let _ ← (do return f (← BufferM.getFixed n)) : BufferM Unit) b := by
    intro n α f
    rw [forget_bind_pure (forget_getFixed hoff n)]
    simp
  have hput : ∀ bs, forget (CursorM.putFixed bs) b = BufferM.putFixed bs b := by
    intro bs
    have hcopy := forget_copyIn hoff (fun i => bs.getD i 0) bs.length
    rw [map_range_getD bs le_rfl, List.take_length] at hcopy
    exact forget_checkOverflow hcopy
  cases op with
  | getString size =>
    refine forget_bind_pure (forget_checkOverflow ?_)
    rw [forget_get, forget_copyLoop]
  | getBlob size =>
    refine forget_bind_pure ?_
    by_cases hneg : 0 ≤ size.toInt
    · have hcast := toSizeT_of_nonneg hneg (lt_of_lt_of_le size.toInt_lt (by norm_num))
      rw [CursorM.getBlob_eq hneg, forget_getFixed hoff, BufferM.getBlob, if_pos hneg, hcast]
      rfl
    · refine forget_checkOverflow ?_
      rw [if_neg hneg, if_pos (not_le.mp hneg)]
      rfl
  | putString data =>
    refine forget_checkOverflow ?_
    obtain ⟨hlow, hhigh⟩ := toInt_bounds data.length
    by_cases hneg : 0 ≤ toInt data.length
    · have hcast := toSizeT_of_nonneg hneg (lt_trans hhigh (by norm_num))
      rw [if_pos hneg, hcast, forget_copyIn hoff, map_range_getD data (toInt_toNat_le data.length)]
    · rw [if_neg hneg]
      exact forget_copyIn_negative hoff hsize (not_le.mp hneg) hlow _
  | putBlob data size =>
    refine forget_checkOverflow ?_
    by_cases hneg : 0 ≤ size.toInt
    · have hcast := toSizeT_of_nonneg hneg (lt_of_lt_of_le size.toInt_lt (by norm_num))
      rw [if_pos hneg, hcast, forget_copyIn hoff, List.take_of_length_le (by simp)]
    · rw [if_neg hneg]
      exact forget_copyIn_negative hoff hsize (not_le.mp hneg) size.le_toInt _
  | putUint64 data | putInt64 data | putDouble data => exact hput _
  | putUint32 data | putInt32 data | putFloat data => exact hput _
  | putUint16 data | putInt16 data => exact hput _
  | putUint8 data | putInt8 data | putBoolean data => exact hput _
  | getUint64 | getInt64 | getDouble => exact hget 8 _
  | getUint32 | getInt32 | getFloat => exact hget 4 _
  | getUint16 | getInt16 => exact hget 2 _
  | getUint8 | getInt8 | getBoolean => exact hget 1 _

end Forget

/-- Something holds of every operation of a sequence in the buffer that the operations before it
have left. -/
def Throughout (P : BufferOp → MemoryBuffer → Prop) : List BufferOp → MemoryBuffer → Prop
  | [], _ => True
  | op :: ops, b => P op b ∧ Throughout P ops (op.after b).buffer

/-- A sequence of operations is safe at every point exactly when each of them is admissible in the
state before it. -/
theorem safe_throughout_iff (ops : List BufferOp) {b : MemoryBuffer} (hoff : b.offset ≤ b.size)
    (hsize : b.size < 2 ^ 64) : Throughout Safe ops b ↔ Throughout Admissible ops b := by
  induction ops generalizing b with
  | nil => exact Iff.rfl
  | cons op ops ih =>
    have hop := @safe_iff_admissible op b hoff hsize
    have hrest : op.Safe b →
        (Throughout Safe ops (op.after b).buffer ↔ Throughout Admissible ops (op.after b).buffer) := by
      intro hsafe
      have hsame := size_after op hoff
      exact ih (by rw [hsame]; exact hsafe.bounded) (by rwa [hsame])
    rw [Throughout, Throughout]
    constructor
    · rintro ⟨hsafe, hsafes⟩
      exact ⟨hop.mp hsafe, (hrest hsafe).mp hsafes⟩
    · rintro ⟨hadmissible, hadmissibles⟩
      have hsafe := hop.mpr hadmissible
      exact ⟨hsafe, (hrest hsafe).mpr hadmissibles⟩

/-- At the offset 1 the size -2 does not pass the check. -/
theorem safe_throughout_negative :
    Throughout Safe [getUint8, getString (-2)] (MemoryBuffer.new 4) :=
  (safe_throughout_iff [getUint8, getString (-2)] (by decide) (by decide)).mpr
    ⟨(by decide : 1 + 0 < 2 ^ 64), ⟨(by decide : toSizeT (-2) + 1 < 2 ^ 64),
      fun h => absurd h (by decide)⟩, trivial⟩

/-- Behind one byte the size -1 passes the check and moves the offset back to it. -/
theorem getString_not_safe :
    ¬Throughout Safe [getUint8, getString (-1)] (MemoryBuffer.new 4) := by
  rintro ⟨-, hsafe, -⟩
  have hmonotone := hsafe.monotone
  revert hmonotone
  decide

end BufferOp

end Dibibase
