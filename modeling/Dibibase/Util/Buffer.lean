import Dibibase.Errors
import Dibibase.Library.Bytes
import Dibibase.Library.Execution

/-!
# Memory buffers

`MemoryBuffer` with its bounds check in `size_t` arithmetic and the `int` sizes that its
string and blob operations take. `Writes` and `Reads` are the two rules by which the
serialisers above are verified: in a buffer of fewer than `2 ^ 31` bytes a writer appends
a fixed byte string, and a reader consumes one and returns the value it stands for.
-/

namespace Dibibase

open Library

/-- Conversion of an unsigned value to `int`. -/
def toInt (n : Nat) : Int := (n : Int).bmod (2 ^ 32)

/-- Conversion of a signed value to `size_t`. -/
def toSizeT (n : Int) : Nat := (n % 2 ^ 64).toNat

lemma toInt_of_lt {n : Nat} (h : n < 2 ^ 31) : toInt n = n := by
  unfold toInt
  rw [Int.bmod_eq_of_le] <;> omega

lemma toInt_eq (n : Nat) : toInt n =
    if n % 2 ^ 32 < 2 ^ 31 then ((n % 2 ^ 32 : Nat) : Int) else (n % 2 ^ 32 : Nat) - 2 ^ 32 := by
  unfold toInt Int.bmod
  dsimp only
  split <;> split <;> omega

lemma toInt_toNat_le (n : Nat) : (toInt n).toNat ≤ n := by
  rw [toInt_eq]
  split <;> omega

/-- Only from `2 ^ 32 - 1` on can the conversion give minus one. -/
lemma toInt_ne_neg_one {n : Nat} (h : n < 2 ^ 32 - 1) : toInt n ≠ -1 := by
  rw [toInt_eq]
  split <;> omega

lemma toInt_neg {n : Nat} (hlow : 2 ^ 31 ≤ n) (hhigh : n < 2 ^ 32) : toInt n < 0 := by
  rw [toInt_eq]
  split <;> omega

lemma toInt_bounds (n : Nat) : -2 ^ 31 ≤ toInt n ∧ toInt n < 2 ^ 31 := by
  unfold toInt Int.bmod
  constructor <;> dsimp only <;> split <;> omega

lemma toSizeT_natCast {n : Nat} (h : n < 2 ^ 64) : toSizeT n = n := by
  unfold toSizeT
  omega

lemma toSizeT_of_nonneg {n : Int} (h : 0 ≤ n) (h64 : n < 2 ^ 64) : toSizeT n = n.toNat := by
  unfold toSizeT
  rw [Int.emod_eq_of_lt h h64]

structure MemoryBuffer where
  buf : List UInt8
  offset : Nat
  deriving DecidableEq, Repr

namespace MemoryBuffer

/-- `MemoryBuffer(size)`: the memory is zeroed. -/
def new (size : Nat) : MemoryBuffer := ⟨List.replicate size 0, 0⟩

/-- `MemoryBuffer(buf, size)` over memory of `size` bytes. -/
def ofBytes (buf : List UInt8) : MemoryBuffer := ⟨buf, 0⟩

def size (b : MemoryBuffer) : Nat := b.buf.length

def isOverflow (b : MemoryBuffer) (size : Nat) : Bool :=
  decide ((size + b.offset) % 2 ^ 64 > b.size)

@[simp] lemma size_new (n : Nat) : (new n).size = n := List.length_replicate

/-- The offset after `advance(step)`. -/
def advanced (b : MemoryBuffer) (step : Nat) : Nat := (b.offset + step) % 2 ^ 64

/-- `bytes()` copies `(int)m_size` bytes into zeroed memory. -/
def bytes (b : MemoryBuffer) : List UInt8 :=
  b.buf.take (toInt b.size).toNat ++ List.replicate (b.size - (toInt b.size).toNat) 0

lemma bytes_of_lt {b : MemoryBuffer} (h : b.size < 2 ^ 31) : b.bytes = b.buf := by
  rw [bytes, toInt_of_lt h]
  simp [size]

lemma length_bytes (b : MemoryBuffer) : b.bytes.length = b.size := by
  have hle : (toInt b.size).toNat ≤ b.size := by
    unfold toInt Int.bmod
    dsimp only
    split <;> omega
  simp only [bytes, List.length_append, List.length_take, List.length_replicate]
  simp only [size] at hle ⊢
  omega

end MemoryBuffer

/-- Operations on a buffer: they throw, or return a value and the buffer after them. -/
abbrev BufferM := StateT MemoryBuffer (Except Exception)

namespace BufferM

/-- `memcpy` of `n` bytes out of the buffer, and the advance. -/
def copyOut (n : Nat) : BufferM (List UInt8) := fun b =>
  if b.offset + n ≤ b.size then
    .ok ((b.buf.drop b.offset).take n, { b with offset := b.advanced n })
  else .error .undefinedBehaviour

/-- `memcpy` into the buffer, and the advance. -/
def copyIn (bs : List UInt8) : BufferM Unit := fun b =>
  if b.offset + bs.length ≤ b.size then
    .ok ((), ⟨b.buf.take b.offset ++ bs ++ b.buf.drop (b.offset + bs.length),
      b.advanced bs.length⟩)
  else .error .undefinedBehaviour

/-- The check that starts every operation. -/
def checkOverflow (size : Nat) : BufferM Unit := fun b =>
  if b.isOverflow size then .error .bufferOverflow else .ok ((), b)

lemma checkOverflow_bind {α : Type} {b : MemoryBuffer} {size : Nat} (h : b.isOverflow size = false)
    (m : BufferM α) : (do checkOverflow size; m) b = m b := by
  simp [checkOverflow, Bind.bind, StateT.bind, Except.bind, h]

lemma checkOverflow_bind_error {α : Type} {b : MemoryBuffer} {size : Nat}
    (h : b.isOverflow size = true) (m : BufferM α) :
    (do checkOverflow size; m) b = .error .bufferOverflow := by
  simp [checkOverflow, Bind.bind, StateT.bind, Except.bind, h]

def getFixed (n : Nat) : BufferM (List UInt8) := do
  checkOverflow n
  copyOut n

def putFixed (bs : List UInt8) : BufferM Unit := do
  checkOverflow bs.length
  copyIn bs

def getUint64 : BufferM (BitVec 64) := return BitVec.ofNat 64 (leValue (← getFixed 8))
def putUint64 (data : BitVec 64) : BufferM Unit := putFixed (leBytes 8 data.toNat)

def getUint32 : BufferM (BitVec 32) := return BitVec.ofNat 32 (leValue (← getFixed 4))
def putUint32 (data : BitVec 32) : BufferM Unit := putFixed (leBytes 4 data.toNat)

def getUint16 : BufferM (BitVec 16) := return BitVec.ofNat 16 (leValue (← getFixed 2))
def putUint16 (data : BitVec 16) : BufferM Unit := putFixed (leBytes 2 data.toNat)

def getUint8 : BufferM (BitVec 8) := return BitVec.ofNat 8 (leValue (← getFixed 1))
def putUint8 (data : BitVec 8) : BufferM Unit := putFixed (leBytes 1 data.toNat)

-- The signed, floating-point and unsigned operations of one width copy the same bytes.
def getInt64 : BufferM (BitVec 64) := getUint64
def putInt64 (data : BitVec 64) : BufferM Unit := putUint64 data

def getInt32 : BufferM (BitVec 32) := getUint32
def putInt32 (data : BitVec 32) : BufferM Unit := putUint32 data

def getInt16 : BufferM (BitVec 16) := getUint16
def putInt16 (data : BitVec 16) : BufferM Unit := putUint16 data

def getInt8 : BufferM (BitVec 8) := getUint8
def putInt8 (data : BitVec 8) : BufferM Unit := putUint8 data

def getDouble : BufferM (BitVec 64) := getUint64
def putDouble (data : BitVec 64) : BufferM Unit := putUint64 data

def getFloat : BufferM (BitVec 32) := getUint32
def putFloat (data : BitVec 32) : BufferM Unit := putUint32 data

def getBoolean : BufferM Bool := return leValue (← getFixed 1) != 0
def putBoolean (data : Bool) : BufferM Unit := putFixed (leBytes 1 data.toNat)

/-- The loop `for (int i = m_offset; i < (int)(size + m_offset); ++i)` over `m_buf[i]`. -/
def getString (size : Int) : BufferM (List UInt8) := do
  checkOverflow (toSizeT size)
  fun b =>
    let first := toInt b.offset
    let last := toInt ((toSizeT size + b.offset) % 2 ^ 64)
    if first < last ∧ (first < 0 ∨ (b.size : Int) < last) then .error .undefinedBehaviour
    else .ok ((b.buf.drop first.toNat).take (last - first).toNat,
      { b with offset := b.advanced (toSizeT size) })

/-- The size is kept in an `int`, and `memcpy` takes it as a `size_t`. -/
def putString (data : List UInt8) : BufferM Unit := do
  let size := toInt data.length
  checkOverflow (toSizeT size)
  if 0 ≤ size then copyIn (data.take size.toNat) else throw .undefinedBehaviour

/-- `make_unique` of a negative size fails. -/
def getBlob (size : Int) : BufferM (List UInt8) := do
  checkOverflow (toSizeT size)
  if 0 ≤ size then copyOut size.toNat else throw .badAlloc

def putBlob (data : List UInt8) (size : Int) : BufferM Unit := do
  checkOverflow (toSizeT size)
  if 0 ≤ size then copyIn (data.take size.toNat) else throw .undefinedBehaviour

/-- A loop that reads `n` items. -/
def replicate {α : Type} : Nat → BufferM α → BufferM (List α)
  | 0, _ => return []
  | n + 1, m => do
    let a ← m
    let as ← replicate n m
    return a :: as

end BufferM

/-! ### Writers and readers -/

/-- The buffer after `bs` have been written at the offset. -/
def MemoryBuffer.append (b : MemoryBuffer) (bs : List UInt8) : MemoryBuffer :=
  ⟨b.buf.take b.offset ++ bs ++ b.buf.drop (b.offset + bs.length), b.offset + bs.length⟩

/-- In every buffer with room for `bs` the operation appends `bs`. -/
def Writes (m : BufferM Unit) (bs : List UInt8) : Prop :=
  ∀ b : MemoryBuffer, b.offset + bs.length ≤ b.size → b.size < 2 ^ 31 → m b = .ok ((), b.append bs)

/-- Where `bs` come next in the buffer, the operation consumes them and returns `a`. -/
def Reads {α : Type} (m : BufferM α) (bs : List UInt8) (a : α) : Prop :=
  ∀ (b : MemoryBuffer) (tail : List UInt8), b.offset ≤ b.size → b.size < 2 ^ 31 →
    b.buf.drop b.offset = bs ++ tail → m b = .ok (a, { b with offset := b.offset + bs.length })

namespace MemoryBuffer

lemma size_append {b : MemoryBuffer} {bs : List UInt8} (h : b.offset + bs.length ≤ b.size) :
    (b.append bs).size = b.size := by
  simp only [size, append, List.length_append, List.length_take, List.length_drop] at *
  omega

lemma append_append {b : MemoryBuffer} {as bs : List UInt8}
    (h : b.offset + (as ++ bs).length ≤ b.size) :
    (b.append as).append bs = b.append (as ++ bs) := by
  have hfront : (b.buf.take b.offset ++ as).length = b.offset + as.length := by
    simp only [size, List.length_append, List.length_take] at *
    omega
  have htake : (b.append as).buf.take (b.append as).offset = b.buf.take b.offset ++ as := by
    simp only [append, ← hfront, List.take_left]
  have hdrop : (b.append as).buf.drop ((b.append as).offset + bs.length) =
      b.buf.drop (b.offset + (as ++ bs).length) := by
    change (b.buf.take b.offset ++ as ++ b.buf.drop (b.offset + as.length)).drop
      (b.offset + as.length + bs.length) = _
    rw [← hfront, List.drop_length_add_append, List.drop_drop, hfront, List.length_append,
      Nat.add_assoc]
  rw [append, htake, hdrop]
  simp only [append, List.append_assoc, List.length_append, Nat.add_assoc]

lemma new_append {n : Nat} {bs : List UInt8} :
    (new n).append bs = ⟨bs ++ List.replicate (n - bs.length) 0, bs.length⟩ := by
  simp [new, append]

end MemoryBuffer

/-- The rule `Writes` for the buffers of fewer than `limit` bytes. -/
def WritesUpTo (limit : Nat) (m : BufferM Unit) (bs : List UInt8) : Prop :=
  ∀ b : MemoryBuffer, b.offset + bs.length ≤ b.size → b.size < limit → m b = .ok ((), b.append bs)

namespace WritesUpTo

variable {limit : Nat}

lemma pure : WritesUpTo limit (pure ()) [] := by
  intro b _ _
  simp [MemoryBuffer.append]

lemma seq {m n : BufferM Unit} {as bs : List UInt8} (hm : WritesUpTo limit m as)
    (hn : WritesUpTo limit n bs) : WritesUpTo limit (do m; n) (as ++ bs) := by
  intro b hroom hsize
  have hroom' := hroom
  rw [List.length_append] at hroom'
  have hfirst := hm b (by omega) hsize
  have hsecond := hn (b.append as)
    (by rw [MemoryBuffer.size_append (by omega)]; simp only [MemoryBuffer.append]; omega)
    (by rw [MemoryBuffer.size_append (by omega)]; exact hsize)
  rw [MemoryBuffer.append_append hroom] at hsecond
  simp [Bind.bind, StateT.bind, Except.bind, hfirst, hsecond]

/-- Writing a list element by element. -/
lemma forM {α : Type} {f : α → BufferM Unit} {enc : α → List UInt8} (xs : List α)
    (h : ∀ x ∈ xs, WritesUpTo limit (f x) (enc x)) :
    WritesUpTo limit (xs.forM f) (xs.flatMap enc) := by
  induction xs with
  | nil => exact pure
  | cons x xs ih =>
    exact (h x (by simp)).seq (ih (fun y hy => h y (by simp [hy])))

lemma putFixed (hl : limit ≤ 2 ^ 63) (bs : List UInt8) :
    WritesUpTo limit (BufferM.putFixed bs) bs := by
  intro b hroom hsize
  have hno : b.isOverflow bs.length = false := by
    simp only [MemoryBuffer.isOverflow, decide_eq_false_iff_not]
    omega
  have hadv : b.advanced bs.length = b.offset + bs.length := by
    unfold MemoryBuffer.advanced
    omega
  rw [BufferM.putFixed, BufferM.checkOverflow_bind hno]
  simp [BufferM.copyIn, hroom, hadv, MemoryBuffer.append]

/-- The length is cut to 32 bits, and must then be below `2 ^ 31`. -/
lemma putString (hl : limit ≤ 2 ^ 63) {data : List UInt8} (hdata : data.length % 2 ^ 32 < 2 ^ 31) :
    WritesUpTo limit (BufferM.putString data) (data.take (data.length % 2 ^ 32)) := by
  intro b hroom hsize
  have hcut : (data.take (data.length % 2 ^ 32)).length = data.length % 2 ^ 32 := by
    rw [List.length_take]
    omega
  have hlen : toInt data.length = (data.length % 2 ^ 32 : Nat) := by
    unfold toInt Int.bmod
    dsimp only
    split <;> omega
  have hcast : toSizeT (data.length % 2 ^ 32 : Nat) = data.length % 2 ^ 32 :=
    toSizeT_natCast (by omega)
  have hput := putFixed hl (data.take (data.length % 2 ^ 32)) b hroom hsize
  rw [BufferM.putFixed, hcut] at hput
  simp only [BufferM.putString, hlen, hcast, Int.natCast_nonneg, if_true, Int.toNat_natCast]
  exact hput

end WritesUpTo

/-- Whatever the buffer is, the operation throws. -/
def Throws (m : BufferM Unit) : Prop := ∀ b, ∃ e, m b = .error e

/-- A string whose size is negative as an `int` is not written. -/
lemma throws_putString {data : List UInt8} (h : 2 ^ 31 ≤ data.length % 2 ^ 32) :
    Throws (BufferM.putString data) := by
  intro b
  have hneg : ¬0 ≤ toInt data.length := by
    unfold toInt Int.bmod
    dsimp only
    split <;> omega
  unfold BufferM.putString
  cases hover : b.isOverflow (toSizeT (toInt data.length)) with
  | true => exact ⟨.bufferOverflow, BufferM.checkOverflow_bind_error hover _⟩
  | false =>
    refine ⟨.undefinedBehaviour, (BufferM.checkOverflow_bind hover _).trans ?_⟩
    rw [if_neg hneg]
    rfl

lemma Throws.forM {α : Type} {f : α → BufferM Unit} {xs : List α} {x : α} (hx : x ∈ xs)
    (h : Throws (f x)) : Throws (xs.forM f) := by
  induction xs with
  | nil => simp at hx
  | cons y xs ih =>
    intro b
    cases hrun : f y b with
    | error e => exact ⟨e, by simp [List.forM_cons, hrun, Bind.bind, StateT.bind, Except.bind]⟩
    | ok r =>
      obtain ⟨u, b'⟩ := r
      rcases List.mem_cons.mp hx with rfl | hx
      · obtain ⟨e, herror⟩ := h b
        rw [herror] at hrun
        cases hrun
      · obtain ⟨e, herror⟩ := ih hx b'
        exact ⟨e, by simpa [List.forM_cons, hrun, Bind.bind, StateT.bind, Except.bind] using herror⟩

namespace Writes

lemma seq {m n : BufferM Unit} {as bs : List UInt8} (hm : Writes m as) (hn : Writes n bs) :
    Writes (do m; n) (as ++ bs) := WritesUpTo.seq hm hn

lemma forM {α : Type} {f : α → BufferM Unit} {enc : α → List UInt8} (xs : List α)
    (h : ∀ x ∈ xs, Writes (f x) (enc x)) : Writes (xs.forM f) (xs.flatMap enc) :=
  WritesUpTo.forM xs h

lemma putFixed (bs : List UInt8) : Writes (BufferM.putFixed bs) bs :=
  WritesUpTo.putFixed (by norm_num) bs

/-- The length is cut to 32 bits. -/
lemma putString {data : List UInt8} :
    Writes (BufferM.putString data) (data.take (data.length % 2 ^ 32)) := by
  intro b hroom hsize
  have hcut : (data.take (data.length % 2 ^ 32)).length = data.length % 2 ^ 32 := by
    rw [List.length_take]
    omega
  exact @WritesUpTo.putString (2 ^ 31) (by norm_num) data (by omega) b hroom hsize

lemma putBlob {data : List UInt8} :
    Writes (BufferM.putBlob data (toInt data.length)) (data.take (data.length % 2 ^ 32)) :=
  putString

/-- A string that fits into the buffer is not cut. -/
lemma putName {data : List UInt8} : Writes (BufferM.putString data) data := by
  intro b hroom hsize
  have hall : data.take (data.length % 2 ^ 32) = data := by
    rw [Nat.mod_eq_of_lt (by omega), List.take_length]
  have hput := @putString data b (by rwa [hall]) hsize
  rwa [hall] at hput

end Writes

/-- The rule `Reads` for the buffers of fewer than `limit` bytes. -/
def ReadsUpTo {α : Type} (limit : Nat) (m : BufferM α) (bs : List UInt8) (a : α) : Prop :=
  ∀ (b : MemoryBuffer) (tail : List UInt8), b.offset ≤ b.size → b.size < limit →
    b.buf.drop b.offset = bs ++ tail → m b = .ok (a, { b with offset := b.offset + bs.length })

namespace ReadsUpTo

variable {α β : Type} {limit : Nat}

lemma pure (a : α) : ReadsUpTo limit (pure a) [] a := by
  intro b tail _ _ _
  simp

lemma bind {m : BufferM α} {f : α → BufferM β} {as bs : List UInt8} {a : α} {c : β}
    (hm : ReadsUpTo limit m as a) (hf : ReadsUpTo limit (f a) bs c) :
    ReadsUpTo limit (m >>= f) (as ++ bs) c := by
  intro b tail hoff hsize hdrop
  have hlen := congrArg List.length hdrop
  simp only [List.length_drop, List.length_append] at hlen
  rw [List.append_assoc] at hdrop
  have hfirst := hm b (bs ++ tail) hoff hsize hdrop
  have hsecond := hf { b with offset := b.offset + as.length } tail
    (by simp only [MemoryBuffer.size] at *; omega) hsize
    (by simp only [← List.drop_drop, hdrop, List.drop_left])
  simp [Bind.bind, StateT.bind, Except.bind, hfirst, hsecond, Nat.add_assoc]

lemma map {m : BufferM α} {f : α → β} {as : List UInt8} {a : α} (hm : ReadsUpTo limit m as a) :
    ReadsUpTo limit (do return f (← m)) as (f a) := by
  have hbind := hm.bind (f := fun x => Pure.pure (f x)) (pure (f a))
  rwa [List.append_nil] at hbind

lemma getFixed (hl : limit ≤ 2 ^ 63) (bs : List UInt8) :
    ReadsUpTo limit (BufferM.getFixed bs.length) bs bs := by
  intro b tail hoff hsize hdrop
  have hlen := congrArg List.length hdrop
  simp only [List.length_drop, List.length_append] at hlen
  have hroom : b.offset + bs.length ≤ b.size := by
    simp only [MemoryBuffer.size] at *
    omega
  have hno : b.isOverflow bs.length = false := by
    simp only [MemoryBuffer.isOverflow, decide_eq_false_iff_not]
    omega
  have hadv : b.advanced bs.length = b.offset + bs.length := by
    unfold MemoryBuffer.advanced
    omega
  rw [BufferM.getFixed, BufferM.checkOverflow_bind hno]
  simp [BufferM.copyOut, hroom, hadv, hdrop]

/-- The fixed-width readers return what the writer of the same width was given. -/
lemma fixed (hl : limit ≤ 2 ^ 63) {w : Nat} (n : Nat) (x : BitVec (8 * n)) (hw : w = 8 * n) :
    ReadsUpTo limit (do return BitVec.ofNat w (leValue (← BufferM.getFixed n))) (leBytes n x.toNat)
      (x.cast hw.symm) := by
  subst hw
  have hfixed := getFixed hl (leBytes n x.toNat)
  rw [length_leBytes] at hfixed
  have hval : BitVec.ofNat (8 * n) (leValue (leBytes n x.toNat)) = x := by
    apply BitVec.eq_of_toNat_eq
    rw [leValue_leBytes, BitVec.toNat_ofNat, show 256 ^ n = 2 ^ (8 * n) by rw [pow_mul]; norm_num]
    simp
  have hmap := hfixed.map (f := fun bs => BitVec.ofNat (8 * n) (leValue bs))
  rw [hval] at hmap
  exact hmap

end ReadsUpTo

namespace Reads

variable {α β : Type}

lemma pure (a : α) : Reads (pure a) [] a := ReadsUpTo.pure a

lemma bind {m : BufferM α} {f : α → BufferM β} {as bs : List UInt8} {a : α} {c : β}
    (hm : Reads m as a) (hf : Reads (f a) bs c) : Reads (m >>= f) (as ++ bs) c :=
  ReadsUpTo.bind hm hf

/-- A step outside the buffer that does not throw. -/
lemma lift {x : Except Exception α} {a : α} (h : x = .ok a) : Reads (liftM x) [] a := by
  subst h
  exact pure a

lemma map {m : BufferM α} {f : α → β} {as : List UInt8} {a : α} (hm : Reads m as a) :
    Reads (do return f (← m)) as (f a) := ReadsUpTo.map hm

/-- Reading a list item by item with one reader. -/
lemma replicate {m : BufferM α} {enc : α → List UInt8} (xs : List α)
    (h : ∀ x ∈ xs, Reads m (enc x) x) :
    Reads (BufferM.replicate xs.length m) (xs.flatMap enc) xs := by
  induction xs with
  | nil => exact pure []
  | cons x xs ih =>
    exact (h x (by simp)).bind ((ih (fun y hy => h y (by simp [hy]))).map (f := fun ys => x :: ys))

/-- Reading a list with a reader of its own for each item. -/
lemma mapM {m : α → BufferM α} {enc : α → List UInt8} (xs : List α)
    (h : ∀ x ∈ xs, Reads (m x) (enc x) x) : Reads (xs.mapM m) (xs.flatMap enc) xs := by
  induction xs with
  | nil => exact pure []
  | cons x xs ih =>
    rw [List.mapM_cons]
    exact (h x (by simp)).bind ((ih (fun y hy => h y (by simp [hy]))).map (f := fun ys => x :: ys))

lemma getFixed (bs : List UInt8) : Reads (BufferM.getFixed bs.length) bs bs :=
  ReadsUpTo.getFixed (by norm_num) bs

lemma fixed {w : Nat} (n : Nat) (x : BitVec (8 * n)) (hw : w = 8 * n) :
    Reads (do return BitVec.ofNat w (leValue (← BufferM.getFixed n))) (leBytes n x.toNat)
      (x.cast hw.symm) := ReadsUpTo.fixed (by norm_num) n x hw

lemma getUint64 (x : BitVec 64) : Reads BufferM.getUint64 (leBytes 8 x.toNat) x :=
  fixed 8 x rfl

lemma getUint32 (x : BitVec 32) : Reads BufferM.getUint32 (leBytes 4 x.toNat) x :=
  fixed 4 x rfl

lemma getUint16 (x : BitVec 16) : Reads BufferM.getUint16 (leBytes 2 x.toNat) x :=
  fixed 2 x rfl

lemma getUint8 (x : BitVec 8) : Reads BufferM.getUint8 (leBytes 1 x.toNat) x :=
  fixed 1 x rfl

lemma getBoolean (x : Bool) : Reads BufferM.getBoolean (leBytes 1 x.toNat) x := by
  have hfixed := getFixed (leBytes 1 x.toNat)
  rw [length_leBytes] at hfixed
  have hmap := hfixed.map (f := fun bs => leValue bs != 0)
  have hval : (leValue (leBytes 1 x.toNat) != 0) = x := by cases x <;> decide
  rw [hval] at hmap
  exact hmap

lemma getString (data : List UInt8) : Reads (BufferM.getString (toInt data.length)) data data := by
  intro b tail hoff hsize hdrop
  have hlen := congrArg List.length hdrop
  simp only [List.length_drop, List.length_append] at hlen
  have hroom : b.offset + data.length ≤ b.size := by
    simp only [MemoryBuffer.size] at *
    omega
  have hno : b.isOverflow data.length = false := by
    simp only [MemoryBuffer.isOverflow, decide_eq_false_iff_not]
    omega
  have hadv : b.advanced data.length = b.offset + data.length := by
    unfold MemoryBuffer.advanced
    omega
  have hint : toInt data.length = data.length := toInt_of_lt (by omega)
  have hcast : toSizeT data.length = data.length := toSizeT_natCast (by omega)
  have hfirst : toInt b.offset = b.offset := toInt_of_lt (by omega)
  have hlast : toInt ((data.length + b.offset) % 2 ^ 64) = (data.length + b.offset : Nat) := by
    rw [Nat.mod_eq_of_lt (by omega)]
    exact toInt_of_lt (by omega)
  have hok : ¬((b.offset : Int) < ((data.length + b.offset : Nat) : Int) ∧
      ((b.offset : Int) < 0 ∨ (b.size : Int) < ((data.length + b.offset : Nat) : Int))) := by
    omega
  have hcount : (((data.length + b.offset : Nat) : Int) - (b.offset : Int)).toNat =
      data.length := by omega
  rw [hint, BufferM.getString, hcast, BufferM.checkOverflow_bind hno]
  simp only [hfirst, hlast, hcount, hadv, Int.toNat_natCast, hdrop, List.take_left]
  rw [if_neg hok]

lemma getBlob (data : List UInt8) : Reads (BufferM.getBlob (toInt data.length)) data data := by
  intro b tail hoff hsize hdrop
  have hlen := congrArg List.length hdrop
  simp only [List.length_drop, List.length_append] at hlen
  have hroom : b.offset + data.length ≤ b.size := by
    simp only [MemoryBuffer.size] at *
    omega
  have hint : toInt data.length = data.length := toInt_of_lt (by omega)
  have hcast : toSizeT data.length = data.length := toSizeT_natCast (by omega)
  have hget := getFixed data b tail hoff hsize hdrop
  rw [hint]
  simp only [BufferM.getBlob, hcast, Int.natCast_nonneg, if_true, Int.toNat_natCast]
  exact hget

end Reads

/-! ### Values that a reader may return -/

/-- Whatever the buffer holds, a value that the operation returns satisfies `P`. -/
def Returns {α : Type} (P : α → Prop) (m : BufferM α) : Prop :=
  ∀ b a b', m b = .ok (a, b') → P a

namespace Returns

variable {α β : Type}

lemma pure {P : α → Prop} {a : α} (h : P a) : Returns P (Pure.pure a) := by
  intro b c b' hc
  cases hc
  exact h

lemma bind {P : α → Prop} {Q : β → Prop} {m : BufferM α} {f : α → BufferM β} (hm : Returns P m)
    (hf : ∀ a, P a → Returns Q (f a)) : Returns Q (m >>= f) := by
  intro b c b' hc
  obtain ⟨a, b₁, hrun, hrest⟩ := stateT_bind_eq_ok hc
  exact hf a (hm b a b₁ hrun) b₁ c b' hrest

lemma trivial (m : BufferM α) : Returns (fun _ => True) m := fun _ _ _ _ => True.intro

lemma mono {P Q : α → Prop} {m : BufferM α} (hm : Returns P m) (h : ∀ a, P a → Q a) :
    Returns Q m := fun b a b' ha => h a (hm b a b' ha)

/-- A step outside the buffer. -/
lemma lift {P : α → Prop} {x : Except Exception α} (h : ∀ a, x = .ok a → P a) :
    Returns P (liftM x) := by
  intro b a b' ha
  cases x with
  | error e => cases ha
  | ok c =>
    cases ha
    exact h a rfl

lemma mapM {Q : β → Prop} {f : α → BufferM β} (xs : List α) (h : ∀ x ∈ xs, Returns Q (f x)) :
    Returns (fun ys => ∀ y ∈ ys, Q y) (xs.mapM f) := by
  induction xs with
  | nil => exact pure (by simp)
  | cons x xs ih =>
    rw [List.mapM_cons]
    refine (h x (by simp)).bind (fun y hy => (ih (fun z hz => h z (by simp [hz]))).bind ?_)
    intro ys hys
    exact pure (by simpa using ⟨hy, hys⟩)

lemma replicate {P : α → Prop} {m : BufferM α} (hm : Returns P m) (n : Nat) :
    Returns (fun as => ∀ a ∈ as, P a) (BufferM.replicate n m) := by
  induction n with
  | zero => exact pure (by simp)
  | succ n ih =>
    refine hm.bind (fun a ha => ih.bind (fun as has => ?_))
    exact pure (by simpa using ⟨ha, has⟩)

lemma length_replicate (m : BufferM α) (n : Nat) :
    Returns (fun as => as.length = n) (BufferM.replicate n m) := by
  induction n with
  | zero => exact pure rfl
  | succ n ih =>
    refine (trivial m).bind (fun a _ => ih.bind (fun as has => ?_))
    exact pure (by simpa using has)

/-- The indices of the copying loop are values of type `int`. -/
lemma getString (size : Int) : Returns (fun data => data.length < 2 ^ 32) (BufferM.getString size) := by
  refine (trivial _).bind (fun _ _ => ?_)
  intro b data b' h
  have hfirst := (toInt_bounds b.offset).1
  have hlast := (toInt_bounds ((toSizeT size + b.offset) % 2 ^ 64)).2
  simp only at h
  split at h
  · simp at h
  · simp only [Except.ok.injEq, Prod.mk.injEq] at h
    rw [← h.1, List.length_take]
    omega

lemma getBlob (n : Nat) : Returns (fun data => data.length < 2 ^ 32) (BufferM.getBlob (toInt n)) := by
  refine (trivial _).bind (fun _ _ => ?_)
  intro b data b' h
  have hlast := (toInt_bounds n).2
  split at h
  · rw [BufferM.copyOut] at h
    split at h
    · simp only [Except.ok.injEq, Prod.mk.injEq] at h
      rw [← h.1, List.length_take]
      omega
    · simp at h
  · cases h

end Returns

/-! ### Bytes that a reader consumes -/

/-- The operation moves the offset forward at least by the size of what it returns, and not
past the end of the buffer. -/
def Consumes {α : Type} (size : α → Nat) (m : BufferM α) : Prop :=
  ∀ b a b', b.size < 2 ^ 32 → b.offset ≤ b.size → m b = .ok (a, b') →
    b'.size = b.size ∧ b.offset + size a ≤ b'.offset ∧ b'.offset ≤ b.size

namespace Consumes

variable {α β : Type}

lemma pure {size : α → Nat} {a : α} (h : size a = 0) : Consumes size (Pure.pure a) := by
  intro b c b' _ hoff hc
  cases hc
  exact ⟨rfl, by omega, hoff⟩

lemma bind {f : α → Nat} {size : β → Nat} {m : BufferM α} {g : α → BufferM β}
    (hm : Consumes f m) (hg : ∀ a, Consumes (fun c => size c - f a) (g a)) :
    Consumes size (m >>= g) := by
  intro b c b' hsize hoff hc
  obtain ⟨a, b₁, hrun, hrest⟩ := stateT_bind_eq_ok hc
  obtain ⟨hsize₁, hlow₁, hhigh₁⟩ := hm b a b₁ hsize hoff hrun
  obtain ⟨hsize₂, hlow₂, hhigh₂⟩ := hg a b₁ c b' (by omega) (by omega) hrest
  dsimp only at hlow₂
  exact ⟨by omega, by omega, by omega⟩

lemma map {f : α → Nat} {size : β → Nat} {m : BufferM α} {g : α → β} (hm : Consumes f m)
    (hg : ∀ a, size (g a) ≤ f a) : Consumes size (do return g (← m)) :=
  hm.bind (fun a => pure (by have := hg a; omega))

lemma replicate {f : α → Nat} {m : BufferM α} (hm : Consumes f m) (n : Nat) :
    Consumes (fun as => (as.map f).sum) (BufferM.replicate n m) := by
  induction n with
  | zero => exact pure rfl
  | succ n ih =>
    refine hm.bind (fun a => ih.map (g := fun as => a :: as) (fun as => ?_))
    simp

lemma checkOverflow_ok {n : Nat} {m : BufferM α} {b b' : MemoryBuffer} {a : α}
    (h : (do BufferM.checkOverflow n; m) b = .ok (a, b')) :
    (n + b.offset) % 2 ^ 64 ≤ b.size ∧ m b = .ok (a, b') := by
  cases hno : b.isOverflow n with
  | true => simp [BufferM.checkOverflow, Bind.bind, StateT.bind, Except.bind, hno] at h
  | false =>
    rw [BufferM.checkOverflow_bind hno] at h
    simp only [MemoryBuffer.isOverflow, decide_eq_false_iff_not, gt_iff_lt, not_lt] at hno
    exact ⟨hno, h⟩

lemma getFixed (n : Nat) (hn : n < 2 ^ 32) : Consumes (fun _ => n) (BufferM.getFixed n) := by
  intro b a b' hsize hoff h
  obtain ⟨-, h⟩ := checkOverflow_ok h
  rw [BufferM.copyOut] at h
  split at h
  · next hroom =>
    simp only [Except.ok.injEq, Prod.mk.injEq] at h
    rw [← h.2]
    simp only [MemoryBuffer.size, MemoryBuffer.advanced, true_and] at hsize hroom ⊢
    omega
  · simp at h

lemma getUint8 : Consumes (fun _ => 1) BufferM.getUint8 :=
  (getFixed 1 (by norm_num)).map (fun _ => le_rfl)

lemma getUint32 : Consumes (fun _ => 4) BufferM.getUint32 :=
  (getFixed 4 (by norm_num)).map (fun _ => le_rfl)

lemma getUint64 : Consumes (fun _ => 8) BufferM.getUint64 :=
  (getFixed 8 (by norm_num)).map (fun _ => le_rfl)

/-- Behind `2 ^ 31` bytes the loop may copy less than the size. -/
lemma getString (n : Nat) (hn : n < 2 ^ 32) :
    Consumes (fun data => data.length) (BufferM.getString n) := by
  intro b data b' hsize hoff h
  have hcast : toSizeT n = n := toSizeT_natCast (by omega)
  have hmod : (n + b.offset) % 2 ^ 64 = n + b.offset := Nat.mod_eq_of_lt (by omega)
  rw [BufferM.getString, hcast] at h
  obtain ⟨hcheck, h⟩ := checkOverflow_ok h
  rw [hmod] at hcheck
  dsimp only at h
  rw [hmod] at h
  split at h
  · simp at h
  · simp only [Except.ok.injEq, Prod.mk.injEq] at h
    have hcount : (toInt (n + b.offset) - toInt b.offset).toNat ≤ n := by
      unfold toInt Int.bmod
      dsimp only
      split <;> split <;> omega
    rw [← h.1, ← h.2]
    simp only [MemoryBuffer.size, MemoryBuffer.advanced, List.length_take, true_and] at hsize hcheck ⊢
    omega

end Consumes

/-- Writing does not change the size of the buffer. -/
def KeepsSize {α : Type} (m : BufferM α) : Prop :=
  ∀ b a b', m b = .ok (a, b') → b'.size = b.size

namespace KeepsSize

variable {α β : Type}

lemma pure (a : α) : KeepsSize (Pure.pure a) := by
  intro b c b' hc
  cases hc
  rfl

lemma bind {m : BufferM α} {f : α → BufferM β} (hm : KeepsSize m) (hf : ∀ a, KeepsSize (f a)) :
    KeepsSize (m >>= f) := by
  intro b c b' hc
  obtain ⟨a, b₁, hrun, hrest⟩ := stateT_bind_eq_ok hc
  rw [hf a b₁ c b' hrest, hm b a b₁ hrun]

lemma forM {f : α → BufferM Unit} (xs : List α) (h : ∀ x, KeepsSize (f x)) :
    KeepsSize (xs.forM f) := by
  induction xs with
  | nil => exact pure ()
  | cons x xs ih => exact (h x).bind (fun _ => ih)

lemma copyIn (bs : List UInt8) : KeepsSize (BufferM.copyIn bs) := by
  intro b a b' h
  rw [BufferM.copyIn] at h
  split at h
  · next hroom =>
    simp only [Except.ok.injEq, Prod.mk.injEq] at h
    rw [← h.2]
    simp only [MemoryBuffer.size, List.length_append, List.length_take, List.length_drop] at *
    omega
  · simp at h

lemma checkOverflow (size : Nat) : KeepsSize (BufferM.checkOverflow size) := by
  intro b a b' h
  rw [BufferM.checkOverflow] at h
  split at h
  · simp at h
  · cases h
    rfl

lemma putFixed (bs : List UInt8) : KeepsSize (BufferM.putFixed bs) :=
  (checkOverflow _).bind (fun _ => copyIn bs)

lemma putString (data : List UInt8) : KeepsSize (BufferM.putString data) := by
  refine (checkOverflow _).bind (fun _ => ?_)
  split
  · exact copyIn _
  · intro b a b' h
    cases h

lemma putBlob (data : List UInt8) (size : Int) : KeepsSize (BufferM.putBlob data size) := by
  refine (checkOverflow _).bind (fun _ => ?_)
  split
  · exact copyIn _
  · intro b a b' h
    cases h

end KeepsSize

end Dibibase
