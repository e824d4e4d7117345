import Dibibase.Util.Buffer

/-!
# Readers of arbitrary bytes

What a reader does with a buffer about whose content nothing is known. `Scan` is the type of readers
whose indices have no bound. A reader of a buffer of fewer than `2 ^ 32` bytes follows such a reader,
but `get_string` keeps its indices in an `int`, so the strings around byte `2 ^ 31` are different.
-/

namespace Dibibase

open Library

/-- A string that a reader comes to: the offset of its first byte, and its length. -/
structure Span where
  start : Nat
  length : Nat

namespace Span

/-- All of the string stands at offsets that do not fit into an `int`. -/
def Behind (x : Span) : Prop := 0 < x.length ∧ 2 ^ 31 ≤ x.start

/-- The string starts at an offset that fits into an `int`, and its end does not. -/
def Across (x : Span) : Prop := x.start < 2 ^ 31 ∧ 2 ^ 31 ≤ x.start + x.length

end Span

/-- From an offset in a byte string on, the reader returns a value and the offset behind it, or it
runs out of bytes. The strings that it comes to are kept. -/
def Scan (α : Type) : Type := List UInt8 → Nat → List Span × Option (α × Nat)

namespace Scan

variable {α β : Type}

def pure (a : α) : Scan α := fun _ off => ([], some (a, off))

def bind (s : Scan α) (g : α → Scan β) : Scan β := fun bs off =>
  match s bs off with
  | (xs, none) => (xs, none)
  | (xs, some (a, off)) => (xs ++ (g a bs off).1, (g a bs off).2)

instance : Monad Scan where
  pure := pure
  bind := bind

def getFixed (n : Nat) : Scan (List UInt8) := fun bs off =>
  if off + n ≤ bs.length then ([], some ((bs.drop off).take n, off + n)) else ([], none)

def getString (n : Nat) : Scan (List UInt8) := fun bs off =>
  if off + n ≤ bs.length then ([⟨off, n⟩], some ((bs.drop off).take n, off + n)) else ([], none)

def getUint64 : Scan (BitVec 64) := return BitVec.ofNat 64 (leValue (← getFixed 8))
def getUint32 : Scan (BitVec 32) := return BitVec.ofNat 32 (leValue (← getFixed 4))
def getUint8 : Scan (BitVec 8) := return BitVec.ofNat 8 (leValue (← getFixed 1))

def replicate : Nat → Scan α → Scan (List α)
  | 0, _ => return []
  | n + 1, s => do
    let a ← s
    let as ← replicate n s
    return a :: as

end Scan

/-- What becomes of a buffer against what the unbounded reader says. With a string behind the range
of `int` the result is undefined, and without enough bytes it is an exception. Else a value `a'` is
returned in place of the value `a` that the bytes stand for, where `E a a'` holds, or `L a a'` if a
string was cut off. -/
def Outcome {α : Type} (P : α → List UInt8 → Prop) (E L : α → α → Prop) (b : MemoryBuffer)
    (result : Except Exception (α × MemoryBuffer)) (scan : List Span × Option (α × Nat)) : Prop :=
  ((∃ x ∈ scan.1, x.Behind) ∧ result = .error .undefinedBehaviour) ∨
  ((∀ x ∈ scan.1, ¬x.Behind) ∧ scan.2 = none ∧ result = .error .bufferOverflow) ∨
  ((∀ x ∈ scan.1, ¬x.Behind) ∧ ∃ a a' bs, bs <+: b.buf.drop b.offset ∧ P a bs ∧
    scan.2 = some (a, b.offset + bs.length) ∧
    result = .ok (a', { b with offset := b.offset + bs.length }) ∧
    (((∀ x ∈ scan.1, ¬x.Across) ∧ E a a') ∨ ((∃ x ∈ scan.1, x.Across) ∧ L a a')))

/-- The reader `m` runs like `s`. -/
def Follows {α : Type} (P : α → List UInt8 → Prop) (E L : α → α → Prop) (m : BufferM α)
    (s : Scan α) : Prop :=
  ∀ b : MemoryBuffer, b.offset ≤ b.size → b.size < 2 ^ 32 →
    Outcome P E L b (m b) (s b.buf b.offset)

section

variable {α β : Type} {P : α → List UInt8 → Prop} {E L : α → α → Prop}

/-- The outcome of a second reader, behind the bytes `as` and the strings `xs` of a first one. -/
lemma Outcome.append {F : α → α → Prop} {b : MemoryBuffer}
    {result : Except Exception (α × MemoryBuffer)} {scan : List Span × Option (α × Nat)}
    {as tail : List UInt8} {xs : List Span} (htail : as ++ tail = b.buf.drop b.offset)
    (hfront : ∀ x ∈ xs, ¬x.Behind)
    (h : Outcome (fun c bs => P c (as ++ bs)) F L { b with offset := b.offset + as.length } result scan)
    (hcut : ((∀ x ∈ xs, ¬x.Across) ∧ ∀ c c', F c c' → E c c') ∨
      ((∃ x ∈ xs, x.Across) ∧ ∀ c c', F c c' → L c c')) :
    Outcome P E L b result (xs ++ scan.1, scan.2) := by
  have hdrop : b.buf.drop (b.offset + as.length) = tail := by
    rw [← List.drop_drop, ← htail, List.drop_left]
  rcases h with ⟨⟨x, hx, hbehind⟩, herror⟩ | ⟨hbehind, hnone, herror⟩ |
    ⟨hbehind, c, c', bs, hprefix, hP, hsome, hok, hsecond⟩
  · exact .inl ⟨⟨x, List.mem_append_right _ hx, hbehind⟩, herror⟩
  · refine .inr (.inl ⟨?_, hnone, herror⟩)
    intro x hx
    exact (List.mem_append.mp hx).elim (hfront x) (hbehind x)
  · refine .inr (.inr ⟨?_, c, c', as ++ bs, ?_, hP, ?_, ?_, ?_⟩)
    · intro x hx
      exact (List.mem_append.mp hx).elim (hfront x) (hbehind x)
    · rw [hdrop] at hprefix
      rw [← htail]
      exact (List.prefix_append_right_inj as).mpr hprefix
    · rw [hsome, List.length_append, Nat.add_assoc]
    · rw [hok, List.length_append, Nat.add_assoc]
    · rcases hsecond with ⟨hnone, hF⟩ | ⟨⟨x, hx, hacross⟩, hL⟩
      · rcases hcut with ⟨hfirst, hE⟩ | ⟨⟨x, hx, hacross⟩, hL⟩
        · left
          refine ⟨?_, hE c c' hF⟩
          intro x hx
          exact (List.mem_append.mp hx).elim (hfirst x) (hnone x)
        · exact .inr ⟨⟨x, List.mem_append_left _ hx, hacross⟩, hL c c' hF⟩
      · exact .inr ⟨⟨x, List.mem_append_right _ hx, hacross⟩, hL⟩

lemma Scan.bind_none {s : Scan α} {g : α → Scan β} {bs : List UInt8} {off : Nat}
    (h : (s bs off).2 = none) : (s >>= g) bs off = ((s bs off).1, none) := by
  change Scan.bind s g bs off = _
  rw [Scan.bind]
  split
  · next hs => rw [hs]
  · next hs => rw [hs] at h; cases h

lemma Scan.bind_some {s : Scan α} {g : α → Scan β} {bs : List UInt8} {off off' : Nat} {a : α}
    (h : (s bs off).2 = some (a, off')) :
    (s >>= g) bs off = ((s bs off).1 ++ (g a bs off').1, (g a bs off').2) := by
  change Scan.bind s g bs off = _
  rw [Scan.bind]
  split
  · next hs => rw [hs] at h; cases h
  · next hs => rw [hs] at h ⊢; cases h; rfl

end

namespace Follows

variable {α β : Type} {P : α → List UInt8 → Prop} {E L : α → α → Prop}

lemma pure {a a' : α} (hP : P a []) (hE : E a a') : Follows P E L (Pure.pure a') (Pure.pure a) := by
  intro b _ _
  refine .inr (.inr ⟨?_, a, a', [], List.nil_prefix, hP, rfl, rfl, .inl ⟨?_, hE⟩⟩)
  · intro x hx
    exact absurd hx List.not_mem_nil
  · intro x hx
    exact absurd hx List.not_mem_nil

/-- The second reader starts from what the first one returns, which may be cut off. -/
lemma bind {Q : β → List UInt8 → Prop} {E' L' : β → β → Prop} {m : BufferM α} {s : Scan α}
    {f : α → BufferM β} {g : α → Scan β} (hm : Follows P E L m s)
    (hE : ∀ a a' as, P a as → E a a' → Follows (fun c bs => Q c (as ++ bs)) E' L' (f a') (g a))
    (hL : ∀ a a' as, P a as → L a a' → Follows (fun c bs => Q c (as ++ bs)) L' L' (f a') (g a)) :
    Follows Q E' L' (m >>= f) (s >>= g) := by
  intro b hoff hsize
  rcases hm b hoff hsize with ⟨⟨x, hx, hbehind⟩, herror⟩ | ⟨hfront, hnone, herror⟩ |
    ⟨hfront, a, a', as, ⟨tail, htail⟩, hP, hsome, hok, hcut⟩
  · left
    refine ⟨⟨x, ?_, hbehind⟩, by simp [Bind.bind, StateT.bind, Except.bind, herror]⟩
    cases hs : (s b.buf b.offset).2 with
    | none => rwa [Scan.bind_none hs]
    | some r => rw [Scan.bind_some hs]; exact List.mem_append_left _ hx
  · right
    left
    rw [Scan.bind_none hnone]
    exact ⟨hfront, rfl, by simp [Bind.bind, StateT.bind, Except.bind, herror]⟩
  · have hlength := congrArg List.length htail
    rw [List.length_append, List.length_drop] at hlength
    have hoff' : b.offset + as.length ≤ b.size := by
      unfold MemoryBuffer.size at *
      omega
    have hrun : (m >>= f) b = f a' { b with offset := b.offset + as.length } := by
      simp [Bind.bind, StateT.bind, Except.bind, hok]
    rw [hrun, Scan.bind_some hsome]
    rcases hcut with ⟨hcut, ha⟩ | ⟨hcut, ha⟩
    · exact (hE a a' as hP ha { b with offset := b.offset + as.length } hoff' hsize).append htail
        hfront (.inl ⟨hcut, fun _ _ h => h⟩)
    · exact (hL a a' as hP ha { b with offset := b.offset + as.length } hoff' hsize).append htail
        hfront (.inr ⟨hcut, fun _ _ h => h⟩)

/-- The first reader reads no string. -/
lemma bind_exact {Q : β → List UInt8 → Prop} {E' L' : β → β → Prop} {m : BufferM α} {s : Scan α}
    {f : α → BufferM β} {g : α → Scan β} (hm : Follows P (fun a a' => a' = a) (fun _ _ => False) m s)
    (hf : ∀ a as, P a as → Follows (fun c bs => Q c (as ++ bs)) E' L' (f a) (g a)) :
    Follows Q E' L' (m >>= f) (s >>= g) :=
  hm.bind (fun a _ as hP h => h ▸ hf a as hP) (fun _ _ _ _ h => h.elim)

/-- The rule for a buffer that is long enough, or not. -/
lemma isOverflow_eq_false_iff {b : MemoryBuffer} {n : Nat} (hoff : b.offset ≤ b.size)
    (hsize : b.size < 2 ^ 32) (hn : n < 2 ^ 32) : b.isOverflow n = false ↔ b.offset + n ≤ b.buf.length := by
  unfold MemoryBuffer.size at *
  rw [MemoryBuffer.isOverflow, decide_eq_false_iff_not, MemoryBuffer.size]
  omega

lemma getFixed {n : Nat} (hn : n < 2 ^ 32) :
    Follows (fun a bs => bs = a ∧ a.length = n) (fun a a' => a' = a) (fun _ _ => False)
      (BufferM.getFixed n) (Scan.getFixed n) := by
  intro b hoff hsize
  have hiff := isOverflow_eq_false_iff hoff hsize hn
  rw [Scan.getFixed]
  cases hover : b.isOverflow n with
  | true =>
    rw [if_neg (fun h => by rw [hiff.mpr h] at hover; cases hover)]
    exact .inr (.inl ⟨by simp, rfl, BufferM.checkOverflow_bind_error hover _⟩)
  | false =>
    have hroom := hiff.mp hover
    have hadv : b.advanced n = b.offset + n := by
      unfold MemoryBuffer.advanced
      omega
    have hlength : ((b.buf.drop b.offset).take n).length = n := by
      rw [List.length_take, List.length_drop]
      omega
    rw [if_pos hroom]
    refine .inr (.inr ⟨by simp, _, _, _, List.take_prefix n _, ⟨rfl, hlength⟩, ?_, ?_,
      .inl ⟨by simp, rfl⟩⟩)
    · rw [hlength]
    · rw [BufferM.getFixed, BufferM.checkOverflow_bind hover, BufferM.copyOut,
        if_pos (show b.offset + n ≤ b.size from hroom), hadv, hlength]

lemma fixed {w : Nat} (n : Nat) (hw : w = 8 * n) (hn : n < 2 ^ 32) :
    Follows (fun (x : BitVec w) bs => bs = leBytes n x.toNat) (fun a a' => a' = a) (fun _ _ => False)
      (do return BitVec.ofNat w (leValue (← BufferM.getFixed n)))
      (do return BitVec.ofNat w (leValue (← Scan.getFixed n))) := by
  refine (getFixed hn).bind_exact (fun a as h => pure ?_ rfl)
  obtain ⟨rfl, hlength⟩ := h
  rw [List.append_nil, leBytes_ofNat hw hlength]

lemma getUint8 : Follows (fun x bs => bs = leBytes 1 x.toNat) (fun a a' => a' = a) (fun _ _ => False)
    BufferM.getUint8 Scan.getUint8 := fixed 1 rfl (by norm_num)

lemma getUint32 : Follows (fun x bs => bs = leBytes 4 x.toNat) (fun a a' => a' = a) (fun _ _ => False)
    BufferM.getUint32 Scan.getUint32 := fixed 4 rfl (by norm_num)

lemma getUint64 : Follows (fun x bs => bs = leBytes 8 x.toNat) (fun a a' => a' = a) (fun _ _ => False)
    BufferM.getUint64 Scan.getUint64 := fixed 8 rfl (by norm_num)

/-- The loop of `get_string` in a buffer that is long enough. Behind the range of `int` its first
index is negative, and at the end of this range its last one is. -/
lemma getString_of_room {b : MemoryBuffer} {n : Nat} (hroom : b.offset + n ≤ b.buf.length)
    (hsize : b.buf.length < 2 ^ 32) (hn : n < 2 ^ 31) :
    BufferM.getString n b =
      if 0 < n ∧ 2 ^ 31 ≤ b.offset then .error .undefinedBehaviour
      else .ok (if b.offset < 2 ^ 31 ∧ 2 ^ 31 ≤ b.offset + n then [] else (b.buf.drop b.offset).take n,
        { b with offset := b.offset + n }) := by
  have hcast : toSizeT n = n := toSizeT_natCast (by omega)
  have hover : b.isOverflow n = false := by
    rw [MemoryBuffer.isOverflow, decide_eq_false_iff_not, MemoryBuffer.size]
    omega
  have hadv : b.advanced n = b.offset + n := by
    unfold MemoryBuffer.advanced
    omega
  have hmod : (n + b.offset) % 2 ^ 64 = b.offset + n := by omega
  rw [BufferM.getString, hcast, BufferM.checkOverflow_bind hover]
  simp only [hmod, hadv, MemoryBuffer.size]
  by_cases hfirst : b.offset < 2 ^ 31
  · rw [toInt_of_lt hfirst]
    by_cases hlast : b.offset + n < 2 ^ 31
    · rw [toInt_of_lt hlast, if_neg (by omega), if_neg (by omega), if_neg (by omega)]
      rw [Int.toNat_natCast, show ((b.offset + n : Nat) - (b.offset : Int)).toNat = n by omega]
    · have hneg := toInt_neg (by omega) (show b.offset + n < 2 ^ 32 by omega)
      rw [if_neg (by omega), if_neg (by omega), if_pos (by omega)]
      rw [show (toInt (b.offset + n) - (b.offset : Int)).toNat = 0 by omega, List.take_zero]
  · have hneg := toInt_neg (by omega) (show b.offset < 2 ^ 32 by omega)
    have hsub : toInt (b.offset + n) = toInt b.offset + n := by
      rw [toInt_eq, toInt_eq]
      split <;> split <;> omega
    by_cases hzero : n = 0
    · subst hzero
      rw [hsub, if_neg (by omega), if_neg (by omega), if_neg (by omega)]
      simp
    · rw [if_pos (by omega), if_pos (by omega)]

lemma getString {n : Nat} (hn : n < 2 ^ 31) :
    Follows (fun data bs => bs = data ∧ data.length = n) (fun a a' => a' = a)
      (fun a a' => a'.length < a.length) (BufferM.getString n) (Scan.getString n) := by
  intro b hoff hsize
  have hiff := isOverflow_eq_false_iff hoff hsize (show n < 2 ^ 32 by omega)
  rw [Scan.getString]
  cases hover : b.isOverflow n with
  | true =>
    rw [if_neg (fun h => by rw [hiff.mpr h] at hover; cases hover)]
    refine .inr (.inl ⟨by simp, rfl, ?_⟩)
    rw [BufferM.getString, toSizeT_natCast (by omega)]
    exact BufferM.checkOverflow_bind_error hover _
  | false =>
    have hroom := hiff.mp hover
    have hlength : ((b.buf.drop b.offset).take n).length = n := by
      rw [List.length_take, List.length_drop]
      omega
    rw [if_pos hroom, getString_of_room hroom hsize hn]
    by_cases hbehind : 0 < n ∧ 2 ^ 31 ≤ b.offset
    · rw [if_pos hbehind]
      exact .inl ⟨⟨_, List.mem_singleton_self _, hbehind⟩, rfl⟩
    · rw [if_neg hbehind]
      refine .inr (.inr ⟨?_, _, _, _, List.take_prefix n _, ⟨rfl, hlength⟩, by rw [hlength],
        by rw [hlength], ?_⟩)
      · intro x hx
        rw [List.mem_singleton.mp hx]
        exact hbehind
      · by_cases hacross : b.offset < 2 ^ 31 ∧ 2 ^ 31 ≤ b.offset + n
        · right
          rw [if_pos hacross]
          refine ⟨⟨_, List.mem_singleton_self _, hacross⟩, ?_⟩
          dsimp only
          rw [hlength, List.length_nil]
          omega
        · left
          rw [if_neg hacross]
          refine ⟨?_, rfl⟩
          intro x hx
          rw [List.mem_singleton.mp hx]
          exact hacross

/-- A reader repeated `n` times, where `w` is smaller for a value that was cut off. -/
lemma replicate {enc : α → List UInt8} {w : α → Nat} {m : BufferM α} {s : Scan α}
    (hm : Follows (fun a bs => bs = enc a) (fun a a' => a' = a) (fun a a' => w a' < w a) m s) (n : Nat) :
    Follows (fun as bs => bs = as.flatMap enc ∧ as.length = n) (fun as as' => as' = as)
      (fun as as' => (as'.map w).sum < (as.map w).sum) (BufferM.replicate n m) (Scan.replicate n s) := by
  induction n with
  | zero => exact pure ⟨rfl, rfl⟩ rfl
  | succ n ih =>
    refine hm.bind (fun a a' bs ha heq => ?_) (fun a a' bs ha hlt => ?_)
    · subst ha heq
      refine ih.bind (fun as as' cs has heq => ?_) (fun as as' cs has hlt => ?_)
      · exact pure ⟨by simp [has.1], by simp [has.2]⟩ (by rw [heq])
      · exact pure ⟨by simp [has.1], by simp [has.2]⟩ (by simpa using hlt)
    · subst ha
      refine ih.bind (fun as as' cs has heq => ?_) (fun as as' cs has hlt' => ?_)
      · exact pure ⟨by simp [has.1], by simp [has.2]⟩ (by simpa [heq] using hlt)
      · exact pure ⟨by simp [has.1], by simp [has.2]⟩
          (by simp only [List.map_cons, List.sum_cons]; omega)

end Follows

/-! ### The strings that are found -/

/-- The strings that the reader comes to end inside the bytes. -/
def Within {α : Type} (s : Scan α) : Prop :=
  ∀ bs off, ∀ x ∈ (s bs off).1, x.start + x.length ≤ bs.length

namespace Within

variable {α β : Type}

lemma pure (a : α) : Within (Pure.pure a) := by
  intro bs off x hx
  exact absurd hx List.not_mem_nil

lemma bind {s : Scan α} {g : α → Scan β} (hs : Within s) (hg : ∀ a, Within (g a)) :
    Within (s >>= g) := by
  intro bs off x hx
  cases hfirst : (s bs off).2 with
  | none =>
    rw [Scan.bind_none hfirst] at hx
    exact hs bs off x hx
  | some r =>
    rw [Scan.bind_some hfirst] at hx
    exact (List.mem_append.mp hx).elim (hs bs off x) (hg _ bs _ x)

lemma getFixed (n : Nat) : Within (Scan.getFixed n) := by
  intro bs off x hx
  rw [Scan.getFixed] at hx
  split at hx
  · exact absurd hx List.not_mem_nil
  · exact absurd hx List.not_mem_nil

lemma fixed (n w : Nat) : Within (do return BitVec.ofNat w (leValue (← Scan.getFixed n))) :=
  (getFixed n).bind (fun _ => pure _)

lemma getString (n : Nat) : Within (Scan.getString n) := by
  intro bs off x hx
  rw [Scan.getString] at hx
  split at hx
  · next hroom =>
    rw [List.mem_singleton.mp hx]
    exact hroom
  · exact absurd hx List.not_mem_nil

lemma replicate {s : Scan α} (hs : Within s) (n : Nat) : Within (Scan.replicate n s) := by
  induction n with
  | zero => exact pure _
  | succ n ih => exact hs.bind (fun a => ih.bind (fun as => pure _))

end Within

end Dibibase
