import Mathlib.Data.List.Nodup
import Mathlib.Data.List.Perm.Subperm
import Mathlib.Logic.Function.Basic
import Mathlib.Tactic.Common
import Dibibase.Library.Execution

/-!
# Files, descriptors and uninitialised memory of a process

The part of an operating system that a single-threaded program works on: files named by
paths of any type `P`, the table of open descriptors, the outcomes of the `write` calls
still to come, and the bytes that memory allocated without initialisation will show.
Distinct paths name distinct files. The primitives never throw; a failed `open` gives no
descriptor, and transfers on no descriptor fail.
-/

namespace Dibibase.Library

/-- An open file and the position of the next transfer. -/
structure OpenFile (P : Type) where
  path : P
  position : Nat
  deriving DecidableEq

structure Posix (P : Type) where
  files : P → Option (List UInt8)
  descriptors : List (Nat × OpenFile P)
  writes : Nat → Bool
  heap : Nat → UInt8

/-- The contents after `bs` are written at `position`; a gap is filled with zeros. -/
def overwrite (content : List UInt8) (position : Nat) (bs : List UInt8) : List UInt8 :=
  content.take position ++ List.replicate (position - content.length) 0 ++ bs ++
    content.drop (position + bs.length)

lemma overwrite_append (front tail bs : List UInt8) :
    overwrite (front ++ tail) front.length bs = front ++ bs ++ tail.drop bs.length := by
  simp [overwrite, List.drop_append]

lemma overwrite_overwrite (content : List UInt8) (position : Nat) (as bs : List UInt8) :
    overwrite (overwrite content position as) (position + as.length) bs =
      overwrite content position (as ++ bs) := by
  have hlen : (content.take position ++ List.replicate (position - content.length) (0 : UInt8) ++
      as).length = position + as.length := by
    simp only [List.length_append, List.length_take, List.length_replicate]
    omega
  have hfirst : overwrite content position as = (content.take position ++
      List.replicate (position - content.length) (0 : UInt8) ++ as) ++
        content.drop (position + as.length) := rfl
  rw [hfirst, ← hlen, overwrite_append, hlen, overwrite]
  simp only [List.append_assoc, List.drop_drop, List.length_append, Nat.add_assoc]

@[simp] lemma overwrite_nil (content : List UInt8) : overwrite content 0 [] = content := by
  simp [overwrite]

lemma overwrite_zero (content bs : List UInt8) :
    overwrite content 0 bs = bs ++ content.drop bs.length := by
  simp [overwrite]

namespace Posix

variable {P : Type} {ε : Type}

/-- `open` gives the lowest descriptor that is not in use. -/
def lowestUnused (used : List Nat) : Nat :=
  ((List.range (used.length + 1)).find? (fun n => n ∉ used)).getD 0

lemma lowestUnused_notMem (used : List Nat) : lowestUnused used ∉ used := by
  unfold lowestUnused
  cases hfind : (List.range (used.length + 1)).find? (fun n => n ∉ used) with
  | some n => simpa using List.find?_some hfind
  | none =>
    -- Pigeonhole: the candidates outnumber the descriptors in use.
    have hsub : List.range (used.length + 1) ⊆ used := by
      intro n hn
      simpa using List.find?_eq_none.mp hfind n hn
    have hle := (List.nodup_range.subperm hsub).length_le
    simp only [List.length_range] at hle
    omega

/-- Every `write` call still to come succeeds. -/
def WritesSucceed (s : Posix P) : Prop := ∀ i, s.writes i = true

/-- A process that has opened nothing, over an empty directory. -/
def start (heap : Nat → UInt8) : Posix P := ⟨fun _ => none, [], fun _ => true, heap⟩

lemma writesSucceed_start (heap : Nat → UInt8) : (start heap : Posix P).WritesSucceed :=
  fun _ => rfl

/-- Moves the position of one descriptor. -/
def setPosition (fd : Option Nat) (position : Nat) (ds : List (Nat × OpenFile P)) :
    List (Nat × OpenFile P) :=
  ds.map (fun d => if some d.1 = fd then (d.1, { d.2 with position := position }) else d)

lemma setPosition_cons (fd n position : Nat) (f : OpenFile P) (ds : List (Nat × OpenFile P)) :
    setPosition (some fd) position ((n, f) :: ds) =
      (if n = fd then (n, { f with position := position }) else (n, f)) ::
        setPosition (some fd) position ds := by
  simp [setPosition]

lemma setPosition_of_notMem (fd position : Nat) (ds : List (Nat × OpenFile P))
    (h : fd ∉ ds.map Prod.fst) : setPosition (some fd) position ds = ds := by
  unfold setPosition
  rw [List.map_congr_left (g := id), List.map_id]
  intro d hd
  have hne : d.1 ≠ fd := by
    rintro rfl
    exact h (List.mem_map_of_mem hd)
  simp [hne]

/-- Closing a descriptor leaves the others alone. -/
lemma filter_of_notMem (fd : Nat) (ds : List (Nat × OpenFile P)) (h : fd ∉ ds.map Prod.fst) :
    ds.filter (fun d => some d.1 ≠ some fd) = ds := by
  rw [List.filter_eq_self]
  intro d hd
  have hne : d.1 ≠ fd := by
    rintro rfl
    exact h (List.mem_map_of_mem hd)
  simpa using hne

section Primitives

variable [DecidableEq P]

/-- `open(path, flags)`; `create` is the flag `O_CREAT`, with which it succeeds: that the directory is
there and that descriptors are left is assumed. Existing contents are kept. -/
def openFile (create : Bool) (path : P) : EStateM ε (Posix P) (Option Nat) := fun s =>
  if (s.files path).isSome ∨ create then
    let fd := lowestUnused (s.descriptors.map Prod.fst)
    .ok (some fd) { s with
      files := Function.update s.files path (some ((s.files path).getD []))
      descriptors := (fd, ⟨path, 0⟩) :: s.descriptors }
  else .ok none s

/-- `lseek(fd, offset, SEEK_SET)`; a negative offset is refused. -/
def lseek (fd : Option Nat) (offset : Int) : EStateM ε (Posix P) PUnit := fun s =>
  .ok () (if offset < 0 then s else
    { s with descriptors := setPosition fd offset.toNat s.descriptors })

/-- `new unsigned char[n]`, which leaves the memory as it is. -/
def newBytes (n : Nat) : EStateM ε (Posix P) (List UInt8) := fun s =>
  .ok ((List.range n).map s.heap) { s with heap := fun i => s.heap (n + i) }

/-- `read(fd, buf, n)` gives the bytes transferred, or nothing for a failed call. -/
def read (fd : Option Nat) (n : Nat) : EStateM ε (Posix P) (Option (List UInt8)) := fun s =>
  match fd.bind (List.lookup · s.descriptors) with
  | none => .ok none s
  | some f =>
    let bs := (((s.files f.path).getD []).drop f.position).take n
    .ok (some bs) { s with
      descriptors := setPosition fd (f.position + bs.length) s.descriptors }

/-- The number of bytes that one `write` can move on Linux. -/
def writeLimit : Nat := 0x7ffff000

/-- `write(fd, bs, bs.length)`; the result tells whether the call succeeded. A call that succeeds moves
all bytes, which the system promises for at most `writeLimit` of them. -/
def write (fd : Option Nat) (bs : List UInt8) : EStateM ε (Posix P) Bool := fun s =>
  let s' := { s with writes := fun i => s.writes (i + 1) }
  match fd.bind (List.lookup · s.descriptors) with
  | none => .ok false s'
  | some f =>
    if s.writes 0 then
      .ok true { s' with
        files := Function.update s.files f.path
          (some (overwrite ((s.files f.path).getD []) f.position bs))
        descriptors := setPosition fd (f.position + bs.length) s.descriptors }
    else .ok false s'

/-- `close(fd)`. -/
def close (fd : Option Nat) : EStateM ε (Posix P) PUnit := fun s =>
  .ok () { s with descriptors := s.descriptors.filter (fun d => some d.1 ≠ fd) }

/-- A fresh buffer of `n` bytes filled by one `read`; what the call leaves unfilled
shows the old contents of the memory. -/
def readNew (fd : Option Nat) (n : Nat) : EStateM ε (Posix P) (List UInt8) := do
  let buf ← newBytes n
  let bs ← read fd n
  return bs.getD [] ++ buf.drop (bs.getD []).length

/-- Opens a file for reading, moves to `offset` and reads `n` bytes into a fresh buffer.
The descriptor stays open. -/
def readFile (path : P) (offset : Int) (n : Nat) : EStateM ε (Posix P) (List UInt8) := do
  let fd ← openFile false path
  lseek fd offset
  readNew fd n

end Primitives

/-- The at most `n` bytes of a file from `offset` on; a missing file has none. -/
def fileBytes (s : Posix P) (path : P) (offset n : Nat) : List UInt8 :=
  (((s.files path).getD []).drop offset).take n

variable [DecidableEq P]

lemma openFile_existing {s : Posix P} {path : P} {content : List UInt8}
    (hf : s.files path = some content) (create : Bool) :
    openFile (ε := ε) create path s =
      .ok (some (lowestUnused (s.descriptors.map Prod.fst)))
        { s with descriptors :=
            (lowestUnused (s.descriptors.map Prod.fst), ⟨path, 0⟩) :: s.descriptors } := by
  have hupd : Function.update s.files path (some content) = s.files := by
    rw [← hf, Function.update_eq_self]
  simp [openFile, hf, hupd]

/-- Reading a file leaves all files as they are and gives the bytes at the offset,
followed by whatever the fresh buffer held. -/
theorem readFile_executes (path : P) (offset : Int) (n : Nat) (s : Posix P) :
    ∃ s', readFile (ε := ε) path offset n s =
        .ok (s.fileBytes path offset.toNat n ++
          ((List.range n).map s.heap).drop (s.fileBytes path offset.toNat n).length) s' ∧
      s'.files = s.files ∧ s'.writes = s.writes := by
  cases hf : s.files path with
  | none =>
    have hopen : openFile (ε := ε) false path s = .ok none s := by simp [openFile, hf]
    by_cases ho : offset < 0 <;>
      simp [readFile, readNew, fileBytes, hopen, hf, ho, lseek, newBytes, read, Bind.bind,
        EStateM.bind]
  | some content =>
    have hopen := openFile_existing (ε := ε) hf false
    by_cases ho : offset < 0
    · have hzero : offset.toNat = 0 := by omega
      simp [readFile, readNew, fileBytes, hopen, hf, ho, hzero, lseek, newBytes, read, Bind.bind,
        EStateM.bind]
    · simp [readFile, readNew, fileBytes, hopen, hf, ho, setPosition_cons, lseek, newBytes, read,
        Bind.bind, EStateM.bind]

/-- The fresh buffer takes its bytes from the uninitialised memory, whether the file exists or
not. -/
lemma readFile_heap {path : P} {offset : Int} {n : Nat} {s s' : Posix P} {bs : List UInt8}
    (h : readFile (ε := ε) path offset n s = .ok bs s') : s'.heap = fun i => s.heap (n + i) := by
  have hopen : ∀ (fd : Option Nat) (t : Posix P), openFile (ε := ε) false path s = .ok fd t →
      t.heap = s.heap := by
    intro fd t ht
    unfold openFile at ht
    split at ht
    · cases ht
      rfl
    · cases ht
      rfl
  have hread : ∀ (fd : Option Nat) (t t' : Posix P) bs, read (ε := ε) fd n t = .ok bs t' →
      t'.heap = t.heap := by
    intro fd t t' bs ht
    unfold read at ht
    split at ht
    · cases ht
      rfl
    · cases ht
      rfl
  obtain ⟨fd, s₁, h₁, h⟩ := bind_eq_ok h
  obtain ⟨u, s₂, h₂, h⟩ := bind_eq_ok h
  obtain ⟨buf, s₃, h₃, h⟩ := bind_eq_ok h
  obtain ⟨bs', s₄, h₄, h⟩ := bind_eq_ok h
  cases h
  cases h₃
  have hseek : s₂.heap = s₁.heap := by
    cases h₂
    split
    · rfl
    · rfl
  rw [hread _ _ _ _ h₄]
  funext i
  rw [hseek, hopen _ _ h₁]

/-- A read that the file can serve in full shows nothing of the fresh buffer. -/
theorem readFile_full {path : P} {offset : Int} {n : Nat} {s : Posix P} {content : List UInt8}
    (hf : s.files path = some content) (hlen : offset.toNat + n ≤ content.length) :
    ∃ s', readFile (ε := ε) path offset n s = .ok ((content.drop offset.toNat).take n) s' ∧
      s'.files = s.files ∧ s'.writes = s.writes := by
  obtain ⟨s', hread, hfiles, hwrites⟩ := readFile_executes (ε := ε) path offset n s
  refine ⟨s', ?_, hfiles, hwrites⟩
  have hbytes : s.fileBytes path offset.toNat n = (content.drop offset.toNat).take n := by
    simp [fileBytes, hf]
  have hn : ((content.drop offset.toNat).take n).length = n := by
    rw [List.length_take, List.length_drop]
    omega
  have hrest : ((List.range n).map s.heap).drop n = [] := List.drop_of_length_le (by simp)
  rw [hread, hbytes, hn, hrest, List.append_nil]

omit [DecidableEq P] in
lemma WritesSucceed.tail {s : Posix P} (h : s.WritesSucceed) :
    (fun i => s.writes (i + 1)) = s.writes := by
  funext i
  rw [h, h]

/-- A write that succeeds, on a descriptor whose file exists. -/
lemma write_executes {s : Posix P} {fd : Nat} {f : OpenFile P} {content : List UInt8}
    (hw : s.WritesSucceed) (hd : s.descriptors.lookup fd = some f)
    (hf : s.files f.path = some content) (bs : List UInt8) :
    write (ε := ε) (some fd) bs s = .ok true { s with
      files := Function.update s.files f.path (some (overwrite content f.position bs))
      descriptors := setPosition (some fd) (f.position + bs.length) s.descriptors } := by
  have h0 : s.writes 0 = true := hw 0
  simp [write, hd, hf, h0, hw.tail]

/-- A write that has succeeded does so again whatever becomes of the later ones. -/
lemma write_of_succeeds {s s' : Posix P} {fd : Option Nat} {bs : List UInt8} {w : Nat → Bool}
    (h : write (ε := ε) fd bs s = .ok true s') (hw : w 0 = true) :
    write (ε := ε) fd bs { s with writes := w } =
      .ok true { s' with writes := fun i => w (i + 1) } := by
  unfold write at h ⊢
  cases hf : fd.bind (List.lookup · s.descriptors) with
  | none => simp [hf] at h
  | some f =>
    cases h0 : s.writes 0 with
    | false => simp [hf, h0] at h
    | true =>
      simp only [hf, h0, if_true, EStateM.Result.ok.injEq, true_and] at h
      simp only [hw, if_true, ← h]

/-- A write that fails changes nothing. -/
lemma write_of_fails {s : Posix P} {fd : Option Nat} {bs : List UInt8} (h : s.writes 0 = false) :
    write (ε := ε) fd bs s = .ok false { s with writes := fun i => s.writes (i + 1) } := by
  unfold write
  cases hf : fd.bind (List.lookup · s.descriptors) with
  | none => rfl
  | some f => simp [h]

end Posix

namespace Posix

variable {P ε : Type} [DecidableEq P]

/-- Uninitialised memory shows the same byte everywhere. -/
def Filled (b : UInt8) (s : Posix P) : Prop := ∀ i, s.heap i = b

lemma preserves_filled_readFile (b : UInt8) (path : P) (offset : Int) (n : Nat) :
    Preserves (Filled b) (readFile path offset n : EStateM ε (Posix P) (List UInt8)) := by
  have hopen : Preserves (Filled b) (openFile false path : EStateM ε (Posix P) (Option Nat)) := by
    intro s hs
    rw [openFile]
    split
    · refine ⟨fun a s' h => ?_, fun e s' h => by cases h⟩
      cases h
      exact hs
    · exact Preserves.pure none s hs
  have hseek : ∀ fd, Preserves (Filled b) (lseek fd offset : EStateM ε (Posix P) PUnit) := by
    intro fd s hs
    refine ⟨fun a s' h => ?_, fun e s' h => by cases h⟩
    cases h
    split
    · exact hs
    · exact hs
  have hnew : Preserves (Filled b) (newBytes n : EStateM ε (Posix P) (List UInt8)) := by
    intro s hs
    refine ⟨fun a s' h => ?_, fun e s' h => by cases h⟩
    cases h
    exact fun i => hs (n + i)
  have hread : ∀ fd, Preserves (Filled b) (read fd n : EStateM ε (Posix P) (Option (List UInt8))) := by
    intro fd s hs
    rw [read]
    split
    · exact Preserves.pure none s hs
    · refine ⟨fun a s' h => ?_, fun e s' h => by cases h⟩
      cases h
      exact hs
  exact hopen.bind (fun fd => (hseek fd).bind (fun _ => hnew.bind (fun buf =>
    (hread fd).bind (fun _ => Preserves.pure _))))

/-! ### Writes that are confined to some files -/

/-- The files outside a set are the given ones, the memory is the given one, and the descriptors
of a list are open on files of the set only. -/
structure Confined (A : Set P) (files : P → Option (List UInt8)) (heap : Nat → UInt8)
    (fds : List Nat) (s : Posix P) : Prop where
  files : ∀ path ∉ A, s.files path = files path
  heap : s.heap = heap
  fds : ∀ fd ∈ fds, ∃ f, s.descriptors.lookup fd = some f ∧ f.path ∈ A

omit [DecidableEq P] in
lemma lookup_setPosition (fd : Option Nat) (position n : Nat) (ds : List (Nat × OpenFile P)) :
    ((setPosition fd position ds).lookup n).map OpenFile.path = (ds.lookup n).map OpenFile.path := by
  induction ds with
  | nil => rfl
  | cons d ds ih =>
    obtain ⟨m, f⟩ := d
    rw [setPosition, List.map_cons]
    by_cases hn : n = m
    · subst hn
      by_cases hfd : some n = fd
      · simp [hfd]
      · simp [hfd]
    · have hbeq : (n == m) = false := by simpa using hn
      by_cases hfd : some m = fd
      · simp only [hfd, if_true, List.lookup_cons, hbeq]
        exact ih
      · simp only [hfd, if_false, List.lookup_cons, hbeq]
        exact ih

omit [DecidableEq P] in
lemma lookup_setPosition_mem {A : Set P} {fd : Option Nat} {position n : Nat}
    {ds : List (Nat × OpenFile P)} (h : ∃ f, ds.lookup n = some f ∧ f.path ∈ A) :
    ∃ f, (setPosition fd position ds).lookup n = some f ∧ f.path ∈ A := by
  obtain ⟨f, hf, hA⟩ := h
  have hpath := lookup_setPosition fd position n ds
  rw [hf, Option.map_some, Option.map_eq_some_iff] at hpath
  obtain ⟨g, hg, hsame⟩ := hpath
  exact ⟨g, hg, hsame ▸ hA⟩

variable {A : Set P} {files : P → Option (List UInt8)} {heap : Nat → UInt8} {fds : List Nat}

/-- Whether it succeeds or fails, a write through one of the descriptors stays in the set. -/
lemma preserves_confined_write {fd : Nat} (hfd : fd ∈ fds) (bs : List UInt8) :
    Preserves (Confined A files heap fds) (write (some fd) bs : EStateM ε (Posix P) Bool) := by
  intro s hs
  obtain ⟨f, hlookup, hA⟩ := hs.fds fd hfd
  have hbind : (some fd).bind (List.lookup · s.descriptors) = some f := hlookup
  unfold write
  simp only [hbind]
  split
  · refine ⟨fun a s' h => ?_, fun e s' h => by cases h⟩
    cases h
    refine ⟨fun path hpath => ?_, hs.heap, fun n hn => lookup_setPosition_mem (hs.fds n hn)⟩
    have hne : path ≠ f.path := by
      rintro rfl
      exact hpath hA
    exact (Function.update_of_ne hne _ _).trans (hs.files path hpath)
  · refine ⟨fun a s' h => ?_, fun e s' h => by cases h⟩
    cases h
    exact ⟨hs.files, hs.heap, hs.fds⟩

/-- A file of the set is opened, and made if it is missing. -/
lemma openFile_confined {path : P} (hpath : path ∈ A) {s : Posix P}
    (hs : Confined A files heap fds s) :
    ∃ fd s', openFile (ε := ε) true path s = .ok (some fd) s' ∧
      Confined A files heap (fd :: fds) s' := by
  refine ⟨_, _, if_pos (.inr rfl), fun other hother => ?_, hs.heap, fun n hn => ?_⟩
  · have hne : other ≠ path := by
      rintro rfl
      exact hother hpath
    exact (Function.update_of_ne hne _ _).trans (hs.files other hother)
  · by_cases hfresh : n = lowestUnused (s.descriptors.map Prod.fst)
    · subst hfresh
      exact ⟨⟨path, 0⟩, List.lookup_cons_self, hpath⟩
    · have hmem : n ∈ fds := by
        rcases List.mem_cons.mp hn with h | h
        · exact absurd h hfresh
        · exact h
      obtain ⟨f, hlookup, hA⟩ := hs.fds n hmem
      have hbeq : (n == lowestUnused (s.descriptors.map Prod.fst)) = false := by simpa using hfresh
      exact ⟨f, by simp only [List.lookup_cons, hbeq, hlookup], hA⟩

omit [DecidableEq P] in
lemma preserves_confined_close (fd : Option Nat) :
    Preserves (Confined A files heap []) (close fd : EStateM ε (Posix P) PUnit) := by
  intro s hs
  refine ⟨fun a s' h => ?_, fun e s' h => by cases h⟩
  cases h
  exact ⟨hs.files, hs.heap, by simp⟩

omit [DecidableEq P] in
lemma Confined.forget {s : Posix P} (h : Confined A files heap fds s) :
    Confined A files heap [] s := ⟨h.files, h.heap, by simp⟩

/-! ### Open descriptors -/

/-- The numbers of the open descriptors. -/
def opened (s : Posix P) : List Nat := s.descriptors.map Prod.fst

omit [DecidableEq P] in
@[simp] lemma setPosition_map_fst (fd : Option Nat) (position : Nat) (ds : List (Nat × OpenFile P)) :
    (setPosition fd position ds).map Prod.fst = ds.map Prod.fst := by
  unfold setPosition
  rw [List.map_map]
  apply List.map_congr_left
  intro d _
  by_cases h : some d.1 = fd
  · simp [h]
  · simp [h]

/-- Either the file is missing and the call fails, or there is one more open descriptor. -/
lemma openFile_opened (create : Bool) (path : P) (s : Posix P) :
    (create = false ∧ s.files path = none ∧ openFile (ε := ε) create path s = .ok none s) ∨
      ∃ fd s', openFile (ε := ε) create path s = .ok (some fd) s' ∧ fd ∉ s.opened ∧
        s'.opened = fd :: s.opened := by
  by_cases h : (s.files path).isSome ∨ create
  · exact .inr ⟨_, _, if_pos h, lowestUnused_notMem _, rfl⟩
  · left
    have hcreate : create = false ∧ s.files path = none := by simpa [and_comm] using h
    exact ⟨hcreate.1, hcreate.2, if_neg h⟩

omit [DecidableEq P] in
lemma close_opened (fd : Nat) (s : Posix P) :
    ∃ s', close (ε := ε) (some fd) s = .ok () s' ∧ s'.opened = s.opened.filter (fun d => d ≠ fd) := by
  refine ⟨_, rfl, ?_⟩
  simp only [opened, List.filter_map, ne_eq, Option.some.injEq]
  rfl

omit [DecidableEq P] in
lemma preserves_opened_read (ds : List Nat) (fd : Option Nat) (n : Nat) :
    Preserves (fun s : Posix P => s.opened = ds)
      (read fd n : EStateM ε (Posix P) (Option (List UInt8))) := by
  intro s hs
  unfold read
  split
  · exact Preserves.pure none s hs
  · refine ⟨fun a s' h => ?_, fun e s' h => by cases h⟩
    cases h
    simpa [opened] using hs

lemma write_opened (fd : Option Nat) (bs : List UInt8) (s : Posix P) :
    ∃ written s', write (ε := ε) fd bs s = .ok written s' ∧ s'.opened = s.opened := by
  unfold write
  cases fd.bind (List.lookup · s.descriptors) with
  | none => exact ⟨false, _, rfl, rfl⟩
  | some f =>
    cases h0 : s.writes 0 with
    | true => exact ⟨true, _, if_pos rfl, setPosition_map_fst ..⟩
    | false => exact ⟨false, _, if_neg (by simp), rfl⟩

lemma preserves_opened_write (ds : List Nat) (fd : Option Nat) (bs : List UInt8) :
    Preserves (fun s : Posix P => s.opened = ds) (write fd bs : EStateM ε (Posix P) Bool) := by
  intro s hs
  obtain ⟨written, s', hwrite, hopened⟩ := write_opened (ε := ε) fd bs s
  rw [hwrite]
  refine ⟨fun a s'' h => ?_, fun e s'' h => by cases h⟩
  cases h
  exact hopened.trans hs

omit [DecidableEq P] in
lemma preserves_opened_readNew (ds : List Nat) (fd : Option Nat) (n : Nat) :
    Preserves (fun s : Posix P => s.opened = ds)
      (readNew fd n : EStateM ε (Posix P) (List UInt8)) := by
  have hnew : Preserves (fun s : Posix P => s.opened = ds)
      (newBytes n : EStateM ε (Posix P) (List UInt8)) := by
    intro s hs
    refine ⟨fun a s' h => ?_, fun e s' h => by cases h⟩
    cases h
    exact hs
  exact hnew.bind (fun _ => (preserves_opened_read ds fd n).bind (fun _ => Preserves.pure _))

/-- The reader of a missing file opens nothing. -/
lemma preserves_opened_readFile (ds : List Nat) {files : P → Option (List UInt8)} {path : P}
    (hfile : files path = none) (offset : Int) (n : Nat) :
    Preserves (fun s : Posix P => s.files = files ∧ s.opened = ds)
      (readFile path offset n : EStateM ε (Posix P) (List UInt8)) := by
  rintro s ⟨rfl, hs⟩
  obtain ⟨s', hread, hfiles, -⟩ := readFile_executes (ε := ε) path offset n s
  refine ⟨fun a s'' h => ?_, fun e s'' h => by rw [hread] at h; cases h⟩
  have hopen : openFile (ε := ε) false path s = .ok none s := by simp [openFile, hfile]
  have hrest : Preserves (fun s : Posix P => s.opened = ds) (do
      lseek none offset
      readNew none n : EStateM ε (Posix P) (List UInt8)) := by
    refine Preserves.bind ?_ (fun _ => preserves_opened_readNew ds none n)
    intro s hs
    refine ⟨fun a s' h => ?_, fun e s' h => by cases h⟩
    cases h
    split
    · exact hs
    · simpa [opened] using hs
  have hopened : s''.opened = ds := by
    unfold readFile at h
    rw [bind_of_ok hopen] at h
    exact (hrest s hs).1 a s'' h
  rw [hread] at h
  cases h
  exact ⟨hfiles, hopened⟩

end Posix

end Dibibase.Library
