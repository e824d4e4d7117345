import Dibibase.Catalog.Schema
import Dibibase.Mem.Summary
import Dibibase.Db.IndexPage
import Dibibase.Library.Posix

/-!
# Files of a database and their readers

The three readers open a file, read a fixed number of bytes into uninitialised memory and
decode what is there, however much the call has transferred. None of them closes the file.
-/

namespace Dibibase

open Library

/-- The files below a database's base path. -/
inductive Path where
  | metadata (base : List UInt8)
  | summary (base table : List UInt8) (sstableId : Nat)
  | index (base table : List UInt8) (sstableId : Nat)
  | data (base table : List UInt8) (sstableId : Nat)
  deriving DecidableEq, Repr

/-- Computations of the process: they may throw, and keep the effects made before. -/
abbrev Process := EStateM Exception (Posix Path)

/-- Runs a reader over a buffer made of the given bytes. -/
def decode {α : Type} (m : BufferM α) (buf : List UInt8) : Except Exception α :=
  return (← m (MemoryBuffer.ofBytes buf)).1

/-- Runs a writer on a fresh buffer and takes the bytes of the buffer. -/
def serialise (size : Nat) (m : BufferM Unit) : Except Exception (List UInt8) :=
  return (← m (MemoryBuffer.new size)).2.bytes

/-- A step that does not touch the files. -/
def Process.ofExcept {α : Type} (x : Except Exception α) : Process α := fun s =>
  match x with
  | .ok a => .ok a s
  | .error e => .error e s

lemma Process.ofExcept_ok {α : Type} {x : Except Exception α} {a : α} (h : x = .ok a)
    (s : Posix Path) : Process.ofExcept x s = .ok a s := by
  subst h
  rfl

lemma Process.ofExcept_error {α : Type} {x : Except Exception α} {e : Exception}
    (h : x = .error e) (s : Posix Path) : Process.ofExcept x s = .error e s := by
  subst h
  rfl

lemma Process.ofExcept_bind_eq_ok {α β : Type} {x : Except Exception α} {f : α → Process β} {b : β}
    {s s' : Posix Path} (h : (Process.ofExcept x >>= f) s = .ok b s') :
    ∃ a, x = .ok a ∧ f a s = .ok b s' := by
  cases x with
  | error e => cases h
  | ok a => exact ⟨a, rfl, h⟩

namespace DiskManager

def loadSummary (base table : List UInt8) (sstableId : Nat) : Process Summary := do
  let buf ← Posix.readFile (.summary base table sstableId) 0 4096
  Process.ofExcept (decode Summary.from buf)

def loadIndexPage (base table : List UInt8) (sstableId : Nat) (pageNum : BitVec 8) :
    Process IndexPage := do
  let buf ← Posix.readFile (.index base table sstableId) (pageNum.toNat * 4096) 4096
  Process.ofExcept (decode IndexPage.from buf)

def getRecordFromData (base table : List UInt8) (sstableId : Nat) (schema : Schema)
    (offset : BitVec 64) : Process Record := do
  let buf ← Posix.readFile (.data base table sstableId) offset.toInt schema.recordSize
  Process.ofExcept (decode (Record.from schema) buf)

end DiskManager

lemma decode_of_reads {α : Type} {m : BufferM α} {bs : List UInt8} {a : α}
    (h : Reads m bs a) (tail : List UInt8) (hlen : (bs ++ tail).length < 2 ^ 31) :
    decode m (bs ++ tail) = .ok a := by
  have hread := h (MemoryBuffer.ofBytes (bs ++ tail)) tail (Nat.zero_le _) hlen rfl
  simp [decode, hread, Bind.bind, Except.bind, Pure.pure, Except.pure]

lemma serialise_of_writes {m : BufferM Unit} {bs : List UInt8} {size : Nat} (h : Writes m bs)
    (hroom : bs.length ≤ size) (hsize : size < 2 ^ 31) :
    serialise size m = .ok (bs ++ List.replicate (size - bs.length) 0) := by
  have hnew : (MemoryBuffer.new size).size = size := MemoryBuffer.size_new size
  have hwrite := h (MemoryBuffer.new size) (by rw [hnew]; simpa [MemoryBuffer.new] using hroom)
    (by rwa [hnew])
  have hbytes : (MemoryBuffer.mk (bs ++ List.replicate (size - bs.length) 0) bs.length).size =
      size := by
    simp only [MemoryBuffer.size, List.length_append, List.length_replicate]
    omega
  rw [MemoryBuffer.new_append] at hwrite
  simp [serialise, hwrite, Bind.bind, Except.bind, Pure.pure, Except.pure,
    MemoryBuffer.bytes_of_lt (b := ⟨_, _⟩) (by rwa [hbytes])]

/-- Whatever is written, the result has the size of the buffer. -/
lemma serialise_keepsSize {m : BufferM Unit} (hm : KeepsSize m) {size : Nat} {buf : List UInt8}
    (h : serialise size m = .ok buf) : ∃ b : MemoryBuffer, b.size = size ∧ b.bytes = buf := by
  cases hrun : m (MemoryBuffer.new size) with
  | error e => simp [serialise, hrun, Bind.bind, Except.bind] at h
  | ok r =>
    refine ⟨r.2, ?_, by simpa [serialise, hrun, Bind.bind, Except.bind, Pure.pure, Except.pure] using h⟩
    rw [hm _ _ _ hrun]
    simp [MemoryBuffer.new, MemoryBuffer.size]

/-! ### What the readers return

A reader's result depends on the file it reads as far as the file serves the request; all
files stay as they are. -/

namespace DiskManager

variable {base table : List UInt8} {sstableId : Nat} {s : Posix Path}

theorem readFile_decode {α : Type} (m : BufferM α) {path : Path} (offset : Int) (n : Nat)
    {content : List UInt8} (hf : s.files path = some content)
    (hlen : offset.toNat + n ≤ content.length) :
    ∃ s', (do
        let buf ← Posix.readFile path offset n
        Process.ofExcept (decode m buf) : Process α) s =
        Process.ofExcept (decode m ((content.drop offset.toNat).take n)) s' ∧
      s'.files = s.files ∧ s'.writes = s.writes := by
  obtain ⟨s', hread, hfiles, hwrites⟩ := Posix.readFile_full (ε := Exception) hf hlen
  exact ⟨s', bind_of_ok hread, hfiles, hwrites⟩

/-- What is decoded from a file has the properties of all that its reader can return. -/
lemma readFile_returns {α : Type} {P : α → Prop} {m : BufferM α} (hm : Returns P m) {path : Path}
    {offset : Int} {n : Nat} {a : α} {s' : Posix Path}
    (h : (do
        let buf ← Posix.readFile path offset n
        Process.ofExcept (decode m buf) : Process α) s = .ok a s') : P a := by
  obtain ⟨s₁, hread, -⟩ := Posix.readFile_executes (ε := Exception) path offset n s
  rw [bind_of_ok hread] at h
  generalize s.fileBytes _ _ _ ++ List.drop _ _ = buf at h
  cases hrun : m (MemoryBuffer.ofBytes buf) with
  | error e =>
    rw [Process.ofExcept_error (e := e) (by simp [decode, hrun, Bind.bind, Except.bind])] at h
    cases h
  | ok r =>
    rw [Process.ofExcept_ok (a := r.1) (by simp [decode, hrun, Bind.bind, Except.bind, Pure.pure,
      Except.pure])] at h
    cases h
    exact hm _ _ _ hrun

end DiskManager

end Dibibase
