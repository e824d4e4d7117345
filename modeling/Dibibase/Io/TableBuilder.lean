import Dibibase.Io.DiskManager

/-!
# Building the files of an SSTable

`constructSstableFiles` goes through the entries of a memtable in map order, writes every
record to the data file and every full page to the index file, and offers the first key
of every page to the summary. A failed `write` ends it at once.
-/

namespace Dibibase

open Library

namespace TableBuilder

/-- The descriptors of the three files. -/
structure Files where
  summary : Option Nat
  index : Option Nat
  data : Option Nat

def writeIndexFile (fds : Files) (page : IndexPage) : Process Bool := do
  let buf ← Process.ofExcept (serialise 4096 page.bytes)
  Posix.write fds.index buf

def writeSummaryFile (fds : Files) (summary : Summary) : Process Bool := do
  let buf ← Process.ofExcept (serialise 4096 summary.bytes)
  Posix.write fds.summary buf

/-- The loop over the records. The first component of the result tells whether the loop
ran to its end. -/
def writeRecords (schema : Schema) (fds : Files) :
    List (Data × Record) → BitVec 64 → Summary → IndexPage → Process (Bool × Summary × IndexPage)
  | [], _, summary, page => return (true, summary, page)
  | (key, record) :: records, keyOffset, summary, page => do
    let buf ← Process.ofExcept (serialise schema.recordSize record.bytes)
    if !(← Posix.write fds.data buf) then return (false, summary, page)
    let (pushed, page) ← Process.ofExcept (page.pushBack key keyOffset)
    if pushed then
      writeRecords schema fds records (keyOffset + BitVec.ofNat 64 schema.recordSize) summary page
    else
      let summary := (summary.pushBack key).2
      if !(← writeIndexFile fds page) then return (false, summary, page)
      let (_, page) ← Process.ofExcept (page.clear.pushBack key keyOffset)
      writeRecords schema fds records (keyOffset + BitVec.ofNat 64 schema.recordSize) summary page

/-- The summary that the new SSTable gets. Taking the first key of an empty map is
undefined. -/
def constructSstableFiles (schema : Schema) (records : List (Data × Record)) (fds : Files) :
    Process Summary :=
  match records with
  | [] => throw .undefinedBehaviour
  | (key, _) :: _ => do
    let summary := ((Summary.mk [] key.type).pushBack key).2
    let (finished, summary, page) ← writeRecords schema fds records 0 summary ⟨[], key.type⟩
    if !finished then return summary
    if !(← writeIndexFile fds page) then return summary
    let _ ← writeSummaryFile fds summary
    return summary

/-- The constructor, `get_new_summary` and the destructor, which closes the files. It does
not run when the constructor throws. -/
def build (base table : List UInt8) (schema : Schema) (sstableId : Nat)
    (records : List (Data × Record)) : Process Summary := do
  let summaryFd ← Posix.openFile true (.summary base table sstableId)
  let indexFd ← Posix.openFile true (.index base table sstableId)
  let dataFd ← Posix.openFile true (.data base table sstableId)
  let summary ← constructSstableFiles schema records ⟨summaryFd, indexFd, dataFd⟩
  Posix.close summaryFd
  Posix.close indexFd
  Posix.close dataFd
  return summary

end TableBuilder

end Dibibase
