import Mathlib.Data.Bool.AllAny
import Mathlib.Data.List.Chain
import Dibibase.Api.Delivery

/-!
# The two frames for a CREATE TABLE

The length of the event is one too large, and the byte behind it is sent twice. So a client finds a frame
where each of the two begins, with one byte more than it should have at the end of the event, and then
three bytes that nobody has written.
-/

namespace Dibibase

open Library RowsResult

namespace Server

open QueryResult (changed schemaChangeBytes createTableBytes length_changed length_schemaChangeBytes
  length_createTableBytes length_encodeString)
open ServerMsg (Header createResponse Executes resultHeader write write_of_lt write_of_le write_getElem
  write_append write_end write_cover copy copy_eq_write segment_write segment_write_self
  segment_write_behind EVENT RESULT)

/-! ### Bytes that do not look like a header -/

section Quiet

/-- The byte does not stand in front of a zero, and is not the last one. -/
def Quiet (v : UInt8) (bytes : List UInt8) : Prop :=
  bytes.IsChain (fun x y => x = v → y ≠ 0) ∧ ∀ x ∈ bytes.getLast?, x ≠ v

variable {v : UInt8} {xs ys : List UInt8}

lemma Quiet.append (hxs : Quiet v xs) (hys : Quiet v ys) : Quiet v (xs ++ ys) := by
  refine ⟨List.isChain_append.mpr ⟨hxs.1, hys.1, fun x hx y _ heq => absurd heq (hxs.2 x hx)⟩, ?_⟩
  intro x hx
  rw [List.getLast?_append] at hx
  cases hlast : ys.getLast? with
  | none =>
    rw [hlast, Option.none_or] at hx
    exact hxs.2 x hx
  | some y =>
    rw [hlast] at hx
    exact hys.2 x (by rw [hlast]; exact hx)

lemma quiet_of_forall (h : ∀ x ∈ xs, x ≠ v) : Quiet v xs := by
  refine ⟨?_, fun x hx => h x (List.mem_of_getLast? hx)⟩
  induction xs with
  | nil => exact .nil
  | cons x xs ih =>
    refine (ih (fun y hy => h y (List.mem_cons_of_mem x hy))).cons ?_
    exact fun y _ heq => absurd heq (h x List.mem_cons_self)

/-- A byte in front of others that do not begin with a zero. -/
lemma Quiet.cons {x y : UInt8} (hy : y ≠ 0) (h : Quiet v (y :: ys)) : Quiet v (x :: y :: ys) := by
  refine ⟨h.1.cons (by simp [hy]), ?_⟩
  intro z hz
  rw [List.getLast?_cons_cons] at hz
  exact h.2 z hz

/-- A string behind its length. -/
lemma quiet_encodeString (hv : 128 ≤ v) (hlength : xs.length < 256)
    (h : ∀ c ∈ xs, c ≠ 0 ∧ c < 128) : Quiet v (encodeString xs) := by
  have hzero : UInt8.ofNat (xs.length / 256) = 0 := by
    rw [Nat.div_eq_of_lt hlength]
    rfl
  have hsmall : ∀ x : UInt8, x < 128 → x ≠ v := fun x hx heq =>
    absurd (heq ▸ hv) (UInt8.not_le.mpr hx)
  have hstring : encodeString xs = [0] ++ (UInt8.ofNat xs.length :: xs) := by
    rw [encodeString, QueryResult.beBytes_two, hzero]
    rfl
  rw [hstring]
  refine (quiet_of_forall (by simpa using hsmall 0 (by decide))).append ?_
  cases xs with
  | nil => exact quiet_of_forall (by simpa using hsmall 0 (by decide))
  | cons c cs =>
    refine Quiet.cons (h c List.mem_cons_self).1 (quiet_of_forall ?_)
    exact fun x hx => hsmall x (h x hx).2

lemma Quiet.getElem (h : Quiet v xs) {i : Nat} (hi : i < xs.length) (hv : xs[i] = v) :
    ∃ hi' : i + 1 < xs.length, xs[i + 1] ≠ 0 := by
  have hnext : i + 1 < xs.length := by
    by_contra hnot
    have hlast : xs.getLast? = some xs[i] := by
      rw [List.getLast?_eq_getElem?, show xs.length - 1 = i by omega]
      exact List.getElem?_eq_getElem hi
    exact h.2 _ hlast hv
  exact ⟨hnext, List.isChain_iff_getElem.mp h.1 i hnext hv⟩

end Quiet

/-! ### The two frames -/

section Frames

variable {env : Environment} {f : Frame} {st st' : Server × Posix Path}
  {keyspace table recordStr : List UInt8} {schema : Schema}

/-- The event that a client reads: its last byte is the first one of the frame behind it. -/
def createEvent (f : Frame) (keyspace table : List UInt8) (h : keyspace.length + table.length < 232) :
    ResponseFrame where
  version := f.version + 0x80
  flags := f.flags
  streamId := (255, 255)
  opcode := EVENT
  body := encodeString (text "SCHEMA_CHANGE") ++ (changed keyspace table ++ [f.version + 0x80])
  length_lt := by
    have hchange : (text "SCHEMA_CHANGE").length = 13 := by decide
    rw [List.length_append, List.length_append, length_encodeString, length_changed, hchange,
      List.length_singleton]
    omega

/-- The result that a client reads. Of the stream it has the last byte only. -/
def createResult (f : Frame) (keyspace table : List UInt8) (h : keyspace.length + table.length < 232) :
    ResponseFrame where
  version := f.version + 0x80
  flags := 0
  streamId := (0, f.streamId.2)
  opcode := RESULT
  body := createTableBytes keyspace table
  length_lt := by
    rw [length_createTableBytes]
    omega

variable {h : keyspace.length + table.length < 232}

lemma bytes_createEvent : (createEvent f keyspace table h).bytes =
    [f.version + 0x80, f.flags] ++ (schemaChangeBytes keyspace table ++ [f.version + 0x80]) := by
  have hchange : (text "SCHEMA_CHANGE").length = 13 := by decide
  have hlength : (encodeString (text "SCHEMA_CHANGE") ++
      (changed keyspace table ++ [f.version + 0x80])).length =
        36 + keyspace.length + table.length := by
    rw [List.length_append, List.length_append, length_encodeString, length_changed, hchange,
      List.length_singleton]
    omega
  simp only [ResponseFrame.bytes, createEvent, hlength, schemaChangeBytes, List.append_assoc]
  rfl

lemma length_createEvent :
    (createEvent f keyspace table h).bytes.length = 45 + keyspace.length + table.length := by
  rw [bytes_createEvent, List.length_append, List.length_append, length_schemaChangeBytes]
  simp only [List.length_cons, List.length_nil]
  omega

lemma length_createResult :
    (createResult f keyspace table h).bytes.length = 33 + keyspace.length + table.length := by
  rw [ResponseFrame.length_bytes, createResult, length_createTableBytes]
  omega

/-- What is written of the message. The last three bytes are not. -/
def createBytes (f : Frame) (keyspace table : List UInt8) (h : keyspace.length + table.length < 232) :
    List UInt8 :=
  [f.version + 0x80, f.flags] ++
    (schemaChangeBytes keyspace table ++ (createResult f keyspace table h).bytes)

lemma length_createBytes :
    (createBytes f keyspace table h).length = 77 + 2 * (keyspace.length + table.length) := by
  rw [createBytes, List.length_append, List.length_append, length_schemaChangeBytes, length_createResult]
  simp only [List.length_cons, List.length_nil]
  omega

/-- The bytes that stand behind each other when all has been copied. -/
lemma write_createBytes (env : Environment) (f : Frame) :
    copy (42 + keyspace.length + table.length + 11) (24 + keyspace.length + table.length)
      (write 0 (createTableBytes keyspace table) (write 0 (schemaChangeBytes keyspace table) env.stack))
      (write (42 + keyspace.length + table.length + 7)
        [0, 0, 0, UInt8.ofNat (24 + keyspace.length + table.length)]
        (write (42 + keyspace.length + table.length + 2) [f.version + 0x80, 0, 0, f.streamId.2, 8]
          (copy 2 (42 + keyspace.length + table.length) (write 0 (schemaChangeBytes keyspace table) env.stack)
            (resultHeader env f)))) = write 0 (createBytes f keyspace table h) env.header := by
  have e₁ := length_schemaChangeBytes keyspace table
  have e₂ := length_createTableBytes keyspace table
  have hevent := segment_write_self 0 (schemaChangeBytes keyspace table) env.stack
  have hresult := segment_write_self 0 (createTableBytes keyspace table)
    (write 0 (schemaChangeBytes keyspace table) env.stack)
  rw [Nat.zero_add, e₁] at hevent
  rw [Nat.zero_add, e₂] at hresult
  have hsize : beBytes 4 (24 + keyspace.length + table.length) =
      [0, 0, 0, UInt8.ofNat (24 + keyspace.length + table.length)] := by
    rw [QueryResult.beBytes_four, Nat.div_eq_of_lt (by omega), Nat.div_eq_of_lt (by omega),
      Nat.div_eq_of_lt (by omega)]
    rfl
  -- The header of the result is written first, and the event covers it from the third byte on.
  have hfirst : write 2 (schemaChangeBytes keyspace table) (resultHeader env f) =
      write 0 ([f.version + 0x80, f.flags] ++ schemaChangeBytes keyspace table) env.header := by
    have hstart : write 2 [f.streamId.1, f.streamId.2, RESULT]
        (write 0 [f.version + 0x80, f.flags] env.header) = resultHeader env f :=
      (write_append 0 [_, _] [_, _, _] env.header).trans (write_append 0 [_, _, _, _] [_] env.header).symm
    have hcover : [f.streamId.1, f.streamId.2, RESULT].length ≤ (schemaChangeBytes keyspace table).length := by
      rw [e₁]
      simp only [List.length_cons, List.length_nil]
      omega
    rw [← hstart, write_cover 2 hcover]
    exact write_append 0 [_, _] (schemaChangeBytes keyspace table) env.header
  rw [copy_eq_write, copy_eq_write, hevent, hresult, hfirst,
    write_end (by rw [List.length_append, e₁]; simp only [List.length_cons, List.length_nil]; omega),
    write_end (by simp only [List.length_append, e₁, List.length_cons, List.length_nil]; omega),
    write_end (by simp only [List.length_append, e₁, List.length_cons, List.length_nil]; omega)]
  simp only [createBytes, ResponseFrame.bytes, createResult, e₂, hsize, List.append_assoc]
  rfl

/-- The array of a `CREATE TABLE` whose names are short. -/
lemma createResponse_createTable
    (hexecutes : Executes env f st (.createTable keyspace table schema) recordStr st')
    (hunset : keyspace.length + table.length ≠ 220) :
    ∃ st'', createResponse env f st =
      .ok (((80 + 2 * (keyspace.length + table.length) : Nat) : Int),
        write 0 (createBytes f keyspace table h) env.header) st'' := by
  obtain ⟨st₂, hdatabase⟩ := ServerMsg.onDatabase_createTable table schema st'
  have hchange := @QueryResult.schemaChange_write keyspace table (by omega) (by omega) (by omega)
    (by omega) env.stack
  have hcreate := @QueryResult.createTable_write keyspace table (by omega) (by omega) (by omega)
    (write 0 (schemaChangeBytes keyspace table) env.stack)
  have hrespond : ServerMsg.respond (f.version + 0x80) recordStr (ServerMsg.unanswered env f)
      (.createTable keyspace table schema) st' = _ :=
    tryCatch_of_ok (ServerMsg.respondCreateTable_ok hdatabase hchange hcreate)
  refine ⟨st₂, ?_⟩
  have hlength : ((42 + keyspace.length + table.length : Nat) : Int) + 2 +
      ((24 + keyspace.length + table.length : Nat) : Int) + 12 =
        ((80 + 2 * (keyspace.length + table.length) : Nat) : Int) := by omega
  rw [ServerMsg.createResponse_executes hexecutes hrespond, ← write_createBytes]
  dsimp only
  rw [hlength, Int.toNat_natCast, Int.toNat_natCast, ofInt_natCast]
  rfl

/-- The characters of a name: positive values of a signed `char`. -/
def Plain (name : List UInt8) : Prop := ∀ c ∈ name, c ≠ 0 ∧ c < 128

lemma text_plain : Plain (text "CREATED") ∧ Plain (text "TABLE") :=
  ⟨List.all_iff_forall_prop.mp (by decide), List.all_iff_forall_prop.mp (by decide)⟩

/-- No part of the frame of the result looks like the first two bytes of a header, but its own. -/
lemma quiet_createResult {v : UInt8} (hv : 128 ≤ v) (hkeyspace : Plain keyspace) (htable : Plain table)
    (hlength : UInt8.ofNat (24 + keyspace.length + table.length) ≠ v) :
    Quiet v ((createResult f keyspace table h).bytes.drop 1) := by
  have hzero : ∀ x : UInt8, x < 128 → x ≠ v := fun x hx heq => absurd (heq ▸ hv) (UInt8.not_le.mpr hx)
  have hsize : beBytes 4 (24 + keyspace.length + table.length) =
      [0, 0, 0, UInt8.ofNat (24 + keyspace.length + table.length)] := by
    rw [QueryResult.beBytes_four, Nat.div_eq_of_lt (by omega), Nat.div_eq_of_lt (by omega),
      Nat.div_eq_of_lt (by omega)]
    rfl
  have hbytes : (createResult f keyspace table h).bytes.drop 1 = [0, 0] ++
      (([f.streamId.2, 8] ++ [0, 0, 0, UInt8.ofNat (24 + keyspace.length + table.length)]) ++
        ([0, 0, 0, 5] ++ changed keyspace table)) := by
    have hbody : (createResult f keyspace table h).body.length = 24 + keyspace.length + table.length :=
      length_createTableBytes keyspace table
    rw [ResponseFrame.bytes, hbody, hsize]
    rfl
  rw [hbytes]
  generalize UInt8.ofNat (24 + keyspace.length + table.length) = size at hlength
  refine (quiet_of_forall ?_).append ((Quiet.cons (by decide) (quiet_of_forall ?_)).append
    ((quiet_of_forall ?_).append ?_))
  · simp [hzero 0 (by decide)]
  · simp [hzero 0 (by decide), hzero 8 (by decide), hlength]
  · simp [hzero 0 (by decide), hzero 5 (by decide)]
  · refine (quiet_encodeString hv (by decide) text_plain.1).append
      ((quiet_encodeString hv (by decide) text_plain.2).append
        ((quiet_encodeString hv (by omega) hkeyspace).append
          (quiet_encodeString hv (by omega) htable)))

/-- What stands behind the message in the memory does not look like a header. -/
def Unlike (env : Environment) (f : Frame) (count : Nat) : Prop :=
  ∀ k < 3, env.header (count + k) = f.version + 0x80 → env.header (count + k + 1) ≠ 0

lemma length_front (v flags : UInt8) :
    ([v, flags] ++ schemaChangeBytes keyspace table).length = 44 + keyspace.length + table.length := by
  rw [List.length_append, length_schemaChangeBytes]
  simp only [List.length_cons, List.length_nil]
  omega

/-- The event is followed by the result less its first byte. -/
lemma createBytes_event : createBytes f keyspace table h =
    (createEvent f keyspace table h).bytes ++ (createResult f keyspace table h).bytes.drop 1 := by
  rw [bytes_createEvent, createBytes, List.append_assoc, List.append_assoc]
  rfl

/-- The header of the result is the last one that is found. -/
lemma lastBegin_createTable (hversion : f.version < 128) (hflags : f.flags = 0)
    (hkeyspace : Plain keyspace) (htable : Plain table)
    (hlength : UInt8.ofNat (24 + keyspace.length + table.length) ≠ f.version + 0x80)
    (hunlike : Unlike env f (77 + 2 * (keyspace.length + table.length))) :
    lastBegin (write 0 (createBytes f keyspace table h) env.header)
      (79 + 2 * (keyspace.length + table.length)) = 44 + keyspace.length + table.length := by
  have hv : 128 ≤ f.version + 0x80 := by
    rw [UInt8.le_iff_toNat_le, UInt8.toNat_add]
    have hlt := UInt8.lt_iff_toNat_lt.mp hversion
    have h128 : (128 : UInt8).toNat = 128 := rfl
    omega
  have hquiet := @quiet_createResult f keyspace table h _ hv hkeyspace htable hlength
  have hrest : ((createResult f keyspace table h).bytes.drop 1).length =
      32 + keyspace.length + table.length := by
    rw [List.length_drop, length_createResult]
    omega
  have hbytes := @createBytes_event f keyspace table h
  have hevent : (createEvent f keyspace table h).bytes.length = 45 + keyspace.length + table.length :=
    length_createEvent
  generalize htail : (createResult f keyspace table h).bytes.drop 1 = tail at hquiet hrest hbytes
  have hall : (createBytes f keyspace table h).length = 77 + 2 * (keyspace.length + table.length) :=
    length_createBytes
  -- A byte behind the first one of the result.
  have hbehind : ∀ k (hk : k < tail.length), write 0 (createBytes f keyspace table h) env.header
      (45 + keyspace.length + table.length + k) = tail[k] := by
    intro k hk
    have hindex : 45 + keyspace.length + table.length + k < (createBytes f keyspace table h).length := by
      omega
    have hget := @write_getElem 0 _ env.header _ hindex
    rw [Nat.zero_add] at hget
    rw [hget]
    simp only [hbytes]
    rw [List.getElem_append_right (by omega)]
    congr 1
    omega
  have hstart : write 0 (createBytes f keyspace table h) env.header
      (44 + keyspace.length + table.length) = f.version + 0x80 := by
    have hget := @write_getElem 0 (createBytes f keyspace table h) env.header
      (44 + keyspace.length + table.length) (by omega)
    rw [Nat.zero_add] at hget
    have hsplit : createBytes f keyspace table h = ([f.version + 0x80, f.flags] ++
        schemaChangeBytes keyspace table) ++ (createResult f keyspace table h).bytes := rfl
    have hfront := @length_front keyspace table (f.version + 0x80) f.flags
    rw [hget]
    simp only [hsplit]
    rw [List.getElem_append_right (by omega)]
    simp only [hfront, Nat.sub_self]
    rfl
  have hzero : write 0 (createBytes f keyspace table h) env.header 0 = f.version + 0x80 := rfl
  have hone : write 0 (createBytes f keyspace table h) env.header 1 = 0 := hflags
  rw [lastBegin, Nat.findGreatest_eq_iff]
  refine ⟨by omega, fun _ => ⟨hstart.trans hzero.symm, ?_, rfl⟩, ?_⟩
  · have hnext := hbehind 0 (by omega)
    rw [Nat.add_zero] at hnext
    rw [show 44 + keyspace.length + table.length + 1 = 45 + keyspace.length + table.length by omega,
      hnext, hone]
    simp only [← htail]
    rfl
  · rintro i hi hle ⟨hfirst, hsecond, -⟩
    rw [hzero] at hfirst
    rw [hone] at hsecond
    rcases lt_or_ge i (77 + 2 * (keyspace.length + table.length)) with hin | hout
    · obtain ⟨k, rfl⟩ := Nat.exists_eq_add_of_le (show 45 + keyspace.length + table.length ≤ i by omega)
      rw [hbehind k (by omega)] at hfirst
      obtain ⟨hnext, hne⟩ := hquiet.getElem (by omega) hfirst
      rw [Nat.add_assoc, hbehind (k + 1) hnext] at hsecond
      exact hne hsecond
    · obtain ⟨k, rfl⟩ := Nat.exists_eq_add_of_le hout
      rw [write_of_le (by omega)] at hfirst hsecond
      exact hunlike k (by omega) hfirst hsecond

/-- What is sent for a `CREATE TABLE`: first the event, and then the result and three bytes of the memory. -/
lemma sends_createTable (hversion : f.version < 128) (hflags : f.flags = 0)
    (hkeyspace : Plain keyspace) (htable : Plain table)
    (hlength : UInt8.ofNat (24 + keyspace.length + table.length) ≠ f.version + 0x80)
    (hunlike : Unlike env f (77 + 2 * (keyspace.length + table.length))) (div : Nat → UInt8) :
    sends (write 0 (createBytes f keyspace table h) env.header)
      ((80 + 2 * (keyspace.length + table.length) : Nat) : Int) div =
        .ok [(createEvent f keyspace table h).bytes, (createResult f keyspace table h).bytes ++
          segment env.header (77 + 2 * (keyspace.length + table.length))
            (80 + 2 * (keyspace.length + table.length))] := by
  have hlast := @lastBegin_createTable env f keyspace table h hversion hflags hkeyspace htable hlength
    hunlike
  have hresult : (createResult f keyspace table h).bytes.length = 33 + keyspace.length + table.length :=
    length_createResult
  have hall : (createBytes f keyspace table h).length = 77 + 2 * (keyspace.length + table.length) :=
    length_createBytes
  rw [sends_ok (by omega) (fun i hi _ => by omega), pieces,
    show 80 + 2 * (keyspace.length + table.length) - 1 = 79 + 2 * (keyspace.length + table.length) by omega,
    hlast, if_neg (by omega)]
  have hfirst : segment (write 0 (createBytes f keyspace table h) env.header) 0
      (44 + keyspace.length + table.length + 1) = (createEvent f keyspace table h).bytes := by
    have hpart := segment_write 0 [] (createEvent f keyspace table h).bytes
      ((createResult f keyspace table h).bytes.drop 1) env.header
    rw [List.nil_append, ← createBytes_event, length_createEvent, List.length_nil] at hpart
    rw [← hpart]
    congr 1
    omega
  have hsecond : segment (write 0 (createBytes f keyspace table h) env.header)
      (44 + keyspace.length + table.length) (77 + 2 * (keyspace.length + table.length)) =
        (createResult f keyspace table h).bytes := by
    have hpart := segment_write 0 ([f.version + 0x80, f.flags] ++ schemaChangeBytes keyspace table)
      (createResult f keyspace table h).bytes [] env.header
    have hsplit : ([f.version + 0x80, f.flags] ++ schemaChangeBytes keyspace table) ++
        (createResult f keyspace table h).bytes = createBytes f keyspace table h := rfl
    rw [List.append_nil, hsplit, length_front, hresult] at hpart
    rw [← hpart]
    congr 1 <;> omega
  rw [hfirst, ← segment_append _ (show 44 + keyspace.length + table.length ≤
    77 + 2 * (keyspace.length + table.length) by omega) (show _ ≤ _ by omega), hsecond,
    segment_write_behind (by omega)]

end Frames

/-! ### The names of a table -/

section Names

variable {env : Environment} {f : Frame} {st st' : Server × Posix Path}
  {keyspace table recordStr : List UInt8} {schema : Schema}

lemma extractQuery_lt (escape : Bool) (bs : List UInt8) :
    ∀ c ∈ ServerMsg.extractQuery escape bs, c < 128 := by
  induction bs generalizing escape with
  | nil => simp [ServerMsg.extractQuery]
  | cons b bs ih =>
    unfold ServerMsg.extractQuery
    split_ifs with hb
    · exact ih true
    · exact ih false
    · rw [List.forall_mem_cons]
      refine ⟨?_, ih false⟩
      rw [BitVec.toInt_eq_toNat_cond] at hb
      rw [UInt8.lt_iff_toNat_lt]
      change b.toBitVec.toNat < 128
      split at hb <;> omega

lemma cutQuery_lt {query : List UInt8} (h : ∀ c ∈ query, c < 128) :
    ∀ c ∈ ServerMsg.cutQuery query, c < 128 := by
  intro c hc
  unfold ServerMsg.cutQuery at hc
  split_ifs at hc
  · exact h c hc
  · rcases List.mem_append.mp hc with hc | hc
    · exact h c ((List.takeWhile_sublist _).subset hc)
    · rw [List.mem_singleton.mp hc]
      decide

lemma restoreQuery_lt {x y : List UInt8} (hx : ∀ c ∈ x, c < 128) (h : ServerMsg.restoreQuery x = .ok y) :
    ∀ c ∈ y, c < 128 := by
  have hcons : ∀ a : UInt8, a < 128 → ∀ c ∈ a :: x, c < 128 := fun a ha => by
    rw [List.forall_mem_cons]
    exact ⟨ha, hx⟩
  cases x with
  | nil =>
    cases h
    exact hx
  | cons c cs =>
    rw [ServerMsg.restoreQuery] at h
    split_ifs at h
    · cases h
      exact hcons 73 (by decide)
    · cases h
      exact hcons 67 (by decide)
    · obtain ⟨d, -, h⟩ := except_bind_eq_ok h
      split_ifs at h
      · cases h
        exact hcons 83 (by decide)
      · cases h
        exact hcons 68 (by decide)
      · cases h
        exact hx
    · cases h
      exact hx

/-- The names of a table are parts of the text that the parser reads. -/
lemma plain_names
    (hexecutes : Executes env f st (.createTable keyspace table schema) recordStr st')
    (hroot : ServerMsg.TakesNames env f) : Plain keyspace ∧ Plain table := by
  obtain ⟨query, cql, hquery, hcql, hvisit, -⟩ := hexecutes.executed
  obtain ⟨ctx, rfl, rfl, rfl⟩ := ServerMsg.visitCql_createTable hvisit
  obtain ⟨hkeyspace, htable⟩ := hroot query ctx
    (ServerMsg.parserText_eq_some.mpr ⟨hexecutes.semicolon, hquery⟩) (by simp [hcql])
  have hplain : ∀ c ∈ query, c ≠ 0 ∧ c < 128 := fun c hc =>
    ⟨ServerMsg.ne_zero_of_mem_query hquery c hc,
      restoreQuery_lt (cutQuery_lt (extractQuery_lt false _)) hquery c hc⟩
  exact ⟨fun c hc => hplain c (hkeyspace.subset hc), fun c hc => hplain c (htable.subset hc)⟩

end Names

/-! ### What a client reads -/

section Delivered

open ServerMsg (Request Replies)

variable {env : Environment} {f : Frame} {st st' st₁ st₂ : Server × Posix Path}
  {keyspace table recordStr : List UInt8} {schema : Schema}

/-- A version and flags as clients send them; names so short that their lengths are written in one byte each,
which does not look like the first byte of a response; and nothing behind the message that does. -/
structure Ordinary (env : Environment) (f : Frame) (keyspace table : List UInt8) : Prop where
  version : f.version < 128
  flags : f.flags = 0
  short : keyspace.length + table.length < 232
  written : keyspace.length + table.length ≠ 220
  length : UInt8.ofNat (24 + keyspace.length + table.length) ≠ f.version + 0x80
  unlike : Unlike env f (77 + 2 * (keyspace.length + table.length))

/-- The three bytes of the memory behind the message. -/
def behind (env : Environment) (keyspace table : List UInt8) : List UInt8 :=
  segment env.header (77 + 2 * (keyspace.length + table.length))
    (80 + 2 * (keyspace.length + table.length))

lemma length_behind : (behind env keyspace table).length = 3 := by
  rw [behind, length_segment]
  omega

lemma serve_createTable {requests : List (Environment × Frame × Request)} {response : Int × Header}
    (hexecutes : Executes env f st (.createTable keyspace table schema) recordStr st')
    (hroot : ServerMsg.TakesNames env f)
    (hordinary : Ordinary env f keyspace table) (hresponse : createResponse env f st = .ok response st₁)
    (hrest : Conversation st₁ requests st₂) (div : Nat → UInt8) :
    ∃ frames : List ResponseFrame,
      serve div ((env, f) :: received requests) st =
        .ok ([(createEvent f keyspace table hordinary.short).bytes,
          (createResult f keyspace table hordinary.short).bytes ++ behind env keyspace table] ++
            frames.map ResponseFrame.bytes) st₂ ∧
        List.Forall₂ (fun r frame => Replies r.1 r.2.1 r.2.2 frame) requests frames := by
  obtain ⟨hkeyspace, htable⟩ := plain_names hexecutes hroot
  obtain ⟨frames, hserve, hreplies⟩ := conversation_sent hrest div
  obtain ⟨st₃, hcreate⟩ := @createResponse_createTable env f st st' keyspace table recordStr schema
    hordinary.short hexecutes hordinary.written
  rw [hresponse] at hcreate
  cases hcreate
  have hsent := @sends_createTable env f keyspace table hordinary.short hordinary.version hordinary.flags
    hkeyspace htable hordinary.length hordinary.unlike div
  exact ⟨frames, serve_cons hresponse hsent hserve, hreplies⟩

/-- Of what is sent for a `CREATE TABLE`, a client reads the event that names the table and the result with
the same names, and behind them the three bytes of the memory behind the message. -/
theorem createTable_delivered {requests : List (Environment × Frame × Request)} {response : Int × Header}
    (hexecutes : Executes env f st (.createTable keyspace table schema) recordStr st')
    (hroot : ServerMsg.TakesNames env f)
    (hordinary : Ordinary env f keyspace table) (hresponse : createResponse env f st = .ok response st₁)
    (hrest : Conversation st₁ requests st₂) (div : Nat → UInt8) :
    ∃ sent rest, serve div ((env, f) :: received requests) st = .ok sent st₂ ∧
      Decoder.replicate 2 ResponseFrame.decode sent.flatten =
        some ([createEvent f keyspace table hordinary.short, createResult f keyspace table hordinary.short],
          rest) ∧
      rest.take 3 = behind env keyspace table := by
  obtain ⟨frames, hserve, hreplies⟩ := serve_createTable hexecutes hroot hordinary hresponse hrest div
  refine ⟨_, behind env keyspace table ++ (frames.map ResponseFrame.bytes).flatten, hserve, ?_, ?_⟩
  · have hdecodes := @Decodes.replicate _ _ ResponseFrame.decode ResponseFrame.bytes id
      [createEvent f keyspace table hordinary.short, createResult f keyspace table hordinary.short]
      (fun frame _ => ResponseFrame.decodes_bytes frame)
    refine Eq.trans ?_ (hdecodes (behind env keyspace table ++ (frames.map ResponseFrame.bytes).flatten))
    simp
  · rw [← @length_behind env keyspace table]
    exact List.take_left

lemma opcode_ne_zero (request : Request) : request.opcode ≠ 0 := by
  cases request with
  | options => exact (by decide : ServerMsg.SUPPORTED ≠ 0)
  | ready => exact (by decide : ServerMsg.READY ≠ 0)
  | metadata answer => exact (by decide : RESULT ≠ 0)
  | statement stmt recordStr st => exact (by decide : RESULT ≠ 0)

/-- Behind the two frames for a `CREATE TABLE` a client reads no reply to the next request: the three bytes
that were sent with them are read as the first ones of its frame. -/
theorem not_replies_after_createTable {env' : Environment} {f' : Frame} {request : Request}
    {requests : List (Environment × Frame × Request)} {response : Int × Header}
    (hexecutes : Executes env f st (.createTable keyspace table schema) recordStr st')
    (hroot : ServerMsg.TakesNames env f)
    (hordinary : Ordinary env f keyspace table) (hresponse : createResponse env f st = .ok response st₁)
    (hrest : Conversation st₁ ((env', f', request) :: requests) st₂) (hflags : f'.flags = 0)
    (div : Nat → UInt8) :
    ∃ sent rest, serve div ((env, f) :: received ((env', f', request) :: requests)) st = .ok sent st₂ ∧
      sent.flatten = (createEvent f keyspace table hordinary.short).bytes ++
        ((createResult f keyspace table hordinary.short).bytes ++ rest) ∧
      ∀ frame later, ResponseFrame.decode rest = some (frame, later) → ¬Replies env' f' request frame := by
  obtain ⟨frames, hserve, hreplies⟩ := serve_createTable hexecutes hroot hordinary hresponse hrest div
  refine ⟨_, behind env keyspace table ++ (frames.map ResponseFrame.bytes).flatten, hserve, by simp, ?_⟩
  intro frame later hdecode hreply
  cases hreplies with
  | @cons _ reply _ frames hfirst _ =>
    obtain ⟨x, y, z, hbehind⟩ : ∃ x y z, behind env keyspace table = [x, y, z] :=
      List.length_eq_three.mp length_behind
    rw [hbehind] at hdecode
    have hopcode : frame.opcode = reply.flags := ResponseFrame.decode_opcode hdecode
    rw [hfirst.flags, hflags, hreply.opcode] at hopcode
    exact opcode_ne_zero request hopcode

/-! A table that is created on a node on its own, and a request for the options of the server. -/

def createText : List UInt8 := text "CREATE TABLE u (k INT PRIMARY KEY);"

/-- A parser that knows this text, and a memory full of 255s. -/
def createEnvironment : Environment :=
  { ServerMsg.insertEnvironment (text "u") with
    root := fun query =>
      if query = createText then [.createTable ⟨none, text "u", [⟨text "k", .int, true⟩], none⟩] else []
    header := fun _ => 255 }

def optionsFrame : Frame := ⟨optionsBuffer, 9⟩

lemma takesNames_createEnvironment (f : Frame) : ServerMsg.TakesNames createEnvironment f := by
  intro query ctx _ h
  simp only [createEnvironment] at h
  split at h
  · cases List.mem_singleton.mp h
    subst query
    decide
  · cases h

lemma executes_createEnvironment : ∃ st, Executes createEnvironment (ServerMsg.queryFrame createText)
    ServerMsg.oneTable (.createTable [] (text "u") ⟨0, 0, [⟨text "k", ⟨.int, 4⟩⟩]⟩)
      (text "All nodes have been updated") st := by
  have hquery : ServerMsg.restoreQuery (ServerMsg.cutQuery (ServerMsg.extractQuery false
      ((ServerMsg.queryFrame createText).body.getD []))) = .ok createText := by decide +kernel
  exact ⟨_, rfl, by decide +kernel, _, _, hquery, rfl, rfl, ServerMsg.process_createTable rfl rfl⟩

lemma ordinary_createEnvironment :
    Ordinary createEnvironment (ServerMsg.queryFrame createText) [] (text "u") := by
  refine ⟨by decide, rfl, by decide, by decide, by decide, ?_⟩
  intro k _ _
  exact (by decide : (255 : UInt8) ≠ 0)

/-- The table is created, and a request for the options follows. -/
lemma options_after_create : ∃ st response st₁ st₂,
    Executes createEnvironment (ServerMsg.queryFrame createText) ServerMsg.oneTable
      (.createTable [] (text "u") ⟨0, 0, [⟨text "k", ⟨.int, 4⟩⟩]⟩) (text "All nodes have been updated") st ∧
    createResponse createEnvironment (ServerMsg.queryFrame createText) ServerMsg.oneTable =
      .ok response st₁ ∧
    Conversation st₁ [(createEnvironment, optionsFrame, .options)] st₂ := by
  obtain ⟨st, hexecutes⟩ := executes_createEnvironment
  obtain ⟨st₁, hresponse⟩ := @createResponse_createTable createEnvironment (ServerMsg.queryFrame createText)
    ServerMsg.oneTable st [] (text "u") _ _ (by decide) hexecutes (by decide)
  obtain ⟨frame, hoptions, -⟩ := @ServerMsg.single_options createEnvironment optionsFrame rfl st₁
  exact ⟨st, _, st₁, _, hexecutes, hresponse,
    .cons (.options rfl) trivial (by decide) hoptions (.nil _)⟩

theorem createTable_delivered_u : ∃ st₂ sent rest,
    serve (fun _ => 0) [(createEnvironment, ServerMsg.queryFrame createText),
      (createEnvironment, optionsFrame)] ServerMsg.oneTable = .ok sent st₂ ∧
    Decoder.replicate 2 ResponseFrame.decode sent.flatten =
      some ([createEvent (ServerMsg.queryFrame createText) [] (text "u") (by decide),
        createResult (ServerMsg.queryFrame createText) [] (text "u") (by decide)], rest) ∧
    rest.take 3 = behind createEnvironment [] (text "u") := by
  obtain ⟨st, response, st₁, st₂, hexecutes, hresponse, hrest⟩ := options_after_create
  obtain ⟨sent, rest, hserve, hdecodes, hbehind⟩ := createTable_delivered hexecutes
    (takesNames_createEnvironment _) ordinary_createEnvironment hresponse hrest (fun _ => 0)
  exact ⟨st₂, sent, rest, hserve, hdecodes, hbehind⟩

theorem not_replies_after_createTable_options : ∃ st₂ sent rest,
    serve (fun _ => 0) [(createEnvironment, ServerMsg.queryFrame createText),
      (createEnvironment, optionsFrame)] ServerMsg.oneTable = .ok sent st₂ ∧
    sent.flatten = (createEvent (ServerMsg.queryFrame createText) [] (text "u") (by decide)).bytes ++
      ((createResult (ServerMsg.queryFrame createText) [] (text "u") (by decide)).bytes ++ rest) ∧
    ∀ frame later, ResponseFrame.decode rest = some (frame, later) →
      ¬Replies createEnvironment optionsFrame .options frame := by
  obtain ⟨st, response, st₁, st₂, hexecutes, hresponse, hrest⟩ := options_after_create
  obtain ⟨sent, rest, hserve, hflatten, hnot⟩ := not_replies_after_createTable hexecutes
    (takesNames_createEnvironment _) ordinary_createEnvironment hresponse hrest rfl (fun _ => 0)
  exact ⟨st₂, sent, rest, hserve, hflatten, hnot⟩

end Delivered

end Server

end Dibibase
