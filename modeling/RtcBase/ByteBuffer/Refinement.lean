import RtcBase.ByteBuffer.Writer
import RtcBase.Library.Runs

/-! A `ByteBufferWriter` refines a list of bytes that is appended to, truncated and emptied. A run
that is `some` made every copy inside its memory.
-/

namespace RtcBase.ByteBuffer

open Library

/-- A call on a writer; the bytes of a write are read from memory of the caller. -/
inductive Call where
  | writeBytes (val : List Byte)
  | resize (size : Nat)
  | clear
  deriving DecidableEq, Repr

namespace Call

/-- What a call does to the writer. -/
def onWriter (host : Host) (writer : ByteBufferWriter) : Call → Option ByteBufferWriter
  | .writeBytes val => writer.writeBytes host val
  | .resize size => writer.resize host size
  | .clear => writer.clear

/-- What a call is for: a write appends, `resize` never extends. -/
def onList (list : List Byte) : Call → List Byte
  | .writeBytes val => list ++ val
  | .resize size => list.take size
  | .clear => []

end Call

namespace ByteBufferWriter

/-- The bytes that a constructor starts with, none for a null pointer. -/
def initialList (bytes : Option (List Byte)) (len : Nat) : List Byte :=
  (bytes.getD []).take len

/-- The memory at `bytes` can be read for `len` bytes, or is a null pointer. -/
def Readable (bytes : Option (List Byte)) (len : Nat) : Prop :=
  ∀ given, bytes = some given → len ≤ given.length

/-- The constructors copy what they are given and start well formed. -/
theorem construct_spec (host : Host) (byteOrder : ByteOrder) {bytes : Option (List Byte)}
    {len : Nat} (readable : Readable bytes len)
    : ∃ writer,
        construct host byteOrder bytes len = some writer
        ∧ writer.WellFormed
        ∧ writer.contents = initialList bytes len := by
  cases bytes with
  | none =>
      obtain ⟨writer, constructed, wellFormed, empty, -⟩ := construct_none host byteOrder len
      exact ⟨writer, constructed, wellFormed, by simpa [initialList] using empty⟩
  | some given =>
      have source : 0 + len ≤ given.length := by simpa using readable given rfl
      have copied := length_window source
      have allocated := host.length_newChars len
      obtain ⟨memory, written, sameLength, kept, -⟩ := writeMemory_eq
        (show 0 + (window given 0 len).length ≤ (host.newChars len).length by omega)
      rw [copied] at kept
      refine ⟨⟨byteOrder, memory, len, 0, len⟩, ?_, ⟨Nat.zero_le _, Nat.le_refl _, by
        simp only; omega⟩, ?_⟩
      · simp [construct, readMemory_eq source, written]
      · rw [contents, length, Nat.sub_zero, kept]
        rfl

/-- `clear` zeroes the block that the writer has and empties its contents. -/
theorem clear_spec {writer : ByteBufferWriter} (h : writer.WellFormed)
    : ∃ after, writer.clear = some after ∧ after.WellFormed ∧ after.contents = [] := by
  have whole := h.length_bytes
  obtain ⟨bytes, written, sameLength, -, -⟩ := @writeMemory_eq _ writer.bytes
    (List.replicate writer.size 0) 0 (by rw [List.length_replicate]; omega)
  refine ⟨{ writer with bytes := bytes, start := 0, end_ := 0 }, ?_,
    ⟨Nat.le_refl _, Nat.zero_le _, by simp only; omega⟩, by simp [contents, length, window]⟩
  rw [clear, written]
  rfl

/-- Each call keeps the writer well formed and does to its contents what it does to the list. -/
theorem call_refines (host : Host) {writer : ByteBufferWriter} (h : writer.WellFormed) (call : Call)
    : ∃ after,
        call.onWriter host writer = some after
        ∧ after.WellFormed
        ∧ after.contents = call.onList writer.contents := by
  cases call with
  | writeBytes val =>
      obtain ⟨after, written, appended⟩ := writeBytes_spec host h val
      exact ⟨after, written, appended.wellFormed, appended.contents⟩
  | resize size =>
      obtain ⟨after, resized, wellFormed, kept, -, -⟩ := resize_spec host h size
      exact ⟨after, resized, wellFormed, kept⟩
  | clear => exact clear_spec h

/-- A writer from any constructor, after any calls: no copy has left the memory it works on, the
offsets are ordered inside the block, and the contents are the list after the same calls.
-/
theorem calls_refine_byteList (host : Host) (byteOrder : ByteOrder) {bytes : Option (List Byte)}
    {len : Nat} (readable : Readable bytes len) (calls : List Call)
    : ∃ writer,
        (construct host byteOrder bytes len).bind
            (fun writer => calls.foldlM (fun writer call => call.onWriter host writer) writer)
          = some writer
        ∧ writer.start ≤ writer.end_
        ∧ writer.end_ ≤ writer.size
        ∧ writer.bytes.length = writer.size
        ∧ writer.data.take writer.length
          = calls.foldl Call.onList (initialList bytes len) := by
  obtain ⟨start, constructed, wellFormed, initial⟩ := construct_spec host byteOrder readable
  obtain ⟨final, run, after⟩ := @foldlM_invariant _ _ (fun writer call => call.onWriter host writer)
    (fun done writer =>
      writer.WellFormed ∧ writer.contents = done.foldl Call.onList (initialList bytes len))
    calls start ⟨wellFormed, initial⟩ (by
      intro done call rest writer _ ⟨wellFormed, same⟩
      obtain ⟨next, made, kept, contents⟩ := call_refines host wellFormed call
      refine ⟨next, made, kept, ?_⟩
      rw [contents, same, List.foldl_append]
      rfl)
  refine ⟨final, ?_, after.1.start_le, after.1.end_le, after.1.length_bytes, after.2⟩
  rw [constructed, Option.bind_some, run]

/-- A writer of three bytes that is given a fourth, cut to two, and written to again. -/
theorem calls_refine_byteList_grown
    : ∃ writer,
        (construct ⟨.little, true, fun n => List.replicate n 0, fun _ => List.length_replicate⟩
            .network (some [1, 2, 3]) 3).bind
            (fun writer =>
              [Call.writeBytes [4], .resize 2, .writeBytes [5]].foldlM
                (fun writer call => call.onWriter
                  ⟨.little, true, fun n => List.replicate n 0, fun _ => List.length_replicate⟩
                  writer) writer)
          = some writer
        ∧ writer.data.take writer.length = [1, 2, 5] := by
  obtain ⟨writer, run, -, -, -, contents⟩ :=
    calls_refine_byteList
      ⟨.little, true, fun n => List.replicate n 0, fun _ => List.length_replicate⟩ .network
      (show Readable (some [1, 2, 3]) 3 by
        intro given same
        cases same
        decide)
      [Call.writeBytes [4], .resize 2, .writeBytes [5]]
  exact ⟨writer, run, contents⟩

end ByteBufferWriter

end RtcBase.ByteBuffer
