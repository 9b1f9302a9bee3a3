import Smurf.DataBuffer.Basic
import Smurf.Library.Runs

/-! Readers are isolated from each other.
What a reader gets from its calls depends on the writer's calls and its own. The calls are
taken in any order, whether or not a thread of the program would make them then, and
iterators are read as offsets, so this holds wherever the other readers' pointers are.
-/

namespace Smurf.DataBuffer

variable {size numberReaders : Nat} {Packet : Type*}

/-- The calls the writer and the readers make, and the writer's copy into its cell. -/
inductive Call (numberReaders : Nat) (Packet : Type*)
  | getWritePtr
  | fill (packet : Packet)
  | doneWriting
  | isEmpty (i : Fin numberReaders)
  | getReadPtr (i : Fin numberReaders)
  | doneReading (i : Fin numberReaders)

/-- What a call gives back; a reader's cell comes with what it holds. -/
inductive Answer (Packet : Type*)
  | done
  | cell (slot : Nat)
  | isEmpty (value : Bool)
  | packet (slot : Nat) (content : Packet)
  | exception (what : String)

/-- The buffer, and the cell the writer was last given. -/
structure Shared (size numberReaders : Nat) (Packet : Type*) where
  buffer : DataBuffer size numberReaders Packet
  granted : Nat

namespace Shared

def call (shared : Shared size numberReaders Packet)
    : Call numberReaders Packet → Shared size numberReaders Packet × Answer Packet
  | .getWritePtr =>
      let (slot, buffer) := shared.buffer.getWritePtr
      (⟨buffer, slot⟩, .cell slot)
  | .fill packet => ({ shared with buffer := shared.buffer.fill shared.granted packet }, .done)
  | .doneWriting => ({ shared with buffer := shared.buffer.doneWriting }, .done)
  | .isEmpty i => (shared, .isEmpty (shared.buffer.isEmpty i))
  | .getReadPtr i =>
      match shared.buffer.getReadPtr i with
      | (.ok slot, buffer) => ({ shared with buffer }, .packet slot (buffer.data slot))
      | (.error what, buffer) => ({ shared with buffer }, .exception what)
  | .doneReading i => ({ shared with buffer := shared.buffer.doneReading i }, .done)

end Shared

/-- The call is the writer's, or reader `i`'s own. -/
def Call.concerns (i : Fin numberReaders) : Call numberReaders Packet → Bool
  | .getWritePtr | .fill _ | .doneWriting => true
  | .isEmpty j | .getReadPtr j | .doneReading j => j = i

/-- What reader `i` can observe right after a call: what the call gave back, its empty flag
and its counters.
-/
structure Observation (Packet : Type*) where
  answer : Answer Packet
  isEmpty : Bool
  readCnt : Nat
  OWCnt : Nat
  ROFCnt : Nat

def Shared.observe (i : Fin numberReaders) (shared : Shared size numberReaders Packet)
    (call : Call numberReaders Packet)
    : Shared size numberReaders Packet × Observation Packet :=
  let (next, answer) := shared.call call
  (next,
    { answer
      isEmpty := next.buffer.isEmpty i
      readCnt := next.buffer.readCnt i
      OWCnt := next.buffer.OWCnt i
      ROFCnt := next.buffer.ROFCnt i })

/-- The part of the buffer that reader `i` and the writer work with. -/
structure View (Packet : Type*) where
  data : Nat → Packet
  granted : Nat
  writePtr : Nat
  readPtr : Nat
  full : Bool
  empty : Bool
  readCnt : Nat
  OWCnt : Nat
  ROFCnt : Nat

def Shared.view (i : Fin numberReaders) (shared : Shared size numberReaders Packet)
    : View Packet where
  data := shared.buffer.data
  granted := shared.granted
  writePtr := shared.buffer.writePtr
  readPtr := shared.buffer.readPtr i
  full := shared.buffer.full i
  empty := shared.buffer.empty i
  readCnt := shared.buffer.readCnt i
  OWCnt := shared.buffer.OWCnt i
  ROFCnt := shared.buffer.ROFCnt i

/-- Another reader's failed `getReadPtr` counts for that reader alone. -/
theorem getReadPtr_of_ne (buffer : DataBuffer size numberReaders Packet)
    {i j : Fin numberReaders} (ne : i ≠ j)
    : ∃ ROFCnt : Fin numberReaders → Nat,
        ROFCnt i = buffer.ROFCnt i ∧ (buffer.getReadPtr j).2 = { buffer with ROFCnt } := by
  cases empty : buffer.empty j with
  | false => exact ⟨buffer.ROFCnt, rfl, by rw [getReadPtr_of_not_empty _ _ empty]⟩
  | true =>
      rw [getReadPtr_of_empty _ _ empty]
      exact ⟨_, Function.update_of_ne ne .., rfl⟩

/-- The state `getReadPtr` leaves does not depend on how it returns. -/
theorem Shared.call_getReadPtr (shared : Shared size numberReaders Packet)
    (j : Fin numberReaders)
    : (shared.call (.getReadPtr j)).1
      = { shared with buffer := (shared.buffer.getReadPtr j).2 } := by
  cases empty : shared.buffer.empty j with
  | false => simp [call, getReadPtr_of_not_empty _ _ empty]
  | true => simp [call, getReadPtr_of_empty _ _ empty]

/-- A call of another reader leaves reader `i`'s part of the buffer alone, by cases on the
call.
-/
theorem Shared.view_observe_of_not_concerns (i : Fin numberReaders)
    (shared : Shared size numberReaders Packet) (call : Call numberReaders Packet)
    (other : call.concerns i = false)
    : (shared.observe i call).1.view i = shared.view i := by
  cases call with
  | getWritePtr | fill packet | doneWriting => simp [Call.concerns] at other
  | isEmpty j => rfl
  | getReadPtr j =>
      have ne : i ≠ j := by
        rintro rfl
        simp [Call.concerns] at other
      obtain ⟨ROFCnt, same, after⟩ := getReadPtr_of_ne shared.buffer ne
      show (shared.call (.getReadPtr j)).1.view i = shared.view i
      rw [call_getReadPtr, after]
      simp only [view, same]
  | doneReading j =>
      have ne : i ≠ j := by
        rintro rfl
        simp [Call.concerns] at other
      obtain ⟨readPtr, full, empty, readCnt⟩ := doneReading_of_ne shared.buffer ne
      simp only [observe, Shared.call, view, readPtr, full, empty, readCnt]
      rfl

/-- A call of the writer or of reader `i` makes the same answer and the same next view from
the same view, by cases on the call.
-/
theorem Shared.view_observe_of_concerns (i : Fin numberReaders)
    (shared other : Shared size numberReaders Packet) (call : Call numberReaders Packet)
    (own : call.concerns i = true) (same : shared.view i = other.view i)
    : (shared.observe i call).1.view i = (other.observe i call).1.view i
      ∧ (shared.observe i call).2 = (other.observe i call).2 := by
  simp only [view, View.mk.injEq] at same
  obtain ⟨data, granted, writePtr, readPtr, full, empty, readCnt, OWCnt, ROFCnt⟩ := same
  cases call with
  | getWritePtr =>
      simp [observe, Shared.call, view, getWritePtr, isEmpty, *]
  | fill packet =>
      simp [observe, Shared.call, view, fill, isEmpty, *]
  | doneWriting =>
      simp [observe, Shared.call, view, doneWriting, isEmpty, *]
  | isEmpty j =>
      obtain rfl : j = i := by simpa [Call.concerns] using own
      simp [observe, Shared.call, view, isEmpty, *]
  | getReadPtr j =>
      obtain rfl : j = i := by simpa [Call.concerns] using own
      cases pending : other.buffer.empty j with
      | false =>
          have here : shared.buffer.empty j = false := empty.trans pending
          simp [observe, Shared.call, view, getReadPtr_of_not_empty, isEmpty, *]
      | true =>
          have here : shared.buffer.empty j = true := empty.trans pending
          simp [observe, Shared.call, view, getReadPtr_of_empty, isEmpty, *]
  | doneReading j =>
      obtain rfl : j = i := by simpa [Call.concerns] using own
      simp [observe, Shared.call, view, doneReading_empty_self, isEmpty, *]

/-- In every sequence of calls, from every state, reader `i` observes what it observes when
all calls of the other readers are deleted.
-/
theorem observations_eq_alone (i : Fin numberReaders)
    (shared : Shared size numberReaders Packet) (calls : List (Call numberReaders Packet))
    : Runs.visibleOutputs (Shared.observe i) (Call.concerns i) shared calls
      = (Runs.transduce (Shared.observe i) shared (calls.filter (Call.concerns i))).2 :=
  Runs.visibleOutputs_eq_purged (Shared.view i) (Shared.view_observe_of_not_concerns i)
    (Shared.view_observe_of_concerns i) rfl calls

end Smurf.DataBuffer
