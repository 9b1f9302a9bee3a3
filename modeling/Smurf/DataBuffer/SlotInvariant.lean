import Mathlib.Data.List.Nodup
import Smurf.DataBuffer.Threads

/-! Where every packet is while the writer and the readers interleave.
Each party's pointer is the cell of a packet number, the cells from a reader's position to
the last packet written hold those packets, and a reader's attempts are the packets at its
positions. Every step of every thread keeps this, provided the writer does not move reader
`i` past the last cell or while it works on a packet.
-/

namespace Smurf.DataBuffer

variable {size numberReaders : Nat} {Packet : Type*}

namespace System

/-- The writer's pointer and the cell it works on are those of the next packet number. -/
structure WriterHolds (system : System size numberReaders Packet) : Prop where
  writePtr : system.buffer.writePtr = system.written.length % size
  slot : ∀ slot, system.writer.slot? = some slot → slot = system.written.length % size
  filled
    : ∀ slot,
        system.writer = .filled slot
        → (system.buffer.data slot).number = system.written.length

/-- What ties reader `i`'s pointer, flags, counters and attempts to the packets written.
`full` may be left over from before an overwrite while a write is pending.
-/
structure ReaderHolds (system : System size numberReaders Packet) (i : Fin numberReaders)
    : Prop where
  le_written : system.buffer.position i ≤ system.written.length
  room
    : system.written.length + system.writer.pending ≤ system.buffer.position i + size
  readPtr : system.buffer.readPtr i = system.buffer.position i % size
  empty : system.buffer.empty i = true ↔ system.buffer.position i = system.written.length
  full
    : system.buffer.full i = true
      → system.written.length + system.writer.pending = system.buffer.position i + size
  full_of_idle
    : system.writer = .idle
      → system.written.length = system.buffer.position i + size
      → system.buffer.full i = true
  overwrote
    : system.buffer.full i = true → system.writer ≠ .idle → system.buffer.OWCnt i ≠ 0
  cells
    : ∀ entry packet,
        system.buffer.position i ≤ entry
        → system.written[entry]? = some packet
        → system.buffer.data (entry % size) = ⟨entry, packet⟩
  held
    : ∀ slot returned,
        (system.reader i).held? = some (slot, returned)
        → slot = system.buffer.readPtr i
          ∧ returned.number = system.buffer.position i
          ∧ system.written[returned.number]? = some returned.packet
  seen
    : ∀ slot returned seen,
        system.reader i = .processed slot returned seen → seen = returned
  completed_length : (system.completed i).length = system.buffer.readCnt i
  completed_lt
    : ∀ packet ∈ system.completed i, packet.number < system.buffer.position i
  completed_nodup : ((system.completed i).map Numbered.number).Nodup
  attempts_written
    : ∀ attempt ∈ system.attempts i,
        system.written[attempt.seen.number]? = some attempt.seen.packet
  attempts_number
    : system.buffer.OWCnt i = 0
      → ∀ index attempt,
          (system.attempts i)[index]? = some attempt
          → attempt.seen.number
            = ((system.attempts i).take index).countP Attempt.completed

theorem writerHolds_start (size numberReaders : Nat) (packet : Packet)
    : WriterHolds (start size numberReaders packet) where
  writePtr := (Nat.zero_mod size).symm
  slot := by simp [start, WriterPhase.slot?]
  filled := by simp [start]

theorem readerHolds_start (size numberReaders : Nat) (positive : 0 < size) (packet : Packet)
    (i : Fin numberReaders)
    : ReaderHolds (start size numberReaders packet) i where
  le_written := Nat.le_refl 0
  room := Nat.zero_le _
  readPtr := (Nat.zero_mod size).symm
  empty := ⟨fun _ => rfl, fun _ => rfl⟩
  full := by simp [start, create]
  full_of_idle := by simp [start, create, position, positive.ne]
  overwrote := by simp [start, create]
  cells := by simp [start]
  held := by simp [start, ReaderPhase.held?]
  seen := by simp [start]
  completed_length := rfl
  completed_lt := by simp [start, completed]
  completed_nodup := List.nodup_nil
  attempts_written := by simp [start]
  attempts_number := by simp [start]

/-- While reader `i` works on a packet, there is one for it and its cell still holds it. -/
theorem ReaderHolds.held_unchanged {system : System size numberReaders Packet}
    {i : Fin numberReaders} (holds : ReaderHolds system i) {slot : Nat}
    {returned : Numbered Packet} (held : (system.reader i).held? = some (slot, returned))
    : system.buffer.position i < system.written.length
      ∧ system.buffer.data slot = returned := by
  obtain ⟨here, number, present⟩ := holds.held slot returned held
  constructor
  · rw [← number]
    exact (List.getElem?_eq_some_iff.mp present).1
  · rw [here, holds.readPtr, ← number, holds.cells _ _ (Nat.le_of_eq number.symm) present]

-----------------------------------------------------------------------------------------
-- The writer's steps
-----------------------------------------------------------------------------------------

/-- The writer may begin a packet without disturbing reader `i`: if the reader's buffer is
full, the reader is not working on a packet and does not point at the last cell.
-/
def OverwriteSafe (system : System size numberReaders Packet) (i : Fin numberReaders)
    : Prop :=
  system.buffer.full i = true
  → system.reader i = .idle ∧ system.buffer.readPtr i + 1 < size

section Writer

variable {system : System size numberReaders Packet} {i : Fin numberReaders}

theorem WriterHolds.getWritePtr (holds : WriterHolds system)
    : WriterHolds (system.step .getWritePtr) := by
  cases phase : system.writer with
  | idle =>
      simp only [step, phase]
      exact {
        writePtr := holds.writePtr
        slot := by
          intro slot same
          rw [← Option.some.inj same]
          exact holds.writePtr
        filled := fun _ busy => by cases busy
      }
  | granted | filled => simpa only [step, phase] using holds

theorem WriterHolds.fill (holds : WriterHolds system) (packet : Packet)
    : WriterHolds (system.step (.fill packet)) := by
  cases phase : system.writer with
  | granted slot =>
      simp only [step, phase]
      exact {
        writePtr := holds.writePtr
        slot := fun other same => holds.slot other (by rw [phase]; exact same)
        filled := by
          intro other same
          obtain rfl := WriterPhase.filled.inj same
          rw [fill_data_self]
      }
  | idle | filled => simpa only [step, phase] using holds

theorem WriterHolds.doneWriting (holds : WriterHolds system) (positive : 0 < size)
    : WriterHolds (system.step .doneWriting) := by
  cases phase : system.writer with
  | filled slot =>
      simp only [step, phase]
      exact {
        writePtr := by
          rw [doneWriting_writePtr, holds.writePtr, CyclicSlots.next_mod positive,
            List.length_append, List.length_singleton]
        slot := fun _ busy => by cases busy
        filled := fun _ busy => by cases busy
      }
  | idle | granted => simpa only [step, phase] using holds

/-- Beginning a packet moves a reader with a full buffer past its oldest packet, which is
never the one it works on. Cases: the full flag the writer tests.
-/
theorem ReaderHolds.getWritePtr (holds : ReaderHolds system i)
    (safe : system.writer = .idle → OverwriteSafe system i)
    : ReaderHolds (system.step .getWritePtr) i := by
  cases phase : system.writer with
  | granted | filled => simpa only [step, phase] using holds
  | idle =>
      have le := holds.le_written
      have room := holds.room
      have fullIff := holds.full
      simp only [phase, WriterPhase.pending, Nat.add_zero] at room fullIff
      simp only [step, phase]
      cases flag : system.buffer.full i with
      | true =>
          obtain ⟨free, inside⟩ := safe phase flag
          have behind := fullIff flag
          have moved
              : system.buffer.getWritePtr.2.position i = system.buffer.position i + 1 := by
            rw [position, getWritePtr_readCnt, getWritePtr_OWCnt, flag, if_pos rfl, position]
            omega
          have lost : system.buffer.getWritePtr.2.OWCnt i ≠ 0 := by
            rw [getWritePtr_OWCnt, flag, if_pos rfl]
            omega
          exact {
            le_written := by rw [moved]; dsimp only; omega
            room := by rw [moved]; simp only [WriterPhase.pending]; omega
            readPtr := by
              rw [moved, getWritePtr_readPtr, flag, if_pos rfl, holds.readPtr]
              exact CyclicSlots.succ_mod (holds.readPtr ▸ inside)
            empty := by
              rw [moved, getWritePtr_empty]
              constructor
              · intro empty
                have := holds.empty.mp empty
                omega
              · intro same
                dsimp only at same
                omega
            full := fun _ => by rw [moved]; simp only [WriterPhase.pending]; omega
            full_of_idle := fun idle => by cases idle
            overwrote := fun _ _ => lost
            cells := by
              intro entry packet le found
              rw [moved] at le
              exact holds.cells entry packet (by omega) found
            held := by simp [free, ReaderPhase.held?]
            seen := by simp [free]
            completed_length := holds.completed_length
            completed_lt := by
              intro packet member
              have := holds.completed_lt packet member
              rw [moved]
              omega
            completed_nodup := holds.completed_nodup
            attempts_written := holds.attempts_written
            attempts_number := fun none => (lost none).elim
          }
      | false =>
          have kept : system.buffer.getWritePtr.2.OWCnt i = system.buffer.OWCnt i := by
            rw [getWritePtr_OWCnt, flag, if_neg Bool.false_ne_true]
          have here : system.buffer.getWritePtr.2.readPtr i = system.buffer.readPtr i := by
            rw [getWritePtr_readPtr, flag, if_neg Bool.false_ne_true]
          have same
              : system.buffer.getWritePtr.2.position i = system.buffer.position i := by
            rw [position, getWritePtr_readCnt, kept, position]
          have notFull : system.written.length ≠ system.buffer.position i + size :=
            fun full => Bool.false_ne_true (flag.symm.trans (holds.full_of_idle phase full))
          exact {
            le_written := by rw [same]; exact le
            room := by rw [same]; simp only [WriterPhase.pending]; omega
            readPtr := by rw [same, here]; exact holds.readPtr
            empty := by rw [same]; exact holds.empty
            full := fun full => (Bool.false_ne_true (flag.symm.trans full)).elim
            full_of_idle := fun idle => by cases idle
            overwrote := fun full => (Bool.false_ne_true (flag.symm.trans full)).elim
            cells := by rw [same]; exact holds.cells
            held := by rw [same, here]; exact holds.held
            seen := holds.seen
            completed_length := holds.completed_length
            completed_lt := by rw [same]; exact holds.completed_lt
            completed_nodup := holds.completed_nodup
            attempts_written := holds.attempts_written
            attempts_number := by rw [kept]; exact holds.attempts_number
          }

/-- Filling the cell leaves every unread packet in place: the cell belongs to the number
after the last packet, which is less than a turn ahead of the reader.
-/
theorem ReaderHolds.fill (holds : ReaderHolds system i) (writer : WriterHolds system)
    (packet : Packet)
    : ReaderHolds (system.step (.fill packet)) i := by
  cases phase : system.writer with
  | idle | filled => simpa only [step, phase] using holds
  | granted slot =>
      have here := writer.slot slot (by rw [phase]; rfl)
      have room := holds.room
      have full := holds.full
      have overwrote := holds.overwrote
      simp only [phase, WriterPhase.pending] at room full overwrote
      simp only [step, phase]
      exact {
        le_written := holds.le_written
        room := room
        readPtr := holds.readPtr
        empty := holds.empty
        full := full
        full_of_idle := fun idle => by cases idle
        overwrote := fun full _ => overwrote full (fun idle => by cases idle)
        cells := by
          intro entry kept le found
          have bound : entry < system.written.length := (List.getElem?_eq_some_iff.mp found).1
          have le : system.buffer.position i ≤ entry := le
          rw [fill_data_of_ne]
          · exact holds.cells entry kept le found
          · rw [here]
            intro same
            have := CyclicSlots.eq_of_mod_eq bound.le (by omega) same
            omega
        held := holds.held
        seen := holds.seen
        completed_length := holds.completed_length
        completed_lt := holds.completed_lt
        completed_nodup := holds.completed_nodup
        attempts_written := holds.attempts_written
        attempts_number := holds.attempts_number
      }

/-- Finishing a packet adds it to those the reader has to read. -/
theorem ReaderHolds.doneWriting (holds : ReaderHolds system i) (writer : WriterHolds system)
    (positive : 0 < size)
    : ReaderHolds (system.step .doneWriting) i := by
  cases phase : system.writer with
  | idle | granted => simpa only [step, phase] using holds
  | filled slot =>
      have here := writer.slot slot (by rw [phase]; rfl)
      have number := writer.filled slot phase
      have le := holds.le_written
      have room := holds.room
      have full := holds.full
      simp only [phase, WriterPhase.pending] at room full
      simp only [step, phase]
      have earlier {entry : Nat} {kept : Packet}
          (found : system.written[entry]? = some kept)
          : (system.written ++ [(system.buffer.data slot).packet])[entry]? = some kept := by
        rw [List.getElem?_append_left (List.getElem?_eq_some_iff.mp found).1]
        exact found
      have length
          : (system.written ++ [(system.buffer.data slot).packet]).length
            = system.written.length + 1 := by
        simp
      have same : system.buffer.doneWriting.position i = system.buffer.position i := rfl
      have raised : system.buffer.doneWriting.full i = true
          ↔ system.written.length + 1 = system.buffer.position i + size := by
        have meet := CyclicSlots.mod_eq_iff size
          (show system.buffer.position i ≤ system.written.length + 1 by omega) room
        rw [doneWriting_full, writer.writePtr, CyclicSlots.next_mod positive, holds.readPtr]
        split
        · next together =>
            have := meet.mp together
            exact ⟨fun _ => by omega, fun _ => rfl⟩
        · next apart =>
            exact ⟨full, fun whole => (apart (meet.mpr (Or.inr whole))).elim⟩
      exact {
        le_written := by rw [same, length]; omega
        room := by rw [same, length]; exact room
        readPtr := holds.readPtr
        empty := by
          rw [same, length, doneWriting_empty]
          constructor
          · intro filled
            cases filled
          · omega
        full := fun whole => by rw [same, length]; exact raised.mp whole
        full_of_idle := fun _ whole => raised.mpr (by rw [same, length] at whole; exact whole)
        overwrote := fun _ busy => (busy rfl).elim
        cells := by
          intro entry kept after found
          rw [same] at after
          rw [doneWriting_data]
          by_cases old : entry < system.written.length
          · rw [List.getElem?_append_left old] at found
            exact holds.cells entry kept after found
          · have bound := (List.getElem?_eq_some_iff.mp found).1
            rw [length] at bound
            obtain rfl : entry = system.written.length := by omega
            rw [List.getElem?_concat_length] at found
            rw [← here]
            exact Numbered.ext number (Option.some.inj found)
        held := fun slot returned held => by
          obtain ⟨cell, at_position, present⟩ := holds.held slot returned held
          exact ⟨cell, at_position, earlier present⟩
        seen := holds.seen
        completed_length := holds.completed_length
        completed_lt := holds.completed_lt
        completed_nodup := holds.completed_nodup
        attempts_written := fun attempt member => earlier (holds.attempts_written attempt member)
        attempts_number := holds.attempts_number
      }

end Writer

-----------------------------------------------------------------------------------------
-- The readers' steps
-----------------------------------------------------------------------------------------

section Reader

variable {system : System size numberReaders Packet} {i j : Fin numberReaders}

/-- Readers never touch the cells, the writer's pointer or what was written. -/
theorem WriterHolds.frame (holds : WriterHolds system)
    {after : System size numberReaders Packet}
    (data : after.buffer.data = system.buffer.data)
    (writePtr : after.buffer.writePtr = system.buffer.writePtr)
    (writer : after.writer = system.writer) (written : after.written = system.written)
    : WriterHolds after where
  writePtr := by
    rw [writePtr, written]
    exact holds.writePtr
  slot := by
    rw [writer, written]
    exact holds.slot
  filled := by
    rw [writer, written, data]
    exact holds.filled

/-- The invariant of reader `i` only looks at its own pointer, flags, counters and attempts,
the cells and the writer.
-/
theorem ReaderHolds.frame (holds : ReaderHolds system i)
    {after : System size numberReaders Packet}
    (data : after.buffer.data = system.buffer.data)
    (readPtr : after.buffer.readPtr i = system.buffer.readPtr i)
    (full : after.buffer.full i = system.buffer.full i)
    (empty : after.buffer.empty i = system.buffer.empty i)
    (readCnt : after.buffer.readCnt i = system.buffer.readCnt i)
    (OWCnt : after.buffer.OWCnt i = system.buffer.OWCnt i)
    (writer : after.writer = system.writer) (written : after.written = system.written)
    (reader : after.reader i = system.reader i)
    (attempts : after.attempts i = system.attempts i)
    : ReaderHolds after i := by
  have position : after.buffer.position i = system.buffer.position i := by
    rw [DataBuffer.position, readCnt, OWCnt, DataBuffer.position]
  have completed : after.completed i = system.completed i := by
    rw [System.completed, attempts, System.completed]
  exact {
    le_written := by rw [position, written]; exact holds.le_written
    room := by rw [position, written, writer]; exact holds.room
    readPtr := by rw [position, readPtr]; exact holds.readPtr
    empty := by rw [position, written, empty]; exact holds.empty
    full := by rw [position, written, writer, full]; exact holds.full
    full_of_idle := by rw [position, written, writer, full]; exact holds.full_of_idle
    overwrote := by rw [full, writer, OWCnt]; exact holds.overwrote
    cells := by rw [position, written, data]; exact holds.cells
    held := by rw [position, written, reader, readPtr]; exact holds.held
    seen := by rw [reader]; exact holds.seen
    completed_length := by rw [completed, readCnt]; exact holds.completed_length
    completed_lt := by rw [completed, position]; exact holds.completed_lt
    completed_nodup := by rw [completed]; exact holds.completed_nodup
    attempts_written := by rw [attempts, written]; exact holds.attempts_written
    attempts_number := by rw [attempts, OWCnt]; exact holds.attempts_number
  }

/-- A further attempt at the packet of its position keeps the numbering of the attempts:
before it, as many were completed as the reader has read.
-/
theorem ReaderHolds.attempts_snoc (holds : ReaderHolds system i) {slot : Nat}
    {returned : Numbered Packet} (held : (system.reader i).held? = some (slot, returned))
    (completes : Bool) (keeps : system.buffer.OWCnt i = 0)
    (index : Nat) (attempt : Attempt Packet)
    (found : (system.attempts i ++ [Attempt.mk returned completes])[index]? = some attempt)
    : attempt.seen.number
      = ((system.attempts i ++ [Attempt.mk returned completes]).take index).countP
          Attempt.completed := by
  have bound := (List.getElem?_eq_some_iff.mp found).1
  rw [List.length_append, List.length_singleton] at bound
  rw [List.take_append_of_le_length (by omega)]
  by_cases old : index < (system.attempts i).length
  · rw [List.getElem?_append_left old] at found
    exact holds.attempts_number keeps index attempt found
  · obtain rfl : index = (system.attempts i).length := by omega
    rw [List.getElem?_concat_length] at found
    obtain rfl := Option.some.inj found
    have read := holds.completed_length
    rw [completed, List.length_map, ← List.countP_eq_length_filter] at read
    rw [List.take_length, read, (holds.held slot returned held).2.1, position, keeps,
      Nat.add_zero]

theorem ReaderHolds.attempts_snoc_written (holds : ReaderHolds system i) {slot : Nat}
    {returned : Numbered Packet} (held : (system.reader i).held? = some (slot, returned))
    (completes : Bool)
    : ∀ attempt ∈ system.attempts i ++ [⟨returned, completes⟩],
        system.written[attempt.seen.number]? = some attempt.seen.packet := by
  intro attempt member
  rcases List.mem_append.mp member with earlier | now
  · exact holds.attempts_written attempt earlier
  · rw [List.mem_singleton.mp now]
    exact (holds.held slot returned held).2.2

/-- A reader that gets a packet gets the one at its position. -/
theorem ReaderHolds.getReadPtr (holds : ReaderHolds system i)
    : ReaderHolds (system.step (.getReadPtr i)) i := by
  cases phase : system.reader i with
  | holding | processed => simpa only [step, phase] using holds
  | idle =>
      cases empty : system.buffer.empty i with
      | true => simpa only [step, phase, isEmpty, empty, if_pos] using holds
      | false =>
          have left : system.buffer.position i < system.written.length := by
            have le := holds.le_written
            have notEmpty := mt holds.empty.mpr (Bool.eq_false_iff.mp empty)
            omega
          have present := List.getElem?_eq_getElem left
          have content := holds.cells _ _ (Nat.le_refl _) present
          rw [← holds.readPtr] at content
          have taken
              : system.step (.getReadPtr i)
                = { system with
                    reader := Function.update system.reader i
                      (.holding (system.buffer.readPtr i)
                        (system.buffer.data (system.buffer.readPtr i))) } := by
            simp [step, phase, isEmpty, empty, getReadPtr_of_not_empty]
          rw [taken]
          exact { holds with
            held := by
              intro slot returned held
              simp only [Function.update_self, ReaderPhase.held?, Option.some.injEq,
                Prod.mk.injEq] at held
              obtain ⟨rfl, rfl⟩ := held
              rw [content]
              exact ⟨rfl, rfl, present⟩
            seen := by simp
          }

/-- Processing a packet sees what `getReadPtr` returned, whether it returns or throws. -/
theorem ReaderHolds.process (holds : ReaderHolds system i) (returns : Bool)
    : ReaderHolds (system.step (.process i returns)) i := by
  cases phase : system.reader i with
  | idle | processed => simpa only [step, phase] using holds
  | holding slot returned =>
      have held : (system.reader i).held? = some (slot, returned) := by rw [phase]; rfl
      have content := (holds.held_unchanged held).2
      cases returns with
      | true =>
          simp only [step, phase, if_pos]
          exact { holds with
            held := by
              intro other same again
              simp only [Function.update_self, ReaderPhase.held?] at again
              exact holds.held other same (held.trans again)
            seen := by
              intro other before seen again
              simp only [Function.update_self, ReaderPhase.processed.injEq] at again
              obtain ⟨rfl, rfl, rfl⟩ := again
              exact content
          }
      | false =>
          simp only [step, phase, Bool.false_eq_true, if_false, content]
          have completed
              : ((system.attempts i ++ [Attempt.mk returned false]).filter
                    Attempt.completed).map
                  Attempt.seen
                = system.completed i := by
            simp [System.completed]
          exact { holds with
            held := by simp [ReaderPhase.held?]
            seen := by simp
            completed_length := by
              simp only [System.completed, Function.update_self, completed]
              exact holds.completed_length
            completed_lt := by
              simp only [System.completed, Function.update_self, completed]
              exact holds.completed_lt
            completed_nodup := by
              simp only [System.completed, Function.update_self, completed]
              exact holds.completed_nodup
            attempts_written := by
              simp only [Function.update_self]
              exact holds.attempts_snoc_written held false
            attempts_number := by
              simp only [Function.update_self]
              exact holds.attempts_snoc held false
          }

/-- `doneReading` retires the packet the reader held. -/
theorem ReaderHolds.doneReading (holds : ReaderHolds system i)
    (writer : WriterHolds system) (positive : 0 < size)
    : ReaderHolds (system.step (.doneReading i)) i := by
  cases phase : system.reader i with
  | idle | holding => simpa only [step, phase] using holds
  | processed slot returned seen =>
      obtain rfl := holds.seen slot returned seen phase
      have held : (system.reader i).held? = some (slot, seen) := by rw [phase]; rfl
      obtain ⟨here, number, present⟩ := holds.held slot seen held
      have left := (holds.held_unchanged held).1
      have room := holds.room
      have moved
          : (system.buffer.doneReading i).position i = system.buffer.position i + 1 := by
        rw [position, doneReading_readCnt_self, doneReading_OWCnt, position]
        omega
      have pending : system.buffer.empty i = false :=
        Bool.eq_false_iff.mpr (fun empty => by have := holds.empty.mp empty; omega)
      have reached := CyclicSlots.mod_eq_iff size
        (show system.buffer.position i + 1 ≤ system.written.length by omega) (by omega)
      simp only [step, phase]
      have completed
          : ((system.attempts i ++ [Attempt.mk seen true]).filter Attempt.completed).map
              Attempt.seen
            = system.completed i ++ [seen] := by
        simp [System.completed]
      exact {
        le_written := by rw [moved]; exact left
        room := by rw [moved]; dsimp only; omega
        readPtr := by
          rw [moved, doneReading_readPtr_self, holds.readPtr, CyclicSlots.next_mod positive]
        empty := by
          rw [moved, doneReading_empty_self, holds.readPtr, CyclicSlots.next_mod positive,
            writer.writePtr, pending]
          simp only [Bool.if_false_right, Bool.and_true, decide_eq_true_eq]
          rw [eq_comm, reached]
          omega
        full := by simp
        full_of_idle := by
          intro idle
          rw [moved]
          dsimp only
          omega
        overwrote := by simp
        cells := by
          intro entry packet after found
          rw [moved] at after
          exact holds.cells entry packet (by omega) found
        held := by simp [ReaderPhase.held?]
        seen := by simp
        completed_length := by
          simp only [System.completed, Function.update_self, completed, List.length_append,
            List.length_singleton, doneReading_readCnt_self]
          rw [← holds.completed_length, System.completed]
        completed_lt := by
          intro packet member
          simp only [System.completed, Function.update_self, completed] at member
          rw [moved]
          rcases List.mem_append.mp member with earlier | now
          · have := holds.completed_lt packet earlier
            omega
          · rw [List.mem_singleton.mp now]
            omega
        completed_nodup := by
          simp only [System.completed, Function.update_self, completed, List.map_append,
            List.map_cons, List.map_nil]
          refine List.nodup_append.mpr ⟨holds.completed_nodup, List.nodup_singleton _, ?_⟩
          intro before earlier now member same
          obtain ⟨packet, among, rfl⟩ := List.mem_map.mp earlier
          rw [List.mem_singleton.mp member] at same
          have := holds.completed_lt packet among
          omega
        attempts_written := by
          simp only [Function.update_self]
          exact holds.attempts_snoc_written held true
        attempts_number := by
          simp only [Function.update_self]
          exact holds.attempts_snoc held true
      }

/-- The readers' steps keep the writer's invariant, one case for each step. -/
theorem WriterHolds.readerStep (holds : WriterHolds system) (j : Fin numberReaders)
    (returns : Bool)
    : WriterHolds (system.step (.getReadPtr j))
      ∧ WriterHolds (system.step (.process j returns))
      ∧ WriterHolds (system.step (.doneReading j)) := by
  refine ⟨?_, ?_, ?_⟩
  · cases phase : system.reader j with
    | holding | processed => simpa only [step, phase] using holds
    | idle =>
        cases empty : system.buffer.empty j <;>
          simp only [step, phase, isEmpty, empty, DataBuffer.getReadPtr, if_pos,
            Bool.false_eq_true, if_false] <;>
          exact holds.frame rfl rfl rfl rfl
  · cases phase : system.reader j with
    | idle | processed => simpa only [step, phase] using holds
    | holding => cases returns <;> simp only [step, phase] <;> exact holds.frame rfl rfl rfl rfl
  · cases phase : system.reader j with
    | idle | holding => simpa only [step, phase] using holds
    | processed =>
        simp only [step, phase]
        exact holds.frame rfl rfl rfl rfl

/-- Another reader's steps keep reader `i`'s invariant. -/
theorem ReaderHolds.readerStep_of_ne (holds : ReaderHolds system i) (ne : i ≠ j)
    (returns : Bool)
    : ReaderHolds (system.step (.getReadPtr j)) i
      ∧ ReaderHolds (system.step (.process j returns)) i
      ∧ ReaderHolds (system.step (.doneReading j)) i := by
  refine ⟨?_, ?_, ?_⟩
  · cases phase : system.reader j with
    | holding | processed => simpa only [step, phase] using holds
    | idle =>
        cases empty : system.buffer.empty j with
        | true => simpa only [step, phase, isEmpty, empty, if_pos] using holds
        | false =>
            simp only [step, phase, isEmpty, empty, DataBuffer.getReadPtr, Bool.false_eq_true,
              if_false]
            exact holds.frame rfl rfl rfl rfl rfl rfl rfl rfl (Function.update_of_ne ne ..) rfl
  · cases phase : system.reader j with
    | idle | processed => simpa only [step, phase] using holds
    | holding =>
        cases returns with
        | true =>
            simp only [step, phase]
            exact holds.frame rfl rfl rfl rfl rfl rfl rfl rfl (Function.update_of_ne ne ..) rfl
        | false =>
            simp only [step, phase]
            exact holds.frame rfl rfl rfl rfl rfl rfl rfl rfl (Function.update_of_ne ne ..)
              (Function.update_of_ne ne ..)
  · cases phase : system.reader j with
    | idle | holding => simpa only [step, phase] using holds
    | processed =>
        obtain ⟨readPtr, full, empty, readCnt⟩ := system.buffer.doneReading_of_ne ne
        simp only [step, phase]
        exact holds.frame rfl readPtr full empty readCnt rfl rfl rfl
          (Function.update_of_ne ne ..) (Function.update_of_ne ne ..)

end Reader

-----------------------------------------------------------------------------------------
-- Every step of every thread
-----------------------------------------------------------------------------------------

section Step

variable {system : System size numberReaders Packet} {i : Fin numberReaders}

theorem WriterHolds.step (holds : WriterHolds system) (positive : 0 < size)
    (action : Action numberReaders Packet)
    : WriterHolds (system.step action) := by
  cases action with
  | getWritePtr => exact holds.getWritePtr
  | fill packet => exact holds.fill packet
  | doneWriting => exact holds.doneWriting positive
  | getReadPtr j => exact (holds.readerStep j true).1
  | process j returns => exact (holds.readerStep j returns).2.1
  | doneReading j => exact (holds.readerStep j true).2.2

/-- Reader `i`'s invariant survives every step, if the writer begins packets only when that
is safe for reader `i`.
-/
theorem ReaderHolds.step (holds : ReaderHolds system i) (writer : WriterHolds system)
    (positive : 0 < size) (action : Action numberReaders Packet)
    (safe : action = .getWritePtr → system.writer = .idle → OverwriteSafe system i)
    : ReaderHolds (system.step action) i := by
  cases action with
  | getWritePtr => exact holds.getWritePtr (safe rfl)
  | fill packet => exact holds.fill writer packet
  | doneWriting => exact holds.doneWriting writer positive
  | getReadPtr j =>
      by_cases same : i = j
      · exact same ▸ holds.getReadPtr
      · exact (holds.readerStep_of_ne same true).1
  | process j returns =>
      by_cases same : i = j
      · exact same ▸ holds.process returns
      · exact (holds.readerStep_of_ne same returns).2.1
  | doneReading j =>
      by_cases same : i = j
      · exact same ▸ holds.doneReading writer positive
      · exact (holds.readerStep_of_ne same true).2.2

end Step

end System

end Smurf.DataBuffer
