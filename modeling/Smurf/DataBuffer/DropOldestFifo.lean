import Smurf.DataBuffer.Basic
import Smurf.Library.DropOldest
import Smurf.Library.Runs

/-! Under whole writes and whole reads the buffer serves each reader as a bounded queue that
drops its oldest packets, as long as no reader is moved past the last cell.
The queue is described by what was written and which packets each reader took; the buffer's
pointers, flags and counters are tied to it by one relation kept by every operation.
-/

namespace Smurf.DataBuffer

open Runs

variable {size numberReaders : Nat} {Packet : Type*}

-----------------------------------------------------------------------------------------
-- Whole operations, and the history they leave
-----------------------------------------------------------------------------------------

/-- A complete write (`getWritePtr`, fill the cell, `doneWriting`) or a complete read by one
reader (`getReadPtr`, then `doneReading` unless it threw).
-/
inductive Op (numberReaders : Nat) (Packet : Type*)
  | write (packet : Packet)
  | read (i : Fin numberReaders)

def apply (buffer : DataBuffer size numberReaders Packet)
    : Op numberReaders Packet → DataBuffer size numberReaders Packet
  | .write packet =>
      let (slot, granted) := buffer.getWritePtr
      (granted.fill slot packet).doneWriting
  | .read i =>
      match buffer.getReadPtr i with
      | (.ok _, after) => after.doneReading i
      | (.error _, after) => after

/-- What happened so far: the packets written, in order, the numbers of the packets each
reader took, in order, and how often it found nothing to take.
-/
structure History (numberReaders : Nat) (Packet : Type*) where
  written : List Packet
  taken : Fin numberReaders → List Nat
  missed : Fin numberReaders → Nat

def History.start (numberReaders : Nat) (Packet : Type*) : History numberReaders Packet where
  written := []
  taken := fun _ => []
  missed := fun _ => 0

/-- Reader `i` takes packet number `entry`. -/
def History.take (history : History numberReaders Packet) (i : Fin numberReaders)
    (entry : Nat) : History numberReaders Packet :=
  { history with taken := Function.update history.taken i (history.taken i ++ [entry]) }

@[simp] theorem History.take_written (history : History numberReaders Packet)
    (i : Fin numberReaders) (entry : Nat)
    : (history.take i entry).written = history.written :=
  rfl

@[simp] theorem History.take_taken_self (history : History numberReaders Packet)
    (i : Fin numberReaders) (entry : Nat)
    : (history.take i entry).taken i = history.taken i ++ [entry] :=
  Function.update_self ..

theorem History.take_taken_of_ne (history : History numberReaders Packet)
    {i j : Fin numberReaders} (ne : j ≠ i) (entry : Nat)
    : (history.take i entry).taken j = history.taken j :=
  Function.update_of_ne ne ..

/-- The packet a read by `i` takes from a queue that keeps the last `size` packets. -/
def History.oldest? (size : Nat) (history : History numberReaders Packet)
    (i : Fin numberReaders) : Option Nat :=
  DropOldest.oldest? size history.written.length (history.taken i)

/-- The same operation on a queue that keeps the last `size` packets. -/
def History.apply (size : Nat) (history : History numberReaders Packet)
    : Op numberReaders Packet → History numberReaders Packet
  | .write packet => { history with written := history.written ++ [packet] }
  | .read i =>
      match history.oldest? size i with
      | some entry => history.take i entry
      | none =>
          { history with missed := Function.update history.missed i (history.missed i + 1) }

/-- The buffer and its history, taking the same operations. -/
abbrev Tracked (size numberReaders : Nat) (Packet : Type*) :=
  DataBuffer size numberReaders Packet × History numberReaders Packet

def lockstep (tracked : Tracked size numberReaders Packet) (op : Op numberReaders Packet)
    : Tracked size numberReaders Packet :=
  (tracked.1.apply op, tracked.2.apply size op)

def Tracked.start (size numberReaders : Nat) (packet : Packet)
    : Tracked size numberReaders Packet :=
  (create size numberReaders packet, History.start numberReaders Packet)

/-- The buffer does what a drop-oldest queue with this history does: its pointers denote
cells, a read by `i` returns the oldest kept packet that `i` has not taken or throws when
there is none, and the counters count the packets dropped and still readable.
-/
structure ServesDropOldest (tracked : Tracked size numberReaders Packet) : Prop where
  writePtr_lt : tracked.1.writePtr < size
  readPtr_lt : ∀ i, tracked.1.readPtr i < size
  read_oldest
    : ∀ i entry,
        tracked.2.oldest? size i = some entry
        → ∃ slot,
            tracked.1.getReadPtr i = (.ok slot, tracked.1)
            ∧ slot < size
            ∧ tracked.2.written[entry]? = some (tracked.1.data slot)
  read_nothing
    : ∀ i,
        tracked.2.oldest? size i = none
        → tracked.1.getReadPtr i
          = (.error "Trying to read when the buffer is empty",
              { tracked.1 with
                ROFCnt := Function.update tracked.1.ROFCnt i (tracked.1.ROFCnt i + 1) })
  OWCnt_dropped
    : ∀ i,
        tracked.1.OWCnt i
        = (DropOldest.dropped size tracked.2.written.length (tracked.2.taken i)).length
  writeCnt_split
    : ∀ i,
        tracked.1.writeCnt
        = tracked.1.readCnt i + tracked.1.OWCnt i
          + (DropOldest.readable size tracked.2.written.length (tracked.2.taken i)).length

-----------------------------------------------------------------------------------------
-- The relation between the buffer and its history
-----------------------------------------------------------------------------------------

/-- Reader `i`'s pointer, flags and counters stand for its position in the history. -/
structure ReaderTracks (buffer : DataBuffer size numberReaders Packet)
    (history : History numberReaders Packet) (i : Fin numberReaders)
    : Prop where
  cursor
    : DropOldest.Cursor size history.written.length (history.taken i) (buffer.position i)
  readCnt : buffer.readCnt i = (history.taken i).length
  readPtr : buffer.readPtr i = buffer.position i % size
  empty : buffer.empty i = true ↔ buffer.position i = history.written.length
  full : buffer.full i = true ↔ history.written.length = buffer.position i + size

/-- The writer's pointer and the cells stand for the last `size` packets written. -/
structure WriterTracks (buffer : DataBuffer size numberReaders Packet)
    (history : History numberReaders Packet)
    : Prop where
  writeCnt : buffer.writeCnt = history.written.length
  writePtr : buffer.writePtr = history.written.length % size
  cells
    : ∀ entry packet,
        history.written[entry]? = some packet
        → history.written.length ≤ entry + size
        → buffer.data (entry % size) = packet

/-- The whole buffer stands for the history. -/
structure Tracks (tracked : Tracked size numberReaders Packet) : Prop where
  writer : WriterTracks tracked.1 tracked.2
  reader : ∀ i, ReaderTracks tracked.1 tracked.2 i

theorem tracks_start (size numberReaders : Nat) (positive : 0 < size) (packet : Packet)
    : Tracks (Tracked.start size numberReaders packet) where
  writer := {
    writeCnt := rfl
    writePtr := (Nat.zero_mod size).symm
    cells := by simp [Tracked.start, History.start]
  }
  reader := fun i => {
    cursor := DropOldest.Cursor.start size
    readCnt := rfl
    readPtr := (Nat.zero_mod size).symm
    empty := by simp [Tracked.start, create, History.start, position]
    full := by simp [Tracked.start, create, History.start, position, positive.ne]
  }

/-- A buffer that stands for its history serves its readers from it. -/
theorem Tracks.serves {tracked : Tracked size numberReaders Packet} (positive : 0 < size)
    (tracks : Tracks tracked)
    : ServesDropOldest tracked where
  writePtr_lt := by
    rw [tracks.writer.writePtr]
    exact Nat.mod_lt _ positive
  readPtr_lt := fun i => by
    rw [(tracks.reader i).readPtr]
    exact Nat.mod_lt _ positive
  read_oldest := by
    intro i entry found
    have reader := tracks.reader i
    rw [History.oldest?, reader.cursor.oldest?_eq] at found
    split at found
    · next left =>
        obtain rfl := Option.some.inj found
        have pending : tracked.1.empty i = false :=
          Bool.eq_false_iff.mpr (fun empty => by have := reader.empty.mp empty; omega)
        refine ⟨_, tracked.1.getReadPtr_of_not_empty i pending, ?_, ?_⟩
        · rw [reader.readPtr]
          exact Nat.mod_lt _ positive
        · have present := List.getElem?_eq_getElem left
          rw [present, reader.readPtr,
            tracks.writer.cells _ _ present reader.cursor.within]
    · cases found
  read_nothing := by
    intro i none
    have reader := tracks.reader i
    rw [History.oldest?, reader.cursor.oldest?_eq] at none
    split at none
    · cases none
    · have := reader.cursor.le_written
      exact tracked.1.getReadPtr_of_empty i (reader.empty.mpr (by omega))
  OWCnt_dropped := fun i => by
    have split := (tracks.reader i).cursor.dropped_length
    rw [← (tracks.reader i).readCnt, position] at split
    omega
  writeCnt_split := fun i => by
    rw [(tracks.reader i).cursor.readable_length, tracks.writer.writeCnt]
    have := (tracks.reader i).cursor.le_written
    rw [position] at *
    omega

-----------------------------------------------------------------------------------------
-- Each operation keeps the relation
-----------------------------------------------------------------------------------------

/-- An overwrite moves no reader past the last cell: a reader whose buffer is full when a
packet is written does not point at the last cell.
-/
def OverwriteInside (tracked : Tracked size numberReaders Packet)
    : Op numberReaders Packet → Prop
  | .write _ => ∀ i, tracked.1.full i = true → tracked.1.readPtr i + 1 < size
  | .read _ => True

instance (tracked : Tracked size numberReaders Packet) (op : Op numberReaders Packet)
    : Decidable (OverwriteInside tracked op) :=
  match op with
  | .write _ =>
      inferInstanceAs
        (Decidable (∀ i, tracked.1.full i = true → tracked.1.readPtr i + 1 < size))
  | .read _ => inferInstanceAs (Decidable True)

/-- A write puts the packet in the cell of its number and leaves the other kept packets
where they are.
-/
theorem WriterTracks.write {buffer : DataBuffer size numberReaders Packet}
    {history : History numberReaders Packet} (positive : 0 < size)
    (tracks : WriterTracks buffer history) (packet : Packet)
    : WriterTracks (buffer.apply (.write packet)) (history.apply size (.write packet)) where
  writeCnt := by simp [apply, History.apply, tracks.writeCnt]
  writePtr := by
    simp [apply, History.apply, tracks.writePtr, CyclicSlots.next_mod positive]
  cells := by
    intro entry kept found near
    simp only [History.apply, List.length_append, List.length_singleton] at near found
    simp only [apply, getWritePtr_slot, doneWriting_data]
    by_cases old : entry < history.written.length
    · rw [List.getElem?_append_left old] at found
      rw [fill_data_of_ne]
      · exact tracks.cells entry kept found (by omega)
      · rw [tracks.writePtr]
        intro same
        have := CyclicSlots.eq_of_mod_eq (by omega) (by omega) same
        omega
    · have bound := (List.getElem?_eq_some_iff.mp found).1
      rw [List.length_append, List.length_singleton] at bound
      obtain rfl : entry = history.written.length := by omega
      rw [List.getElem?_concat_length] at found
      rw [← tracks.writePtr, fill_data_self]
      exact Option.some.inj found

/-- A write keeps a reader's place, dropping its oldest packet when its buffer is full.
Cases: the full flag the writer tests.
-/
theorem ReaderTracks.write {buffer : DataBuffer size numberReaders Packet}
    {history : History numberReaders Packet} {i : Fin numberReaders} (positive : 0 < size)
    (writer : WriterTracks buffer history) (tracks : ReaderTracks buffer history i)
    (inside : buffer.full i = true → buffer.readPtr i + 1 < size) (packet : Packet)
    : ReaderTracks (buffer.apply (.write packet)) (history.apply size (.write packet)) i := by
  have le := tracks.cursor.le_written
  have within := tracks.cursor.within
  have readPtr : (buffer.apply (.write packet)).readPtr i
      = if buffer.full i then buffer.readPtr i + 1 else buffer.readPtr i :=
    rfl
  have moved : (buffer.apply (.write packet)).position i
      = if buffer.full i then buffer.position i + 1 else buffer.position i := by
    simp only [position, apply, doneWriting_readCnt, fill_readCnt, getWritePtr_readCnt,
      doneWriting_OWCnt, fill_OWCnt, getWritePtr_OWCnt]
    split <;> omega
  have length : (history.apply size (.write packet)).written.length
      = history.written.length + 1 := by
    simp [History.apply]
  have raised : (buffer.apply (.write packet)).full i
      = if (history.written.length + 1) % size = (buffer.apply (.write packet)).readPtr i
        then true else buffer.full i := by
    simp only [apply, doneWriting_full, fill_writePtr, getWritePtr_writePtr, writer.writePtr,
      CyclicSlots.next_mod positive]
    rfl
  cases flag : buffer.full i with
  | true =>
      have full := tracks.full.mp flag
      simp only [flag, if_true] at readPtr moved raised
      have place : (buffer.apply (.write packet)).readPtr i
          = (buffer.position i + 1) % size := by
        rw [readPtr, tracks.readPtr]
        exact CyclicSlots.succ_mod (tracks.readPtr ▸ inside flag)
      exact {
        cursor := by
          rw [moved, length]
          exact tracks.cursor.overwrite positive full
        readCnt := tracks.readCnt
        readPtr := by rw [moved, place]
        empty := by
          rw [moved, length]
          simp only [apply, doneWriting_empty]
          constructor
          · nofun
          · omega
        full := by
          rw [moved, length, raised, ite_self]
          exact ⟨fun _ => by omega, fun _ => rfl⟩
      }
  | false =>
      have room : history.written.length ≠ buffer.position i + size :=
        fun full => Bool.false_ne_true (flag.symm.trans (tracks.full.mpr full))
      simp only [flag, Bool.false_eq_true, if_false] at readPtr moved raised
      exact {
        cursor := by
          rw [moved, length]
          exact tracks.cursor.write (by omega)
        readCnt := tracks.readCnt
        readPtr := by rw [moved, readPtr, tracks.readPtr]
        empty := by
          rw [moved, length]
          simp only [apply, doneWriting_empty]
          constructor
          · nofun
          · omega
        full := by
          rw [moved, length, raised, readPtr, tracks.readPtr]
          have meet := CyclicSlots.mod_eq_iff size
            (show buffer.position i ≤ history.written.length + 1 by omega) (by omega)
          simp only [meet, Bool.if_false_right, Bool.and_true, decide_eq_true_eq]
          omega
      }

/-- A read moves the reader that has a packet left past it. -/
theorem ReaderTracks.read {buffer : DataBuffer size numberReaders Packet}
    {history : History numberReaders Packet} {i : Fin numberReaders} (positive : 0 < size)
    (writer : WriterTracks buffer history) (tracks : ReaderTracks buffer history i)
    (left : buffer.position i < history.written.length)
    : ReaderTracks (buffer.doneReading i) (history.take i (buffer.position i)) i := by
  have within := tracks.cursor.within
  have moved : (buffer.doneReading i).position i = buffer.position i + 1 := by
    simp only [position, doneReading_readCnt_self, doneReading_OWCnt]
    omega
  have pending : buffer.empty i = false :=
    Bool.eq_false_iff.mpr (fun empty => by have := tracks.empty.mp empty; omega)
  have reached := CyclicSlots.mod_eq_iff size
    (show buffer.position i + 1 ≤ history.written.length by omega) (by omega)
  exact {
    cursor := by
      rw [moved, History.take_taken_self]
      exact tracks.cursor.read left
    readCnt := by simp [tracks.readCnt]
    readPtr := by
      rw [moved, doneReading_readPtr_self, tracks.readPtr, CyclicSlots.next_mod positive]
    empty := by
      rw [moved, doneReading_empty_self, tracks.readPtr, CyclicSlots.next_mod positive,
        writer.writePtr, pending, History.take_written]
      simp only [Bool.if_false_right, Bool.and_true, decide_eq_true_eq]
      rw [eq_comm, reached]
      omega
    full := by
      rw [moved, doneReading_full_self]
      constructor
      · nofun
      · rw [History.take_written]
        omega
  }

/-- A read by another reader leaves a reader's place alone. -/
theorem ReaderTracks.read_of_ne {buffer : DataBuffer size numberReaders Packet}
    {history : History numberReaders Packet} {i j : Fin numberReaders} (ne : j ≠ i)
    (tracks : ReaderTracks buffer history j) (entry : Nat)
    : ReaderTracks (buffer.doneReading i) (history.take i entry) j := by
  obtain ⟨readPtr, full, empty, readCnt⟩ := buffer.doneReading_of_ne ne
  have same : (buffer.doneReading i).position j = buffer.position j := by
    rw [position, readCnt, doneReading_OWCnt, position]
  exact {
    cursor := by
      rw [same, history.take_taken_of_ne ne]
      exact tracks.cursor
    readCnt := by
      rw [readCnt, history.take_taken_of_ne ne]
      exact tracks.readCnt
    readPtr := by rw [same, readPtr, tracks.readPtr]
    empty := by
      rw [same, empty]
      exact tracks.empty
    full := by
      rw [same, full]
      exact tracks.full
  }

/-- Every guarded operation keeps the relation, one case for each operation. -/
theorem Tracks.lockstep {tracked : Tracked size numberReaders Packet} (positive : 0 < size)
    (tracks : Tracks tracked) (op : Op numberReaders Packet)
    (inside : OverwriteInside tracked op)
    : Tracks (lockstep tracked op) := by
  cases op with
  | write packet =>
      exact ⟨tracks.writer.write positive packet,
        fun i => (tracks.reader i).write positive tracks.writer (inside i) packet⟩
  | read i =>
      have reader := tracks.reader i
      have oldest := reader.cursor.oldest?_eq
      by_cases left : tracked.1.position i < tracked.2.written.length
      · have pending : tracked.1.empty i = false :=
          Bool.eq_false_iff.mpr (fun empty => by have := reader.empty.mp empty; omega)
        rw [if_pos left] at oldest
        have taken : DataBuffer.lockstep tracked (.read i)
            = (tracked.1.doneReading i, tracked.2.take i (tracked.1.position i)) := by
          simp only [DataBuffer.lockstep, apply, tracked.1.getReadPtr_of_not_empty i pending,
            History.apply, History.oldest?, oldest]
        rw [taken]
        refine ⟨⟨tracks.writer.writeCnt, tracks.writer.writePtr, tracks.writer.cells⟩, ?_⟩
        intro j
        by_cases same : j = i
        · subst j
          exact reader.read positive tracks.writer left
        · exact (tracks.reader j).read_of_ne same _
      · have le := reader.cursor.le_written
        have empty := reader.empty.mpr (by omega)
        rw [if_neg left] at oldest
        -- a read that throws touches only the overflow counter of its reader
        simp only [DataBuffer.lockstep, apply, tracked.1.getReadPtr_of_empty i empty,
          History.apply, History.oldest?, oldest]
        exact ⟨⟨tracks.writer.writeCnt, tracks.writer.writePtr, tracks.writer.cells⟩,
          fun j =>
            ⟨(tracks.reader j).cursor, (tracks.reader j).readCnt, (tracks.reader j).readPtr,
              (tracks.reader j).empty, (tracks.reader j).full⟩⟩

/-- A write that moves a reader past the last cell leaves its pointer at no cell. -/
theorem not_serves_of_overwriteOutside {tracked : Tracked size numberReaders Packet}
    (op : Op numberReaders Packet) (outside : ¬ OverwriteInside tracked op)
    : ¬ ServesDropOldest (lockstep tracked op) := by
  intro serves
  cases op with
  | read i => exact outside trivial
  | write packet =>
      refine outside (fun i full => ?_)
      have inside := serves.readPtr_lt i
      simpa [lockstep, apply, getWritePtr_readPtr, full] using inside

-----------------------------------------------------------------------------------------
-- Whole runs
-----------------------------------------------------------------------------------------

/-- For every buffer size and every sequence of whole writes and reads, the buffer serves
its readers as a drop-oldest queue all along exactly when no write finds a reader with a
full buffer at the last cell.
-/
theorem servesDropOldest_iff (positive : 0 < size) (packet : Packet)
    (ops : List (Op numberReaders Packet))
    : EachState lockstep ServesDropOldest (Tracked.start size numberReaders packet) ops
      ↔ EachStep lockstep OverwriteInside (Tracked.start size numberReaders packet) ops :=
  eachState_iff_eachStep (tracks_start size numberReaders positive packet)
    (fun _ tracks => tracks.serves positive)
    (fun _ op tracks inside => tracks.lockstep positive op inside)
    (fun _ op _ outside => not_serves_of_overwriteOutside op outside)

/-- Two readers at different speeds and one overwrite inside a buffer of three cells. -/
theorem servesDropOldest_three_cells
    : EachState lockstep ServesDropOldest (Tracked.start 3 2 0)
        [.write 10, .write 11, .read 0, .write 12, .write 13, .read 1, .read 1, .read 0] :=
  (servesDropOldest_iff (by decide) 0 _).mpr (by decide)

/-- The processor's own buffer of ten cells: readers that never read are moved past the last
cell by the twentieth packet.
-/
theorem not_servesDropOldest_unread
    : ¬ EachState lockstep ServesDropOldest (Tracked.start 10 2 0)
        (List.replicate 20 (.write 1)) := by
  intro serves
  exact absurd (serves.final.readPtr_lt 0) (by decide)

end Smurf.DataBuffer
