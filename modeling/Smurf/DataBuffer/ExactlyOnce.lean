import Mathlib.Data.List.Induction
import Smurf.DataBuffer.SlotInvariant
import Smurf.Library.Runs

/-! Exactly-once, in-order delivery while no reader overflows.
Without an overwrite every reader's position is the number of packets it has read, so its
attempts run through the packets written one by one.
-/

namespace Smurf.DataBuffer.System

open Runs

variable {size numberReaders : Nat} {Packet : Type*}

/-- No reader's buffer is full when the writer begins a packet. -/
def NoneFull (system : System size numberReaders Packet)
    (action : Action numberReaders Packet) : Prop :=
  action = .getWritePtr → system.writer = .idle → ∀ i, system.buffer.full i = false

instance [DecidableEq Packet] (system : System size numberReaders Packet)
    (action : Action numberReaders Packet)
    : Decidable (NoneFull system action) :=
  inferInstanceAs
    (Decidable
      (action = .getWritePtr → system.writer = .idle → ∀ i, system.buffer.full i = false))

/-- The slot invariant of all parties, with no packet lost so far. -/
structure NoLoss (system : System size numberReaders Packet) : Prop where
  writer : WriterHolds system
  reader : ∀ i, ReaderHolds system i
  lossless : ∀ i, system.buffer.OWCnt i = 0

theorem noLoss_start (size numberReaders : Nat) (positive : 0 < size) (packet : Packet)
    : NoLoss (start size numberReaders packet) where
  writer := writerHolds_start size numberReaders packet
  reader := readerHolds_start size numberReaders positive packet
  lossless := fun _ => rfl

/-- Only beginning a packet while a reader's buffer is full counts an overwrite for it. -/
theorem step_OWCnt_of_not_full {system : System size numberReaders Packet}
    {action : Action numberReaders Packet} {i : Fin numberReaders}
    (guarded
      : action = .getWritePtr → system.writer = .idle → system.buffer.full i = false)
    : (system.step action).buffer.OWCnt i = system.buffer.OWCnt i := by
  cases action with
  | getWritePtr =>
      cases phase : system.writer with
      | idle =>
          have notFull := guarded rfl phase
          simp only [step, phase, getWritePtr_OWCnt, notFull, Bool.false_eq_true, if_false]
      | granted | filled => simp only [step, phase]
  | fill packet => cases phase : system.writer <;> simp only [step, phase, fill_OWCnt]
  | doneWriting => cases phase : system.writer <;> simp only [step, phase, doneWriting_OWCnt]
  | getReadPtr j =>
      cases phase : system.reader j with
      | idle =>
          cases empty : system.buffer.empty j <;>
            simp [step, phase, isEmpty, empty, getReadPtr]
      | holding | processed => simp only [step, phase]
  | process j returns =>
      cases phase : system.reader j with
      | holding => cases returns <;> simp [step, phase]
      | idle | processed => simp only [step, phase]
  | doneReading j =>
      cases phase : system.reader j <;> simp only [step, phase, doneReading_OWCnt]

/-- While no reader's buffer is full, none counts an overwrite. -/
theorem step_OWCnt {system : System size numberReaders Packet}
    {action : Action numberReaders Packet} (guarded : NoneFull system action)
    (i : Fin numberReaders)
    : (system.step action).buffer.OWCnt i = system.buffer.OWCnt i :=
  step_OWCnt_of_not_full (fun begins idle => guarded begins idle i)

theorem NoLoss.step {system : System size numberReaders Packet} (positive : 0 < size)
    (noLoss : NoLoss system) (action : Action numberReaders Packet)
    (guarded : NoneFull system action)
    : NoLoss (system.step action) where
  writer := noLoss.writer.step positive action
  reader := fun i =>
    (noLoss.reader i).step noLoss.writer positive action
      (fun begins idle full =>
        (Bool.false_ne_true ((guarded begins idle i).symm.trans full)).elim)
  lossless := fun i => by
    rw [step_OWCnt guarded i]
    exact noLoss.lossless i

/-- The slot invariant of the writer and one reader, which lost no packet so far, whatever
became of the others.
-/
structure Lossless (system : System size numberReaders Packet) (i : Fin numberReaders)
    : Prop where
  writer : WriterHolds system
  reader : ReaderHolds system i
  kept : system.buffer.OWCnt i = 0

theorem NoLoss.of_reader {system : System size numberReaders Packet} (noLoss : NoLoss system)
    (i : Fin numberReaders)
    : Lossless system i :=
  ⟨noLoss.writer, noLoss.reader i, noLoss.lossless i⟩

theorem Lossless.position_eq {system : System size numberReaders Packet}
    {i : Fin numberReaders} (lossless : Lossless system i)
    : system.buffer.position i = (system.completed i).length := by
  rw [lossless.reader.completed_length, position, lossless.kept, Nat.add_zero]

theorem Lossless.redelivers {system : System size numberReaders Packet}
    {i : Fin numberReaders} (lossless : Lossless system i) (index : Nat)
    (attempt : Attempt Packet) (found : (system.attempts i)[index]? = some attempt)
    : system.written[((system.attempts i).take index).countP Attempt.completed]?
      = some attempt.seen.packet := by
  rw [← lossless.reader.attempts_number lossless.kept index attempt found]
  exact lossless.reader.attempts_written attempt (List.mem_of_getElem? found)

/-- With no packet lost a reader's position is the number of packets it completed. -/
theorem NoLoss.position_eq {system : System size numberReaders Packet}
    (noLoss : NoLoss system) (i : Fin numberReaders)
    : system.buffer.position i = (system.completed i).length :=
  (noLoss.of_reader i).position_eq

/-- Every attempt is at the packet numbered by the completed attempts before it. -/
theorem NoLoss.redelivers {system : System size numberReaders Packet}
    (noLoss : NoLoss system) (i : Fin numberReaders) (index : Nat) (attempt : Attempt Packet)
    (found : (system.attempts i)[index]? = some attempt)
    : system.written[((system.attempts i).take index).countP Attempt.completed]?
      = some attempt.seen.packet :=
  (noLoss.of_reader i).redelivers index attempt found

/-- Attempts numbered by the completed ones before them complete the packets in order.
Witness: induction on the attempts from the last one.
-/
theorem completed_prefix {written : List Packet} (attempts : List (Attempt Packet))
    (numbered
      : ∀ index attempt,
          attempts[index]? = some attempt
          → written[(attempts.take index).countP Attempt.completed]?
            = some attempt.seen.packet)
    : ((attempts.filter Attempt.completed).map Attempt.seen).map Numbered.packet
      = written.take (attempts.countP Attempt.completed) := by
  induction attempts using List.reverseRecOn with
  | nil => simp
  | append_singleton earlier last ih =>
      have before
          : ((earlier.filter Attempt.completed).map Attempt.seen).map Numbered.packet
            = written.take (earlier.countP Attempt.completed) := by
        refine ih (fun index attempt found => ?_)
        have bound := (List.getElem?_eq_some_iff.mp found).1
        have next := numbered index attempt (by rw [List.getElem?_append_left bound]; exact found)
        rwa [List.take_append_of_le_length bound.le] at next
      have here := numbered earlier.length last List.getElem?_concat_length
      rw [List.take_left'] at here
      · cases ended : last.completed with
        | false => simpa [List.filter_append, List.countP_append, ended] using before
        | true =>
            have grown
                : written.take (earlier.countP Attempt.completed + 1)
                  = written.take (earlier.countP Attempt.completed) ++ [last.seen.packet] := by
              rw [List.take_add_one, here, Option.toList_some]
            simp only [List.filter_append, List.filter_singleton, ended, List.map_append,
              List.countP_append, List.countP_singleton, if_true, cond_true]
            rw [before, grown]
            rfl
      · rfl

/-- The completed packets are the first ones written. -/
theorem Lossless.inOrder {system : System size numberReaders Packet} {i : Fin numberReaders}
    (lossless : Lossless system i)
    : (system.completed i).map Numbered.packet <+: system.written := by
  rw [completed, completed_prefix _ lossless.redelivers]
  exact List.take_prefix _ _

theorem lossless_start (size numberReaders : Nat) (positive : 0 < size) (packet : Packet)
    (i : Fin numberReaders)
    : Lossless (start size numberReaders packet) i :=
  (noLoss_start size numberReaders positive packet).of_reader i

/-- A reader loses nothing while its own buffer is not full when the writer begins a packet.
-/
theorem Lossless.step {system : System size numberReaders Packet} {i : Fin numberReaders}
    (lossless : Lossless system i) (positive : 0 < size) (action : Action numberReaders Packet)
    (guarded
      : action = .getWritePtr → system.writer = .idle → system.buffer.full i = false)
    : Lossless (system.step action) i where
  writer := lossless.writer.step positive action
  reader :=
    lossless.reader.step lossless.writer positive action
      (fun begins idle full =>
        (Bool.false_ne_true ((guarded begins idle).symm.trans full)).elim)
  kept := (step_OWCnt_of_not_full guarded).trans lossless.kept

/-- A reader that finds its buffer empty has completed every packet written. -/
theorem Lossless.completed_of_empty {system : System size numberReaders Packet}
    {i : Fin numberReaders} (lossless : Lossless system i)
    (empty : system.buffer.isEmpty i = true)
    : (system.completed i).map Numbered.packet = system.written := by
  refine lossless.inOrder.eq_of_length ?_
  rw [List.length_map, ← lossless.position_eq]
  exact lossless.reader.empty.mp empty

end Smurf.DataBuffer.System
