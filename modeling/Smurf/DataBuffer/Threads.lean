import Mathlib.Data.List.Basic
import Smurf.DataBuffer.Basic

/-! The frame loop and the packet readers sharing one buffer.
The writer repeats `getWritePtr`, fill, `doneWriting`; each reader repeats `isEmpty` and
`getReadPtr`, process, and then `doneReading`, or starts over when the processing throws.
Each of these is one atomic step; a thread that cannot take the step named leaves the system
as it is, so the interleavings are the lists of actions. What is kept as written is read from the
cell at `doneWriting`; it is what `fill` was given.
-/

namespace Smurf.DataBuffer

/-- How many packets lie from reader `i`'s pointer to the writer's, read from the pointers
and the empty flag.
-/
def unreadCount {size numberReaders : Nat} {Packet : Type*}
    (buffer : DataBuffer size numberReaders Packet) (i : Fin numberReaders)
    : Nat :=
  if buffer.empty i then 0
  else
    let distance := (buffer.writePtr + size - buffer.readPtr i) % size
    if distance = 0 then size else distance

theorem unreadCount_eq_zero_iff {size numberReaders : Nat} {Packet : Type*} (positive : 0 < size)
    {buffer : DataBuffer size numberReaders Packet} {i : Fin numberReaders}
    : unreadCount buffer i = 0 ↔ buffer.empty i = true := by
  unfold unreadCount
  dsimp only
  split
  · next empty => exact iff_of_true rfl empty
  · next pending =>
      refine iff_of_false ?_ pending
      split
      · omega
      · next apart => exact apart

theorem unreadCount_le {size numberReaders : Nat} {Packet : Type*} (positive : 0 < size)
    (buffer : DataBuffer size numberReaders Packet) (i : Fin numberReaders)
    : unreadCount buffer i ≤ size := by
  have distance := Nat.mod_lt (buffer.writePtr + size - buffer.readPtr i) positive
  rw [unreadCount]
  split
  · exact Nat.zero_le _
  · dsimp only
    split <;> omega

/-- A packet with the number of its write. The buffer looks at neither; the number only
tells packets with equal contents apart.
-/
@[ext] structure Numbered (Packet : Type*) where
  number : Nat
  packet : Packet
  deriving DecidableEq

/-- Where the frame loop is in publishing a packet. -/
inductive WriterPhase
  | idle
  | granted (slot : Nat)
  | filled (slot : Nat)
  deriving DecidableEq

/-- Where a reader thread is: `returned` is the content of its cell when `getReadPtr`
returned it, `seen` what the processing found there.
-/
inductive ReaderPhase (Packet : Type*)
  | idle
  | holding (slot : Nat) (returned : Numbered Packet)
  | processed (slot : Nat) (returned seen : Numbered Packet)
  deriving DecidableEq

/-- One processing of a packet; `completed` tells whether `doneReading` followed. -/
structure Attempt (Packet : Type*) where
  seen : Numbered Packet
  completed : Bool

inductive Action (numberReaders : Nat) (Packet : Type*)
  | getWritePtr
  | fill (packet : Packet)
  | doneWriting
  | getReadPtr (i : Fin numberReaders)
  | process (i : Fin numberReaders) (returns : Bool)
  | doneReading (i : Fin numberReaders)
  deriving DecidableEq

/-- The cell the writer is working on. -/
def WriterPhase.slot? : WriterPhase → Option Nat
  | .idle => none
  | .granted slot | .filled slot => some slot

/-- The number of packets the writer has begun and not finished. -/
def WriterPhase.pending : WriterPhase → Nat
  | .idle => 0
  | .granted _ | .filled _ => 1

/-- The cell a reader is working on, and its content when the reader got it. -/
def ReaderPhase.held? {Packet : Type*} : ReaderPhase Packet → Option (Nat × Numbered Packet)
  | .idle => none
  | .holding slot returned | .processed slot returned _ => some (slot, returned)

/-- The buffer, where each thread is, the packets written and each reader's attempts. -/
structure System (size numberReaders : Nat) (Packet : Type*) where
  buffer : DataBuffer size numberReaders (Numbered Packet)
  writer : WriterPhase
  reader : Fin numberReaders → ReaderPhase Packet
  written : List Packet
  attempts : Fin numberReaders → List (Attempt Packet)

namespace System

variable {size numberReaders : Nat} {Packet : Type*}

def start (size numberReaders : Nat) (packet : Packet)
    : System size numberReaders Packet where
  buffer := DataBuffer.create size numberReaders ⟨0, packet⟩
  writer := .idle
  reader := fun _ => .idle
  written := []
  attempts := fun _ => []

/-- One atomic step of the thread the action names. -/
def step (system : System size numberReaders Packet)
    : Action numberReaders Packet → System size numberReaders Packet
  | .getWritePtr =>
      match system.writer with
      | .idle =>
          let (slot, granted) := system.buffer.getWritePtr
          { system with buffer := granted, writer := .granted slot }
      | _ => system
  | .fill packet =>
      match system.writer with
      | .granted slot =>
          { system with
            buffer := system.buffer.fill slot ⟨system.written.length, packet⟩
            writer := .filled slot }
      | _ => system
  | .doneWriting =>
      match system.writer with
      | .filled slot =>
          { system with
            buffer := system.buffer.doneWriting
            writer := .idle
            written := system.written ++ [(system.buffer.data slot).packet] }
      | _ => system
  | .getReadPtr i =>
      match system.reader i with
      | .idle =>
          if system.buffer.isEmpty i then system
          else
            match system.buffer.getReadPtr i with
            | (.ok slot, after) =>
                { system with
                  buffer := after
                  reader := Function.update system.reader i (.holding slot (after.data slot)) }
            | (.error _, after) => { system with buffer := after }
      | _ => system
  | .process i returns =>
      match system.reader i with
      | .holding slot returned =>
          let seen := system.buffer.data slot
          if returns then
            { system with
              reader := Function.update system.reader i (.processed slot returned seen) }
          else
            { system with
              reader := Function.update system.reader i .idle
              attempts :=
                Function.update system.attempts i (system.attempts i ++ [⟨seen, false⟩]) }
      | _ => system
  | .doneReading i =>
      match system.reader i with
      | .processed _ _ seen =>
          { system with
            buffer := system.buffer.doneReading i
            reader := Function.update system.reader i .idle
            attempts :=
              Function.update system.attempts i (system.attempts i ++ [⟨seen, true⟩]) }
      | _ => system

/-- The packets whose processing by reader `i` ended with `doneReading`, in order. -/
def completed (system : System size numberReaders Packet) (i : Fin numberReaders)
    : List (Numbered Packet) :=
  ((system.attempts i).filter Attempt.completed).map Attempt.seen

/-- The packets reader `i` has still to read, in the order of their cells. -/
def unread (system : System size numberReaders Packet) (i : Fin numberReaders)
    : List (Numbered Packet) :=
  (List.range (unreadCount system.buffer i)).map
    (fun offset => system.buffer.data ((system.buffer.readPtr i + offset) % size))

-----------------------------------------------------------------------------------------
-- What is written is what was handed to `fill`
-----------------------------------------------------------------------------------------

/-- A reader's step leaves the writer alone, and what it wrote. -/
theorem step_of_reader (system : System size numberReaders Packet) (i : Fin numberReaders)
    (returns : Bool)
    {action : Action numberReaders Packet}
    (reads : action = .getReadPtr i ∨ action = .process i returns ∨ action = .doneReading i)
    : (system.step action).writer = system.writer
      ∧ (system.step action).written = system.written
      ∧ (system.step action).buffer.data = system.buffer.data := by
  rcases reads with rfl | rfl | rfl
  · cases phase : system.reader i with
    | holding | processed => simp only [step, phase, and_self]
    | idle =>
        cases empty : system.buffer.empty i <;>
          simp [step, phase, isEmpty, empty, getReadPtr]
  · cases phase : system.reader i with
    | idle | processed => simp only [step, phase, and_self]
    | holding => cases returns <;> simp [step, phase]
  · cases phase : system.reader i with
    | idle | holding => simp only [step, phase, and_self]
    | processed => simp only [step, phase, doneReading_data, and_self]

/-- The packets that were handed to the writer: the one it has filled its cell with, and those
whose `doneWriting` followed.
-/
structure HandedOver (Packet : Type*) where
  filled : Option Packet
  published : List Packet

/-- The packet a `fill` takes is kept, and published by the next `doneWriting`. -/
def handOver (system : System size numberReaders Packet) (handed : HandedOver Packet)
    : Action numberReaders Packet → HandedOver Packet
  | .fill packet =>
      match system.writer with
      | .granted _ => { handed with filled := some packet }
      | _ => handed
  | .doneWriting =>
      match system.writer with
      | .filled _ => ⟨none, handed.published ++ handed.filled.toList⟩
      | _ => handed
  | .getWritePtr | .getReadPtr _ | .process _ _ | .doneReading _ => handed

/-- The packets handed over on the way, and what is published so far. -/
def stepHandingOver (run : System size numberReaders Packet × HandedOver Packet)
    (action : Action numberReaders Packet)
    : System size numberReaders Packet × HandedOver Packet :=
  (run.1.step action, run.1.handOver run.2 action)

/-- The writer's cell holds the packet it was filled with. -/
structure Hands (run : System size numberReaders Packet × HandedOver Packet) : Prop where
  written : run.1.written = run.2.published
  filled
    : ∀ slot,
        run.1.writer = .filled slot → run.2.filled = some (run.1.buffer.data slot).packet

/-- By cases on the action and on where the writer is; a reader's step changes nothing here. -/
theorem Hands.step {run : System size numberReaders Packet × HandedOver Packet}
    (hands : Hands run) (action : Action numberReaders Packet)
    : Hands (stepHandingOver run action) := by
  obtain ⟨system, handed⟩ := run
  obtain ⟨written, filled⟩ := hands
  have reads (i : Fin numberReaders) (returns : Bool)
      (reads : action = .getReadPtr i ∨ action = .process i returns ∨ action = .doneReading i)
      : Hands (stepHandingOver (system, handed) action) := by
    obtain ⟨writer, kept, data⟩ := system.step_of_reader i returns reads
    have same : system.handOver handed action = handed := by
      rcases reads with rfl | rfl | rfl <;> rfl
    refine ⟨?_, fun slot busy => ?_⟩
    · rw [stepHandingOver, same]
      exact kept.trans written
    · rw [stepHandingOver, writer] at busy
      rw [stepHandingOver, same, data]
      exact filled slot busy
  cases action with
  | getWritePtr =>
      cases phase : system.writer with
      | idle =>
          simp only [stepHandingOver, System.step, handOver, phase]
          exact ⟨written, fun slot busy => by cases busy⟩
      | granted | filled =>
          simp only [stepHandingOver, System.step, handOver, phase]
          exact ⟨written, filled⟩
  | fill packet =>
      cases phase : system.writer with
      | granted slot =>
          simp only [stepHandingOver, System.step, handOver, phase]
          refine ⟨written, fun own same => ?_⟩
          cases same
          simp only [fill_data_self]
      | idle | filled =>
          simp only [stepHandingOver, System.step, handOver, phase]
          exact ⟨written, filled⟩
  | doneWriting =>
      cases phase : system.writer with
      | filled slot =>
          simp only [stepHandingOver, System.step, handOver, phase]
          refine ⟨?_, fun own busy => by cases busy⟩
          simp only at written filled ⊢
          rw [written, filled slot phase]
          rfl
      | idle | granted =>
          simp only [stepHandingOver, System.step, handOver, phase]
          exact ⟨written, filled⟩
  | getReadPtr i => exact reads i true (.inl rfl)
  | process i returns => exact reads i returns (.inr (.inl rfl))
  | doneReading i => exact reads i true (.inr (.inr rfl))

/-- What is counted as written is what was handed to `fill` and then published, in order. -/
theorem written_eq_published (packet : Packet) (actions : List (Action numberReaders Packet))
    : (actions.foldl step (start size numberReaders packet)).written
      = (actions.foldl stepHandingOver
            (start size numberReaders packet, ⟨none, []⟩)).2.published := by
  have began : Hands (start size numberReaders packet, (⟨none, []⟩ : HandedOver Packet)) :=
    ⟨rfl, fun slot busy => by cases busy⟩
  have hands :=
    List.foldlRecOn actions stepHandingOver began (fun _ hands action _ => hands.step action)
  have system
      : (actions.foldl stepHandingOver (start size numberReaders packet, ⟨none, []⟩)).1
        = actions.foldl step (start size numberReaders packet) :=
    (List.foldl_hom Prod.fst (fun _ _ => rfl)).symm
  rw [← system]
  exact hands.written

end System

end Smurf.DataBuffer
