import Smurf.Pipeline.Flow

/-! From the intake to the readers nothing is lost, doubled or reordered while the buffer has
room: the transmitter and the file writer complete the packets that the loop would publish
alone, one by one, and once everything is worked off they have completed them all.
-/

namespace Smurf

open Runs

-----------------------------------------------------------------------------------------
-- One reader of the buffer
-----------------------------------------------------------------------------------------

namespace DataBuffer.System

variable {size numberReaders : Nat} {Packet : Type*} {system : System size numberReaders Packet}

/-- What a reader is done with are the first packets written, also before it has reported the
last of them.
-/
theorem Lossless.returned_prefix {i : Fin numberReaders} (lossless : Lossless system i)
    : (system.returned i).map Numbered.packet <+: system.written := by
  cases phase : system.reader i with
  | idle | holding =>
      simp only [returned, phase]
      exact lossless.inOrder
  | processed slot content seen =>
      obtain rfl := lossless.reader.seen slot content seen phase
      obtain ⟨-, number, present⟩ := lossless.reader.held slot seen (by rw [phase]; rfl)
      rw [number, lossless.position_eq] at present
      have completed
          : (system.completed i).map Numbered.packet
            = system.written.take (system.completed i).length := by
        have first := List.prefix_iff_eq_take.mp lossless.inOrder
        rwa [List.length_map] at first
      have next
          : (system.returned i).map Numbered.packet
            = system.written.take ((system.completed i).length + 1) := by
        rw [List.take_add_one, present, ← completed]
        simp [returned, phase]
      rw [next]
      exact List.take_prefix _ _

theorem completed_prefix_returned (system : System size numberReaders Packet)
    (i : Fin numberReaders)
    : system.completed i <+: system.returned i := by
  rw [returned]
  split
  · exact List.prefix_append _ _
  · exact List.prefix_rfl

end DataBuffer.System

-----------------------------------------------------------------------------------------
-- All threads
-----------------------------------------------------------------------------------------

namespace Pipeline

/-- Reader `i`'s buffer is not full when the loop begins a packet. -/
def KeepsUp (i : Fin 2) (pipeline : Pipeline) : Event → Prop
  | .getWritePtr =>
      pipeline.publishing ≠ none
      → pipeline.txBuffer.writer = .idle
      → pipeline.txBuffer.buffer.full i = false
  | _ => True

/-- What reader `i` was given of the packets that the loop publishes alone. `redelivers`
puts every attempt, whether it threw or not, at the packet after those completed before.
-/
structure Delivers (host : Host) (created : SmurfProcessor) (i : Fin 2) (pipeline : Pipeline)
    : Prop where
  handled : pipeline.handled.map Arrival.frame <+: pipeline.accepted
  completed
    : (pipeline.txBuffer.completed i).map DataBuffer.Numbered.packet
      <+: pipeline.published host created
  redelivers
    : ∀ index attempt,
        (pipeline.txBuffer.attempts i)[index]? = some attempt
        → (pipeline.published host created)[((pipeline.txBuffer.attempts i).take index).countP
            DataBuffer.Attempt.completed]?
          = some attempt.seen.packet
  drained
    : pipeline.queue = []
      → pipeline.publishing = none
      → pipeline.txBuffer.buffer.isEmpty i = true
      → pipeline.handled.map Arrival.frame = pipeline.accepted
        ∧ (pipeline.txBuffer.completed i).map DataBuffer.Numbered.packet
          = pipeline.published host created

variable {host : Host} {created : SmurfProcessor} {pipeline : Pipeline} {i : Fin 2}

theorem txBuffer_acceptFrame (host : Host) (pipeline : Pipeline) (offered : Offered)
    (busy : Bool)
    : (pipeline.step host (.acceptFrame offered busy)).txBuffer = pipeline.txBuffer := by
  simp only [step]
  split <;> rfl

theorem txBuffer_iterate (host : Host) (pipeline : Pipeline) (surroundings : Surroundings)
    : (pipeline.step host (.iterate surroundings)).txBuffer = pipeline.txBuffer := by
  simp only [step]
  split <;> rfl

/-- What a step does to the buffer: at most one action, and it begins a packet only with
`getWritePtr`.
-/
theorem txBuffer_step (host : Host) (pipeline : Pipeline) (event : Event)
    : (pipeline.step host event).txBuffer = pipeline.txBuffer
      ∨ ∃ action,
          (pipeline.step host event).txBuffer = pipeline.txBuffer.step action
          ∧ (action = .getWritePtr → event = .getWritePtr ∧ pipeline.publishing ≠ none) := by
  cases event with
  | acceptFrame offered busy => exact .inl (txBuffer_acceptFrame host pipeline offered busy)
  | iterate surroundings => exact .inl (txBuffer_iterate host pipeline surroundings)
  | getWritePtr =>
      cases publishing : pipeline.publishing with
      | none => exact .inl (by simp only [step, publishing])
      | some packet =>
          exact .inr ⟨.getWritePtr, by simp only [step, publishing], fun _ => ⟨rfl, by simp⟩⟩
  | copyPacket =>
      cases publishing : pipeline.publishing with
      | none => exact .inl (by simp only [step, publishing])
      | some packet =>
          exact .inr
            ⟨.fill packet, by simp only [step, publishing], fun begins => by cases begins⟩
  | doneWriting =>
      cases phase : pipeline.txBuffer.writer with
      | idle | granted => exact .inl (by simp only [step, phase])
      | filled slot =>
          exact .inr ⟨.doneWriting, by simp only [step, phase], fun begins => by cases begins⟩
  | getReadPtr i => exact .inr ⟨.getReadPtr i, rfl, fun begins => by cases begins⟩
  | transmit returns =>
      exact .inr ⟨.process pktReaderIndexTx returns, rfl, fun begins => by cases begins⟩
  | writeFile opened =>
      cases phase : pipeline.txBuffer.reader pktReaderIndexFile with
      | idle | processed => exact .inl (by simp only [step, writeFile, phase])
      | holding slot content =>
          exact .inr
            ⟨.process pktReaderIndexFile true, by simp only [step, writeFile, phase],
              fun begins => by cases begins⟩
  | doneReading i => exact .inr ⟨.doneReading i, rfl, fun begins => by cases begins⟩
  | clearFrameCnt => exact .inl rfl

/-- While a reader keeps up it loses nothing. -/
theorem lossless_step (host : Host) (lossless : pipeline.txBuffer.Lossless i) {event : Event}
    (keepsUp : pipeline.KeepsUp i event)
    : (pipeline.step host event).txBuffer.Lossless i := by
  rcases txBuffer_step host pipeline event with same | ⟨action, moved, begins⟩
  · rwa [same]
  · rw [moved]
    refine lossless.step (by decide) action (fun getWritePtr idle => ?_)
    obtain ⟨rfl, publishing⟩ := begins getWritePtr
    exact keepsUp publishing idle

namespace Flows

theorem written_prefix (flows : pipeline.Flows host created)
    : pipeline.txBuffer.written <+: pipeline.published host created :=
  ⟨_, flows.published⟩

theorem written_of_drained (flows : pipeline.Flows host created)
    (publishing : pipeline.publishing = none)
    : pipeline.txBuffer.written = pipeline.published host created := by
  rw [← flows.published, publishing, Option.toList_none, List.append_nil]

theorem delivers (flows : pipeline.Flows host created)
    (lossless : pipeline.txBuffer.Lossless i)
    : pipeline.Delivers host created i where
  handled := ⟨_, flows.accepted.symm⟩
  completed := lossless.inOrder.trans flows.written_prefix
  redelivers := by
    intro index attempt found
    have among := lossless.redelivers index attempt found
    obtain ⟨inside, -⟩ := List.getElem?_eq_some_iff.mp among
    rw [← flows.published, List.getElem?_append_left inside]
    exact among
  drained := by
    intro queue publishing empty
    constructor
    · rw [flows.accepted, queue, List.append_nil]
    · rw [lossless.completed_of_empty empty, flows.written_of_drained publishing]

/-- The calls of `write_file` are for the packets that the loop publishes alone, and for all of
them when none is on the way: with its buffer empty the file writer has none that it has not
reported.
-/
theorem writes (flows : pipeline.Flows host created)
    (lossless : pipeline.txBuffer.Lossless pktReaderIndexFile)
    : pipeline.writes.map WriteCall.packet <+: pipeline.published host created
      ∧ (pipeline.publishing = none
        → pipeline.txBuffer.buffer.isEmpty pktReaderIndexFile = true
        → pipeline.writes.map WriteCall.packet = pipeline.published host created) := by
  rw [flows.recorded]
  refine ⟨lossless.returned_prefix.trans flows.written_prefix, fun publishing empty => ?_⟩
  have reported :=
    (pipeline.txBuffer.completed_prefix_returned pktReaderIndexFile).map
      DataBuffer.Numbered.packet
  rw [lossless.completed_of_empty empty] at reported
  rw [← flows.written_of_drained publishing]
  exact lossless.returned_prefix.eq_of_length_le reported.length_le

end Flows

/-- What holds of reader `i` in every state of a run in which it keeps up, whether the other
one does or not.
-/
theorem flows_of_keepsUp (host : Host) (configFile : Option (List String))
    (maskFile : Option (List UInt32)) (i : Fin 2) (events : List Event)
    (keepsUp : EachStep (step host) (KeepsUp i) (start host configFile maskFile) events)
    : EachState (step host)
        (fun pipeline =>
          pipeline.Flows host (SmurfProcessor.create host configFile maskFile)
          ∧ pipeline.txBuffer.Lossless i)
        (start host configFile maskFile) events := by
  refine keepsUp.invariant ⟨flows_start configFile maskFile, ?_⟩ ?_
  · exact DataBuffer.System.lossless_start 10 2 (by decide) blankPacket i
  · rintro pipeline event ⟨flows, lossless⟩ guarded
    exact ⟨flows.step event, lossless_step host lossless guarded⟩

/-- In every interleaving of the intake, the loop, the transmitter, the file writer and the
control server, a reader that keeps up is given the packets that the loop would publish
alone, in order and each once, whatever becomes of the other reader.
-/
theorem delivers_of_keepsUp (host : Host) (configFile : Option (List String))
    (maskFile : Option (List UInt32)) (i : Fin 2) (events : List Event)
    (keepsUp : EachStep (step host) (KeepsUp i) (start host configFile maskFile) events)
    : EachState (step host)
        (Delivers host (SmurfProcessor.create host configFile maskFile) i)
        (start host configFile maskFile) events :=
  (flows_of_keepsUp host configFile maskFile i events keepsUp).mono
    (fun _ holds => holds.1.delivers holds.2)

/-- A frame goes through; the transmitter throws once, and the file writer is done first. -/
theorem delivers_one_frame
    : EachState (step concreteHost)
        (Delivers concreteHost (SmurfProcessor.create concreteHost none none)
          pktReaderIndexTx)
        (start concreteHost none none)
        [.acceptFrame ⟨⟨[List.replicate smurfDataLength 0]⟩, 0, 0⟩ false,
          .iterate concreteSurroundings, .getWritePtr, .copyPacket, .getReadPtr 0, .doneWriting,
          .getReadPtr 1, .getReadPtr 0, .transmit false, .writeFile 3, .doneReading 1,
          .getReadPtr 0, .transmit true, .clearFrameCnt, .doneReading 0] :=
  delivers_of_keepsUp _ _ _ _ _
    ⟨trivial, trivial, fun _ _ => rfl, trivial, trivial, trivial, trivial, trivial, trivial,
      trivial, trivial, trivial, trivial, trivial, trivial, trivial⟩

end Pipeline

end Smurf
