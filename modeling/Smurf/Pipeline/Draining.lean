import Smurf.Pipeline.Delivery

/-! The work can always be finished. From every state in which a reader kept up, the steps of the
loop and of this reader alone work off the queue and the buffer, a bounded number of steps for
each frame, whatever the other reader is doing. Each call is one step; the mutex and the waits
are no part of this, but of `DataBuffer.Listening`.
-/

namespace Smurf

open Runs

namespace Pipeline

/-- A step of the loop or of reader `i`, in which the processing of a packet returns. What is read
from outside and what `open` returns may depend on the state.
-/
def Works (i : Fin 2) (surroundings : Pipeline → Surroundings) (opened : Pipeline → Int32)
    (pipeline : Pipeline) : Event → Prop
  | .iterate read => read = surroundings pipeline
  | .getWritePtr | .copyPacket | .doneWriting => True
  | .getReadPtr j | .doneReading j => j = i
  | .transmit returns => i = pktReaderIndexTx ∧ returns = true
  | .writeFile result => i = pktReaderIndexFile ∧ result = opened pipeline
  | .acceptFrame .. | .clearFrameCnt => False

/-- Everything that was accepted is worked off, as far as reader `i` is concerned. -/
def Drained (i : Fin 2) (pipeline : Pipeline) : Prop :=
  pipeline.queue = []
  ∧ pipeline.publishing = none
  ∧ pipeline.txBuffer.buffer.isEmpty i = true

-----------------------------------------------------------------------------------------
-- What is left to do
-----------------------------------------------------------------------------------------

/-- The steps of reader `i` for the packets in the buffer: three for each, less those it has done
for the packet it is working on.
-/
def toRead (i : Fin 2) (txBuffer : TxBuffer) : Nat :=
  let packets := txBuffer.written.length - txBuffer.buffer.position i
  match txBuffer.reader i with
  | .idle => 3 * packets
  | .holding .. => 3 * packets - 1
  | .processed .. => 3 * packets - 2

/-- The steps for the packet that the loop is publishing, those of the reader included. -/
def toPublish (pipeline : Pipeline) : Nat :=
  match pipeline.publishing, pipeline.txBuffer.writer with
  | none, _ => 0
  | some _, .idle => 6
  | some _, .granted _ => 5
  | some _, .filled _ => 4

/-- At most seven steps are left for a frame in the queue. -/
def remaining (i : Fin 2) (pipeline : Pipeline) : Nat :=
  7 * pipeline.queue.length + pipeline.toPublish + toRead i pipeline.txBuffer

variable {host : Host} {created : SmurfProcessor} {pipeline : Pipeline} {i : Fin 2}

theorem remaining_le (lossless : pipeline.txBuffer.Lossless i)
    : pipeline.remaining i ≤ 7 * pipeline.queue.length + 36 := by
  have room := lossless.reader.room
  have publish : pipeline.toPublish ≤ 6 := by
    rw [toPublish]
    split <;> omega
  have read : toRead i pipeline.txBuffer ≤ 30 := by
    rw [toRead]
    split <;> omega
  rw [remaining]
  omega

-----------------------------------------------------------------------------------------
-- Each step leaves less to do
-----------------------------------------------------------------------------------------

/-- With its buffer not empty, or a packet to complete, a reader can do its next step. -/
theorem reads_of_not_done (lossless : pipeline.txBuffer.Lossless i)
    (more
      : pipeline.txBuffer.reader i = .idle → pipeline.txBuffer.buffer.isEmpty i = false)
    (surroundings : Pipeline → Surroundings) (opened : Pipeline → Int32)
    : ∃ event,
        pipeline.Works i surroundings opened event
        ∧ pipeline.KeepsUp i event
        ∧ (pipeline.step host event).remaining i < pipeline.remaining i := by
  have holds := lossless.reader
  cases phase : pipeline.txBuffer.reader i with
  | idle =>
      have pending : pipeline.txBuffer.buffer.empty i = false := more phase
      have unread : pipeline.txBuffer.buffer.position i < pipeline.txBuffer.written.length := by
        refine Nat.lt_of_le_of_ne holds.le_written (fun same => ?_)
        exact absurd (holds.empty.mpr same) (by simp [pending])
      refine ⟨.getReadPtr i, rfl, trivial, ?_⟩
      simp only [step, DataBuffer.System.step, phase, DataBuffer.isEmpty, pending,
        Bool.false_eq_true, if_false, DataBuffer.getReadPtr_of_not_empty _ _ pending, remaining,
        toPublish, toRead, Function.update_self]
      omega
  | holding slot content =>
      obtain ⟨unread, -⟩ :=
        holds.held_unchanged (show _ = some (slot, content) by rw [phase]; rfl)
      have less
          : toRead i (pipeline.txBuffer.step (.process i true)) < toRead i pipeline.txBuffer := by
        simp only [DataBuffer.System.step, phase, if_true, toRead, Function.update_self]
        omega
      have kept : (pipeline.txBuffer.step (.process i true)).writer = pipeline.txBuffer.writer :=
        (pipeline.txBuffer.step_of_reader i true (.inr (.inl rfl))).1
      obtain rfl | rfl : i = 0 ∨ i = 1 := by omega
      · refine ⟨.transmit true, ⟨rfl, rfl⟩, trivial, ?_⟩
        simp only [step, remaining, toPublish, pktReaderIndexTx, kept]
        omega
      · refine ⟨.writeFile (opened pipeline), ⟨rfl, rfl⟩, trivial, ?_⟩
        simp only [step, writeFile, pktReaderIndexFile, phase, remaining, toPublish, kept]
        omega
  | processed slot content seen =>
      obtain ⟨unread, -⟩ :=
        holds.held_unchanged (show _ = some (slot, content) by rw [phase]; rfl)
      have next
          : (pipeline.txBuffer.buffer.doneReading i).position i
            = pipeline.txBuffer.buffer.position i + 1 := by
        rw [DataBuffer.position, DataBuffer.doneReading_readCnt_self,
          DataBuffer.doneReading_OWCnt, DataBuffer.position]
        omega
      refine ⟨.doneReading i, rfl, trivial, ?_⟩
      simp only [step, DataBuffer.System.step, phase, remaining, toPublish, toRead,
        Function.update_self, next]
      omega

/-- With an empty buffer for the reader, the loop can do its next step, if it has one. -/
theorem publishes_of_empty (flows : pipeline.Flows host created)
    (lossless : pipeline.txBuffer.Lossless i) (idle : pipeline.txBuffer.reader i = .idle)
    (empty : pipeline.txBuffer.buffer.isEmpty i = true)
    (more : ¬ (pipeline.queue = [] ∧ pipeline.publishing = none))
    (surroundings : Pipeline → Surroundings) (opened : Pipeline → Int32)
    : ∃ event,
        pipeline.Works i surroundings opened event
        ∧ pipeline.KeepsUp i event
        ∧ (pipeline.step host event).remaining i < pipeline.remaining i := by
  have holds := lossless.reader
  have read : pipeline.txBuffer.buffer.position i = pipeline.txBuffer.written.length :=
    holds.empty.mp empty
  cases publishing : pipeline.publishing with
  | none =>
      cases queue : pipeline.queue with
      | nil => exact absurd ⟨queue, publishing⟩ more
      | cons frame rest =>
          refine ⟨.iterate (surroundings pipeline), rfl, trivial, ?_⟩
          have writer := flows.busy publishing
          simp only [step, publishing, queue, remaining, toPublish, List.length_cons]
          split <;> omega
  | some packet =>
      cases writer : pipeline.txBuffer.writer with
      | idle =>
          have room : pipeline.txBuffer.buffer.full i = false := by
            refine Bool.eq_false_iff.mpr (fun full => ?_)
            have overfull := holds.full full
            rw [writer, read] at overfull
            simp [DataBuffer.WriterPhase.pending] at overfull
          refine ⟨.getWritePtr, trivial, fun _ _ => room, ?_⟩
          have position : pipeline.txBuffer.buffer.getWritePtr.2.position i
              = pipeline.txBuffer.buffer.position i := by
            rw [DataBuffer.position, DataBuffer.getWritePtr_readCnt,
              DataBuffer.getWritePtr_OWCnt, room, DataBuffer.position]
            rfl
          simp only [step, publishing, DataBuffer.System.step, writer, remaining, toPublish,
            toRead, idle, position]
          omega
      | granted slot =>
          refine ⟨.copyPacket, trivial, trivial, ?_⟩
          have position (content : DataBuffer.Numbered Packet)
              : (pipeline.txBuffer.buffer.fill slot content).position i
                = pipeline.txBuffer.buffer.position i :=
            rfl
          simp only [step, publishing, DataBuffer.System.step, writer, remaining, toPublish,
            toRead, idle, position]
          omega
      | filled slot =>
          refine ⟨.doneWriting, trivial, trivial, ?_⟩
          have position
              : pipeline.txBuffer.buffer.doneWriting.position i
                = pipeline.txBuffer.buffer.position i :=
            rfl
          simp only [step, publishing, DataBuffer.System.step, writer, remaining, toPublish,
            toRead, idle, position, List.length_append, List.length_singleton]
          omega

/-- A reader that is not idle has packets to read. -/
theorem progress (flows : pipeline.Flows host created) (lossless : pipeline.txBuffer.Lossless i)
    (undone : ¬ pipeline.Drained i) (surroundings : Pipeline → Surroundings)
    (opened : Pipeline → Int32)
    : ∃ event,
        pipeline.Works i surroundings opened event
        ∧ pipeline.KeepsUp i event
        ∧ (pipeline.step host event).remaining i < pipeline.remaining i := by
  by_cases reads
      : pipeline.txBuffer.reader i = .idle → pipeline.txBuffer.buffer.isEmpty i = false
  · exact reads_of_not_done lossless reads surroundings opened
  · obtain ⟨idle, empty⟩ := Classical.not_imp.mp reads
    have empty : pipeline.txBuffer.buffer.isEmpty i = true := by simpa using empty
    exact publishes_of_empty flows lossless idle empty (fun done => undone ⟨done.1, done.2, empty⟩)
      surroundings opened

/-- No step of the loop or of a reader takes in a frame. -/
theorem offered_of_works {surroundings : Pipeline → Surroundings} {opened : Pipeline → Int32}
    {event : Event} (works : pipeline.Works i surroundings opened event)
    : (pipeline.step host event).offered = pipeline.offered := by
  cases event with
  | acceptFrame | clearFrameCnt => exact works.elim
  | iterate | getWritePtr | copyPacket | doneWriting =>
      simp only [step]
      split <;> rfl
  | writeFile =>
      simp only [step, writeFile]
      split <;> rfl
  | getReadPtr | transmit | doneReading => rfl

/-- In every state of a run in which reader `i` keeps up, a number of steps of the loop and of this
reader, seven for each frame in the queue and 36 more at most, complete every packet of the
frames accepted so far. Witness: each of the steps leaves less to do.
-/
theorem drains_of_keepsUp (host : Host) (configFile : Option (List String))
    (maskFile : Option (List UInt32)) (i : Fin 2) (events : List Event)
    (keepsUp : EachStep (step host) (KeepsUp i) (start host configFile maskFile) events)
    (surroundings : Pipeline → Surroundings) (opened : Pipeline → Int32)
    : let reached := events.foldl (step host) (start host configFile maskFile)
      ∃ more : List Event,
        more.length ≤ 7 * reached.queue.length + 36
        ∧ EachStep (step host) (fun pipeline event => pipeline.Works i surroundings opened event)
            reached more
        ∧ let ended := more.foldl (step host) reached
          ended.Drained i
          ∧ ended.handled.map Arrival.frame = reached.accepted
          ∧ (ended.txBuffer.completed i).map DataBuffer.Numbered.packet
            = ended.published host (SmurfProcessor.create host configFile maskFile) := by
  intro reached
  obtain ⟨flows, lossless⟩ := (flows_of_keepsUp host configFile maskFile i events keepsUp).final
  obtain ⟨more, few, steps, ⟨flows, kept, offered⟩, drained⟩ :=
    exists_run_of_progress
      (G := fun pipeline event => pipeline.Works i surroundings opened event)
      (I := fun pipeline : Pipeline =>
        pipeline.Flows host (SmurfProcessor.create host configFile maskFile)
        ∧ pipeline.txBuffer.Lossless i
        ∧ pipeline.offered = reached.offered)
      (Q := fun pipeline => pipeline.Drained i)
      (remaining i)
      (fun pipeline ⟨flows, lossless, offered⟩ undone => by
        obtain ⟨event, works, keepsUp, less⟩ :=
          progress flows lossless undone surroundings opened
        exact
          ⟨event, works,
            ⟨flows.step event, lossless_step host lossless keepsUp,
              (offered_of_works works).trans offered⟩,
            less⟩)
      ⟨flows, lossless, rfl⟩
  obtain ⟨queue, publishing, empty⟩ := drained
  obtain ⟨handled, completed⟩ := (flows.delivers kept).drained queue publishing empty
  refine
    ⟨more, few.trans (remaining_le lossless), steps, ⟨queue, publishing, empty⟩, ?_, completed⟩
  rw [handled, accepted, offered, accepted]

/-- A frame that was accepted and is still in the queue. -/
theorem drains_one_frame
    : let frame : Frame := ⟨[List.replicate smurfDataLength 0]⟩
      let reached :=
        (start concreteHost none none).step concreteHost (.acceptFrame ⟨frame, 0, 0⟩ false)
      ∃ more : List Event,
        more.length ≤ 43
        ∧ (more.foldl (step concreteHost) reached).handled.map Arrival.frame = [frame] := by
  intro frame reached
  obtain ⟨more, few, -, -, handled, -⟩ :=
    drains_of_keepsUp concreteHost none none pktReaderIndexTx
      [.acceptFrame ⟨frame, 0, 0⟩ false] ⟨trivial, trivial⟩ (fun _ => concreteSurroundings)
      (fun _ => 3)
  have queue : reached.queue = [frame] := by simp [reached, step, start, Offered.rejected]
  have accepted : reached.accepted = [frame] := by
    simp [reached, step, start, Offered.rejected, accepted]
  have bound : more.length ≤ 7 * reached.queue.length + 36 := few
  rw [queue] at bound
  exact ⟨more, bound, handled.trans accepted⟩

end Pipeline

end Smurf
