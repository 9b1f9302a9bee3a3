import Smurf.Pipeline.ReportedCounts

/-! How the frames of one thread become the packets of the next. The queue hands the accepted
frames on in order, the loop makes of them what it would alone, the packets go through the
buffer, and the calls of `write_file` are the packets the writer thread is done with.
-/

namespace Smurf

open Runs

-----------------------------------------------------------------------------------------
-- What one reader has been given
-----------------------------------------------------------------------------------------

namespace DataBuffer.System

variable {size numberReaders : Nat} {Packet : Type*} (system : System size numberReaders Packet)

/-- The packets whose processing by a reader returned, the last of them perhaps not yet
reported with `doneReading`.
-/
def returned (i : Fin numberReaders) : List (Numbered Packet) :=
  match system.reader i with
  | .processed _ _ seen => system.completed i ++ [seen]
  | _ => system.completed i

/-- Whether an action is a processing by reader `i` that returns. -/
def returns (i : Fin numberReaders) : Action numberReaders Packet → Bool
  | .process j returns => j = i && returns
  | _ => false

variable {system}

theorem returned_congr {other : System size numberReaders Packet} {i : Fin numberReaders}
    (attempts : other.attempts i = system.attempts i) (reader : other.reader i = system.reader i)
    : other.returned i = system.returned i := by
  rw [returned, returned, reader, completed, completed, attempts]

/-- What another reader does changes nothing. -/
theorem returned_update_of_ne {i j : Fin numberReaders} (ne : i ≠ j)
    (buffer : DataBuffer size numberReaders (Numbered Packet)) (phase : ReaderPhase Packet)
    (attempts : List (Attempt Packet))
    : ({ system with
          buffer
          reader := Function.update system.reader j phase
          attempts := Function.update system.attempts j attempts }
        : System size numberReaders Packet).returned i
      = system.returned i :=
  returned_congr (Function.update_of_ne ne _ _) (Function.update_of_ne ne _ _)

theorem completed_update_self (system : System size numberReaders Packet)
    (i : Fin numberReaders)
    (buffer : DataBuffer size numberReaders (Numbered Packet)) (phase : ReaderPhase Packet)
    (attempt : Attempt Packet)
    : ({ system with
          buffer
          reader := Function.update system.reader i phase
          attempts := Function.update system.attempts i (system.attempts i ++ [attempt]) }
        : System size numberReaders Packet).completed i
      = system.completed i ++ if attempt.completed then [attempt.seen] else [] := by
  simp only [completed, Function.update_self, List.filter_append, List.map_append]
  cases ended : attempt.completed <;> simp [ended]

/-- Only a processing that returns adds to what is returned. By cases on the action and on
where its thread is.
-/
theorem returned_step (i : Fin numberReaders) (action : Action numberReaders Packet)
    (silent : returns i action = false)
    : (system.step action).returned i = system.returned i := by
  cases action with
  | getWritePtr | fill | doneWriting =>
      refine returned_congr ?_ ?_ <;> cases phase : system.writer <;> simp only [step, phase]
  | getReadPtr j =>
      cases phase : system.reader j with
      | holding | processed => simp only [step, phase]
      | idle =>
          cases empty : system.buffer.empty j with
          | true => simp only [step, phase, isEmpty, empty, if_true]
          | false =>
              simp only [step, phase, isEmpty, empty, Bool.false_eq_true, if_false,
                getReadPtr_of_not_empty _ _ empty]
              by_cases same : i = j
              · subst same
                simp [returned, phase, completed]
              · exact returned_congr rfl (Function.update_of_ne same _ _)
  | process j returns =>
      cases phase : system.reader j with
      | idle | processed => simp only [step, phase]
      | holding slot content =>
          by_cases same : i = j
          · subst same
            obtain rfl : returns = false := by simpa [System.returns] using silent
            simp only [step, phase, Bool.false_eq_true, if_false]
            have completed := completed_update_self system i system.buffer .idle
              ⟨system.buffer.data slot, false⟩
            simp only [returned, Function.update_self, phase]
            simpa using completed
          · cases returns with
            | true =>
                simp only [step, phase, if_true]
                exact returned_congr rfl (Function.update_of_ne same _ _)
            | false =>
                simp only [step, phase, Bool.false_eq_true, if_false]
                exact returned_update_of_ne same _ _ _
  | doneReading j =>
      cases phase : system.reader j with
      | idle | holding => simp only [step, phase]
      | processed slot content seen =>
          simp only [step, phase]
          by_cases same : i = j
          · subst same
            have completed := completed_update_self system i
              (system.buffer.doneReading i) .idle ⟨seen, true⟩
            simp only [returned, Function.update_self, phase]
            simpa using completed
          · exact returned_update_of_ne same _ _ _

/-- A processing that returns adds the packet it saw. -/
theorem returned_process {i : Fin numberReaders} {slot : Nat} {content : Numbered Packet}
    (phase : system.reader i = .holding slot content)
    : (system.step (.process i true)).returned i
      = system.returned i ++ [system.buffer.data slot] := by
  simp [step, phase, returned, completed]

end DataBuffer.System

-----------------------------------------------------------------------------------------
-- The parts of the pipeline
-----------------------------------------------------------------------------------------

namespace Pipeline

variable (host : Host) (created : SmurfProcessor) (pipeline : Pipeline)

/-- The loop alone, working off the same arrivals. -/
def alone : SmurfProcessor × List Outcome :=
  transduce (SmurfProcessor.iterate host) created pipeline.handled

/-- The packets that the loop publishes alone. -/
def published : List Packet :=
  (pipeline.alone host created).2.filterMap Outcome.packet?

/-- The accepted frames are those the loop worked off and those in the queue. The loop is
where it would be alone, up to the counters that are reported, and the packets it publishes
are those in the buffer, followed by the one it is working on.
-/
structure Flows : Prop where
  accepted : pipeline.accepted = pipeline.handled.map Arrival.frame ++ pipeline.queue
  loop
    : ∃ counts : FrameCounts,
        counts.SameLoop (pipeline.alone host created).1.counts
        ∧ pipeline.processor = (pipeline.alone host created).1.withCounts counts
  published
    : pipeline.txBuffer.written ++ pipeline.publishing.toList = pipeline.published host created
  busy : pipeline.publishing = none → pipeline.txBuffer.writer = .idle
  copied
    : ∀ slot,
        pipeline.txBuffer.writer = .filled slot
        → pipeline.publishing = some (pipeline.txBuffer.buffer.data slot).packet
  recorded
    : pipeline.writes.map WriteCall.packet
      = (pipeline.txBuffer.returned pktReaderIndexFile).map DataBuffer.Numbered.packet

variable {host created pipeline}

theorem flows_start (configFile : Option (List String)) (maskFile : Option (List UInt32))
    : (start host configFile maskFile).Flows host
        (SmurfProcessor.create host configFile maskFile) where
  accepted := rfl
  loop := ⟨FrameCounts.create, rfl, rfl⟩
  published := rfl
  busy := fun _ => rfl
  copied := by simp [start, DataBuffer.System.start]
  recorded := rfl

namespace Flows

theorem acceptFrame (flows : pipeline.Flows host created) (offered : Offered) (busy : Bool)
    : (pipeline.step host (.acceptFrame offered busy)).Flows host created := by
  rw [step]
  by_cases rejected : offered.rejected busy = true
  · rw [if_pos rejected]
    exact { flows with
      accepted := by
        rw [← flows.accepted]
        simp [Pipeline.accepted]
    }
  · rw [if_neg rejected]
    exact { flows with
      accepted := by
        rw [← List.append_assoc, ← flows.accepted]
        simp [Pipeline.accepted]
    }

/-- The loop takes the frame the queue hands it, when it has nothing more to publish. What it
makes of it does not depend on the counters that were cleared.
-/
theorem iterate (flows : pipeline.Flows host created) (surroundings : Surroundings)
    : (pipeline.step host (.iterate surroundings)).Flows host created := by
  cases publishing : pipeline.publishing with
  | some packet => simpa only [step, publishing] using flows
  | none =>
      cases queue : pipeline.queue with
      | nil => simpa only [step, publishing, queue] using flows
      | cons frame rest =>
          obtain ⟨counts, same, loop⟩ := flows.loop
          have further :=
            SmurfProcessor.iterate_withCounts host (pipeline.alone host created).1
              (surroundings.arrival frame) same
          have counted :=
            SmurfProcessor.counts_iterate host (pipeline.alone host created).1
              (surroundings.arrival frame)
          have grown :=
            transduce_concat (SmurfProcessor.iterate host) created pipeline.handled
              (surroundings.arrival frame)
          have before := flows.published
          rw [publishing, Option.toList_none, List.append_nil] at before
          have idle := flows.busy publishing
          simp only [step, publishing, queue, loop, further]
          exact {
            accepted := by
              rw [List.map_append, List.append_assoc]
              exact flows.accepted.trans (by rw [queue]; rfl)
            loop := by
              refine ⟨_, ?_, congrArg (SmurfProcessor.withCounts · _) ?_⟩
              · simp only [alone, grown]
                exact counted ▸ same.count _
              · simp only [alone, grown]
            published := by
              simp only [Pipeline.published, alone, grown, List.filterMap_append]
              rw [before, Pipeline.published, List.filterMap_cons, alone]
              split <;> rename_i packet <;> rw [packet] <;> rfl
            busy := fun _ => idle
            copied := by simp [idle]
            recorded := flows.recorded
          }

/-- An action of a thread on the buffer that neither ends a packet nor returns from
`write_file`.
-/
theorem act (flows : pipeline.Flows host created)
    (action : DataBuffer.Action 2 Packet)
    (written : (pipeline.txBuffer.step action).written = pipeline.txBuffer.written)
    (busy
      : pipeline.publishing = none → (pipeline.txBuffer.step action).writer = .idle)
    (copied
      : ∀ slot,
          (pipeline.txBuffer.step action).writer = .filled slot
          → pipeline.publishing
            = some ((pipeline.txBuffer.step action).buffer.data slot).packet)
    (silent : DataBuffer.System.returns pktReaderIndexFile action = false)
    : ({ pipeline with txBuffer := pipeline.txBuffer.step action }).Flows host created where
  accepted := flows.accepted
  loop := flows.loop
  published := written ▸ flows.published
  busy := busy
  copied := copied
  recorded := by
    rw [DataBuffer.System.returned_step _ _ silent]
    exact flows.recorded

theorem read (flows : pipeline.Flows host created) (i : Fin 2) (returns : Bool)
    {action : DataBuffer.Action 2 Packet}
    (reads : action = .getReadPtr i ∨ action = .process i returns ∨ action = .doneReading i)
    (silent : DataBuffer.System.returns pktReaderIndexFile action = false)
    : ({ pipeline with txBuffer := pipeline.txBuffer.step action }).Flows host created := by
  obtain ⟨writer, written, data⟩ := pipeline.txBuffer.step_of_reader i returns reads
  refine flows.act action written ?_ ?_ silent
  · rw [writer]
    exact flows.busy
  · rw [writer, data]
    exact flows.copied

theorem getWritePtr (flows : pipeline.Flows host created)
    : (pipeline.step host .getWritePtr).Flows host created := by
  cases publishing : pipeline.publishing with
  | none => simpa only [step, publishing] using flows
  | some packet =>
      have taken
          : pipeline.step host .getWritePtr
            = { pipeline with txBuffer := pipeline.txBuffer.step .getWritePtr } := by
        simp only [step, publishing]
      rw [taken]
      cases phase : pipeline.txBuffer.writer with
      | idle =>
          refine flows.act .getWritePtr ?_ ?_ ?_ rfl <;>
            simp [DataBuffer.System.step, phase, publishing]
      | granted | filled =>
          simpa only [DataBuffer.System.step, phase] using flows

theorem copyPacket (flows : pipeline.Flows host created)
    : (pipeline.step host .copyPacket).Flows host created := by
  cases publishing : pipeline.publishing with
  | none => simpa only [step, publishing] using flows
  | some packet =>
      have taken
          : pipeline.step host .copyPacket
            = { pipeline with txBuffer := pipeline.txBuffer.step (.fill packet) } := by
        simp only [step, publishing]
      rw [taken]
      cases phase : pipeline.txBuffer.writer with
      | granted slot =>
          refine flows.act (.fill packet) ?_ ?_ ?_ rfl <;>
            simp [DataBuffer.System.step, phase, publishing]
      | idle | filled =>
          simpa only [DataBuffer.System.step, phase] using flows

/-- With `doneWriting` the packet is in the buffer, and no longer in the loop. -/
theorem doneWriting (flows : pipeline.Flows host created)
    : (pipeline.step host .doneWriting).Flows host created := by
  cases phase : pipeline.txBuffer.writer with
  | idle | granted => simpa only [step, phase] using flows
  | filled slot =>
      have before := flows.published
      rw [flows.copied slot phase] at before
      have recorded := flows.recorded
      rw [← DataBuffer.System.returned_step pktReaderIndexFile .doneWriting rfl] at recorded
      simp only [step, phase, DataBuffer.System.step] at recorded ⊢
      exact {
        accepted := flows.accepted
        loop := flows.loop
        published := (List.append_nil _).trans before
        busy := fun _ => rfl
        copied := by simp
        recorded
      }

theorem writeFile (flows : pipeline.Flows host created) (opened : Int32)
    : (pipeline.step host (.writeFile opened)).Flows host created := by
  cases phase : pipeline.txBuffer.reader pktReaderIndexFile with
  | idle | processed => simpa only [step, Pipeline.writeFile, phase] using flows
  | holding slot content =>
      obtain ⟨writer, written, data⟩ :=
        pipeline.txBuffer.step_of_reader pktReaderIndexFile true (.inr (.inl rfl))
      simp only [step, Pipeline.writeFile, phase]
      exact {
        accepted := flows.accepted
        loop := flows.loop
        published := written ▸ flows.published
        busy := writer ▸ flows.busy
        copied := by
          rw [writer, data]
          exact flows.copied
        recorded := by
          rw [DataBuffer.System.returned_process phase, List.map_append, List.map_append,
            flows.recorded]
          rfl
      }

theorem clearFrameCnt (flows : pipeline.Flows host created)
    : (pipeline.step host .clearFrameCnt).Flows host created := by
  obtain ⟨counts, same, loop⟩ := flows.loop
  exact { flows with
    loop := by
      refine ⟨counts.clear, same, ?_⟩
      simp only [step, loop]
      rfl
  }

/-- Every step of every thread keeps the flow, by cases on the step. -/
theorem step (flows : pipeline.Flows host created) (event : Event)
    : (pipeline.step host event).Flows host created := by
  cases event with
  | acceptFrame offered busy => exact flows.acceptFrame offered busy
  | iterate surroundings => exact flows.iterate surroundings
  | getWritePtr => exact flows.getWritePtr
  | copyPacket => exact flows.copyPacket
  | doneWriting => exact flows.doneWriting
  | getReadPtr i => exact flows.read i true (.inl rfl) rfl
  | transmit returns => exact flows.read pktReaderIndexTx returns (.inr (.inl rfl)) rfl
  | writeFile opened => exact flows.writeFile opened
  | doneReading i => exact flows.read i true (.inr (.inr rfl)) rfl
  | clearFrameCnt => exact flows.clearFrameCnt

end Flows

end Pipeline

end Smurf
