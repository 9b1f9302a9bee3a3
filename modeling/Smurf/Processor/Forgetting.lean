import Smurf.Filter.Channel
import Smurf.Processor.PhaseTracking
import Smurf.Processor.Publishing

/-! The clear bit makes the processor forget its past.
A later payload is computed from the frame, the masked samples of the frame before, the wrap
counters, the averaging, the channels of the filter without their outputs, and the last frame
number. An accepted frame with the clear bit resets each of them or takes it from the frame.
-/

namespace Smurf

open ByteMemory Runs
open SmurfProcessor (unwrapCounter)

-----------------------------------------------------------------------------------------
-- Averaging and filter
-----------------------------------------------------------------------------------------

namespace SmurfHeader

/-- `average_control` does not read the last difference of sync words. -/
theorem averageControl_eq {self other : SmurfHeader}
    (counter : self.averageCounter = other.averageCounter)
    (sync : self.lastSyncword = other.lastSyncword) (header : Bytes) (numAverages : Int32)
    : self.averageControl header numAverages = other.averageControl header numAverages := by
  simp only [averageControl, counter, sync]

end SmurfHeader

namespace SmurfFilter

variable {samples : Nat}

theorem records_filter (self : SmurfFilter samples) (n : Fin samples)
    (data : Fin samples → Int32) (order : Int32) (a b : Nat → ℚ) (g : ℚ)
    : (self.filter data order a b g).records = self.records := by
  have channels := congrArg Channel.records (channel_filter n self data order a b g)
  rw [Channel.records_filter] at channels
  exact channels

/-- The channels agree but for their outputs. -/
def SameMemory (self other : SmurfFilter samples) : Prop :=
  ∀ n, (self.channel n).setOutput 0 = (other.channel n).setOutput 0

variable {self other : SmurfFilter samples}

theorem SameMemory.withOutputs (same : SameMemory self other)
    (output output' : Fin samples → Int32)
    : SameMemory { self with output } { other with output := output' } :=
  same

theorem SameMemory.clearFilter (same : SameMemory self other)
    : SameMemory self.clearFilter other.clearFilter :=
  fun n => congrArg Channel.clearFilter (same n)

theorem SameMemory.endRun (same : SameMemory self other)
    : SameMemory self.endRun other.endRun := by
  intro n
  have marker : self.orderN = other.orderN := congrArg Channel.orderN (same n)
  rw [SmurfFilter.endRun, SmurfFilter.endRun, marker]
  split
  · exact same.clearFilter n
  · exact same n

/-- One more frame makes the outputs agree too. -/
theorem SameMemory.channel_filter (same : SameMemory self other) (n : Fin samples)
    (data : Fin samples → Int32) (order : Int32) (a b : Nat → ℚ) (g : ℚ)
    : (self.filter data order a b g).channel n = (other.filter data order a b g).channel n := by
  rw [SmurfFilter.channel_filter, SmurfFilter.channel_filter,
    ← Channel.filter_setOutput (self.channel n) 0, same n, Channel.filter_setOutput]

end SmurfFilter

-----------------------------------------------------------------------------------------
-- What an accepted frame does
-----------------------------------------------------------------------------------------

/-- What the end of an iteration leaves of the filter. -/
def Record.leave (self : Record) (F : SmurfFilter smurfSamples) : SmurfFilter smurfSamples :=
  let cleared := if self.clearBit then F.clearFilter else F
  if self.cnt = 0 then cleared else cleared.endRun

/-- Alike frames leave alike filters. -/
theorem SmurfFilter.SameMemory.leave {F F' : SmurfFilter smurfSamples} (same : SameMemory F F')
    {record record' : Record} (cnt : record.cnt = record'.cnt)
    (clearBit : record.clearBit = record'.clearBit)
    : SameMemory (record.leave F) (record'.leave F') := by
  have cleared
      : SameMemory (if record'.clearBit then F.clearFilter else F)
          (if record'.clearBit then F'.clearFilter else F') := by
    split
    · exact same.clearFilter
    · exact same
  simp only [Record.leave, cnt, clearBit]
  split
  · exact cleared
  · exact cleared.endRun

/-- An accepted frame outside test modes, in terms of the frame and the state before it. -/
structure Processed (before : SmurfProcessor) (frame : Frame) (record : Record)
    (after : SmurfProcessor) : Prop where
  unwrapped : ∀ j, SmurfProcessor.UnwrappedFrame before frame j record after
  clearBit : record.clearBit = frame.clearBit
  cnt
    : record.cnt = (before.H.averageControl frame.image before.C.numAverages).1
  H
    : after.H
      = if frame.clearBit then
          (before.H.averageControl frame.image before.C.numAverages).2.clearAverage
        else (before.H.averageControl frame.image before.C.numAverages).2
  F
    : ∃ output,
        after.F
        = { record.leave
              (before.F.filter record.inputData before.C.filterOrder before.C.filterA
                before.C.filterB before.C.filterG) with
            output }
  payload
    : record.packet.map Packet.payload
      = if record.cnt ≠ 0 ∧ after.C.dataFrames ≠ 0 then
          some
            (before.F.filter record.inputData before.C.filterOrder before.C.filterA
              before.C.filterB before.C.filterG).output
        else none

namespace SmurfProcessor

variable (host : Host) (self : SmurfProcessor) (arrival : Arrival)

/-- Outside test modes, the end of an average keeps the output of the filter. -/
theorem output_finish (normal : SmurfHeader.getTestMode self.buffer = 0)
    : (self.finish arrival).F.output = self.F.output := by
  have kept : self.endRun.insertTestAverages = self.endRun := by
    rw [insertTestAverages]
    exact if_neg (not_not.mpr normal)
  obtain ⟨V, checked⟩ := checkClocks_eq self.endRun arrival
  obtain ⟨bytes, stamped⟩ := stamp_eq (self.endRun.checkClocks arrival)
  rw [finish, kept, stamped, checked]
  simp only [setBuffer, endRun, SmurfFilter.endRun]
  split <;> rfl

/-- What is published after an average that ends. -/
theorem payload_publish
    : self.publish.map Packet.payload
      = if self.C.dataFrames ≠ 0 then some self.F.output else none := by
  rw [publish]
  split <;> rfl

theorem averageControl_received {buffer : Bytes}
    (received : self.buffer = frameToBuffer arrival.frame buffer) (full : arrival.frame.Full)
    (H : SmurfHeader) (numAverages : Int32)
    : H.averageControl (self.prepare host arrival).buffer numAverages
      = H.averageControl arrival.frame.image numAverages := by
  rw [SmurfHeader.averageControl, SmurfHeader.averageControl, SmurfHeader.getSyncword,
    SmurfHeader.getSyncword, SmurfHeader.getLowField, SmurfHeader.getLowField,
    pullBitField_prepare_received host self arrival received full (by decide) (by decide)]

/-- The processor after filtering, in terms of the frame prepared. -/
theorem filter_unwrap_prepare
    : let working := (self.prepare host arrival).unwrap.filter
      working.buffer = (self.prepare host arrival).buffer
      ∧ working.H = self.H
      ∧ working.C = self.C
      ∧ working.F
        = self.F.filter working.inputData self.C.filterOrder self.C.filterA self.C.filterB
            self.C.filterG := by
  obtain ⟨b, T, prepared⟩ := prepare_eq host self arrival
  rw [prepared]
  exact ⟨rfl, rfl, rfl, rfl⟩

/-- Clearing keeps the output of the filter. -/
theorem output_settled
    : (self.settled host arrival).F.output
      = (self.prepare host arrival).unwrap.filter.F.output := by
  rw [settled]
  generalize (self.prepare host arrival).unwrap.filter = working
  obtain ⟨C, mask, fast, read⟩ := reread_eq host working.average.2.clear arrival
  rw [read, clear_eq]
  dsimp only
  rw [F_average, apply_ite SmurfFilter.output]
  exact ite_self _

/-- What the rest of an iteration makes of the averaging and the filter. -/
theorem rest_average (cnt : UInt32)
    : let next :=
        if cnt = 0 then self.average.2.clear.reread host arrival
        else (self.average.2.clear.reread host arrival).finish arrival
      let control := self.H.averageControl self.buffer self.C.numAverages
      let clearBit := SmurfHeader.getClearBit self.buffer
      next.H = (if clearBit then control.2.clearAverage else control.2)
      ∧ ∃ output,
          let cleared := if clearBit then self.F.clearFilter else self.F
          next.F = { if cnt = 0 then cleared else cleared.endRun with output } := by
  obtain ⟨b, T, V, C, mask, fast, output, next⟩ :=
    rest_eq host self.average.2.clear arrival cnt
  dsimp only
  rw [next, clear_eq, buffer_average, F_average]
  exact ⟨rfl, output, rfl⟩

/-- The averaging and the filter behind an accepted frame. -/
theorem accept_average
    : let working := (self.prepare host arrival).unwrap.filter
      let record := (self.accept host arrival).1
      let control := working.H.averageControl working.buffer working.C.numAverages
      record.cnt = control.1
      ∧ (self.accept host arrival).2.H
        = (if record.clearBit then control.2.clearAverage else control.2)
      ∧ ∃ output, (self.accept host arrival).2.F = { record.leave working.F with output } :=
  ⟨rfl, rest_average host (self.prepare host arrival).unwrap.filter arrival _⟩

/-- An accepted frame outside test modes publishes the filter's output. -/
theorem accept_payload
    (normal : SmurfHeader.getTestMode (self.prepare host arrival).buffer = 0)
    : let record := (self.accept host arrival).1
      record.packet.map Packet.payload
      = if record.cnt ≠ 0 ∧ (self.accept host arrival).2.C.dataFrames ≠ 0 then
          some (self.prepare host arrival).unwrap.filter.F.output
        else none := by
  by_cases ends : self.averageEnds host arrival
  · have output
        : ((self.settled host arrival).finish arrival).F.output
          = (self.prepare host arrival).unwrap.filter.F.output := by
      rw [output_finish _ _ (by rw [buffer_settled]; exact normal), output_settled]
    have cnt : (self.accept host arrival).1.cnt ≠ 0 := ends
    dsimp only
    rw [packet_accept_of_averageEnds _ _ _ ends, accept_of_averageEnds _ _ _ ends,
      payload_publish, output]
    simp only [cnt, ne_eq, not_false_iff, true_and]
  · have cnt : ¬ (self.accept host arrival).1.cnt ≠ 0 := ends
    dsimp only
    rw [packet_accept_of_not_averageEnds _ _ _ ends, if_neg (fun both => cnt both.1)]
    rfl

theorem processed_iterate (full : arrival.frame.Full) (normal : arrival.frame.testMode = 0)
    (accepted : self.counts.inOrder arrival.frame.counter = true)
    : ∃ record,
        (self.iterate host arrival).2 = .accepted record
        ∧ Processed self arrival.frame record (self.iterate host arrival).1 := by
  have inOrder : self.counts.inOrder (self.counterRead arrival) = true := by
    rw [self.counterRead_eq full.hasCounter]
    exact accepted
  have unwrapped (j : Fin smurfSamples) :=
    unwrapped_iterate host self arrival full normal accepted j
  have received := buffer_received self arrival.frame
  have config : (self.receive arrival.frame).checkOrder.2.C = self.C := rfl
  have header : (self.receive arrival.frame).checkOrder.2.H = self.H := rfl
  have memory : (self.receive arrival.frame).checkOrder.2.F = self.F := rfl
  rw [iterate_accepted host self arrival inOrder] at unwrapped ⊢
  generalize (self.receive arrival.frame).checkOrder.2 = working
    at unwrapped received config header memory ⊢
  refine ⟨_, rfl, ?_⟩
  obtain ⟨buffer, H, C, F⟩ := filter_unwrap_prepare host working arrival
  obtain ⟨cnt, after, filter⟩ := accept_average host working arrival
  have control := averageControl_received host working arrival received full self.H
    self.C.numAverages
  have clearBit
      : (working.accept host arrival).1.clearBit = arrival.frame.clearBit :=
    (congrArg SmurfHeader.getClearBit buffer).trans
      (getClearBit_prepare_received host working arrival received full)
  have payload :=
    accept_payload host working arrival
      ((getTestMode_prepare_received host working arrival received full).trans normal)
  rw [buffer, H, C, config, header, control] at cnt after
  rw [F, config, memory] at filter payload
  rw [clearBit] at after
  constructor
  · intro j
    obtain ⟨record, found, frame⟩ := unwrapped j
    rw [Outcome.accepted.inj found]
    exact frame
  · exact clearBit
  · exact cnt
  · exact after
  · exact filter
  · exact payload

/-- Every full frame leaves its counter for the next one. -/
theorem counts_after (full : arrival.frame.Full)
    : (self.iterate host arrival).1.counts.frameNumber = arrival.frame.counter
      ∧ (self.iterate host arrival).1.counts.firstFrame = false := by
  rw [counts_iterate, FrameCounts.count_frameNumber, FrameCounts.count_firstFrame,
    counterRead_eq self full.hasCounter]
  exact ⟨rfl, rfl⟩

end SmurfProcessor

-----------------------------------------------------------------------------------------
-- Two runs
-----------------------------------------------------------------------------------------

/-- What is observed of an iteration: nothing of a discarded frame, else the emission count
and the payload published.
-/
def Outcome.observed : Outcome → Option (UInt32 × Option (Fin smurfSamples → Int32))
  | .discarded => none
  | .accepted record => some (record.cnt, record.packet.map Packet.payload)

/-- A full frame outside test modes that changes neither configuration nor mask. -/
structure Regular (host : Host) (processor : SmurfProcessor) (arrival : Arrival) : Prop where
  full : arrival.frame.Full
  normal : arrival.frame.testMode = 0
  C : (processor.iterate host arrival).1.C = processor.C
  mask : (processor.iterate host arrival).1.mask = processor.mask

/-- Everything that later payloads are computed from agrees. -/
structure Forgotten (s t : SmurfProcessor) : Prop where
  C : s.C = t.C
  mask : s.mask = t.mask
  wrapCounter : s.wrapCounter = t.wrapCounter
  averageCounter : s.H.averageCounter = t.H.averageCounter
  lastSyncword : s.H.lastSyncword = t.H.lastSyncword
  F : SmurfFilter.SameMemory s.F t.F
  samples : ∀ j, sample s.buffer (s.mask j) = sample t.buffer (t.mask j)
  frameNumber : s.counts.frameNumber = t.counts.frameNumber
  firstFrame : s.counts.firstFrame = t.counts.firstFrame

namespace Forgotten

variable {host : Host} {s t : SmurfProcessor} {x y : Arrival}

/-- An accepted frame finds the same data, averaging and filter. -/
theorem processed (forgotten : Forgotten s t) {frame : Frame} {record record' : Record}
    {after after' : SmurfProcessor} (processed : Processed s frame record after)
    (processed' : Processed t frame record' after') (C : after.C = s.C) (C' : after'.C = t.C)
    (mask : after.mask = s.mask) (mask' : after'.mask = t.mask)
    (frameNumber : after.counts.frameNumber = after'.counts.frameNumber)
    (firstFrame : after.counts.firstFrame = after'.counts.firstFrame)
    : Forgotten after after'
      ∧ (Outcome.accepted record).observed = (Outcome.accepted record').observed := by
  have data : record.inputData = record'.inputData := by
    funext j
    rw [(processed.unwrapped j).inputData, (processed'.unwrapped j).inputData,
      forgotten.samples j, forgotten.wrapCounter, forgotten.mask]
  have control :=
    SmurfHeader.averageControl_eq forgotten.averageCounter forgotten.lastSyncword frame.image
      s.C.numAverages
  have cnt : record.cnt = record'.cnt := by
    rw [processed.cnt, processed'.cnt, control, forgotten.C]
  have H : after.H = after'.H := by
    rw [processed.H, processed'.H, control, forgotten.C]
  have clearBit : record.clearBit = record'.clearBit := by
    rw [processed.clearBit, processed'.clearBit]
  have channels (n : Fin smurfSamples) :=
    forgotten.F.channel_filter n record'.inputData t.C.filterOrder t.C.filterA t.C.filterB
      t.C.filterG
  obtain ⟨output, left⟩ := processed.F
  obtain ⟨output', left'⟩ := processed'.F
  have payload := processed.payload
  have payload' := processed'.payload
  rw [data, forgotten.C] at left payload
  generalize s.F.filter record'.inputData t.C.filterOrder t.C.filterA t.C.filterB t.C.filterG
    = F at channels left payload
  generalize t.F.filter record'.inputData t.C.filterOrder t.C.filterA t.C.filterB t.C.filterG
    = F' at channels left' payload'
  have outputs : F.output = F'.output :=
    funext fun n => congrArg Channel.output (channels n)
  have memory : SmurfFilter.SameMemory F F' :=
    fun n => congrArg (Channel.setOutput · 0) (channels n)
  have config : after.C = after'.C := by rw [C, C', forgotten.C]
  constructor
  · refine ⟨config, ?_, ?_, congrArg _ H, congrArg _ H, ?_, ?_, frameNumber, firstFrame⟩
    · rw [mask, mask', forgotten.mask]
    · funext j
      rw [(processed.unwrapped j).wrapCounter, (processed'.unwrapped j).wrapCounter,
        forgotten.samples j, forgotten.wrapCounter, forgotten.mask]
    · rw [left, left']
      exact (memory.leave cnt clearBit).withOutputs output output'
    · intro j
      rw [mask, mask', (processed.unwrapped j).latest, (processed'.unwrapped j).latest,
        forgotten.mask]
  · rw [Outcome.observed, Outcome.observed, payload, payload', cnt, config, outputs]

/-- One more frame finds the same decisions, averaging and data. -/
theorem iterate (forgotten : Forgotten s t) (same : x.frame = y.frame)
    (regular : Regular host s x) (regular' : Regular host t y)
    : Forgotten (s.iterate host x).1 (t.iterate host y).1
      ∧ (s.iterate host x).2.observed = (t.iterate host y).2.observed := by
  obtain ⟨frameNumber, firstFrame⟩ := SmurfProcessor.counts_after host s x regular.full
  obtain ⟨frameNumber', firstFrame'⟩ := SmurfProcessor.counts_after host t y regular'.full
  have C := regular.C
  have C' := regular'.C
  have mask := regular.mask
  have mask' := regular'.mask
  have order
      : s.counts.inOrder x.frame.counter = t.counts.inOrder y.frame.counter := by
    rw [FrameCounts.inOrder, FrameCounts.inOrder, forgotten.frameNumber, forgotten.firstFrame,
      same]
  cases accepted : s.counts.inOrder x.frame.counter with
  | false =>
      have late : ¬ s.counts.inOrder (s.counterRead x) := by
        rw [s.counterRead_eq regular.full.hasCounter, accepted]
        exact Bool.false_ne_true
      have late' : ¬ t.counts.inOrder (t.counterRead y) := by
        rw [t.counterRead_eq regular'.full.hasCounter, ← order, accepted]
        exact Bool.false_ne_true
      rw [SmurfProcessor.iterate_discarded host s x late] at *
      rw [SmurfProcessor.iterate_discarded host t y late'] at *
      refine ⟨⟨forgotten.C, forgotten.mask, forgotten.wrapCounter, forgotten.averageCounter,
        forgotten.lastSyncword, forgotten.F, ?_, ?_, ?_⟩, rfl⟩
      · intro j
        dsimp only
        rw [SmurfProcessor.buffer_received, SmurfProcessor.buffer_received, mask, mask',
          forgotten.mask, sample_frame regular.full _ (t.mask j).isLt,
          sample_frame regular'.full _ (t.mask j).isLt, same]
      · rw [frameNumber, frameNumber', same]
      · rw [firstFrame, firstFrame']
  | true =>
      obtain ⟨record, outcome, processed⟩ :=
        SmurfProcessor.processed_iterate host s x regular.full regular.normal accepted
      obtain ⟨record', outcome', processed'⟩ :=
        SmurfProcessor.processed_iterate host t y regular'.full regular'.normal
          (order ▸ accepted)
      rw [← same] at processed'
      rw [outcome, outcome']
      generalize (s.iterate host x).1 = after at processed frameNumber firstFrame C mask ⊢
      generalize (t.iterate host y).1 = after'
        at processed' frameNumber' firstFrame' C' mask' ⊢
      exact forgotten.processed processed processed' C C' mask mask'
        (by rw [frameNumber, frameNumber', same]) (by rw [firstFrame, firstFrame'])

end Forgotten

namespace SmurfProcessor

variable (host : Host)

/-- A file that is missing or agrees keeps the configuration. -/
theorem C_iterate (self : SmurfProcessor) (arrival : Arrival)
    (kept : self.C.readConfigFile host.strtof arrival.configFile = self.C)
    : (self.iterate host arrival).1.C = self.C := by
  refine iterate_keeps host self arrival SmurfProcessor.C rfl (fun working same => ?_)
  rw [C_accept, reread]
  split
  · split
    · exact (congrArg (SmurfConfig.readConfigFile host.strtof · arrival.configFile) same).trans
        kept
    · exact same
  · exact same

/-- The processor after some arrivals. -/
def reached (configFile : Option (List String)) (maskFile : Option (List UInt32))
    (past : List Arrival)
    : SmurfProcessor :=
  past.foldl (fun self arrival => (self.iterate host arrival).1)
    (create host configFile maskFile)

end SmurfProcessor

end Smurf
