import Smurf.Processor.Stages

/-! Processors that differ only in what the next frames overwrite.
Two processors are alike when everything a later payload is computed from agrees: their
state beside the buffers, and of the buffers the full frame worked on. All stages of an
iteration keep them alike.
-/

namespace Smurf

open ByteMemory
open SmurfProcessor (unwrapCounter)

/-- The buffers hold the same full frame. -/
def SameFrame (buffer other : Bytes) : Prop :=
  ∀ address < smurfDataLength, buffer address = other address

namespace SameFrame

variable {buffer other : Bytes}

theorem header (same : SameFrame buffer other) : SameHeader buffer other :=
  fun address less => same address (by
    simp only [smurfDataLength, smurfRawSamples, smurfHeaderLength] at less ⊢
    omega)

theorem sample (same : SameFrame buffer other) {i : Nat} (raw : i < smurfRawSamples)
    : Smurf.sample buffer i = Smurf.sample other i := by
  rw [Smurf.sample, Smurf.sample]
  congr 2
  refine word_congr (fun k less => same _ ?_)
  simp only [smurfDataLength, smurfRawSamples, smurfHeaderLength] at raw ⊢
  omega

theorem putField (same : SameFrame buffer other) (offset width : Nat) (data : Bytes)
    : SameFrame (putField buffer offset width data) (Smurf.putField other offset width data) := by
  intro address less
  rw [Smurf.putField, Smurf.putField, same address less]

theorem putSamples (same : SameFrame buffer other) (samples : Fin smurfRawSamples → Int16)
    : SameFrame (putSamples buffer samples) (Smurf.putSamples other samples) := by
  intro address less
  rw [Smurf.putSamples, Smurf.putSamples, same address less]

end SameFrame

/-- The state beside the buffers and the frame counts agrees. -/
structure SameState (s t : SmurfProcessor) : Prop where
  wrapCounter : s.wrapCounter = t.wrapCounter
  mask : s.mask = t.mask
  fastInternalCounter : s.fastInternalCounter = t.fastInternalCounter
  H : s.H = t.H
  C : s.C = t.C
  V : s.V = t.V
  F : s.F = t.F
  T : s.T = t.T

/-- The frame worked on agrees too. -/
structure Alike (s t : SmurfProcessor) : Prop extends SameState s t where
  frame : SameFrame s.buffer t.buffer

namespace Alike

variable {s t : SmurfProcessor} (host : Host) (arrival : Arrival)

theorem setBuffer (state : SameState s t) {bytes other : Bytes} (same : SameFrame bytes other)
    : Alike (s.setBuffer bytes) (t.setBuffer other) := by
  refine ⟨⟨state.wrapCounter, state.mask, state.fastInternalCounter, state.H, state.C, state.V,
    state.F, state.T⟩, ?_⟩
  rw [SmurfProcessor.buffer_setBuffer, SmurfProcessor.buffer_setBuffer]
  exact same

theorem putTesBias (alike : Alike s t) : Alike (s.putTesBias arrival) (t.putTesBias arrival) :=
  setBuffer alike.toSameState (alike.frame.putField _ _ _)

theorem testSamples (alike : Alike s t)
    : s.testSamples host arrival = t.testSamples host arrival := by
  have header := alike.frame.header
  have samples
      : (fun i : Fin smurfRawSamples => sample s.buffer i)
        = fun i : Fin smurfRawSamples => sample t.buffer i :=
    funext fun i => alike.frame.sample i.isLt
  unfold SmurfProcessor.testSamples
  rw [SmurfHeader.getTestMode_congr header, SmurfHeader.getSyncword_congr header,
    SmurfHeader.getTestParameter_congr header, samples, alike.T]

theorem insertTestData (alike : Alike s t)
    : Alike (s.insertTestData host arrival) (t.insertTestData host arrival) := by
  unfold SmurfProcessor.insertTestData
  rw [SmurfHeader.getTestMode_congr alike.frame.header, alike.testSamples host arrival]
  split
  · have state
        : SameState { s with T := (t.testSamples host arrival).1 }
            { t with T := (t.testSamples host arrival).1 } :=
      ⟨alike.wrapCounter, alike.mask, alike.fastInternalCounter, alike.H, alike.C, alike.V,
        alike.F, rfl⟩
    exact setBuffer state (alike.frame.putSamples _)
  · exact alike

theorem prepare (alike : Alike s t) : Alike (s.prepare host arrival) (t.prepare host arrival) :=
  (alike.putTesBias arrival).insertTestData host arrival

/-- Alike processors unwrap a frame alike when the frames before it lead to the same
decisions.
-/
theorem unwrap (alike : Alike s t)
    (decisions
      : ∀ j wrapCounter,
          unwrapCounter (sample s.buffer (s.mask j)) (sample s.bufferLast (s.mask j)) wrapCounter
          = unwrapCounter (sample s.buffer (s.mask j)) (sample t.bufferLast (s.mask j))
              wrapCounter)
    : Alike s.unwrap t.unwrap ∧ s.unwrap.inputData = t.unwrap.inputData := by
  have wrapCounter : s.unwrap.wrapCounter = t.unwrap.wrapCounter := by
    funext j
    simp only [SmurfProcessor.unwrap, decisions, alike.wrapCounter, ← alike.mask,
      alike.frame.sample (s.mask j).isLt]
  refine ⟨⟨⟨wrapCounter, alike.mask, alike.fastInternalCounter, alike.H, alike.C, alike.V,
    alike.F, alike.T⟩, alike.frame⟩, ?_⟩
  funext j
  have data
      : ∀ u : SmurfProcessor,
          u.unwrap.inputData j = (sample u.buffer (u.mask j)).toInt32 + u.unwrap.wrapCounter j :=
    fun _ => rfl
  rw [data, data, wrapCounter, ← alike.mask, alike.frame.sample (s.mask j).isLt]

theorem filter (alike : Alike s t) (data : s.inputData = t.inputData)
    : Alike s.filter t.filter := by
  refine ⟨⟨alike.wrapCounter, alike.mask, alike.fastInternalCounter, alike.H, alike.C, alike.V,
    ?_, alike.T⟩, alike.frame⟩
  simp only [SmurfProcessor.filter, alike.F, alike.C, data]

theorem average (alike : Alike s t)
    : s.average.1 = t.average.1 ∧ Alike s.average.2 t.average.2 := by
  have same
      : s.H.averageControl s.buffer s.C.numAverages
        = t.H.averageControl t.buffer t.C.numAverages := by
    rw [alike.H, alike.C, SmurfHeader.averageControl_congr alike.frame.header]
  simp only [SmurfProcessor.average, same, true_and]
  exact ⟨⟨alike.wrapCounter, alike.mask, alike.fastInternalCounter, rfl, alike.C, alike.V,
    alike.F, alike.T⟩, alike.frame⟩

theorem clear (alike : Alike s t) : Alike s.clear t.clear := by
  have bit : SmurfHeader.getClearBit s.buffer = SmurfHeader.getClearBit t.buffer :=
    SmurfHeader.ctrlBit_congr alike.frame.header 0
  simp only [SmurfProcessor.clear, bit]
  split
  · exact ⟨⟨rfl, alike.mask, alike.fastInternalCounter,
      congrArg SmurfHeader.clearAverage alike.H, alike.C, alike.V,
      congrArg SmurfFilter.clearFilter alike.F, alike.T⟩, alike.frame⟩
  · exact alike

theorem reread (alike : Alike s t) : Alike (s.reread host arrival) (t.reread host arrival) := by
  have bit : SmurfHeader.readConfigFile s.buffer = SmurfHeader.readConfigFile t.buffer :=
    SmurfHeader.ctrlBit_congr alike.frame.header 3
  simp only [SmurfProcessor.reread, bit, alike.fastInternalCounter]
  split
  · split
    · exact ⟨⟨alike.wrapCounter, congrArg (readMask · _) alike.mask, rfl, alike.H,
        congrArg (SmurfConfig.readConfigFile _ · _) alike.C, alike.V, alike.F, alike.T⟩,
        alike.frame⟩
    · exact ⟨⟨alike.wrapCounter, alike.mask, rfl, alike.H, alike.C, alike.V, alike.F, alike.T⟩,
        alike.frame⟩
  · exact ⟨⟨alike.wrapCounter, alike.mask, rfl, alike.H, alike.C, alike.V, alike.F, alike.T⟩,
      alike.frame⟩

theorem endRun (alike : Alike s t) : Alike s.endRun t.endRun :=
  ⟨⟨alike.wrapCounter, alike.mask, alike.fastInternalCounter, alike.H, alike.C, alike.V,
    congrArg SmurfFilter.endRun alike.F, alike.T⟩, alike.frame⟩

theorem insertTestAverages (alike : Alike s t)
    : Alike s.insertTestAverages t.insertTestAverages := by
  have header := alike.frame.header
  have averages : s.testAverages = t.testAverages := by
    unfold SmurfProcessor.testAverages
    rw [SmurfHeader.getTestMode_congr header, SmurfHeader.getSyncword_congr header,
      SmurfHeader.getTestParameter_congr header, alike.F, alike.T]
  unfold SmurfProcessor.insertTestAverages
  rw [SmurfHeader.getTestMode_congr header, averages]
  split
  · exact ⟨⟨alike.wrapCounter, alike.mask, alike.fastInternalCounter, alike.H, alike.C,
      alike.V, by rw [alike.F], rfl⟩, alike.frame⟩
  · exact alike

theorem setClocks (alike : Alike s t) (V : SmurfValidCheck)
    : Alike { s with V } { t with V } :=
  ⟨⟨alike.wrapCounter, alike.mask, alike.fastInternalCounter, alike.H, alike.C, rfl, alike.F,
    alike.T⟩, alike.frame⟩

theorem checkClocks (alike : Alike s t)
    : Alike (s.checkClocks arrival) (t.checkClocks arrival) := by
  unfold SmurfProcessor.checkClocks
  rw [alike.V, SmurfValidCheck.run_congr alike.frame.header]
  exact alike.setClocks _

theorem stamp (alike : Alike s t) : Alike s.stamp t.stamp := by
  unfold SmurfProcessor.stamp
  rw [alike.V]
  exact setBuffer alike.toSameState ((alike.frame.putField _ _ _).putField _ _ _)

theorem finish (alike : Alike s t) : Alike (s.finish arrival) (t.finish arrival) :=
  (alike.endRun.insertTestAverages.checkClocks arrival).stamp

/-- Alike processors publish the same packet. -/
theorem publish (alike : Alike s t) : s.publish = t.publish := by
  have header (k : Fin smurfHeaderLength) : s.buffer k = t.buffer k :=
    alike.frame.header k k.isLt
  simp only [SmurfProcessor.publish, alike.C, alike.F, header]

/-- Alike processors accept a frame with the same record, when they unwrap it alike. -/
theorem accept (alike : Alike s t)
    (decisions
      : ∀ j wrapCounter,
          unwrapCounter (sample (s.prepare host arrival).buffer (s.mask j))
              (sample s.bufferLast (s.mask j)) wrapCounter
          = unwrapCounter (sample (s.prepare host arrival).buffer (s.mask j))
              (sample t.bufferLast (s.mask j)) wrapCounter)
    : Alike (s.accept host arrival).2 (t.accept host arrival).2
      ∧ (s.accept host arrival).1 = (t.accept host arrival).1 := by
  have mask : (s.prepare host arrival).mask = s.mask := by
    obtain ⟨b, T, eq⟩ := SmurfProcessor.prepare_eq host s arrival
    rw [eq]
  have unwrapped := (alike.prepare host arrival).unwrap
    (by simpa only [mask, SmurfProcessor.bufferLast_prepare] using decisions)
  have filtered := unwrapped.1.filter unwrapped.2
  have data
      : (s.prepare host arrival).unwrap.filter.inputData
        = (t.prepare host arrival).unwrap.filter.inputData :=
    unwrapped.2
  simp only [SmurfProcessor.accept]
  generalize (s.prepare host arrival).unwrap.filter = u at filtered data ⊢
  generalize (t.prepare host arrival).unwrap.filter = v at filtered data ⊢
  obtain ⟨cnt, averaged⟩ := filtered.average
  have cleared := averaged.clear.reread host arrival
  have next
      : Alike
          (if v.average.1 = 0 then u.average.2.clear.reread host arrival
            else (u.average.2.clear.reread host arrival).finish arrival)
          (if v.average.1 = 0 then v.average.2.clear.reread host arrival
            else (v.average.2.clear.reread host arrival).finish arrival) := by
    split
    · exact cleared
    · exact cleared.finish arrival
  have clearBit : SmurfHeader.getClearBit u.buffer = SmurfHeader.getClearBit v.buffer :=
    SmurfHeader.ctrlBit_congr filtered.frame.header 0
  rw [cnt, data, filtered.C, filtered.F, averaged.H, clearBit, next.publish]
  exact ⟨next, rfl⟩

end Alike

end Smurf
