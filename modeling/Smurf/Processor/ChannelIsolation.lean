import Smurf.Filter.Channel
import Smurf.Library.Runs
import Smurf.Processor.Alike

/-! Channels do not disturb each other. What is made of a channel depends on the headers and on
the raw samples that the mask takes for it, and on no other sample of any frame.
-/

namespace Smurf

open ByteMemory Runs
open SmurfProcessor (unwrapCounter)

/-- The raw samples that channel `j` takes when the mask file is read, if it took one of `raw`
before.
-/
def TakesFrom (j : Fin smurfSamples) (raw : Set (Fin smurfRawSamples))
    (maskFile : Option (List UInt32)) : Prop :=
  ∀ mask : Mask, mask j ∈ raw → readMask mask maskFile j ∈ raw

/-- Buffers with the same header and the same samples at some positions. -/
structure SameSamples (raw : Set (Fin smurfRawSamples)) (buffer other : Bytes) : Prop where
  header : SameHeader buffer other
  samples : ∀ i ∈ raw, sample buffer i = sample other i

namespace SameSamples

variable {raw : Set (Fin smurfRawSamples)} {buffer other : Bytes}

theorem putField (same : SameSamples raw buffer other) {offset width : Nat}
    (inside : offset + width ≤ smurfHeaderLength) (data : Bytes)
    : SameSamples raw (putField buffer offset width data)
        (Smurf.putField other offset width data) where
  header := by
    intro address less
    rw [Smurf.putField, Smurf.putField, same.header address less]
  samples := by
    intro i member
    rw [sample_putField _ _ inside, sample_putField _ _ inside]
    exact same.samples i member

/-- Samples are overwritten one by one. -/
theorem putSamples (same : SameSamples raw buffer other)
    {values others : Fin smurfRawSamples → Int16} (equal : ∀ i ∈ raw, values i = others i)
    : SameSamples raw (putSamples buffer values) (Smurf.putSamples other others) where
  header := by
    intro address less
    rw [Smurf.putSamples, Smurf.putSamples, dif_neg (by omega), dif_neg (by omega)]
    exact same.header address less
  samples := by
    intro i member
    have bound := i.isLt
    rw [sample, sample]
    congr 2
    refine word_congr (fun k less => ?_)
    have inside : smurfHeaderLength ≤ smurfHeaderLength + 2 * i.val + k
        ∧ smurfHeaderLength + 2 * i.val + k < smurfDataLength := by
      simp only [smurfDataLength, smurfHeaderLength, smurfRawSamples] at bound ⊢
      omega
    have index : (smurfHeaderLength + 2 * i.val + k - smurfHeaderLength) / 2 = i.val := by omega
    rw [Smurf.putSamples, Smurf.putSamples, dif_pos inside, dif_pos inside]
    simp only [index]
    rw [equal i member]

end SameSamples

/-- Each generated sample takes the place of one sample, and the generator reads none. -/
theorem SmurfTestData.genTestSmurfData_congr (random : Fin smurfRawSamples → Int16)
    (sine : UInt16 → UInt8 → Int16) (self : SmurfTestData)
    (input other : Fin smurfRawSamples → Int16) (mode sync : UInt32) (param : UInt8)
    : (self.genTestSmurfData random sine input mode sync param).1
        = (self.genTestSmurfData random sine other mode sync param).1
      ∧ ∀ i,
          input i = other i
          → (self.genTestSmurfData random sine input mode sync param).2 i
            = (self.genTestSmurfData random sine other mode sync param).2 i := by
  unfold genTestSmurfData
  split <;> simp

/-- So does each generated average. -/
theorem SmurfTestData.genTestMceData_congr (self : SmurfTestData)
    (input other : Fin smurfSamples → Int32) (mode sync : UInt32) (param : UInt8)
    : (self.genTestMceData input mode sync param).1
        = (self.genTestMceData other mode sync param).1
      ∧ ∀ j,
          input j = other j
          → (self.genTestMceData input mode sync param).2 j
            = (self.genTestMceData other mode sync param).2 j := by
  unfold genTestMceData
  dsimp only
  split <;> simp

/-- Processors that channel `j` cannot tell apart, while the mask takes it from `raw`. -/
structure SeesAlike (j : Fin smurfSamples) (raw : Set (Fin smurfRawSamples))
    (s t : SmurfProcessor) : Prop where
  wrapCounter : s.wrapCounter j = t.wrapCounter j
  mask : s.mask = t.mask
  taken : s.mask j ∈ raw
  fastInternalCounter : s.fastInternalCounter = t.fastInternalCounter
  H : s.H = t.H
  C : s.C = t.C
  V : s.V = t.V
  F : s.F.channel j = t.F.channel j
  T : s.T = t.T
  counts : s.counts = t.counts
  buffer : SameSamples raw s.buffer t.buffer

namespace SeesAlike

variable {j : Fin smurfSamples} {raw : Set (Fin smurfRawSamples)} {s t : SmurfProcessor}
  {host : Host} {x y : Arrival}

theorem setBuffer (alike : SeesAlike j raw s t) {bytes other : Bytes}
    (same : SameSamples raw bytes other)
    : SeesAlike j raw (s.setBuffer bytes) (t.setBuffer other) := by
  refine { alike with buffer := ?_ }
  rw [SmurfProcessor.buffer_setBuffer, SmurfProcessor.buffer_setBuffer]
  exact same

theorem putTesBias (alike : SeesAlike j raw s t) (tesBias : x.tesBias = y.tesBias)
    : SeesAlike j raw (s.putTesBias x) (t.putTesBias y) := by
  rw [SmurfProcessor.putTesBias, SmurfProcessor.putTesBias, tesBias]
  exact alike.setBuffer (alike.buffer.putField (by decide) _)

theorem setT (alike : SeesAlike j raw s t) {T T' : SmurfTestData} (same : T = T')
    : SeesAlike j raw { s with T } { t with T := T' } :=
  ⟨alike.wrapCounter, alike.mask, alike.taken, alike.fastInternalCounter, alike.H, alike.C,
    alike.V, alike.F, same, alike.counts, alike.buffer⟩

theorem testSamples (host : Host) (alike : SeesAlike j raw s t) (random : x.random = y.random)
    : (s.testSamples host x).1 = (t.testSamples host y).1
      ∧ ∀ i ∈ raw, (s.testSamples host x).2 i = (t.testSamples host y).2 i := by
  have header := alike.buffer.header
  have generated :=
    t.T.genTestSmurfData_congr y.random host.sine (fun i => sample s.buffer i)
      (fun i => sample t.buffer i) (SmurfHeader.getTestMode t.buffer)
      (SmurfHeader.getSyncword t.buffer) (SmurfHeader.getTestParameter t.buffer).toUInt8
  unfold SmurfProcessor.testSamples
  rw [SmurfHeader.getTestMode_congr header, SmurfHeader.getSyncword_congr header,
    SmurfHeader.getTestParameter_congr header, random, alike.T]
  exact ⟨generated.1, fun i member => generated.2 i (alike.buffer.samples i member)⟩

theorem prepare (host : Host) (alike : SeesAlike j raw s t) (tesBias : x.tesBias = y.tesBias)
    (random : x.random = y.random)
    : SeesAlike j raw (s.prepare host x) (t.prepare host y) := by
  have put := alike.putTesBias tesBias
  have generated := put.testSamples host random
  unfold SmurfProcessor.prepare SmurfProcessor.insertTestData
  rw [SmurfHeader.getTestMode_congr put.buffer.header]
  split
  · exact (put.setT generated.1).setBuffer (put.buffer.putSamples generated.2)
  · exact put

/-- The channel is unwrapped alike behind the same sample. -/
theorem unwrap (alike : SeesAlike j raw s t)
    (last : sample s.bufferLast (s.mask j) = sample t.bufferLast (s.mask j))
    : SeesAlike j raw s.unwrap t.unwrap ∧ s.unwrap.inputData j = t.unwrap.inputData j := by
  have here := alike.buffer.samples _ alike.taken
  have wrapCounter : s.unwrap.wrapCounter j = t.unwrap.wrapCounter j := by
    simp only [SmurfProcessor.unwrap, here, last, alike.wrapCounter, ← alike.mask]
  refine ⟨⟨wrapCounter, alike.mask, alike.taken, alike.fastInternalCounter, alike.H, alike.C,
    alike.V, alike.F, alike.T, alike.counts, alike.buffer⟩, ?_⟩
  have data
      : ∀ u : SmurfProcessor,
          u.unwrap.inputData j = (sample u.buffer (u.mask j)).toInt32 + u.unwrap.wrapCounter j :=
    fun _ => rfl
  rw [data, data, wrapCounter, ← alike.mask, here]

theorem filter (alike : SeesAlike j raw s t) (data : s.inputData j = t.inputData j)
    : SeesAlike j raw s.filter t.filter := by
  refine ⟨alike.wrapCounter, alike.mask, alike.taken, alike.fastInternalCounter, alike.H, alike.C,
    alike.V, ?_, alike.T, alike.counts, alike.buffer⟩
  simp only [SmurfProcessor.filter, SmurfFilter.channel_filter, alike.F, alike.C, data]

theorem average (alike : SeesAlike j raw s t)
    : s.average.1 = t.average.1 ∧ SeesAlike j raw s.average.2 t.average.2 := by
  have same
      : s.H.averageControl s.buffer s.C.numAverages
        = t.H.averageControl t.buffer t.C.numAverages := by
    rw [alike.H, alike.C, SmurfHeader.averageControl_congr alike.buffer.header]
  simp only [SmurfProcessor.average, same, true_and]
  exact ⟨alike.wrapCounter, alike.mask, alike.taken, alike.fastInternalCounter, rfl, alike.C,
    alike.V, alike.F, alike.T, alike.counts, alike.buffer⟩

theorem clear (alike : SeesAlike j raw s t) : SeesAlike j raw s.clear t.clear := by
  have bit : SmurfHeader.getClearBit s.buffer = SmurfHeader.getClearBit t.buffer :=
    SmurfHeader.ctrlBit_congr alike.buffer.header 0
  simp only [SmurfProcessor.clear, bit]
  split
  · exact ⟨rfl, alike.mask, alike.taken, alike.fastInternalCounter,
      congrArg SmurfHeader.clearAverage alike.H, alike.C, alike.V,
      congrArg Channel.clearFilter alike.F, alike.T, alike.counts, alike.buffer⟩
  · exact alike

theorem reread (host : Host) (alike : SeesAlike j raw s t)
    (configFile : x.configFile = y.configFile)
    (maskFile : x.maskFile = y.maskFile) (taken : TakesFrom j raw x.maskFile)
    : SeesAlike j raw (s.reread host x) (t.reread host y) := by
  have bit : SmurfHeader.readConfigFile s.buffer = SmurfHeader.readConfigFile t.buffer :=
    SmurfHeader.ctrlBit_congr alike.buffer.header 3
  have mask : readMask s.mask x.maskFile = readMask t.mask y.maskFile := by
    rw [alike.mask, maskFile]
  have config : s.C.readConfigFile host.strtof x.configFile
      = t.C.readConfigFile host.strtof y.configFile := by
    rw [alike.C, configFile]
  simp only [SmurfProcessor.reread, bit, alike.fastInternalCounter]
  split
  · split
    · exact ⟨alike.wrapCounter, mask, taken _ alike.taken, rfl, alike.H, config, alike.V,
        alike.F, alike.T, alike.counts, alike.buffer⟩
    · exact ⟨alike.wrapCounter, alike.mask, alike.taken, rfl, alike.H, alike.C, alike.V,
        alike.F, alike.T, alike.counts, alike.buffer⟩
  · exact ⟨alike.wrapCounter, alike.mask, alike.taken, rfl, alike.H, alike.C, alike.V,
      alike.F, alike.T, alike.counts, alike.buffer⟩

theorem endRun (alike : SeesAlike j raw s t) : SeesAlike j raw s.endRun t.endRun := by
  refine ⟨alike.wrapCounter, alike.mask, alike.taken, alike.fastInternalCounter, alike.H,
    alike.C, alike.V, ?_, alike.T, alike.counts, alike.buffer⟩
  rw [SmurfProcessor.endRun, SmurfProcessor.endRun, SmurfFilter.channel_endRun,
    SmurfFilter.channel_endRun, alike.F]

theorem insertTestAverages (alike : SeesAlike j raw s t)
    : SeesAlike j raw s.insertTestAverages t.insertTestAverages := by
  have header := alike.buffer.header
  have output : s.F.output j = t.F.output j := congrArg Channel.output alike.F
  have generated :=
    t.T.genTestMceData_congr s.F.output t.F.output
      (SmurfHeader.getTestMode t.buffer) (SmurfHeader.getSyncword t.buffer)
      (SmurfHeader.getTestParameter t.buffer).toUInt8
  unfold SmurfProcessor.insertTestAverages SmurfProcessor.testAverages
  rw [SmurfHeader.getTestMode_congr header, SmurfHeader.getSyncword_congr header,
    SmurfHeader.getTestParameter_congr header, alike.T]
  split
  · refine ⟨alike.wrapCounter, alike.mask, alike.taken, alike.fastInternalCounter, alike.H,
      alike.C, alike.V, ?_, generated.1, alike.counts, alike.buffer⟩
    show (s.F.channel j).setOutput _ = (t.F.channel j).setOutput _
    rw [alike.F]
    exact congrArg (t.F.channel j).setOutput (generated.2 j output)
  · exact alike

theorem checkClocks (alike : SeesAlike j raw s t) (unixTime : x.unixTime = y.unixTime)
    : SeesAlike j raw (s.checkClocks x) (t.checkClocks y) := by
  have set (V : SmurfValidCheck) : SeesAlike j raw { s with V } { t with V } :=
    ⟨alike.wrapCounter, alike.mask, alike.taken, alike.fastInternalCounter, alike.H, alike.C,
      rfl, alike.F, alike.T, alike.counts, alike.buffer⟩
  unfold SmurfProcessor.checkClocks
  rw [alike.V, SmurfValidCheck.run_congr alike.buffer.header, unixTime]
  exact set _

theorem stamp (alike : SeesAlike j raw s t) : SeesAlike j raw s.stamp t.stamp := by
  unfold SmurfProcessor.stamp
  rw [alike.V]
  exact alike.setBuffer ((alike.buffer.putField (by decide) _).putField (by decide) _)

theorem finish (alike : SeesAlike j raw s t) (unixTime : x.unixTime = y.unixTime)
    : SeesAlike j raw (s.finish x) (t.finish y) :=
  (alike.endRun.insertTestAverages.checkClocks unixTime).stamp

end SeesAlike

-----------------------------------------------------------------------------------------
-- What is seen of a channel
-----------------------------------------------------------------------------------------

/-- What an accepted frame led to for one channel. -/
structure ChannelRecord where
  inputData : Int32
  averageSample : Int32
  cnt : UInt32
  packet : Option ((Fin smurfHeaderLength → UInt8) × Int32)

def Record.ofChannel (j : Fin smurfSamples) (self : Record) : ChannelRecord where
  inputData := self.inputData j
  averageSample := self.averageSamples j
  cnt := self.cnt
  packet := self.packet.map fun packet => (packet.header, packet.payload j)

def Outcome.ofChannel (j : Fin smurfSamples) : Outcome → Option ChannelRecord
  | .discarded => none
  | .accepted record => some (record.ofChannel j)

/-- Arrivals that differ at most in samples outside `raw`. -/
structure Arrival.SeesAlike (j : Fin smurfSamples) (raw : Set (Fin smurfRawSamples))
    (x y : Arrival) : Prop where
  full : x.frame.Full
  full' : y.frame.Full
  image : SameSamples raw x.frame.image y.frame.image
  tesBias : x.tesBias = y.tesBias
  random : x.random = y.random
  configFile : x.configFile = y.configFile
  maskFile : x.maskFile = y.maskFile
  unixTime : x.unixTime = y.unixTime
  taken : TakesFrom j raw x.maskFile

namespace SeesAlike

variable {j : Fin smurfSamples} {raw : Set (Fin smurfRawSamples)} {s t : SmurfProcessor}
  {host : Host} {x y : Arrival}

theorem publish (alike : SeesAlike j raw s t)
    : s.publish.map (fun packet => (packet.header, packet.payload j))
      = t.publish.map (fun packet => (packet.header, packet.payload j)) := by
  have header (k : Fin smurfHeaderLength) : s.buffer k = t.buffer k :=
    alike.buffer.header k k.isLt
  have output : s.F.output j = t.F.output j := congrArg Channel.output alike.F
  simp only [SmurfProcessor.publish, alike.C]
  split
  · simp only [Option.map_some, header, output]
  · rfl

theorem accept (host : Host) (alike : SeesAlike j raw s t) (arrives : x.SeesAlike j raw y)
    (last : sample s.bufferLast (s.mask j) = sample t.bufferLast (s.mask j))
    : SeesAlike j raw (s.accept host x).2 (t.accept host y).2
      ∧ (s.accept host x).1.ofChannel j = (t.accept host y).1.ofChannel j := by
  have mask : (s.prepare host x).mask = s.mask := by
    obtain ⟨b, T, eq⟩ := SmurfProcessor.prepare_eq host s x
    rw [eq]
  have unwrapped := (alike.prepare host arrives.tesBias arrives.random).unwrap
    (by simpa only [mask, SmurfProcessor.bufferLast_prepare] using last)
  have filtered := unwrapped.1.filter unwrapped.2
  have data
      : (s.prepare host x).unwrap.filter.inputData j
        = (t.prepare host y).unwrap.filter.inputData j :=
    unwrapped.2
  simp only [SmurfProcessor.accept]
  generalize (s.prepare host x).unwrap.filter = u at filtered data ⊢
  generalize (t.prepare host y).unwrap.filter = v at filtered data ⊢
  obtain ⟨cnt, averaged⟩ := filtered.average
  have output : u.F.output j = v.F.output j := congrArg Channel.output filtered.F
  have cleared :=
    averaged.clear.reread host arrives.configFile arrives.maskFile arrives.taken
  have next
      : SeesAlike j raw
          (if v.average.1 = 0 then u.average.2.clear.reread host x
            else (u.average.2.clear.reread host x).finish x)
          (if v.average.1 = 0 then v.average.2.clear.reread host y
            else (v.average.2.clear.reread host y).finish y) := by
    split
    · exact cleared
    · exact cleared.finish arrives.unixTime
  rw [cnt]
  refine ⟨next, ?_⟩
  have packet := next.publish
  simp only [Record.ofChannel, data, output]
  split
  · rfl
  · rename_i ends
    rw [if_neg ends, if_neg ends] at packet
    rw [packet]

/-- The frames received, and the sample each is unwrapped against. -/
theorem received (alike : SeesAlike j raw s t) (arrives : x.SeesAlike j raw y)
    : SeesAlike j raw (s.receive x.frame).checkOrder.2 (t.receive y.frame).checkOrder.2
      ∧ s.counterRead x = t.counterRead y := by
  have frame
      : SameSamples raw (frameToBuffer x.frame s.bufferLast)
          (frameToBuffer y.frame t.bufferLast) := by
    constructor
    · intro address less
      have inside (frame : Frame) (full : frame.Full) : address < frame.bytes.length :=
        less.trans_le (le_trans (by decide) full.least)
      rw [frameToBuffer_of_lt x.frame _ (fun _ => 0) (inside _ arrives.full),
        frameToBuffer_of_lt y.frame _ (fun _ => 0) (inside _ arrives.full')]
      exact arrives.image.header address less
    · intro i member
      rw [sample_frame arrives.full _ i.isLt, sample_frame arrives.full' _ i.isLt]
      exact arrives.image.samples i member
  have counter : s.counterRead x = t.counterRead y := by
    rw [SmurfProcessor.counterRead, SmurfProcessor.counterRead, SmurfProcessor.buffer_receive,
      SmurfProcessor.buffer_receive]
    exact SmurfHeader.getFrameCounter_congr frame.header
  refine ⟨⟨alike.wrapCounter, alike.mask, alike.taken, alike.fastInternalCounter, alike.H,
    alike.C, alike.V, alike.F, alike.T, ?_, ?_⟩, counter⟩
  · show s.counts.count (s.counterRead x) = t.counts.count (t.counterRead y)
    rw [alike.counts, counter]
  · rw [SmurfProcessor.buffer_received, SmurfProcessor.buffer_received]
    exact frame

/-- One iteration, on arrivals that the channel cannot tell apart. -/
theorem iterate (host : Host) (alike : SeesAlike j raw s t) (arrives : x.SeesAlike j raw y)
    : SeesAlike j raw (s.iterate host x).1 (t.iterate host y).1
      ∧ (s.iterate host x).2.ofChannel j = (t.iterate host y).2.ofChannel j := by
  obtain ⟨received, counter⟩ := alike.received arrives
  have order : s.counts.inOrder (s.counterRead x) = t.counts.inOrder (t.counterRead y) := by
    rw [alike.counts, counter]
  by_cases inOrder : s.counts.inOrder (s.counterRead x) = true
  · have last
        : sample (s.receive x.frame).checkOrder.2.bufferLast (s.mask j)
          = sample (t.receive y.frame).checkOrder.2.bufferLast (s.mask j) := by
      rw [SmurfProcessor.bufferLast_received, SmurfProcessor.bufferLast_received]
      exact alike.buffer.samples _ alike.taken
    obtain ⟨next, record⟩ := received.accept host arrives last
    rw [SmurfProcessor.iterate_accepted host s x inOrder,
      SmurfProcessor.iterate_accepted host t y (order ▸ inOrder)]
    exact ⟨next, congrArg some record⟩
  · rw [SmurfProcessor.iterate_discarded host s x inOrder,
      SmurfProcessor.iterate_discarded host t y (order ▸ inOrder)]
    exact ⟨received, rfl⟩

end SeesAlike

end Smurf
