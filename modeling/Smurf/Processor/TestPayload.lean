import Smurf.Processor.Forgetting
import Smurf.Processor.RawSamples

/-! What is published in a test mode.
The averages that a test mode puts out replace those of the filter. A ramp starts with the
first average of any test mode.
-/

namespace Smurf

open ByteMemory
open Runs

-----------------------------------------------------------------------------------------
-- The start of the ramp
-----------------------------------------------------------------------------------------

/-- The sync words of the frames of test modes that ended an average, the latest first. -/
def tested (earlier : List Entry) : List UInt32 :=
  (earlier.filter fun entry => entry.record.cnt != 0 && entry.frame.testMode != 0).map
    fun entry => entry.frame.syncword

/-- The generator has kept the first of them. -/
structure SmurfTestData.Latched (tests : SmurfTestData) (earlier : List Entry) : Prop where
  init : tests.init = !(tested earlier).isEmpty
  initialSync : tests.initialSync = (tested earlier).getLastD 0

/-- The value of a channel in the packet of a frame. -/
def testPayload (entry : Entry) (earlier : List Entry) (j : Fin smurfSamples) : Int32 :=
  let ramp :=
    entry.frame.testParameter.toUInt32
    * (entry.frame.syncword - (tested (entry :: earlier)).getLastD 0)
  match entry.frame.testMode.toNat with
  | 8 => 0
  | 9 => Int32.ofNat j
  | 10 => ramp.toInt32
  | 14 => ramp.toInt32
  | 15 => 10000000
  | _ => entry.record.averageSamples j

namespace SmurfTestData

variable {tests : SmurfTestData} {earlier : List Entry} {entry : Entry}

theorem Latched.congr {other : SmurfTestData} (latched : tests.Latched earlier)
    (init : other.init = tests.init) (initialSync : other.initialSync = tests.initialSync)
    : other.Latched earlier :=
  ⟨init.trans latched.init, initialSync.trans latched.initialSync⟩

/-- Generating samples leaves the start of the ramp alone. -/
theorem Latched.generate (host : Host) (entry : Entry) (latched : tests.Latched earlier)
    : (tests.generate host entry).1.Latched earlier := by
  unfold SmurfTestData.generate genTestSmurfData
  split <;> try exact latched
  · dsimp only
    split
    · exact latched.congr rfl rfl
    · exact latched
  · exact latched.congr rfl rfl

/-- The frames of test modes that end an average are counted. -/
theorem Latched.latch (latched : tests.Latched earlier) (ends : entry.record.cnt ≠ 0)
    (mode : entry.frame.testMode ≠ 0)
    : (tests.latch entry.frame.syncword).Latched (entry :: earlier) := by
  have grown : tested (entry :: earlier) = entry.frame.syncword :: tested earlier := by
    simp [tested, ends, mode]
  cases before : tested earlier with
  | nil =>
      have unset : tests.init = false := by rw [latched.init, before]; rfl
      rw [SmurfTestData.latch, unset, if_neg Bool.false_ne_true]
      exact ⟨by rw [grown]; rfl, by rw [grown, before]; rfl⟩
  | cons latest rest =>
      have set : tests.init = true := by rw [latched.init, before]; rfl
      rw [SmurfTestData.latch, set, if_pos rfl]
      refine ⟨by rw [grown, set]; rfl, ?_⟩
      rw [latched.initialSync, grown, before, List.getLastD_cons, List.getLastD_cons,
        List.getLastD_cons]

/-- By cases on the test mode. -/
theorem Latched.payload (latched : tests.Latched earlier) (ends : entry.record.cnt ≠ 0)
    (mode : entry.frame.testMode ≠ 0)
    : (tests.genTestMceData entry.record.averageSamples entry.frame.testMode
          entry.frame.syncword entry.frame.testParameter).2
      = testPayload entry earlier := by
  have start := (latched.latch ends mode).initialSync
  rw [SmurfTestData.latch] at start
  funext j
  unfold genTestMceData
  dsimp only
  rw [start]
  split
  case h_1 eight => simp only [testPayload, eight]
  case h_2 nine => simp only [testPayload, nine]
  case h_3 ten => simp only [testPayload, ten]
  case h_4 fourteen => simp only [testPayload, fourteen]
  case h_5 fifteen => simp only [testPayload, fifteen]
  case h_6 => simp only [testPayload]

/-- Other frames do not count. -/
theorem Latched.other (latched : tests.Latched earlier)
    (none : ¬ (entry.record.cnt ≠ 0 ∧ entry.frame.testMode ≠ 0))
    : tests.Latched (entry :: earlier) := by
  have same : tested (entry :: earlier) = tested earlier := by
    rw [tested, List.filter_cons_of_neg (by simpa using none)]
    rfl
  exact ⟨same ▸ latched.init, same ▸ latched.initialSync⟩

end SmurfTestData

-----------------------------------------------------------------------------------------
-- One frame
-----------------------------------------------------------------------------------------

namespace SmurfProcessor

variable (host : Host) (self : SmurfProcessor) (arrival : Arrival)

/-- What the end of an average leaves as the filter's output. -/
theorem output_finish_tested
    : (self.finish arrival).F.output
      = if SmurfHeader.getTestMode self.buffer ≠ 0 then
          (self.T.genTestMceData self.F.output (SmurfHeader.getTestMode self.buffer)
            (SmurfHeader.getSyncword self.buffer)
            (SmurfHeader.getTestParameter self.buffer).toUInt8).2
        else self.F.output := by
  have buffer : self.endRun.buffer = self.buffer := rfl
  have T : self.endRun.T = self.T := rfl
  have kept : self.endRun.F.output = self.F.output := by
    simp only [endRun, SmurfFilter.endRun]
    split <;> rfl
  have tested
      : self.endRun.insertTestAverages.F.output
        = if SmurfHeader.getTestMode self.buffer ≠ 0 then
            (self.T.genTestMceData self.F.output (SmurfHeader.getTestMode self.buffer)
              (SmurfHeader.getSyncword self.buffer)
              (SmurfHeader.getTestParameter self.buffer).toUInt8).2
          else self.F.output := by
    rw [insertTestAverages, apply_ite (fun processor : SmurfProcessor => processor.F.output),
      testAverages, buffer, T, kept]
  obtain ⟨bytes, stamped⟩ := stamp_eq (self.endRun.insertTestAverages.checkClocks arrival)
  obtain ⟨V, checked⟩ := checkClocks_eq self.endRun.insertTestAverages arrival
  rw [finish, stamped, setBuffer, checked, tested]

theorem cnt_of_published {packet : Packet}
    (published : (self.accept host arrival).1.packet = some packet)
    : (self.accept host arrival).1.cnt ≠ 0 := by
  intro silent
  have goesOn : ¬ self.averageEnds host arrival := fun ends => ends silent
  rw [packet_accept_of_not_averageEnds _ _ _ goesOn] at published
  exact absurd published (by simp)

/-- The sync word worked on is the frame's own. -/
theorem getSyncword_prepare_received {buffer : Bytes}
    (received : self.buffer = frameToBuffer arrival.frame buffer) (full : arrival.frame.Full)
    : SmurfHeader.getSyncword (self.prepare host arrival).buffer = arrival.frame.syncword := by
  rw [Frame.syncword, SmurfHeader.getSyncword, SmurfHeader.getSyncword, SmurfHeader.getLowField,
    SmurfHeader.getLowField,
    pullBitField_prepare_received host self arrival received full (by decide) (by decide)]

/-- So is the test parameter. -/
theorem getTestParameter_prepare_received {buffer : Bytes}
    (received : self.buffer = frameToBuffer arrival.frame buffer) (full : arrival.frame.Full)
    : (SmurfHeader.getTestParameter (self.prepare host arrival).buffer).toUInt8
      = arrival.frame.testParameter := by
  rw [Frame.testParameter, SmurfHeader.getTestParameter, SmurfHeader.getTestParameter,
    SmurfHeader.getField, SmurfHeader.getField,
    pullBitField_prepare_received host self arrival received full (by decide) (by decide)]

/-- The packet of an accepted frame carries what the test mode puts out, or the filter. -/
theorem payload_accept {packet : Packet}
    (published : (self.accept host arrival).1.packet = some packet)
    : packet.payload
      = if SmurfHeader.getTestMode (self.prepare host arrival).buffer ≠ 0 then
          ((self.prepare host arrival).T.genTestMceData
            (self.accept host arrival).1.averageSamples
            (SmurfHeader.getTestMode (self.prepare host arrival).buffer)
            (SmurfHeader.getSyncword (self.prepare host arrival).buffer)
            (SmurfHeader.getTestParameter (self.prepare host arrival).buffer).toUInt8).2
        else (self.accept host arrival).1.averageSamples := by
  have samples
      : (self.accept host arrival).1.averageSamples
        = (self.prepare host arrival).unwrap.filter.F.output :=
    rfl
  by_cases ends : self.averageEnds host arrival
  · rw [packet_accept_of_averageEnds _ _ _ ends] at published
    have output : packet.payload = ((self.settled host arrival).finish arrival).F.output := by
      have payload := payload_publish ((self.settled host arrival).finish arrival)
      rw [published] at payload
      split at payload
      · exact Option.some.inj payload
      · exact absurd payload (by simp)
    rw [output, output_finish_tested, buffer_settled, T_settled, output_settled, samples]
  · rw [packet_accept_of_not_averageEnds _ _ _ ends] at published
    exact absurd published (by simp)

end SmurfProcessor

-----------------------------------------------------------------------------------------
-- Runs
-----------------------------------------------------------------------------------------

/-- A packet that the frame led to carries the values of its test mode. -/
def Entry.PublishesTest (self : Entry) (earlier : List Entry) : Prop :=
  ∀ packet, self.record.packet = some packet → packet.payload = testPayload self earlier

namespace Register

/-- What the payload follows from. -/
structure Tests (register : Register) : Prop where
  tests : register.1.T.Latched register.2
  each : EachEntry Entry.PublishesTest register.2

theorem Tests.accepted (host : Host) {register : Register} (holds : register.Tests)
    {working : SmurfProcessor} {arrival : Arrival} {buffer : Bytes}
    (received : working.buffer = frameToBuffer arrival.frame buffer) (full : arrival.frame.Full)
    (tests : working.T = register.1.T)
    : Tests
        ((working.accept host arrival).2,
          ⟨arrival, register.1.mask, (working.accept host arrival).1⟩ :: register.2) := by
  generalize entryIs
    : (⟨arrival, register.1.mask, (working.accept host arrival).1⟩ : Entry) = entry
  have arrived : entry.arrival = arrival := by rw [← entryIs]
  have led : entry.record = (working.accept host arrival).1 := by rw [← entryIs]
  obtain ⟨T, -⟩ := working.prepare_generate host arrival received full entry arrived
  have mode
      : SmurfHeader.getTestMode (working.prepare host arrival).buffer = entry.frame.testMode := by
    rw [Entry.frame, arrived]
    exact working.getTestMode_prepare_received host arrival received full
  have sync
      : SmurfHeader.getSyncword (working.prepare host arrival).buffer
        = entry.frame.syncword := by
    rw [Entry.frame, arrived]
    exact working.getSyncword_prepare_received host arrival received full
  have param
      : (SmurfHeader.getTestParameter (working.prepare host arrival).buffer).toUInt8
        = entry.frame.testParameter := by
    rw [Entry.frame, arrived]
    exact working.getTestParameter_prepare_received host arrival received full
  have latched := holds.tests.generate host entry
  rw [← tests, ← T] at latched
  have after := working.T_accept host arrival
  rw [mode, sync, ← led] at after
  refine ⟨?_, fun packet published => ?_, holds.each⟩
  · dsimp only
    rw [after]
    split
    case isTrue both => exact latched.latch both.1 both.2
    case isFalse none => exact latched.other none
  · rw [led] at published
    have payload := working.payload_accept host arrival published
    rw [mode, sync, param, ← led] at payload
    rw [payload]
    by_cases tested : entry.frame.testMode ≠ 0
    · rw [if_pos tested]
      exact latched.payload (led ▸ working.cnt_of_published host arrival published) tested
    · rw [if_neg tested]
      funext j
      simp only [testPayload, not_not.mp tested]
      rfl

/-- In every run of full frames, in any test modes, a packet carries what its frame's test mode
puts out in place of the averages. Both ramps rise by the parameter with the sync word, from
the first average of any test mode on.
-/
theorem each_publishesTest (host : Host) (configFile : Option (List String))
    (maskFile : Option (List UInt32)) (arrivals : List Arrival)
    (full : ∀ arrival ∈ arrivals, arrival.frame.Full)
    : EachEntry Entry.PublishesTest
        (arrivals.foldl (step host) (start host configFile maskFile)).2 := by
  have each
      : EachState (step host) Tests (start host configFile maskFile) arrivals := by
    refine eachState (fun arrival => arrival.frame.Full) ?_ ?_ ⟨⟨rfl, rfl⟩, trivial⟩ full
    · exact fun register arrival holds _ => ⟨holds.tests, holds.each⟩
    · intro register arrival working holds covered
      exact holds.accepted host (SmurfProcessor.buffer_received _ _) covered rfl
  exact each.final.each

/-- Two frames of a ramp. -/
theorem each_publishesTest_ramp
    : let arrivals :=
        [concreteArrival (concreteFrame 0 0xA0 [] 8192),
          concreteArrival (concreteFrame 1 0xA0 [] 8192)]
      EachEntry Entry.PublishesTest
        (arrivals.foldl (step concreteHost)
          (start concreteHost (some ["num_averages", "1", "data_frames", "1"]) none)).2 := by
  intro arrivals
  have full : ∀ arrival ∈ arrivals, arrival.frame.Full := by
    intro arrival member
    simp only [arrivals, List.mem_cons, List.not_mem_nil, or_false] at member
    rcases member with rfl | rfl <;> exact full_concreteFrame rfl
  clear_value arrivals
  exact each_publishesTest concreteHost (some ["num_averages", "1", "data_frames", "1"]) none
    arrivals full

end Register

end Smurf
