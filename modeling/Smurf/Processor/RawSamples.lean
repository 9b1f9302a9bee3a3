import Smurf.Processor.PhaseTracking
import Smurf.Processor.Publishing
import Smurf.Processor.Register

/-! The raw samples behind the unwrapped data.
A frame's samples are its own, or those that its test mode puts in their place, which depend
on the frames of the test modes before it. Unwrapping adds multiples of 65536 only, so the
low 16 bits of the data that is filtered are always the raw sample.
-/

namespace Smurf

open ByteMemory
open Runs

/-- The parameter of a frame's test mode. -/
def Frame.testParameter (frame : Frame) : UInt8 :=
  (SmurfHeader.getTestParameter frame.image).toUInt8

-----------------------------------------------------------------------------------------
-- The generator
-----------------------------------------------------------------------------------------

/-- The sync words of the frames of mode 3 that end a half wave, the latest first. -/
def edges (earlier : List Entry) : List UInt32 :=
  (earlier.filter fun entry =>
    entry.frame.testMode.toNat == 3 && entry.frame.syncword % squareWaveCycles == 0).map
    fun entry => entry.frame.syncword

/-- How many of the sync words differ from the one before; the first one is compared with 0.
-/
def changes : List UInt32 → Nat
  | [] => 0
  | latest :: earlier => changes earlier + if latest = earlier.headD 0 then 0 else 1

/-- The number of frames of mode 5. -/
def sines (earlier : List Entry) : Nat :=
  earlier.countP fun entry => entry.frame.testMode.toNat == 5

/-- Sample `i` of a frame, after the frames before it. -/
def rawSample (host : Host) (entry : Entry) (earlier : List Entry) (i : Fin smurfRawSamples)
    : Int16 :=
  match entry.frame.testMode.toNat with
  | 1 => 0
  | 2 => Int16.ofNat i
  | 3 => if changes (edges earlier) % 2 = 1 then 20000 else -20000
  | 4 => entry.arrival.random i
  | 5 => host.sine (UInt16.ofNat (sines earlier + 1)) entry.frame.testParameter
  | _ => sample entry.frame.image i

/-- The generator has seen the frames of its modes. -/
structure SmurfTestData.Follows (tests : SmurfTestData) (earlier : List Entry) : Prop where
  counter : tests.counter = (edges earlier).headD 0
  toggle : tests.toggle = if changes (edges earlier) % 2 = 1 then 1 else 0
  counter16 : tests.counter16 = UInt16.ofNat (sines earlier)

namespace SmurfTestData

/-- The samples generated for a frame, by its own header and samples. -/
def generate (host : Host) (entry : Entry) (tests : SmurfTestData)
    : SmurfTestData × (Fin smurfRawSamples → Int16) :=
  tests.genTestSmurfData entry.arrival.random host.sine (fun i => sample entry.frame.image i)
    entry.frame.testMode entry.frame.syncword entry.frame.testParameter

variable {tests : SmurfTestData} {earlier : List Entry} {entry : Entry}

/-- Frames of other modes do not count. -/
theorem Follows.other (follows : tests.Follows earlier)
    (notSquare : entry.frame.testMode.toNat ≠ 3) (notSine : entry.frame.testMode.toNat ≠ 5)
    : tests.Follows (entry :: earlier) := by
  have same : edges (entry :: earlier) = edges earlier := by simp [edges, notSquare]
  have sameSines : sines (entry :: earlier) = sines earlier := by simp [sines, notSine]
  exact ⟨same ▸ follows.counter, same ▸ follows.toggle, sameSines ▸ follows.counter16⟩

/-- A frame of the square wave flips it when its sync word ends a half wave and is not the one
that did so last.
-/
theorem Follows.square (follows : tests.Follows earlier)
    (square : entry.frame.testMode.toNat = 3)
    : let flipped :=
        if tests.counter ≠ entry.frame.syncword
            ∧ entry.frame.syncword % squareWaveCycles = 0 then
          { tests with
            toggle := if tests.toggle ≠ 0 then 0 else 1
            counter := entry.frame.syncword }
        else tests
      flipped.Follows (entry :: earlier) := by
  intro flipped
  have sameSines : sines (entry :: earlier) = sines earlier := by simp [sines, square]
  by_cases ends : entry.frame.syncword % squareWaveCycles = 0
  · have grown
        : edges (entry :: earlier) = entry.frame.syncword :: edges earlier := by
      simp [edges, square, ends]
    by_cases last : tests.counter = entry.frame.syncword
    · have same : flipped = tests := if_neg (fun both => both.1 last)
      have count : changes (edges (entry :: earlier)) = changes (edges earlier) := by
        rw [grown, changes, ← follows.counter, if_pos last.symm, Nat.add_zero]
      rw [same]
      exact ⟨by rw [grown, last, List.headD_cons], by rw [count, follows.toggle],
        by rw [sameSines, follows.counter16]⟩
    · have count : changes (edges (entry :: earlier)) = changes (edges earlier) + 1 := by
        rw [grown, changes, ← follows.counter, if_neg (Ne.symm last)]
      have other
          : flipped
            = { tests with
                toggle := if tests.toggle ≠ 0 then 0 else 1
                counter := entry.frame.syncword } :=
        if_pos ⟨last, ends⟩
      rw [other]
      refine ⟨by rw [grown, List.headD_cons], ?_, by rw [sameSines, follows.counter16]⟩
      dsimp only
      rw [count, follows.toggle]
      rcases Nat.mod_two_eq_zero_or_one (changes (edges earlier)) with even | odd
      · simp [even, Nat.add_mod]
      · simp [odd, Nat.add_mod]
  · have same : flipped = tests := if_neg (fun both => ends both.2)
    have sameEdges : edges (entry :: earlier) = edges earlier := by simp [edges, ends]
    rw [same]
    exact ⟨sameEdges ▸ follows.counter, sameEdges ▸ follows.toggle,
      sameSines ▸ follows.counter16⟩

theorem Follows.sine (follows : tests.Follows earlier)
    (sine : entry.frame.testMode.toNat = 5)
    : ({ tests with counter16 := tests.counter16 + 1 } : SmurfTestData).Follows
        (entry :: earlier) := by
  have sameEdges : edges (entry :: earlier) = edges earlier := by simp [edges, sine]
  have grown : sines (entry :: earlier) = sines earlier + 1 := by simp [sines, sine]
  refine ⟨sameEdges ▸ follows.counter, sameEdges ▸ follows.toggle, ?_⟩
  dsimp only
  rw [grown, follows.counter16, UInt16.ofNat_add]
  rfl

/-- The start of a ramp is kept elsewhere. -/
theorem Follows.latch (follows : tests.Follows earlier) (sync : UInt32)
    : (tests.latch sync).Follows earlier := by
  unfold SmurfTestData.latch
  split
  · exact follows
  · exact ⟨follows.counter, follows.toggle, follows.counter16⟩

/-- By cases on the test mode. -/
theorem Follows.generate (host : Host) (entry : Entry) (follows : tests.Follows earlier)
    : (tests.generate host entry).1.Follows (entry :: earlier)
      ∧ (tests.generate host entry).2 = rawSample host entry earlier := by
  unfold SmurfTestData.generate genTestSmurfData
  split
  case h_1 mode =>
    exact ⟨follows.other (by omega) (by omega), by funext i; simp only [rawSample, mode]⟩
  case h_2 mode =>
    exact ⟨follows.other (by omega) (by omega), by funext i; simp only [rawSample, mode]⟩
  case h_3 mode =>
    refine ⟨follows.square mode, ?_⟩
    funext i
    simp only [rawSample, mode, follows.toggle]
    split <;> rfl
  case h_4 mode =>
    exact ⟨follows.other (by omega) (by omega), by funext i; simp only [rawSample, mode]⟩
  case h_5 mode =>
    refine ⟨follows.sine mode, ?_⟩
    funext i
    simp only [rawSample, mode, follows.counter16, UInt16.ofNat_add]
    rfl
  case h_6 one two three four five =>
    refine ⟨follows.other three five, ?_⟩
    funext i
    unfold rawSample
    split <;> first | contradiction | rfl

end SmurfTestData

-----------------------------------------------------------------------------------------
-- One frame
-----------------------------------------------------------------------------------------

/-- Samples are overwritten one by one. -/
theorem sample_putSamples (buffer : Bytes) (samples : Fin smurfRawSamples → Int16)
    (i : Fin smurfRawSamples)
    : sample (putSamples buffer samples) i = samples i := by
  have bound := i.isLt
  simp only [smurfRawSamples] at bound
  have byte (k : Nat) (less : k < 2)
      : putSamples buffer samples (smurfHeaderLength + 2 * i + k)
        = littleEndian (samples i).toUInt16.toNat k := by
    have inside
        : smurfHeaderLength ≤ smurfHeaderLength + 2 * i.val + k
          ∧ smurfHeaderLength + 2 * i.val + k < smurfDataLength := by
      simp only [smurfDataLength, smurfHeaderLength, smurfRawSamples]
      omega
    have index : (smurfHeaderLength + 2 * i.val + k - smurfHeaderLength) / 2 = i.val := by omega
    have rest : (smurfHeaderLength + 2 * i.val + k - smurfHeaderLength) % 2 = k := by omega
    rw [putSamples, dif_pos inside]
    simp only [index, rest]
  have bytes
      : word (putSamples buffer samples) (smurfHeaderLength + 2 * i) 2
        = (samples i).toUInt16.toNat := by
    have small := (samples i).toUInt16.toNat_lt
    simp only [word, byte 0 (by decide), byte 1 (by decide), littleEndian, UInt8.toNat_ofNat']
    omega
  rw [sample, bytes, UInt16.ofNat_toNat, Int16.toInt16_toUInt16]

namespace SmurfProcessor

variable (host : Host) (self : SmurfProcessor) (arrival : Arrival)

/-- What the test data of a frame is made from is its own. -/
theorem prepare_generate {buffer : Bytes}
    (received : self.buffer = frameToBuffer arrival.frame buffer) (full : arrival.frame.Full)
    (entry : Entry) (entered : entry.arrival = arrival)
    : (self.prepare host arrival).T = (self.T.generate host entry).1
      ∧ ∀ i : Fin smurfRawSamples,
          sample (self.prepare host arrival).buffer i = (self.T.generate host entry).2 i := by
  have least := full.least
  have covered {field : HeaderField} (inside : field.offset + field.width ≤ smurfHeaderLength)
      : field.offset + field.width ≤ arrival.frame.bytes.length :=
    Nat.le_trans inside (Nat.le_trans (by decide) least)
  have field {field : HeaderField}
      (behind : hTesDac.offset + hTesDac.width ≤ field.offset)
      (inside : field.offset + field.width ≤ smurfHeaderLength)
      : pullBitField (self.putTesBias arrival).buffer field
        = pullBitField arrival.frame.image field := by
    rw [putTesBias, buffer_setBuffer, pullBitField_putField_of_disjoint _ _ (Or.inl behind),
      received, pullBitField_frame _ _ (covered inside)]
  have mode
      : SmurfHeader.getTestMode (self.putTesBias arrival).buffer = arrival.frame.testMode := by
    rw [Frame.testMode, SmurfHeader.getTestMode, SmurfHeader.getTestMode, SmurfHeader.getField,
      SmurfHeader.getField, field (by decide) (by decide)]
  have sync
      : SmurfHeader.getSyncword (self.putTesBias arrival).buffer = arrival.frame.syncword := by
    rw [Frame.syncword, SmurfHeader.getSyncword, SmurfHeader.getSyncword,
      SmurfHeader.getLowField, SmurfHeader.getLowField, field (by decide) (by decide)]
  have param
      : (SmurfHeader.getTestParameter (self.putTesBias arrival).buffer).toUInt8
        = arrival.frame.testParameter := by
    rw [Frame.testParameter, SmurfHeader.getTestParameter, SmurfHeader.getTestParameter,
      SmurfHeader.getField, SmurfHeader.getField, field (by decide) (by decide)]
  have samples (i : Fin smurfRawSamples)
      : sample (self.putTesBias arrival).buffer i = sample arrival.frame.image i := by
    rw [putTesBias, buffer_setBuffer, sample_putField _ _ (by decide), received,
      sample_frame full _ i.isLt]
  have generated
      : (self.putTesBias arrival).testSamples host arrival = self.T.generate host entry := by
    rw [testSamples, mode, sync, param, funext samples, SmurfTestData.generate, Entry.frame,
      entered]
    rfl
  rw [prepare, insertTestData, generated, mode]
  split
  case isTrue =>
    refine ⟨rfl, fun i => ?_⟩
    rw [buffer_setBuffer, sample_putSamples]
  case isFalse normal =>
    have kept
        : self.T.generate host entry = (self.T, fun i => sample arrival.frame.image i.val) := by
      rw [SmurfTestData.generate, Entry.frame, entered, not_not.mp normal]
      rfl
    rw [kept]
    exact ⟨rfl, samples⟩

theorem T_settled : (self.settled host arrival).T = (self.prepare host arrival).T := by
  obtain ⟨C, mask, fast, read⟩ :=
    reread_eq host ((self.prepare host arrival).unwrap.filter).average.2.clear arrival
  rw [settled, read, clear_eq]
  rfl

/-- The end of an average may set the start of a ramp, and leaves the rest of the generator
alone.
-/
theorem T_finish
    : (self.finish arrival).T
      = if SmurfHeader.getTestMode self.buffer ≠ 0 then
          self.T.latch (SmurfHeader.getSyncword self.buffer)
        else self.T := by
  have buffer : self.endRun.buffer = self.buffer := rfl
  have T : self.endRun.T = self.T := rfl
  have tested
      : self.endRun.insertTestAverages.T
        = if SmurfHeader.getTestMode self.buffer ≠ 0 then
            self.T.latch (SmurfHeader.getSyncword self.buffer)
          else self.T := by
    rw [insertTestAverages, apply_ite SmurfProcessor.T, testAverages,
      SmurfTestData.genTestMceData_fst, buffer, T]
  obtain ⟨bytes, stamped⟩ := stamp_eq (self.endRun.insertTestAverages.checkClocks arrival)
  obtain ⟨V, checked⟩ := checkClocks_eq self.endRun.insertTestAverages arrival
  rw [finish, stamped, setBuffer, checked, tested]

/-- The generator after an accepted frame. -/
theorem T_accept
    : (self.accept host arrival).2.T
      = if (self.accept host arrival).1.cnt ≠ 0
            ∧ SmurfHeader.getTestMode (self.prepare host arrival).buffer ≠ 0 then
          (self.prepare host arrival).T.latch
            (SmurfHeader.getSyncword (self.prepare host arrival).buffer)
        else (self.prepare host arrival).T := by
  by_cases ends : self.averageEnds host arrival
  · have emitted : (self.accept host arrival).1.cnt ≠ 0 := ends
    rw [accept_of_averageEnds _ _ _ ends, T_finish, T_settled, buffer_settled]
    simp only [emitted, ne_eq, not_false_eq_true, true_and]
  · have silent : ¬ (self.accept host arrival).1.cnt ≠ 0 := ends
    rw [accept_of_not_averageEnds _ _ _ ends, T_settled, if_neg (fun both => silent both.1)]

/-- Wraps are multiples of 65536. -/
theorem toInt16_unwrapCounter (d p : Int16) (wrapCounter : Int32)
    : (unwrapCounter d p wrapCounter).toInt16 = wrapCounter.toInt16 := by
  have period : (0x10000 : Int32).toInt16 = 0 := by decide
  rw [unwrapCounter]
  split
  · rw [Int32.toInt16_sub, period, Int16.sub_zero]
  · split
    · rw [Int32.toInt16_add, period, Int16.add_zero]
    · rfl

end SmurfProcessor

-----------------------------------------------------------------------------------------
-- Runs
-----------------------------------------------------------------------------------------

/-- The data of every channel that the frame led to has its raw sample in the low 16 bits. -/
def Entry.KeepsRaw (host : Host) (self : Entry) (earlier : List Entry) : Prop :=
  ∀ j, (self.record.inputData j).toInt16 = rawSample host self earlier (self.mask j)

namespace Register

/-- What the low bits follow from. -/
structure Wraps (host : Host) (register : Register) : Prop where
  wrapCounter : ∀ j, (register.1.wrapCounter j).toInt16 = 0
  tests : register.1.T.Follows register.2
  each : EachEntry (Entry.KeepsRaw host) register.2

theorem Wraps.accepted {host : Host} {register : Register} (wraps : register.Wraps host)
    {working : SmurfProcessor} {arrival : Arrival} {buffer : Bytes}
    (received : working.buffer = frameToBuffer arrival.frame buffer) (full : arrival.frame.Full)
    (wrapCounter : working.wrapCounter = register.1.wrapCounter)
    (mask : working.mask = register.1.mask) (tests : working.T = register.1.T)
    : Wraps host
        ((working.accept host arrival).2,
          ⟨arrival, register.1.mask, (working.accept host arrival).1⟩ :: register.2) := by
  let entry : Entry := ⟨arrival, register.1.mask, (working.accept host arrival).1⟩
  have unwrapped := working.unwrapped_accept host arrival
  obtain ⟨T, samples⟩ := working.prepare_generate host arrival received full entry rfl
  rw [tests] at T samples
  obtain ⟨follows, generated⟩ := wraps.tests.generate host entry
  refine ⟨fun j => ?_, ?_, fun j => ?_, wraps.each⟩
  · dsimp only
    rw [unwrapped.wrapCounter j]
    split
    · rfl
    · rw [SmurfProcessor.toInt16_unwrapCounter, wrapCounter, wraps.wrapCounter j]
  · dsimp only
    rw [SmurfProcessor.T_accept, T]
    split
    · exact follows.latch _
    · exact follows
  · dsimp only
    rw [unwrapped.inputData j, Int32.toInt16_add, SmurfProcessor.toInt16_unwrapCounter,
      wrapCounter, wraps.wrapCounter j, Int16.add_zero, Int16.toInt16_toInt32, samples,
      generated, mask]

/-- In every run of full frames, in any test modes, the data that is filtered has the raw
sample taken by the mask in its low 16 bits: the frame's own, or what its test mode generates
after the frames before it.
-/
theorem each_keepsRaw (host : Host) (configFile : Option (List String))
    (maskFile : Option (List UInt32)) (arrivals : List Arrival)
    (full : ∀ arrival ∈ arrivals, arrival.frame.Full)
    : EachEntry (Entry.KeepsRaw host)
        (arrivals.foldl (step host) (start host configFile maskFile)).2 := by
  have each
      : EachState (step host) (Wraps host) (start host configFile maskFile) arrivals := by
    refine eachState (fun arrival => arrival.frame.Full) ?_ ?_ ?_ full
    · exact fun register arrival wraps _ => ⟨wraps.wrapCounter, wraps.tests, wraps.each⟩
    · intro register arrival working wraps covered
      exact wraps.accepted (SmurfProcessor.buffer_received _ _) covered rfl rfl rfl
    · exact ⟨fun _ => rfl, ⟨rfl, rfl, rfl⟩, trivial⟩
  exact each.final.each

/-- Two frames of the square wave, the first of which ends a half wave. -/
theorem each_keepsRaw_square_wave
    : let arrivals :=
        [concreteArrival (concreteFrame 0 0x30 [] 8192),
          concreteArrival (concreteFrame 1 0x30 [] 8192)]
      EachEntry (Entry.KeepsRaw concreteHost)
        (arrivals.foldl (step concreteHost) (start concreteHost none none)).2 := by
  intro arrivals
  have full : ∀ arrival ∈ arrivals, arrival.frame.Full := by
    intro arrival member
    simp only [arrivals, List.mem_cons, List.not_mem_nil, or_false] at member
    rcases member with rfl | rfl <;> exact full_concreteFrame rfl
  clear_value arrivals
  exact each_keepsRaw concreteHost none none arrivals full

end Register

end Smurf
