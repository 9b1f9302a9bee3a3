import Smurf.Library.PhaseUnwrap
import Smurf.Library.Runs
import Smurf.Processor.Stages

/-! Unwrapping along a run.
Each frame is unwrapped against the frame before it, which the other buffer still holds. For
a channel that carries a slow phase, the data passed to the filter is the phase itself, from
the first frame or the latest clear on.
-/

namespace Smurf

open ByteMemory
open PhaseUnwrap
open Runs

-----------------------------------------------------------------------------------------
-- One frame
-----------------------------------------------------------------------------------------

/-- Short of an overflow, the wrap counter moves by the wrap. -/
theorem toInt_unwrapCounter {d p : Int16} {wrapCounter : Int32}
    (lower : -2 ^ 31 ≤ wrapCounter.toInt + wrap 0x10000 0x6000 d.toInt p.toInt)
    (upper : wrapCounter.toInt + wrap 0x10000 0x6000 d.toInt p.toInt < 2 ^ 31)
    : (SmurfProcessor.unwrapCounter d p wrapCounter).toInt
      = wrapCounter.toInt + wrap 0x10000 0x6000 d.toInt p.toInt := by
  have up : SmurfProcessor.upperUnwrap.toInt = 0x6000 := by decide
  have low : SmurfProcessor.lowerUnwrap.toInt = -0x6000 := by decide
  have period : (0x10000 : Int32).toInt = 0x10000 := by decide
  simp only [SmurfProcessor.unwrapCounter, Int32.lt_iff_toInt_lt, Int16.toInt_toInt32, up, low]
  rw [wrap] at lower upper ⊢
  split
  case isTrue down =>
    rw [if_pos down] at lower upper
    rw [Int32.toInt_sub, period]
    exact Int.bmod_eq_of_le (by omega) (by omega)
  case isFalse notDown =>
    rw [if_neg notDown] at lower upper
    split
    case isTrue up =>
      rw [if_pos up] at lower upper
      rw [Int32.toInt_add, period]
      exact Int.bmod_eq_of_le (by omega) (by omega)
    case isFalse => exact (add_zero _).symm

/-- What an accepted frame does to the wrap counters: the frame is unwrapped against the one
before, a clear bit then clears the counters, and the frame stays in the buffer.
-/
structure Unwrapped (before : SmurfProcessor) (prepared : Bytes) (record : Record)
    (after : SmurfProcessor) : Prop where
  inputData
    : ∀ j,
        record.inputData j
        = (sample prepared (before.mask j)).toInt32
          + SmurfProcessor.unwrapCounter (sample prepared (before.mask j))
              (sample before.bufferLast (before.mask j)) (before.wrapCounter j)
  wrapCounter
    : ∀ j,
        after.wrapCounter j
        = if SmurfHeader.getClearBit prepared then 0
          else
            SmurfProcessor.unwrapCounter (sample prepared (before.mask j))
              (sample before.bufferLast (before.mask j)) (before.wrapCounter j)
  samples : ∀ i, sample after.buffer i = sample prepared i

namespace SmurfProcessor

variable (host : Host) (self : SmurfProcessor) (arrival : Arrival)

/-- The header fields written last leave the samples alone. -/
theorem sample_finish (i : Nat)
    : sample (self.finish arrival).buffer i = sample self.buffer i := by
  have kept : self.endRun.insertTestAverages.buffer = self.buffer := by
    obtain ⟨T, output, eq⟩ := insertTestAverages_eq self.endRun
    rw [eq]
    rfl
  rw [finish, stamp, buffer_setBuffer, SmurfHeader.setNumChannels,
    sample_putField _ _ (by decide), sample_putField _ _ (by decide), buffer_checkClocks, kept]

theorem buffer_clear_reread : (self.clear.reread host arrival).buffer = self.buffer := by
  obtain ⟨C, mask, fast, eq⟩ := reread_eq host self.clear arrival
  rw [eq, clear_eq]
  rfl

theorem unwrapped_accept
    : Unwrapped self (self.prepare host arrival).buffer (self.accept host arrival).1
        (self.accept host arrival).2 := by
  have last := bufferLast_prepare host self arrival
  obtain ⟨b, T, prepared⟩ := prepare_eq host self arrival
  have mask : (self.prepare host arrival).mask = self.mask := by rw [prepared]
  have carried : (self.prepare host arrival).wrapCounter = self.wrapCounter := by rw [prepared]
  simp only [accept]
  generalize self.prepare host arrival = ready at last mask carried ⊢
  refine ⟨fun j => ?_, fun j => ?_, fun i => ?_⟩
  · rw [← last, ← mask, ← carried]
    rfl
  · obtain ⟨b, T, V, C, mask', fast, output, eq⟩ :=
      rest_eq host ready.unwrap.filter.average.2.clear arrival ready.unwrap.filter.average.1
    rw [eq, clear_eq, buffer_average, ← last, ← mask, ← carried]
    exact ite_apply _ _ _ j
  · split
    · rw [buffer_clear_reread, buffer_average]
      rfl
    · rw [sample_finish, buffer_clear_reread, buffer_average]
      rfl

/-- What an accepted frame outside test modes does to a channel, in terms of the frame and
the state before it.
-/
structure UnwrappedFrame (before : SmurfProcessor) (frame : Frame) (j : Fin smurfSamples)
    (record : Record) (after : SmurfProcessor) : Prop where
  inputData
    : record.inputData j
      = (sample frame.image (before.mask j)).toInt32
        + unwrapCounter (sample frame.image (before.mask j))
            (sample before.buffer (before.mask j)) (before.wrapCounter j)
  wrapCounter
    : after.wrapCounter j
      = if frame.clearBit then 0
        else
          unwrapCounter (sample frame.image (before.mask j))
            (sample before.buffer (before.mask j)) (before.wrapCounter j)
  latest : sample after.buffer (before.mask j) = sample frame.image (before.mask j)

/-- An accepted frame is unwrapped against the frame before it. -/
theorem unwrapped_iterate (full : arrival.frame.Full) (normal : arrival.frame.testMode = 0)
    (accepted : self.counts.inOrder arrival.frame.counter = true) (j : Fin smurfSamples)
    : ∃ record,
        (self.iterate host arrival).2 = .accepted record
        ∧ UnwrappedFrame self arrival.frame j record (self.iterate host arrival).1 := by
  have inOrder : self.counts.inOrder (self.counterRead arrival) = true := by
    rw [self.counterRead_eq full.hasCounter]
    exact accepted
  have unwrapped := unwrapped_accept host (self.receive arrival.frame).checkOrder.2 arrival
  have received := buffer_received self arrival.frame
  have latest :=
    sample_prepare_received host _ arrival received full normal (self.mask j).isLt
  have clearBit := getClearBit_prepare_received host _ arrival received full
  have data := unwrapped.inputData j
  have left := unwrapped.wrapCounter j
  rw [bufferLast_received] at data left
  rw [clearBit] at left
  rw [iterate_accepted host self arrival inOrder]
  refine ⟨_, rfl, ?_, ?_, (unwrapped.samples _).trans latest⟩
  · rw [← latest]
    exact data
  · rw [← latest]
    exact left

theorem mask_reread (kept : readMask self.mask arrival.maskFile = self.mask)
    : (self.reread host arrival).mask = self.mask := by
  simp only [reread]
  split
  · split
    · exact kept
    · rfl
  · rfl

/-- A frame whose mask file is missing or agrees keeps the mask. -/
theorem mask_iterate (kept : readMask self.mask arrival.maskFile = self.mask)
    : (self.iterate host arrival).1.mask = self.mask := by
  refine iterate_keeps host self arrival SmurfProcessor.mask rfl (fun working same => ?_)
  obtain ⟨b, T, prepared⟩ := prepare_eq host working arrival
  have mask : (working.prepare host arrival).mask = self.mask := by
    rw [prepared]
    exact same
  simp only [accept]
  generalize working.prepare host arrival = ready at mask ⊢
  have cleared : ready.unwrap.filter.average.2.clear.mask = self.mask := by
    rw [clear_eq]
    exact mask
  have read : (ready.unwrap.filter.average.2.clear.reread host arrival).mask = self.mask := by
    rw [mask_reread host _ arrival (cleared.symm ▸ kept), cleared]
  split
  · exact read
  · obtain ⟨b, T, V, output, eq⟩ :=
      finish_eq (ready.unwrap.filter.average.2.clear.reread host arrival) arrival
    rw [eq]
    exact read

end SmurfProcessor

-----------------------------------------------------------------------------------------
-- Runs
-----------------------------------------------------------------------------------------

/-- Whether the frame at `t` has the clear bit set. -/
def clears (arrivals : List Arrival) (t : Nat) : Bool :=
  (arrivals[t]?).any fun arrival => arrival.frame.clearBit

/-- All frames are full and outside test modes, and carry a slow phase at a sample, reduced
to 16 bits.
-/
structure CarriesPhase (arrivals : List Arrival) (index : Nat) (phase : Nat → Int) : Prop where
  full : ∀ arrival ∈ arrivals, arrival.frame.Full
  normal : ∀ arrival ∈ arrivals, arrival.frame.testMode = 0
  samples
    : ∀ t arrival,
        arrivals[t]? = some arrival → sample arrival.frame.image index = Int16.ofInt (phase t)
  slow : ∀ t, t + 1 < arrivals.length → |phase (t + 1) - phase t| ≤ 8191
  range
    : ∀ s < arrivals.length, ∀ t < arrivals.length, |phase t - phase s| < 2 ^ 30

/-- The frame is accepted and leaves the mask as it is. -/
structure Steady (host : Host) (processor : SmurfProcessor) (arrival : Arrival) : Prop where
  accepted : processor.counts.inOrder arrival.frame.counter = true
  mask : (processor.iterate host arrival).1.mask = processor.mask

/-- Every frame is accepted, with data that is the phase since the reference frame on top of
that frame's sample. Up to a clear, the data differs from the phase by the same multiple of
65536.
-/
structure TracksPhase (arrivals : List Arrival) (outcomes : List Outcome)
    (j : Fin smurfSamples) (phase : Nat → Int) : Prop where
  exact
    : ∀ t < arrivals.length,
        ∃ record,
          outcomes[t]? = some (.accepted record)
          ∧ (record.inputData j).toInt
            = phase t - phase (reference (clears arrivals) t)
              + (Int16.ofInt (phase (reference (clears arrivals) t))).toInt
  offset
    : ∀ s t,
        s ≤ t
        → t < arrivals.length
        → (∀ k, s ≤ k → k < t → clears arrivals k = false)
        → ∃ m : Int,
            ∀ k record,
              s ≤ k
              → k ≤ t
              → outcomes[k]? = some (.accepted record)
              → phase k - (record.inputData j).toInt = 65536 * m

/-- A phase reduced to 16 bits. -/
def residue (phase : Nat → Int) (t : Nat) : Int :=
  (phase t).bmod 0x10000

theorem toInt_ofInt_phase (phase : Nat → Int) (t : Nat)
    : (Int16.ofInt (phase t)).toInt = residue phase t :=
  Int16.toInt_ofInt

/-- What a run needs of the frame at `t`. The last field keeps the wrap counter from
overflowing.
-/
structure CarriesAt (clears : Nat → Bool) (index : Nat) (phase : Nat → Int) (t : Nat)
    (arrival : Arrival) : Prop where
  full : arrival.frame.Full
  normal : arrival.frame.testMode = 0
  sample : Smurf.sample arrival.frame.image index = Int16.ofInt (phase t)
  clearBit : arrival.frame.clearBit = clears t
  small
    : |carried clears 0x10000 0x6000 (residue phase) t
        + wrap 0x10000 0x6000 (residue phase t) (previous (residue phase) t)| < 2 ^ 31 - 2 ^ 15

/-- What holds before the frame at `t`: the buffer holds the sample before it, and the wrap
counter the wraps counted since the reference frame.
-/
structure Carried (clears : Nat → Bool) (index : Nat) (phase : Nat → Int)
    (j : Fin smurfSamples) (t : Nat) (processor : SmurfProcessor) : Prop where
  mask : (processor.mask j).val = index
  latest : (sample processor.buffer index).toInt = previous (residue phase) t
  wrapCounter
    : (processor.wrapCounter j).toInt = carried clears 0x10000 0x6000 (residue phase) t

/-- The outcome of the frame at `t`. -/
def DataAt (clears : Nat → Bool) (phase : Nat → Int) (j : Fin smurfSamples) (t : Nat)
    (outcome : Outcome) : Prop :=
  ∃ record,
    outcome = .accepted record
    ∧ (record.inputData j).toInt
      = residue phase t
        + (carried clears 0x10000 0x6000 (residue phase) t
          + wrap 0x10000 0x6000 (residue phase t) (previous (residue phase) t))

/-- One frame carries the wraps on. -/
theorem Carried.iterate (host : Host) {clears : Nat → Bool} {index : Nat} {phase : Nat → Int}
    {j : Fin smurfSamples} {t : Nat} {processor : SmurfProcessor} {arrival : Arrival}
    (carried : Carried clears index phase j t processor)
    (steady : Steady host processor arrival) (frame : CarriesAt clears index phase t arrival)
    : Carried clears index phase j (t + 1) (processor.iterate host arrival).1
      ∧ DataAt clears phase j t (processor.iterate host arrival).2 := by
  obtain ⟨record, outcome, data, left, latest⟩ :=
    SmurfProcessor.unwrapped_iterate host processor arrival frame.full frame.normal
      steady.accepted j
  rw [carried.mask, frame.sample] at data left latest
  obtain ⟨low, high⟩ := abs_lt.mp frame.small
  have counted
      : (SmurfProcessor.unwrapCounter (Int16.ofInt (phase t)) (sample processor.buffer index)
            (processor.wrapCounter j)).toInt
        = PhaseUnwrap.carried clears 0x10000 0x6000 (residue phase) t
          + wrap 0x10000 0x6000 (residue phase t) (previous (residue phase) t) := by
    rw [toInt_unwrapCounter, toInt_ofInt_phase, carried.latest, carried.wrapCounter]
    · rw [toInt_ofInt_phase, carried.latest, carried.wrapCounter]
      omega
    · rw [toInt_ofInt_phase, carried.latest, carried.wrapCounter]
      omega
  refine ⟨⟨?_, ?_, ?_⟩, ⟨record, outcome, ?_⟩⟩
  · rw [steady.mask]
    exact carried.mask
  · rw [latest, toInt_ofInt_phase, previous]
  · rw [left, frame.clearBit, PhaseUnwrap.carried, ← counted]
    split <;> rfl
  · have sampleLow := (Int16.ofInt (phase t)).le_toInt
    have sampleHigh := (Int16.ofInt (phase t)).toInt_lt
    rw [toInt_ofInt_phase] at sampleLow sampleHigh
    rw [data, Int32.toInt_add, Int16.toInt_toInt32, counted, toInt_ofInt_phase]
    exact Int.bmod_eq_of_le (by omega) (by omega)

/-- The wraps counted with a frame are those the phase made since the reference frame. -/
theorem CarriesPhase.counted {arrivals : List Arrival} {index : Nat} {phase : Nat → Int}
    (carries : CarriesPhase arrivals index phase) {t : Nat} (inside : t < arrivals.length)
    : carried (clears arrivals) 0x10000 0x6000 (residue phase) t
        + wrap 0x10000 0x6000 (residue phase t) (previous (residue phase) t)
      = (phase t - residue phase t)
        - (phase (reference (clears arrivals) t)
          - residue phase (reference (clears arrivals) t)) :=
  carried_add_wrap (clears arrivals) (by decide) (by decide) (by decide)
    (fun s less => carries.slow s (by omega))

/-- What a channel carries, frame by frame. -/
theorem CarriesPhase.carriesAt {arrivals : List Arrival} {index : Nat} {phase : Nat → Int}
    (carries : CarriesPhase arrivals index phase) (t : Nat) (arrival : Arrival)
    (found : arrivals[t]? = some arrival)
    : CarriesAt (clears arrivals) index phase t arrival := by
  obtain ⟨inside, rfl⟩ := List.getElem?_eq_some_iff.mp found
  have member : arrivals[t] ∈ arrivals := List.getElem_mem inside
  refine ⟨carries.full _ member, carries.normal _ member, carries.samples t _ found, ?_, ?_⟩
  · rw [clears, found, Option.any_some]
  · have reached := Nat.lt_of_le_of_lt (reference_le (clears arrivals) t) inside
    obtain ⟨low, high⟩ := abs_lt.mp (carries.range _ reached t inside)
    have residueLow (s : Nat) : -0x8000 ≤ residue phase s :=
      Int.le_bmod (x := phase s) (m := 0x10000) (by decide)
    have residueHigh (s : Nat) : residue phase s < 0x8000 :=
      Int.bmod_lt (x := phase s) (m := 0x10000) (by decide)
    have := residueLow t
    have := residueHigh t
    have := residueLow (reference (clears arrivals) t)
    have := residueHigh (reference (clears arrivals) t)
    rw [carries.counted inside, abs_lt]
    constructor <;> omega

theorem carried_create (host : Host) (configFile : Option (List String))
    (maskFile : Option (List UInt32)) (clears : Nat → Bool) (phase : Nat → Int)
    (j : Fin smurfSamples)
    : Carried clears ((SmurfProcessor.create host configFile maskFile).mask j) phase j 0
        (SmurfProcessor.create host configFile maskFile) where
  mask := rfl
  latest := congrArg Int16.toInt (sample_zeros _)
  wrapCounter := rfl

/-- In every run of accepted frames with a constant mask, a channel tracks the phase that
the frames carry at its sample. Witness: each frame is unwrapped with the wraps its phase
made since the reference frame.
-/
theorem tracksPhase (host : Host) (configFile : Option (List String))
    (maskFile : Option (List UInt32)) (arrivals : List Arrival) (j : Fin smurfSamples)
    (phase : Nat → Int)
    (carries
      : CarriesPhase arrivals ((SmurfProcessor.create host configFile maskFile).mask j) phase)
    (steady
      : EachStep (fun s x => (s.iterate host x).1) (Steady host)
          (SmurfProcessor.create host configFile maskFile) arrivals)
    : TracksPhase arrivals
        (transduce (SmurfProcessor.iterate host)
          (SmurfProcessor.create host configFile maskFile) arrivals).2
        j phase := by
  generalize createdIs : SmurfProcessor.create host configFile maskFile = created
    at carries steady ⊢
  have start : Carried (clears arrivals) (created.mask j) phase j 0 created := by
    rw [← createdIs]
    exact carried_create host configFile maskFile (clears arrivals) phase j
  have each
      : ∀ t < arrivals.length,
          ∃ outcome,
            (transduce (SmurfProcessor.iterate host) created arrivals).2[t]? = some outcome
            ∧ DataAt (clears arrivals) phase j (0 + t) outcome := by
    refine transduce_timed (I := Carried (clears arrivals) (created.mask j) phase j)
      (P := CarriesAt (clears arrivals) (created.mask j) phase) ?_ start steady ?_
    · exact fun t processor arrival carried steady frame => carried.iterate host steady frame
    · intro t arrival found
      rw [Nat.zero_add]
      exact carries.carriesAt t arrival found
  have exact
      : ∀ t < arrivals.length,
          ∃ record,
            (transduce (SmurfProcessor.iterate host) created arrivals).2[t]?
              = some (.accepted record)
            ∧ (record.inputData j).toInt
              = phase t - phase (reference (clears arrivals) t)
                + residue phase (reference (clears arrivals) t) := by
    intro t inside
    obtain ⟨outcome, found, record, rfl, data⟩ := each t inside
    rw [Nat.zero_add, carries.counted inside] at data
    refine ⟨record, found, ?_⟩
    omega
  constructor
  · intro t inside
    rw [toInt_ofInt_phase]
    exact exact t inside
  · intro s t le inside kept
    obtain ⟨m, multiple⟩ :=
      Int.dvd_self_sub_bmod (x := phase (reference (clears arrivals) s)) (m := 0x10000)
    refine ⟨m, fun k record from_s to_t found => ?_⟩
    obtain ⟨same, at_k, data⟩ := exact k (by omega)
    obtain rfl : same = record := by
      rw [found] at at_k
      cases at_k
      rfl
    have reached :=
      reference_eq (clears arrivals) from_s (fun i from_s' less => kept i from_s' (by omega))
    rw [data, reached]
    simp only [residue] at multiple ⊢
    omega

/-- Three frames whose first sample carries a phase that rises by 8000 a frame and leaves the
16-bit range with the second one; the second one has the clear bit set.
-/
def risingFrames : List Arrival :=
  [concreteArrival (concreteFrame 0 0 [0x00, 0x7D] 8190),
    concreteArrival (concreteFrame 1 1 [0x40, 0x9C] 8190),
    concreteArrival (concreteFrame 2 0 [0x80, 0xBB] 8190)]

/-- A rising phase is tracked through a wrap and a clear. -/
theorem tracksPhase_rising
    : TracksPhase risingFrames
        (transduce (SmurfProcessor.iterate concreteHost)
          (SmurfProcessor.create concreteHost none none) risingFrames).2
        0 (fun t => 32000 + 8000 * t) := by
  refine tracksPhase concreteHost none none risingFrames 0 _ ⟨?_, ?_, ?_, ?_, ?_⟩ ?_
  · intro arrival member
    simp only [risingFrames, List.mem_cons, List.not_mem_nil, or_false] at member
    rcases member with rfl | rfl | rfl
    · exact full_concreteFrame rfl
    · exact full_concreteFrame rfl
    · exact full_concreteFrame rfl
  · decide +kernel
  · intro t arrival found
    match t with
    | 0 =>
        obtain rfl := Option.some.inj found
        decide +kernel
    | 1 =>
        obtain rfl := Option.some.inj found
        decide +kernel
    | 2 =>
        obtain rfl := Option.some.inj found
        decide +kernel
  · intro t inside
    rw [abs_le]
    push_cast
    omega
  · intro s reached t inside
    have length : risingFrames.length = 3 := rfl
    rw [abs_lt]
    omega
  · exact ⟨⟨by decide +kernel, SmurfProcessor.mask_iterate concreteHost _ _ rfl⟩,
      ⟨by decide +kernel, SmurfProcessor.mask_iterate concreteHost _ _ rfl⟩,
      ⟨by decide +kernel, SmurfProcessor.mask_iterate concreteHost _ _ rfl⟩, trivial⟩

end Smurf
