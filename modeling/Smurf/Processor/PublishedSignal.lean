import Mathlib.Algebra.BigOperators.Intervals
import Smurf.Library.Chunks
import Smurf.Processor.BlockMean
import Smurf.Processor.DiscardedFrames
import Smurf.Processor.InOrderStream

/-! From the phase that the frames carry to the values that are published. With local averaging
of `n` frames and a flat filter, every `n`-th frame since a clear publishes the truncated mean
of the phase over the last `n` frames, up to the multiple of 65536 that the first of them
left open.
-/

namespace Smurf

open Chunks (succ_div_mod_of_last succ_div_mod_of_not_last)
open PhaseUnwrap
open Runs
open Record (sumOf window)

/-- How many frames there were before `t`, since the latest one that cleared. -/
def sinceClear (clears : Nat → Bool) : Nat → Nat
  | 0 => 0
  | t + 1 => if clears t then 0 else sinceClear clears t + 1

section Clears

variable (clears : Nat → Bool)

/-- The frames since the latest clear are unwrapped from the same one. -/
theorem reference_sub {t k : Nat} (within : k ≤ sinceClear clears t)
    : reference clears (t - k) = reference clears t := by
  induction t generalizing k with
  | zero =>
      rw [Nat.zero_sub]
  | succ t ih =>
      rw [sinceClear] at within
      split at within
      · obtain rfl : k = 0 := Nat.le_zero.mp within
        rfl
      · rename_i kept
        cases k with
        | zero => rfl
        | succ k =>
            rw [Nat.succ_sub_succ, ih (Nat.le_of_succ_le_succ within), reference, if_neg kept]

end Clears

/-- The phase at `s` as it is unwrapped from frame `r`. -/
def unwrappedFrom (phase : Nat → Int) (r s : Nat) : Int :=
  phase s - phase r + residue phase r

/-- The data of the latest `m` frames before `t`, added up. -/
def sumBefore (clears : Nat → Bool) (phase : Nat → Int) (t m : Nat) : Int :=
  ∑ k ∈ Finset.range m, unwrappedFrom phase (reference clears (t - 1 - k)) (t - 1 - k)

theorem sumBefore_succ (clears : Nat → Bool) (phase : Nat → Int) (t m : Nat)
    : sumBefore clears phase (t + 1) (m + 1)
      = unwrappedFrom phase (reference clears t) t + sumBefore clears phase t m := by
  rw [sumBefore, sumBefore, Finset.sum_range_succ', Nat.add_sub_cancel, Nat.sub_zero,
    Int.add_comm]
  congr 1
  refine Finset.sum_congr rfl (fun k _ => ?_)
  rw [Nat.sub_sub, Nat.add_comm 1 k]

/-- Frames with no clear in between are all unwrapped from the same one. -/
theorem sumBefore_eq (clears : Nat → Bool) (phase : Nat → Int) {t m : Nat}
    (within : m ≤ sinceClear clears t + 1)
    : sumBefore clears phase (t + 1) m
      = ∑ k ∈ Finset.range m, unwrappedFrom phase (reference clears t) (t - k) := by
  refine Finset.sum_congr rfl (fun k inside => ?_)
  have less := Finset.mem_range.mp inside
  rw [Nat.add_sub_cancel, reference_sub clears (show k ≤ sinceClear clears t by omega)]

namespace SmurfProcessor

variable (host : Host) (self : SmurfProcessor) (arrival : Arrival)

/-- An accepted frame outside test modes publishes what the filter put out. -/
theorem payload_iterate (accepted : Accepted host self arrival)
    : ∃ record,
        (self.iterate host arrival).2 = .accepted record
        ∧ record.clearBit = arrival.frame.clearBit
        ∧ record.packet.map Packet.payload
          = if record.cnt ≠ 0 ∧ self.C.dataFrames ≠ 0 then some record.averageSamples
            else none := by
  have inOrder : self.counts.inOrder (self.counterRead arrival) = true := by
    rw [self.counterRead_eq accepted.full.hasCounter]
    exact accepted.accepted
  have config := accepted.C
  have received := buffer_received self arrival.frame
  rw [iterate_accepted host self arrival inOrder] at config ⊢
  generalize (self.receive arrival.frame).checkOrder.2 = working at config received ⊢
  have payload :=
    accept_payload host working arrival
      ((getTestMode_prepare_received host working arrival received accepted.full).trans
        accepted.normal)
  obtain ⟨buffer, -, -, -⟩ := filter_unwrap_prepare host working arrival
  refine ⟨_, rfl, ?_, ?_⟩
  · exact (congrArg SmurfHeader.getClearBit buffer).trans
      (getClearBit_prepare_received host working arrival received accepted.full)
  · rw [← config]
    exact payload

end SmurfProcessor

/-- The configuration averages `n` frames at a time, and publishes. -/
structure Averages (config : SmurfConfig) (n : Nat) : Prop where
  length : config.numAverages.toInt = n
  positive : 0 < n
  frames : config.dataFrames ≠ 0

/-- It does so with a flat filter. -/
structure AveragesFlat (config : SmurfConfig) (n : Nat) : Prop extends Averages config n where
  order : config.filterOrder = -1

/-- What holds before the frame at `t`: the wraps are carried on, and the frames counted since
the latest average that ended or was cleared are summed.
-/
structure Signals (clears : Nat → Bool) (index : Nat) (phase : Nat → Int) (j : Fin smurfSamples)
    (config : SmurfConfig) (n t : Nat) (processor : SmurfProcessor) : Prop where
  carried : Carried clears index phase j t processor
  C : processor.C = config
  summed
    : ∃ earlier,
        Trace.Counts (processor, earlier)
        ∧ (window earlier).length = sinceClear clears t % n
        ∧ (∀ record ∈ window earlier, record.filterOrder = -1)
        ∧ sumOf (window earlier) j = sumBefore clears phase t (sinceClear clears t % n)

/-- What is published with frame `t`: with every `n`-th frame since a clear, the truncated mean
of the phase over the last `n` frames.
-/
def meanOfPhase (clears : Nat → Bool) (phase : Nat → Int) (n t : Nat) : Option Int :=
  if (sinceClear clears t + 1) % n = 0 then
    some
      ((∑ k ∈ Finset.range n, unwrappedFrom phase (reference clears t) (t - k)).tdiv n)
  else none

/-- An average that ends has counted `n` frames. -/
theorem cnt_iff {before after : SmurfProcessor} {record : Record} {earlier : List Record}
    {config : SmurfConfig} {n : Nat} (averages : Averages config n)
    (averaged : Averaged before record after) (C : before.C = config)
    (counts : Trace.Counts (before, earlier)) (short : (window earlier).length < n)
    : record.cnt ≠ 0 ↔ (window earlier).length + 1 = n := by
  have increment := averaged.counter_succ counts
  have length := averages.length
  have bounded := config.numAverages.toInt_lt
  have set : config.numAverages ≠ 0 := by
    intro zero
    rw [zero] at length
    have := averages.positive
    have : (0 : Int) = n := length
    omega
  have frames : config.numAverages.toUInt32.toNat = n := by
    rw [toNat_toUInt32_of_pos (by have := averages.positive; omega), length]
    rfl
  obtain ⟨header, controlled⟩ := averaged.controlled
  obtain ⟨cnt, -⟩ := Prod.mk.inj controlled
  rw [averaged.numAverages, C] at cnt
  rw [Nat.mod_eq_of_lt (by omega)] at increment
  rcases before.H.averageControl_local header config.numAverages set with
    ⟨reached, ended, -⟩ | ⟨differs, silent, -⟩
  · have equal : (window earlier).length + 1 = n := by rw [← increment, reached, frames]
    refine ⟨fun _ => equal, fun _ zero => ?_⟩
    rw [cnt, ended] at zero
    rw [zero] at frames
    have := averages.positive
    have : (0 : Nat) = n := frames
    omega
  · refine ⟨fun some => absurd (cnt.trans silent) some, fun equal => ?_⟩
    refine absurd (UInt32.toNat_inj.mp ?_) differs
    rw [increment, equal, frames]

/-- The frame at `t` against the frames counted before it. -/
structure Turn (clears : Nat → Bool) (n t : Nat) (record : Record) (earlier : List Record)
    : Prop where
  complete : record.cnt ≠ 0 ↔ (window earlier).length + 1 = n
  emits
    : (sinceClear clears t + 1) % n
      = if record.cnt ≠ 0 then 0 else sinceClear clears t % n + 1
  next
    : sinceClear clears (t + 1) % n
      = if record.ends then 0 else sinceClear clears t % n + 1
  length : (window (record :: earlier)).length = sinceClear clears (t + 1) % n

/-- The frames counted stay those since a clear, up to a multiple of `n`. -/
theorem Averages.turn {before after : SmurfProcessor} {record : Record} {earlier : List Record}
    {config : SmurfConfig} {clears : Nat → Bool} {n t : Nat} (averages : Averages config n)
    (averaged : Averaged before record after) (C : before.C = config)
    (counts : Trace.Counts (before, earlier))
    (length : (window earlier).length = sinceClear clears t % n)
    (clearBit : record.clearBit = clears t)
    : Turn clears n t record earlier := by
  have inside := Nat.mod_lt (sinceClear clears t) averages.positive
  have complete := cnt_iff averages averaged C counts (length ▸ inside)
  have emits
      : (sinceClear clears t + 1) % n
        = if record.cnt ≠ 0 then 0 else sinceClear clears t % n + 1 := by
    by_cases last : sinceClear clears t % n + 1 = n
    · rw [if_pos (complete.mpr (length ▸ last))]
      exact (succ_div_mod_of_last averages.positive last.ge).2
    · rw [if_neg (fun ended => last (length ▸ complete.mp ended))]
      exact (succ_div_mod_of_not_last averages.positive (by omega)).2
  have next
      : sinceClear clears (t + 1) % n
        = if record.ends then 0 else sinceClear clears t % n + 1 := by
    rw [Record.ends, clearBit, sinceClear]
    cases clears t with
    | true => simp
    | false =>
        simp only [Bool.false_eq_true, if_false, emits, Bool.or_false, bne_iff_ne]
  refine ⟨complete, emits, next, ?_⟩
  rw [next]
  cases ended : record.ends with
  | true => rw [Record.window_cons_ends ended, if_pos rfl, List.length_nil]
  | false => rw [Record.window_cons_continues ended, List.length_cons, length]; rfl

theorem signals_create (host : Host) (configFile : Option (List String))
    (maskFile : Option (List UInt32)) (clears : Nat → Bool) (phase : Nat → Int)
    (j : Fin smurfSamples) (n : Nat)
    : Signals clears ((SmurfProcessor.create host configFile maskFile).mask j) phase j
        (SmurfConfig.create host.strtof configFile) n 0
        (SmurfProcessor.create host configFile maskFile) where
  carried := carried_create host configFile maskFile clears phase j
  C := rfl
  summed := by
    refine ⟨[], Trace.counts_start host configFile maskFile, (Nat.zero_mod n).symm, ?_, ?_⟩
    · simp [window]
    · rw [sinceClear, Nat.zero_mod]
      rfl

/-- One more frame: by cases on whether its average ends. -/
theorem Signals.iterate (host : Host) {clears : Nat → Bool} {index : Nat} {phase : Nat → Int}
    {j : Fin smurfSamples} {config : SmurfConfig} {n t : Nat} {processor : SmurfProcessor}
    {arrival : Arrival} (averages : AveragesFlat config n)
    (signals : Signals clears index phase j config n t processor)
    (accepted : Accepted host processor arrival)
    (frame : CarriesAt clears index phase t arrival)
    (unwrapped
      : PhaseUnwrap.carried clears 0x10000 0x6000 (residue phase) t
          + wrap 0x10000 0x6000 (residue phase t) (previous (residue phase) t)
        = (phase t - residue phase t)
          - (phase (reference clears t) - residue phase (reference clears t)))
    : Signals clears index phase j config n (t + 1) (processor.iterate host arrival).1
      ∧ (processor.iterate host arrival).2.payload.map (fun payload => (payload j).toInt)
        = meanOfPhase clears phase n t := by
  obtain ⟨carried, data⟩ := signals.carried.iterate host ⟨accepted.accepted, accepted.mask⟩ frame
  obtain ⟨record, outcome, clearBit, payload⟩ :=
    SmurfProcessor.payload_iterate host processor arrival accepted
  have averaged := SmurfProcessor.averaged_iterate host processor arrival outcome
  obtain ⟨earlier, counts, length, flat, sum⟩ := signals.summed
  have further := averaged.counts counts
  have turn :=
    averages.turn averaged signals.C counts length (clearBit.trans frame.clearBit)
  have order : record.filterOrder = -1 := by
    rw [averaged.filterOrder, signals.C, averages.order]
  have allFlat : ∀ frame ∈ record :: window earlier, frame.filterOrder = -1 :=
    List.forall_mem_cons.mpr ⟨order, flat⟩
  have summed
      : sumOf (record :: window earlier) j
        = sumBefore clears phase (t + 1) (sinceClear clears t % n + 1) := by
    obtain ⟨same, found, value⟩ := data
    obtain rfl : record = same := Outcome.accepted.inj (outcome.symm.trans found)
    rw [sumBefore_succ, ← sum, unwrappedFrom]
    simp only [sumOf, Record.channelData, List.map_cons, List.sum_cons]
    omega
  refine ⟨⟨carried, accepted.C.trans signals.C, record :: earlier, further, turn.length, ?_, ?_⟩,
    ?_⟩
  · cases ended : record.ends with
    | true => simp [Record.window_cons_ends ended]
    | false => rwa [Record.window_cons_continues ended]
  · rw [turn.next]
    cases ended : record.ends with
    | true => rw [Record.window_cons_ends ended, if_pos rfl]; rfl
    | false => rw [Record.window_cons_continues ended]; exact summed
  · have publishes := averages.frames
    rw [outcome, meanOfPhase, turn.emits, Outcome.payload, payload, signals.C]
    by_cases ended : record.cnt ≠ 0
    · have complete := turn.complete.mp ended
      have bounded := config.numAverages.toInt_lt
      rw [averages.length] at bounded
      have mean := averaged.mean counts ended (by rw [List.length_cons, complete]; omega)
      rw [List.length_cons, complete] at mean
      have within : n ≤ sinceClear clears t + 1 := by
        rw [← complete, length]
        exact Nat.succ_le_succ (Nat.mod_le _ _)
      rw [if_pos ⟨ended, publishes⟩, if_pos ended, if_pos rfl, Option.map_some,
        (mean.2 allFlat).2 j, mean.1, summed, ← length, complete, sumBefore_eq _ _ within]
    · rw [if_neg (fun both => ended both.1), if_neg ended, if_neg (Nat.succ_ne_zero _)]
      rfl

section Stream

variable (host : Host) (configFile : Option (List String)) (maskFile : Option (List UInt32))
  (arrivals : List Arrival) (j : Fin smurfSamples) (phase : Nat → Int)
  (stream : InOrderStream configFile maskFile arrivals)
  (carries
    : CarriesPhase arrivals ((SmurfProcessor.create host configFile maskFile).mask j) phase)
include stream carries

/-- What holds before each frame of a stream that carries a phase, and what an iteration makes
of it, gives what holds of each outcome.
-/
theorem InOrderStream.each_outcome {I : Nat → SmurfProcessor → Prop} {Q : Nat → Outcome → Prop}
    (start : I 0 (SmurfProcessor.create host configFile maskFile))
    (step
      : ∀ t processor arrival,
          I t processor
          → Accepted host processor arrival
          → CarriesAt (clears arrivals)
              ((SmurfProcessor.create host configFile maskFile).mask j) phase t arrival
          → PhaseUnwrap.carried (clears arrivals) 0x10000 0x6000 (residue phase) t
              + wrap 0x10000 0x6000 (residue phase t) (previous (residue phase) t)
            = (phase t - residue phase t)
              - (phase (reference (clears arrivals) t)
                - residue phase (reference (clears arrivals) t))
          → I (t + 1) (processor.iterate host arrival).1
            ∧ Q t (processor.iterate host arrival).2)
    : ∀ t < arrivals.length,
        ∃ outcome,
          (transduce (SmurfProcessor.iterate host)
              (SmurfProcessor.create host configFile maskFile) arrivals).2[t]?
            = some outcome
          ∧ Q t outcome := by
  have each :=
    transduce_timed (I := I) (Q := Q)
      (P := fun t arrival =>
        t < arrivals.length
        ∧ CarriesAt (clears arrivals)
            ((SmurfProcessor.create host configFile maskFile).mask j) phase t arrival)
      (fun t processor arrival holds accepted frame =>
        step t processor arrival holds accepted frame.2 (carries.counted frame.1))
      start
      (stream.each_accepted (InOrderStream.ready_create host configFile maskFile arrivals))
      (fun t arrival found => by
        rw [Nat.zero_add]
        exact ⟨(List.getElem?_eq_some_iff.mp found).1, carries.carriesAt t arrival found⟩)
  intro t inside
  obtain ⟨outcome, found, holds⟩ := each t inside
  exact ⟨outcome, found, by rwa [Nat.zero_add] at holds⟩

variable {n : Nat} (averages : AveragesFlat (SmurfConfig.create host.strtof configFile) n)
include averages

theorem each_meanOfPhase
    : ∀ t < arrivals.length,
        ∃ outcome,
          (transduce (SmurfProcessor.iterate host)
              (SmurfProcessor.create host configFile maskFile) arrivals).2[t]?
            = some outcome
          ∧ outcome.payload.map (fun payload => (payload j).toInt)
            = meanOfPhase (clears arrivals) phase n t :=
  stream.each_outcome host configFile maskFile arrivals j phase carries
    (signals_create host configFile maskFile (clears arrivals) phase j n)
    (fun _ _ _ signals accepted frame unwrapped =>
      signals.iterate host averages accepted frame unwrapped)

end Stream

/-- In every stream of frames in order, with a flat filter over `n` frames, a channel publishes
the means of the phase that the frames carry at its sample: with every `n`-th frame since a
clear, over these `n` frames, and nothing with the others.
-/
theorem publishes_meanOfPhase (host : Host) (configFile : Option (List String))
    (maskFile : Option (List UInt32)) (arrivals : List Arrival) (j : Fin smurfSamples)
    (phase : Nat → Int) (n : Nat)
    (averages : AveragesFlat (SmurfConfig.create host.strtof configFile) n)
    (stream : InOrderStream configFile maskFile arrivals)
    (carries
      : CarriesPhase arrivals ((SmurfProcessor.create host configFile maskFile).mask j) phase)
    : ∀ t < arrivals.length,
        ∃ outcome,
          (transduce (SmurfProcessor.iterate host)
              (SmurfProcessor.create host configFile maskFile) arrivals).2[t]?
            = some outcome
          ∧ outcome.payload.map (fun payload => (payload j).toInt)
            = meanOfPhase (clears arrivals) phase n t :=
  each_meanOfPhase host configFile maskFile arrivals j phase stream carries averages

/-- Two frames whose first sample carries a phase that leaves the 16-bit range with the second
one.
-/
def risingPair : List Arrival :=
  [concreteArrival (concreteFrame 0 0 [0x00, 0x7D] 8190),
    concreteArrival (concreteFrame 1 0 [0x40, 0x9C] 8190)]

theorem full_risingPair : ∀ arrival ∈ risingPair, arrival.frame.Full := by
  intro arrival member
  simp only [risingPair, List.mem_cons, List.not_mem_nil, or_false] at member
  rcases member with rfl | rfl <;> exact full_concreteFrame rfl

theorem carriesPhase_risingPair : CarriesPhase risingPair 0 (fun t => 32000 + 8000 * t) where
  full := full_risingPair
  normal := by decide +kernel
  samples t arrival found := by
    match t with
    | 0 =>
        obtain rfl := Option.some.inj found
        decide +kernel
    | 1 =>
        obtain rfl := Option.some.inj found
        decide +kernel
  slow t _ := by
    rw [abs_le]
    push_cast
    omega
  range s reached t inside := by
    have length : risingPair.length = 2 := rfl
    rw [abs_lt]
    omega

theorem inOrderStream_risingPair (configFile : Option (List String))
    : InOrderStream configFile none risingPair where
  full := full_risingPair
  normal := by decide +kernel
  counters := by decide +kernel
  config := by simp [risingPair, concreteArrival]
  mask := by simp [risingPair, concreteArrival]

/-- The two frames averaged. -/
theorem publishes_meanOfPhase_two_frames
    : let configFile := some ["filter_order", "-1", "num_averages", "2", "data_frames", "1"]
      ∀ t < 2,
        ∃ outcome,
          (transduce (SmurfProcessor.iterate concreteHost)
              (SmurfProcessor.create concreteHost configFile none) risingPair).2[t]?
            = some outcome
          ∧ outcome.payload.map (fun payload => (payload 0).toInt)
            = if t = 1 then some 36000 else none := by
  intro configFile t inside
  have averages : AveragesFlat (SmurfConfig.create concreteHost.strtof configFile) 2 :=
    ⟨⟨by decide +kernel, by decide, by decide +kernel⟩, by decide +kernel⟩
  obtain ⟨outcome, found, value⟩ :=
    publishes_meanOfPhase concreteHost configFile none risingPair 0 _ 2 averages
      (inOrderStream_risingPair configFile) carriesPhase_risingPair t inside
  refine ⟨outcome, found, value.trans ?_⟩
  obtain rfl | rfl : t = 0 ∨ t = 1 := by omega
  · decide +kernel
  · decide +kernel

end Smurf
