import Smurf.Processor.FilterHistory
import Smurf.Processor.PublishedSignal

/-! From the phase that the frames carry to the values that a recursive filter publishes.
The filter goes on over the averages that end: every `n`-th frame since a clear publishes the
response of the difference equation to the phase of all frames since then.
-/

namespace Smurf

open DifferenceEquation (Taps respond responses)
open PhaseUnwrap
open Record (window)
open Runs

/-- The data of the frames before `t` since the latest clear, the latest first. -/
def dataBefore (clears : Nat → Bool) (phase : Nat → Int) : Nat → List Int
  | 0 => []
  | t + 1 =>
      if clears t then []
      else unwrappedFrom phase (reference clears t) t :: dataBefore clears phase t

/-- Steps of a filter with constant coefficients. -/
def stepsOf (taps : Taps ℚ) (data : List Int) : List (Taps ℚ × ℚ) :=
  data.map fun value : Int => (taps, (value : ℚ))

/-- The response to the phase at `t`. -/
def filteredPhase (clears : Nat → Bool) (phase : Nat → Int) (taps : Taps ℚ) (t : Nat) : ℚ :=
  let history := stepsOf taps (dataBefore clears phase t)
  respond taps (history.map Prod.snd) (responses history)
    (unwrappedFrom phase (reference clears t) t)

/-- What is published with frame `t`, with a recursive filter. -/
def filteredOutput (clears : Nat → Bool) (phase : Nat → Int) (config : SmurfConfig) (n t : Nat)
    : Option Int32 :=
  if (sinceClear clears t + 1) % n = 0 then
    some (truncate (filteredPhase clears phase config.taps t * config.filterG))
  else none

/-- The configuration averages `n` frames at a time with a filter of order 0 or more. -/
structure AveragesFiltered (config : SmurfConfig) (n : Nat) : Prop
    extends Averages config n, config.FitsFilter where
  forward : config.filterOrder ≠ -1

/-- What a channel remembers, all with the same configuration, is some data. -/
structure RemembersData (config : SmurfConfig) (since : List (FilterCall Int32))
    (data : List Int) : Prop where
  order : ∀ call ∈ since, call.order = config.filterOrder
  entries : since.map FilterCall.entry = stepsOf config.taps data

namespace RemembersData

variable {config : SmurfConfig} {since : List (FilterCall Int32)} {data : List Int}

theorem continues (remembers : RemembersData config since data) (value : Int32)
    : (config.call value).continues since = since := by
  refine if_pos ?_
  cases since with
  | nil => rfl
  | cons latest earlier =>
      exact decide_eq_true (remembers.order latest List.mem_cons_self)

theorem cons (remembers : RemembersData config since data) (value : Int32)
    : RemembersData config (config.call value :: since) (value.toInt :: data) where
  order := List.forall_mem_cons.mpr ⟨rfl, remembers.order⟩
  entries := by
    rw [List.map_cons, remembers.entries]
    rfl

theorem inputs (remembers : RemembersData config since data)
    : FilterCall.inputs since = (stepsOf config.taps data).map Prod.snd := by
  rw [← remembers.entries, List.map_map]
  rfl

/-- The result is the response to the data. -/
theorem result (remembers : RemembersData config since data) (value : Int32)
    : (config.call value).result since
      = let history := stepsOf config.taps data
        truncate
          (respond config.taps (history.map Prod.snd) (responses history) value.toInt
            * config.filterG) := by
  rw [FilterCall.result, remembers.continues]
  dsimp only
  rw [← remembers.inputs, ← remembers.entries]
  rfl

end RemembersData

/-- What holds before the frame at `t`: the wraps are carried on, the frames are counted, and the
channel remembers the data since the latest clear.
-/
structure FilterSignals (clears : Nat → Bool) (index : Nat) (phase : Nat → Int)
    (j : Fin smurfSamples) (config : SmurfConfig) (n t : Nat) (processor : SmurfProcessor)
    : Prop where
  carried : Carried clears index phase j t processor
  C : processor.C = config
  counted
    : ∃ earlier,
        Trace.Counts (processor, earlier)
        ∧ (window earlier).length = sinceClear clears t % n
  remembered
    : ∃ since,
        (processor.F.channel j).Tracks since
        ∧ RemembersData config since (dataBefore clears phase t)

theorem filterSignals_create (host : Host) (configFile : Option (List String))
    (maskFile : Option (List UInt32)) (clears : Nat → Bool) (phase : Nat → Int)
    (j : Fin smurfSamples) (n : Nat)
    : FilterSignals clears ((SmurfProcessor.create host configFile maskFile).mask j) phase j
        (SmurfConfig.create host.strtof configFile) n 0
        (SmurfProcessor.create host configFile maskFile) where
  carried := carried_create host configFile maskFile clears phase j
  C := rfl
  counted := ⟨[], Trace.counts_start host configFile maskFile, (Nat.zero_mod n).symm⟩
  remembered := by
    refine ⟨[], SmurfFilter.channel_create j 16 ▸ Channel.tracks_create, ?_, rfl⟩
    exact fun call member => absurd member List.not_mem_nil

/-- One more frame: its data joins what the channel remembers, and a clear bit forgets all. -/
theorem FilterSignals.iterate (host : Host) {clears : Nat → Bool} {index : Nat}
    {phase : Nat → Int} {j : Fin smurfSamples} {config : SmurfConfig} {n t : Nat}
    {processor : SmurfProcessor} {arrival : Arrival} (averages : AveragesFiltered config n)
    (signals : FilterSignals clears index phase j config n t processor)
    (accepted : Accepted host processor arrival)
    (frame : CarriesAt clears index phase t arrival)
    (unwrapped
      : PhaseUnwrap.carried clears 0x10000 0x6000 (residue phase) t
          + wrap 0x10000 0x6000 (residue phase t) (previous (residue phase) t)
        = (phase t - residue phase t)
          - (phase (reference clears t) - residue phase (reference clears t)))
    : FilterSignals clears index phase j config n (t + 1) (processor.iterate host arrival).1
      ∧ (processor.iterate host arrival).2.payload.map (fun payload => payload j)
        = filteredOutput clears phase config n t := by
  obtain ⟨carried, data⟩ := signals.carried.iterate host ⟨accepted.accepted, accepted.mask⟩ frame
  obtain ⟨record, outcome, clearBit, payload⟩ :=
    SmurfProcessor.payload_iterate host processor arrival accepted
  rw [frame.clearBit] at clearBit
  obtain ⟨earlier, counts, length⟩ := signals.counted
  obtain ⟨since, tracks, remembers⟩ := signals.remembered
  have averaged := SmurfProcessor.averaged_iterate host processor arrival outcome
  have turn := averages.turn averaged signals.C counts length clearBit
  have fits : processor.C.FitsFilter := signals.C.symm ▸ averages.toFitsFilter
  have filtered := SmurfProcessor.filtered_iterate host processor arrival outcome tracks fits
  have value
      : (record.inputData j).toInt = unwrappedFrom phase (reference clears t) t := by
    obtain ⟨same, found, value⟩ := data
    obtain rfl : record = same := Outcome.accepted.inj (outcome.symm.trans found)
    rw [unwrappedFrom, value]
    omega
  refine ⟨⟨carried, accepted.C.trans signals.C,
    ⟨record :: earlier, averaged.counts counts, turn.length⟩, _, filtered.tracks, ?_⟩, ?_⟩
  · dsimp only
    rw [signals.C, clearBit, dataBefore, remembers.continues, ← value]
    cases clears t with
    | true => exact ⟨fun call member => absurd member List.not_mem_nil, rfl⟩
    | false => exact remembers.cons (record.inputData j)
  · have result := filtered.responds (signals.C.symm ▸ averages.forward)
    rw [signals.C, remembers.result, value] at result
    rw [outcome, filteredOutput, turn.emits, Outcome.payload, payload, signals.C]
    by_cases ended : record.cnt ≠ 0
    · rw [if_pos ⟨ended, averages.frames⟩, if_pos ended, if_pos rfl, Option.map_some, result]
      rfl
    · rw [if_neg (fun both => ended both.1), if_neg ended, if_neg (Nat.succ_ne_zero _)]
      rfl

theorem each_filteredOutput (host : Host) (configFile : Option (List String))
    (maskFile : Option (List UInt32)) (arrivals : List Arrival) (j : Fin smurfSamples)
    (phase : Nat → Int) (stream : InOrderStream configFile maskFile arrivals)
    (carries
      : CarriesPhase arrivals ((SmurfProcessor.create host configFile maskFile).mask j) phase)
    {n : Nat} (averages : AveragesFiltered (SmurfConfig.create host.strtof configFile) n)
    : ∀ t < arrivals.length,
        ∃ outcome,
          (transduce (SmurfProcessor.iterate host)
              (SmurfProcessor.create host configFile maskFile) arrivals).2[t]?
            = some outcome
          ∧ outcome.payload.map (fun payload => payload j)
            = filteredOutput (clears arrivals) phase
                (SmurfConfig.create host.strtof configFile) n t :=
  stream.each_outcome host configFile maskFile arrivals j phase carries
    (filterSignals_create host configFile maskFile (clears arrivals) phase j n)
    (fun _ _ _ signals accepted frame unwrapped =>
      signals.iterate host averages accepted frame unwrapped)

/-- In every stream of frames in order, with a recursive filter and averages of `n` frames, a
channel publishes with every `n`-th frame since a clear the filtered phase that the frames carry
at its sample, and nothing with the others.
-/
theorem publishes_filteredPhase (host : Host) (configFile : Option (List String))
    (maskFile : Option (List UInt32)) (arrivals : List Arrival) (j : Fin smurfSamples)
    (phase : Nat → Int) (n : Nat)
    (averages : AveragesFiltered (SmurfConfig.create host.strtof configFile) n)
    (stream : InOrderStream configFile maskFile arrivals)
    (carries
      : CarriesPhase arrivals ((SmurfProcessor.create host configFile maskFile).mask j) phase)
    : ∀ t < arrivals.length,
        ∃ outcome,
          (transduce (SmurfProcessor.iterate host)
              (SmurfProcessor.create host configFile maskFile) arrivals).2[t]?
            = some outcome
          ∧ outcome.payload.map (fun payload => payload j)
            = filteredOutput (clears arrivals) phase
                (SmurfConfig.create host.strtof configFile) n t :=
  each_filteredOutput host configFile maskFile arrivals j phase stream carries averages

/-- A host that reads small numbers, and the filter that takes the mean of the data and its last
value.
-/
def smoothingHost : Host where
  strtof := fun word => if word = "2" then 2 else if word = "-1" then -1 else 1
  sine := fun _ _ => 0

def smoothingFile : List String :=
  ["filter_order", "1", "filter_a0", "2", "filter_a1", "-1", "num_averages", "2",
    "data_frames", "1"]

/-- The two frames smoothed. -/
theorem publishes_filteredPhase_two_frames
    : let published :=
        (transduce (SmurfProcessor.iterate smoothingHost)
            (SmurfProcessor.create smoothingHost (some smoothingFile) none) risingPair).2.map
          (fun outcome => outcome.payload.map (fun payload => payload 0))
      published[0]? = some none ∧ published[1]? = some (some 28000) := by
  intro published
  have averages
      : AveragesFiltered (SmurfConfig.create smoothingHost.strtof (some smoothingFile)) 2 :=
    ⟨⟨by decide +kernel, by decide, by decide +kernel⟩,
      ⟨by decide +kernel, by decide +kernel, by decide +kernel⟩, by decide +kernel⟩
  have filtered (t : Nat) (inside : t < 2)
      : published[t]?
        = some
          (filteredOutput (clears risingPair) (fun t => 32000 + 8000 * t)
            (SmurfConfig.create smoothingHost.strtof (some smoothingFile)) 2 t) := by
    obtain ⟨outcome, found, value⟩ :=
      publishes_filteredPhase smoothingHost (some smoothingFile) none risingPair 0 _ 2 averages
        (inOrderStream_risingPair _) carriesPhase_risingPair t inside
    rw [List.getElem?_map, found, Option.map_some, value]
  refine ⟨(filtered 0 (by decide)).trans ?_, (filtered 1 (by decide)).trans ?_⟩
  · decide +kernel
  · decide +kernel

end Smurf
