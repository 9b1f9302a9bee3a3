import Smurf.Filter.DifferenceEquation
import Smurf.Processor.ConfigSafety
import Smurf.Processor.Polling
import Smurf.Processor.TestPayload

/-! The filter inside the frame loop.
Every accepted frame calls the filter with the configuration in force, a clear bit clears it,
and an average that ends ends its run. What a channel puts out is therefore the response of the
difference equation to the frames since the filter was last cleared.
-/

namespace Smurf

open ConfigReader (Harmless)
open Runs

-----------------------------------------------------------------------------------------
-- One frame
-----------------------------------------------------------------------------------------

namespace SmurfConfig

/-- The coefficients in force. -/
def taps (config : SmurfConfig) : DifferenceEquation.Taps ℚ where
  order := config.filterOrder.toInt.toNat
  a := config.filterA
  b := config.filterB

/-- The call of the filter on a value of one channel. -/
def call (config : SmurfConfig) (data : Int32) : FilterCall Int32 where
  data := data
  order := config.filterOrder
  a := config.filterA
  b := config.filterB
  g := config.filterG

theorem FitsFilter.admissible {config : SmurfConfig} (fits : config.FitsFilter) (data : Int32)
    : (config.call data).Admissible :=
  ⟨fits.least, fits.most, fits.divisor⟩

/-- A harmless file leaves a configuration that the filter can take. -/
theorem FitsFilter.readConfigFile {config : SmurfConfig} (fits : config.FitsFilter)
    {strtof : String → ℚ} {file : Option (List String)}
    (harmless : ∀ words ∈ file, Harmless strtof words)
    : (config.readConfigFile strtof file).FitsFilter := by
  cases file with
  | none => exact fits
  | some words =>
      exact
        ((holdsLast_readConfigFile strtof config words).fitsFilter_iff strtof fits).mpr
          (harmless words rfl).values

end SmurfConfig

/-- The response of a channel that remembers some calls, scaled and truncated. -/
def FilterCall.result (call : FilterCall Int32) (since : List (FilterCall Int32)) : Int32 :=
  let history := call.continues since
  truncate
    (DifferenceEquation.respond call.taps (inputs history) (outputs history) call.data.toInt
      * call.g)

/-- What a frame leaves of the filter, at one channel. -/
theorem Record.channel_leave (self : Record) (F : SmurfFilter smurfSamples)
    (j : Fin smurfSamples)
    : (self.leave F).channel j
      = let cleared :=
          if self.clearBit then (F.channel j).clearFilter else F.channel j
        if self.cnt = 0 then cleared else cleared.endRun := by
  simp only [leave, apply_ite (SmurfFilter.channel j), SmurfFilter.channel_endRun,
    SmurfFilter.channel_clearFilter]

namespace Channel.Tracks

variable {channel : Channel} {since : List (FilterCall Int32)}

/-- The output is no part of what a channel remembers. -/
theorem setOutput (tracks : channel.Tracks since) (value : Int32)
    : (channel.setOutput value).Tracks since where
  ring := tracks.ring
  inside := tracks.inside
  latest := tracks.latest
  rings forward :=
    let rings := tracks.rings forward
    ⟨rings.ring, rings.inside, rings.inputs, rings.outputs⟩

/-- What is left after the end of a frame: nothing after a clear bit. -/
theorem leave (tracks : channel.Tracks since) (record : Record)
    : let cleared := if record.clearBit then channel.clearFilter else channel
      (if record.cnt = 0 then cleared else cleared.endRun).Tracks
        (if record.clearBit then [] else since) := by
  have cleared
      : (if record.clearBit then channel.clearFilter else channel).Tracks
          (if record.clearBit then [] else since) := by
    split
    · exact tracks_clearFilter tracks.ring
    · exact tracks
  dsimp only
  split
  · exact cleared
  · have admissible : (Call.endRun : Call Int32).Admissible := trivial
    exact cleared.perform admissible

end Channel.Tracks

/-- What an accepted frame does to a channel that remembers some calls. -/
structure Filtered (before : SmurfProcessor) (record : Record) (after : SmurfProcessor)
    (j : Fin smurfSamples) (since : List (FilterCall Int32)) : Prop where
  tracks
    : (after.F.channel j).Tracks
        (let call := before.C.call (record.inputData j)
          if record.clearBit then [] else call :: call.continues since)
  responds
    : before.C.filterOrder ≠ -1
      → record.averageSamples j = (before.C.call (record.inputData j)).result since

namespace SmurfProcessor

variable (host : Host) (self : SmurfProcessor) (arrival : Arrival)

theorem filtered_accept {j : Fin smurfSamples} {since : List (FilterCall Int32)}
    (tracks : (self.F.channel j).Tracks since) (fits : self.C.FitsFilter)
    : Filtered self (self.accept host arrival).1 (self.accept host arrival).2 j since := by
  obtain ⟨-, -, output, left⟩ := accept_average host self arrival
  obtain ⟨-, -, -, F⟩ := filter_unwrap_prepare host self arrival
  have samples
      : (self.accept host arrival).1.averageSamples
        = (self.prepare host arrival).unwrap.filter.F.output :=
    rfl
  have data
      : (self.accept host arrival).1.inputData
        = (self.prepare host arrival).unwrap.filter.inputData :=
    rfl
  generalize (self.accept host arrival).1 = record at left samples data ⊢
  generalize (self.prepare host arrival).unwrap.filter = working at F left samples data
  rw [← data] at F
  have channel
      : working.F.channel j
        = (self.F.channel j).perform (.filter (self.C.call (record.inputData j))) := by
    rw [F, SmurfFilter.channel_filter]
    rfl
  have after
      : (self.accept host arrival).2.F.channel j
        = ((record.leave working.F).channel j).setOutput (output j) := by
    rw [left]
    rfl
  have admissible := fits.admissible (record.inputData j)
  have performed
      : ((self.F.channel j).perform (.filter (self.C.call (record.inputData j)))).Tracks
          (Call.since since (.filter (self.C.call (record.inputData j)))) :=
    tracks.perform admissible
  constructor
  · rw [after, Record.channel_leave, channel]
    exact (performed.leave record).setOutput (output j)
  · intro forward
    obtain ⟨-, -, result⟩ := tracks.filter _ admissible forward
    rw [samples]
    exact (congrArg Channel.output channel).trans result

theorem filtered_iterate {j : Fin smurfSamples} {since : List (FilterCall Int32)}
    {record : Record} (outcome : (self.iterate host arrival).2 = .accepted record)
    (tracks : (self.F.channel j).Tracks since) (fits : self.C.FitsFilter)
    : Filtered self record (self.iterate host arrival).1 j since := by
  by_cases inOrder : self.counts.inOrder (self.counterRead arrival) = true
  · rw [iterate_accepted host self arrival inOrder] at outcome ⊢
    obtain rfl := Outcome.accepted.inj outcome
    have filtered :=
      filtered_accept host (self.receive arrival.frame).checkOrder.2 arrival tracks fits
    exact ⟨filtered.tracks, filtered.responds⟩
  · rw [iterate_discarded host self arrival inOrder] at outcome
    exact absurd outcome (by simp)

/-- An accepted frame leaves a configuration that the filter can take. -/
theorem fitsFilter_accept
    (bit : SmurfHeader.readConfigFile self.buffer = arrival.frame.readConfigBit)
    (fits : self.C.FitsFilter) (harmless : ∀ words ∈ arrival.configFile, Harmless host.strtof words)
    : (self.accept host arrival).2.C.FitsFilter := by
  rw [(polled_accept host self arrival bit).C]
  split
  · exact fits.readConfigFile harmless
  · exact fits

end SmurfProcessor

-----------------------------------------------------------------------------------------
-- Runs
-----------------------------------------------------------------------------------------

/-- An accepted frame with the configuration in force. -/
structure FilteredFrame where
  arrival : Arrival
  config : SmurfConfig
  record : Record

namespace FilteredFrame

def call (self : FilteredFrame) (j : Fin smurfSamples) : FilterCall Int32 :=
  self.config.call (self.record.inputData j)

/-- The calls that a channel remembers after some frames: those since the latest clear or
change of the order.
-/
def remembered (j : Fin smurfSamples) : List FilteredFrame → List (FilterCall Int32)
  | [] => []
  | latest :: earlier =>
      if latest.record.clearBit then []
      else latest.call j :: (latest.call j).continues (remembered j earlier)

/-- With an order of 0 or more, every channel puts out the response to the frames it remembers,
and outside test modes that is what is published.
-/
def Responds (self : FilteredFrame) (earlier : List FilteredFrame) : Prop :=
  self.config.filterOrder ≠ -1
  → ∀ j,
      self.record.averageSamples j = (self.call j).result (remembered j earlier)
      ∧ (self.arrival.frame.testMode = 0
        → ∀ packet,
            self.record.packet = some packet
            → packet.payload j = (self.call j).result (remembered j earlier))

end FilteredFrame

/-- The processor beside the frames it accepted, the latest first. -/
abbrev FilterTrace := SmurfProcessor × List FilteredFrame

namespace FilterTrace

open FilteredFrame (remembered)

def start (host : Host) (configFile : Option (List String)) (maskFile : Option (List UInt32))
    : FilterTrace :=
  (SmurfProcessor.create host configFile maskFile, [])

def step (host : Host) (trace : FilterTrace) (arrival : Arrival) : FilterTrace :=
  match trace.1.iterate host arrival with
  | (next, .discarded) => (next, trace.2)
  | (next, .accepted record) => (next, ⟨arrival, trace.1.C, record⟩ :: trace.2)

/-- The frame is full, and the configuration file harmless if it can be opened. -/
structure Good (host : Host) (arrival : Arrival) : Prop where
  full : arrival.frame.Full
  harmless : ∀ words ∈ arrival.configFile, Harmless host.strtof words

/-- What the responses follow from. -/
structure Remembers (trace : FilterTrace) : Prop where
  fits : trace.1.C.FitsFilter
  tracks : ∀ j, (trace.1.F.channel j).Tracks (remembered j trace.2)
  each : EachEntry FilteredFrame.Responds trace.2

/-- One frame: a late one changes nothing, an accepted one is remembered. -/
theorem Remembers.step {host : Host} {trace : FilterTrace} {arrival : Arrival}
    (remembers : trace.Remembers) (good : Good host arrival)
    : Remembers (FilterTrace.step host trace arrival) := by
  by_cases inOrder : trace.1.counts.inOrder (trace.1.counterRead arrival) = true
  · have received := SmurfProcessor.buffer_received trace.1 arrival.frame
    have bit :=
      trace.1.readConfigFile_received arrival (Nat.le_trans (by decide) good.full.least)
    have filtered (j : Fin smurfSamples) :=
      SmurfProcessor.filtered_accept host (trace.1.receive arrival.frame).checkOrder.2 arrival
        (remembers.tracks j) remembers.fits
    rw [FilterTrace.step, SmurfProcessor.iterate_accepted host trace.1 arrival inOrder]
    refine ⟨?_, fun j => (filtered j).tracks, fun forward j => ?_, remembers.each⟩
    · exact SmurfProcessor.fitsFilter_accept host _ arrival bit remembers.fits good.harmless
    · have result := (filtered j).responds forward
      refine ⟨result, fun normal packet published => ?_⟩
      have mode :=
        (SmurfProcessor.getTestMode_prepare_received host _ arrival received good.full).trans
          normal
      have payload := SmurfProcessor.payload_accept host _ arrival published
      rw [if_neg (not_not.mpr mode)] at payload
      rw [payload]
      exact result
  · rw [FilterTrace.step, SmurfProcessor.iterate_discarded host trace.1 arrival inOrder]
    exact ⟨remembers.fits, remembers.tracks, remembers.each⟩

/-- In every run of full frames, with whatever clears, test modes and harmless configuration
files: a packet outside test modes carries, for every channel, the response of the difference
equation to the frames accepted since the latest clear or change of the order, by the
coefficients that were in force with each of them, scaled and truncated.
-/
theorem each_responds (host : Host) (configFile : Option (List String))
    (maskFile : Option (List UInt32)) (arrivals : List Arrival)
    (harmless : ∀ words ∈ configFile, Harmless host.strtof words)
    (good : ∀ arrival ∈ arrivals, Good host arrival)
    : EachEntry FilteredFrame.Responds
        (arrivals.foldl (step host) (start host configFile maskFile)).2 := by
  have first : Remembers (start host configFile maskFile) :=
    ⟨SmurfConfig.fitsFilter_defaults.readConfigFile harmless,
      fun j => SmurfFilter.channel_create j 16 ▸ Channel.tracks_create, trivial⟩
  have guarded
      : EachStep (step host) (fun _ arrival => Good host arrival)
          (start host configFile maskFile) arrivals :=
    .of_forall (fun arrival member _ => good arrival member) _
  exact (guarded.invariant first (fun _ _ remembers good => remembers.step good)).final.each

/-- Two frames, the first of which asks for a file with another order. -/
theorem each_responds_two_frames
    : let configFile := some ["filter_order", "3", "num_averages", "1", "data_frames", "1"]
      let arrivals :=
        [{ concreteArrival (concreteFrame 0 8 [] 8192) with
            configFile := some ["filter_order", "2"] },
          concreteArrival (concreteFrame 1 0 [] 8192)]
      EachEntry FilteredFrame.Responds
        (arrivals.foldl (step concreteHost) (start concreteHost configFile none)).2 := by
  intro configFile arrivals
  have harmless : ∀ words ∈ configFile, Harmless concreteHost.strtof words := by
    intro words member
    obtain rfl := Option.some.inj member
    exact ⟨by decide, by rintro value ⟨⟩; decide, by rintro value ⟨⟩; decide, by rintro value ⟨⟩⟩
  have good : ∀ arrival ∈ arrivals, Good concreteHost arrival := by
    intro arrival member
    simp only [arrivals, List.mem_cons, List.not_mem_nil, or_false] at member
    rcases member with rfl | rfl
    · refine ⟨full_concreteFrame rfl, ?_⟩
      rintro words ⟨⟩
      exact
        ⟨by decide, by rintro value ⟨⟩; decide, by rintro value ⟨⟩; decide, by rintro value ⟨⟩⟩
    · exact ⟨full_concreteFrame rfl, fun words member => absurd member (Option.not_mem_none _)⟩
  clear_value arrivals
  exact each_responds concreteHost configFile none arrivals harmless good

end FilterTrace

end Smurf
