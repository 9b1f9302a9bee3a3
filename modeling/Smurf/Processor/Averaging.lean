import Smurf.Filter.BlockAverage
import Smurf.Library.Runs
import Smurf.Processor.Stages

/-! Averages along a run.
Two counters are kept for an average, one by `SmurfHeader` and one by `SmurfFilter`. Both
count the accepted frames since the last average ended or was cleared.
-/

namespace Smurf

open ByteMemory (Bytes)
open Runs

namespace SmurfHeader

variable (self : SmurfHeader) (header : Bytes) (numAverages : Int32)

/-- An average ends with its length, or the frame only counts. -/
theorem averageControl_cases
    : let result := self.averageControl header numAverages
      (result.1 = self.averageCounter + 1 ∧ result.2.averageCounter = 0)
      ∨ (result.1 = 0 ∧ result.2.averageCounter = self.averageCounter + 1) := by
  simp only [averageControl]
  split
  · split
    case isTrue reached => exact .inl ⟨reached.symm, rfl⟩
    case isFalse => exact .inr ⟨rfl, rfl⟩
  · split
    case isTrue => exact .inl ⟨rfl, rfl⟩
    case isFalse => exact .inr ⟨rfl, rfl⟩

/-- Local averaging ends an average exactly when its length is the configured one. -/
theorem averageControl_local (set : numAverages ≠ 0)
    : let result := self.averageControl header numAverages
      (self.averageCounter + 1 = numAverages.toUInt32
        ∧ result.1 = numAverages.toUInt32
        ∧ result.2.averageCounter = 0)
      ∨ (self.averageCounter + 1 ≠ numAverages.toUInt32
        ∧ result.1 = 0
        ∧ result.2.averageCounter = self.averageCounter + 1) := by
  simp only [averageControl, if_pos set]
  split
  case isTrue reached => exact .inl ⟨reached, rfl, rfl⟩
  case isFalse short => exact .inr ⟨short, rfl, rfl⟩

end SmurfHeader

/-- What an accepted frame does to averaging and filter: the filter takes the frame's data,
`average_control` counts it, a clear bit clears both, and an average that ends ends the run
of the filter.
-/
structure Averaged (before : SmurfProcessor) (record : Record) (after : SmurfProcessor)
    : Prop where
  numAverages : record.numAverages = before.C.numAverages
  filterOrder : record.filterOrder = before.C.filterOrder
  controlled
    : ∃ header,
        (record.cnt, record.averageCounter)
        = ((before.H.averageControl header record.numAverages).1,
            (before.H.averageControl header record.numAverages).2.averageCounter)
  counter
    : after.H.averageCounter = if record.clearBit then 0 else record.averageCounter
  filtered
    : ∃ a b g,
        let F := before.F.filter record.inputData record.filterOrder a b g
        record.samplesSinceClear = F.samplesSinceClear
        ∧ record.averageSamples = F.output
        ∧ ∃ output,
            let cleared := if record.clearBit then F.clearFilter else F
            after.F = { if record.cnt = 0 then cleared else cleared.endRun with output }

namespace SmurfProcessor

variable (host : Host) (self : SmurfProcessor) (arrival : Arrival)

theorem averaged_accept
    : Averaged self (self.accept host arrival).1 (self.accept host arrival).2 := by
  obtain ⟨b, T, prepared⟩ := prepare_eq host self arrival
  simp only [accept]
  generalize workingIs : (self.prepare host arrival).unwrap.filter = working
  have config : working.C = self.C := by
    rw [← workingIs, prepared]
    rfl
  have header : working.H = self.H := by
    rw [← workingIs, prepared]
    rfl
  have filtered
      : working.F
        = self.F.filter working.inputData self.C.filterOrder self.C.filterA self.C.filterB
            self.C.filterG := by
    rw [← workingIs, prepared]
    rfl
  obtain ⟨b, T, V, C, mask, fast, output, next⟩ :=
    rest_eq host working.average.2.clear arrival working.average.1
  rw [clear_eq, buffer_average, F_average] at next
  refine ⟨congrArg SmurfConfig.numAverages config, congrArg SmurfConfig.filterOrder config,
    ⟨working.buffer, ?_⟩, ?_, ?_⟩
  · rw [← header]
    rfl
  · rw [clear_eq, buffer_average, F_average, next]
    dsimp only
    split <;> rfl
  · refine ⟨self.C.filterA, self.C.filterB, self.C.filterG, ?_⟩
    dsimp only
    rw [config, ← filtered, clear_eq, buffer_average, F_average, next]
    exact ⟨rfl, rfl, output, rfl⟩

end SmurfProcessor

/-- The processor beside the records of the frames it accepted, the latest first. -/
abbrev Trace := SmurfProcessor × List Record

namespace Trace

def start (host : Host) (configFile : Option (List String)) (maskFile : Option (List UInt32))
    : Trace :=
  (SmurfProcessor.create host configFile maskFile, [])

def step (host : Host) (trace : Trace) (arrival : Arrival) : Trace :=
  match trace.1.iterate host arrival with
  | (next, .discarded) => (next, trace.2)
  | (next, .accepted record) => (next, record :: trace.2)

/-- A step accepts a frame, or discards one and changes neither averaging nor filter. -/
theorem step_cases (host : Host) (trace : Trace) (arrival : Arrival)
    : (∃ record,
        (step host trace arrival).2 = record :: trace.2
        ∧ Averaged trace.1 record (step host trace arrival).1)
      ∨ ((step host trace arrival).2 = trace.2
        ∧ (step host trace arrival).1.H = trace.1.H
        ∧ (step host trace arrival).1.C = trace.1.C
        ∧ (step host trace arrival).1.F = trace.1.F) := by
  by_cases inOrder : trace.1.counts.inOrder (trace.1.counterRead arrival) = true
  · refine .inl ⟨((trace.1.receive arrival.frame).checkOrder.2.accept host arrival).1, ?_⟩
    simp only [step, SmurfProcessor.iterate_accepted host trace.1 arrival inOrder, true_and]
    have averaged :=
      SmurfProcessor.averaged_accept host (trace.1.receive arrival.frame).checkOrder.2 arrival
    exact ⟨averaged.numAverages, averaged.filterOrder, averaged.controlled, averaged.counter,
      averaged.filtered⟩
  · refine .inr ?_
    simp only [step, SmurfProcessor.iterate_discarded host trace.1 arrival inOrder, true_and]
    exact ⟨rfl, rfl, rfl⟩

end Trace

/-- What an accepted frame does to averaging and filter. -/
theorem SmurfProcessor.averaged_iterate (host : Host) (self : SmurfProcessor) (arrival : Arrival)
    {record : Record}
    (outcome : (self.iterate host arrival).2 = .accepted record)
    : Averaged self record (self.iterate host arrival).1 := by
  have step : Trace.step host (self, []) arrival = ((self.iterate host arrival).1, [record]) := by
    rw [Trace.step]
    cases result : self.iterate host arrival with
    | mk next outcome' =>
        obtain rfl : outcome' = .accepted record := (congrArg Prod.snd result).symm.trans outcome
        rfl
  rcases Trace.step_cases host (self, []) arrival with
    ⟨other, records, averaged⟩ | ⟨records, -⟩ <;> rw [step] at records
  · rw [step] at averaged
    obtain ⟨rfl, -⟩ := List.cons.inj records
    exact averaged
  · exact absurd records (List.cons_ne_nil _ _)

end Smurf
