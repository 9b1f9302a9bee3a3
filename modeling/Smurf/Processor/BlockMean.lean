import Smurf.Processor.Averaging

/-! A block average is the mean of the frames it counts.
The counter of `average_control` and the one of the filter follow the same frames, and the
flat average sums exactly their data.
-/

namespace Smurf

open Runs

namespace Record

/-- The frame ends the average it is counted in, or clears it. -/
def ends (self : Record) : Bool :=
  self.cnt != 0 || self.clearBit

/-- The frames since the last average ended or was cleared. -/
def window (earlier : List Record) : List Record :=
  earlier.takeWhile fun record => !record.ends

/-- The data of a channel in some frames. -/
def channelData (frames : List Record) (j : Fin smurfSamples) : List Int32 :=
  frames.map fun record => record.inputData j

/-- The sum of a channel's data in some frames. -/
def sumOf (frames : List Record) (j : Fin smurfSamples) : Int :=
  ((channelData frames j).map Int32.toInt).sum

/-- If the frame ends an average of less than `2 ^ 32` frames, the result is the number of
frames since the last one, and if they were all filtered with order -1, the filter has
counted them too and gives the truncated mean of their data.
-/
def MeanOfWindow (self : Record) (earlier : List Record) : Prop :=
  let frames := self :: window earlier
  self.cnt ≠ 0
  → frames.length < 2 ^ 32
  → self.cnt.toNat = frames.length
    ∧ ((∀ frame ∈ frames, frame.filterOrder = -1)
      → self.samplesSinceClear = self.cnt
        ∧ ∀ j, (self.averageSamples j).toInt = (sumOf frames j).tdiv self.cnt.toNat)

theorem window_cons_ends {record : Record} (ended : record.ends = true) (earlier : List Record)
    : window (record :: earlier) = [] := by
  simp [window, ended]

theorem window_cons_continues {record : Record} (continues : record.ends = false)
    (earlier : List Record)
    : window (record :: earlier) = record :: window earlier := by
  simp [window, continues]

end Record

open Record (channelData sumOf window)

/-- The counter of `average_control` counts the frames of the window, and the flat average
has summed them if they were all given to it.
-/
structure Trace.Counts (trace : Trace) : Prop where
  counter : trace.1.H.averageCounter.toNat = (window trace.2).length % 2 ^ 32
  flat
    : (∀ record ∈ window trace.2, record.filterOrder = -1)
      → trace.1.F.flatStart.Flat (window trace.2).length (sumOf (window trace.2))

namespace Averaged

variable {before after : SmurfProcessor} {record : Record} {earlier : List Record}

theorem control_cases (averaged : Averaged before record after)
    : (record.cnt = before.H.averageCounter + 1 ∧ record.averageCounter = 0)
      ∨ (record.cnt = 0 ∧ record.averageCounter = before.H.averageCounter + 1) := by
  obtain ⟨header, controlled⟩ := averaged.controlled
  have cases := before.H.averageControl_cases header record.numAverages
  obtain ⟨cnt, counter⟩ := Prod.mk.inj controlled
  rw [cnt, counter]
  exact cases

/-- Counting one more frame is counting the window with it, in 32 bits. -/
theorem counter_succ (_ : Averaged before record after)
    (counts : Trace.Counts (before, earlier))
    : (before.H.averageCounter + 1).toNat = ((window earlier).length + 1) % 2 ^ 32 := by
  have counter := counts.counter
  dsimp only at counter
  rw [UInt32.toNat_add, counter, show (1 : UInt32).toNat = 1 from rfl]
  omega

/-- The filter after a frame that ends the window is cleared for a flat average. -/
theorem flatStart_ends (averaged : Averaged before record after)
    (ended : record.ends = true)
    : after.F.flatStart.Flat 0 fun _ => 0 := by
  obtain ⟨a, b, g, -, -, output, filter⟩ := averaged.filtered
  rw [filter, SmurfFilter.flatStart_withOutput]
  refine SmurfFilter.Flat.withOutput ?_ output
  by_cases clear : record.clearBit = true
  · simp only [clear, if_true]
    split
    · rw [SmurfFilter.flatStart_clearFilter]
      exact SmurfFilter.flat_clearFilter _
    · rw [SmurfFilter.flatStart_endRun]
      exact SmurfFilter.flat_clearFilter _
  · have emitted : ¬ record.cnt = 0 := by
      simpa [Record.ends, clear] using ended
    simp only [if_neg emitted, SmurfFilter.flatStart_endRun]
    exact SmurfFilter.flat_clearFilter _

/-- What the flat average makes of a window of frames that were all given to it, and that
it goes on from there unless the frame ends the window.
-/
theorem flat_frame (averaged : Averaged before record after)
    (counts : Trace.Counts (before, earlier))
    (flat : ∀ frame ∈ record :: window earlier, frame.filterOrder = -1)
    : record.samplesSinceClear.toNat = ((window earlier).length + 1) % 2 ^ 32
      ∧ (∀ j,
          record.averageSamples j
          = truncate
              ((sumOf (record :: window earlier) j : ℚ)
                / (record.samplesSinceClear.toNat : ℚ)))
      ∧ (record.ends = false
        → after.F.flatStart.Flat ((window earlier).length + 1)
            (sumOf (record :: window earlier))) := by
  obtain ⟨a, b, g, samples, average, output, filter⟩ := averaged.filtered
  obtain ⟨orderFlat, earlierFlat⟩ := List.forall_mem_cons.mp flat
  obtain ⟨order, summed, outputs⟩ :=
    SmurfFilter.Flat.filter (counts.flat earlierFlat) record.inputData a b g
  have sums
      : (fun j => sumOf (window earlier) j + (record.inputData j).toInt)
        = sumOf (record :: window earlier) := by
    funext j
    simp only [sumOf, channelData, List.map_cons, List.sum_cons]
    omega
  rw [sums] at summed
  rw [orderFlat] at samples average filter
  refine ⟨samples ▸ summed.counted, fun j => ?_, fun continues => ?_⟩
  · rw [average, outputs, samples, ← sums]
  · have clear : record.clearBit = false ∧ record.cnt = 0 := by
      simpa [Record.ends, and_comm] using continues
    simp only [clear, if_true, Bool.false_eq_true, if_false] at filter
    rw [filter, SmurfFilter.flatStart_withOutput, SmurfFilter.flatStart_of_flat order]
    exact summed.withOutput output

/-- A window grows by one frame or starts anew. -/
theorem counts (averaged : Averaged before record after)
    (counts : Trace.Counts (before, earlier))
    : Trace.Counts (after, record :: earlier) := by
  have counter := averaged.counter
  have increment := averaged.counter_succ counts
  cases ended : record.ends with
  | true =>
      have window := Record.window_cons_ends ended earlier
      refine ⟨?_, fun _ => ?_⟩
      · dsimp only
        rw [window, counter]
        split
        case isTrue => rfl
        case isFalse clear =>
          have emitted : record.cnt ≠ 0 := by
            simpa [Record.ends, clear] using ended
          rcases averaged.control_cases with ⟨-, restarted⟩ | ⟨silent, -⟩
          · rw [restarted]
            rfl
          · exact absurd silent emitted
      · dsimp only
        rw [window]
        exact averaged.flatStart_ends ended
  | false =>
      have window := Record.window_cons_continues ended earlier
      have open_ : record.clearBit = false ∧ record.cnt = 0 := by
        simpa [Record.ends, and_comm] using ended
      refine ⟨?_, fun flat => ?_⟩
      · dsimp only
        rw [window, counter, open_.1, if_neg Bool.false_ne_true, List.length_cons]
        rcases averaged.control_cases with ⟨wrapped, restarted⟩ | ⟨-, counted⟩
        · -- the counter has come round to 0 without ending the average
          rw [← wrapped, open_.2, show (0 : UInt32).toNat = 0 from rfl] at increment
          rw [restarted, ← increment]
          rfl
        · rw [counted, increment]
      · dsimp only at flat ⊢
        rw [window] at flat ⊢
        exact (averaged.flat_frame counts flat).2.2 ended

/-- The mean of a window, from the filter's sums. -/
theorem mean (averaged : Averaged before record after)
    (counts : Trace.Counts (before, earlier))
    : record.MeanOfWindow earlier := by
  intro emitted bounded
  have increment := averaged.counter_succ counts
  rw [List.length_cons] at bounded
  have counted : record.cnt.toNat = (record :: window earlier).length := by
    rcases averaged.control_cases with ⟨reached, -⟩ | ⟨silent, -⟩
    · rw [reached, increment, List.length_cons, Nat.mod_eq_of_lt bounded]
    · exact absurd silent emitted
  refine ⟨counted, fun flat => ?_⟩
  obtain ⟨samples, average, -⟩ := averaged.flat_frame counts flat
  have agrees : record.samplesSinceClear.toNat = record.cnt.toNat := by
    rw [samples, counted, List.length_cons, Nat.mod_eq_of_lt bounded]
  refine ⟨UInt32.toNat_inj.mp agrees, fun j => ?_⟩
  have values : (channelData (record :: window earlier) j).length = record.cnt.toNat := by
    rw [counted]
    exact List.length_map _
  have nonempty : channelData (record :: window earlier) j ≠ [] := by
    simp [channelData]
  rw [average, agrees, ← values]
  exact toInt_truncate_mean nonempty

end Averaged

namespace Trace

theorem counts_start (host : Host) (configFile : Option (List String))
    (maskFile : Option (List UInt32))
    : (start host configFile maskFile).Counts where
  counter := rfl
  flat _ := SmurfFilter.flat_clearFilter _

/-- In every run of the loop, every frame that ends an average ends it with the number of
frames since the last average ended or was cleared, and with their mean if they were all
averaged flat. Witness: both counters and the sums follow the window in every step.
-/
theorem each_meanOfWindow (host : Host) (configFile : Option (List String))
    (maskFile : Option (List UInt32)) (arrivals : List Arrival)
    : EachEntry Record.MeanOfWindow
        (arrivals.foldl (step host) (start host configFile maskFile)).2 := by
  let Kept (trace : Trace) : Prop := trace.Counts ∧ EachEntry Record.MeanOfWindow trace.2
  have keep : ∀ trace arrival, Kept trace → Kept (step host trace arrival) := by
    rintro trace arrival ⟨counts, means⟩
    rcases step_cases host trace arrival with ⟨record, records, averaged⟩ | ⟨same, H, -, F⟩
    · have onward := averaged.counts counts
      rw [← records] at onward
      exact ⟨onward, records ▸ ⟨averaged.mean counts, means⟩⟩
    · refine ⟨⟨?_, ?_⟩, same ▸ means⟩
      · rw [H, same]
        exact counts.counter
      · rw [F, same]
        exact counts.flat
  have each : EachState (step host) Kept (start host configFile maskFile) arrivals :=
    .of_invariant ⟨counts_start host configFile maskFile, trivial⟩ keep arrivals
  exact each.final.2

end Trace

end Smurf
