import Smurf.Processor.BlockMean
import Smurf.Processor.Publishing
import Smurf.Processor.Register

/-! Which frames an average is made of.
When an average ends is decided by the accepted frames alone: their sync words, their clear
bits and the lengths configured. Every accepted frame counts in exactly one average, unless
a clear bit comes before its end.
-/

namespace Smurf

open ByteMemory
open Record (window)
open Runs

-----------------------------------------------------------------------------------------
-- One frame
-----------------------------------------------------------------------------------------

/-- What `average_control` decides for a frame and keeps of it. -/
structure Controlled (before : SmurfProcessor) (syncword : UInt32) (record : Record)
    (after : SmurfProcessor) : Prop where
  cnt
    : record.cnt
      = if if record.numAverages = 0 then syncword ≠ before.H.lastSyncword
          else before.H.averageCounter + 1 = record.numAverages.toUInt32 then
          before.H.averageCounter + 1
        else 0
  lastSyncword : after.H.lastSyncword = syncword

theorem SmurfHeader.averageControl_ends (self : SmurfHeader) (header : Bytes)
    (numAverages : Int32)
    : (self.averageControl header numAverages).1
      = if if numAverages = 0 then getSyncword header ≠ self.lastSyncword
          else self.averageCounter + 1 = numAverages.toUInt32 then
          self.averageCounter + 1
        else 0 := by
  have changed
      : getSyncword header - self.lastSyncword = 0 ↔ getSyncword header = self.lastSyncword := by
    rw [UInt32.sub_eq_iff_eq_add, UInt32.zero_add]
  by_cases external : numAverages = 0
  · simp only [averageControl, external, ne_eq, not_true_eq_false, if_false, if_true, changed]
    split <;> rfl
  · simp only [averageControl, external, ne_eq, not_false_eq_true, if_false, if_true]
    split
    case isTrue reached => exact reached.symm
    case isFalse => rfl

namespace SmurfProcessor

variable (host : Host) (self : SmurfProcessor) (arrival : Arrival)

theorem cnt_accept
    : (self.accept host arrival).1.cnt
      = (self.H.averageControl self.buffer self.C.numAverages).1 := by
  rw [← averageControl_prepare host self arrival]
  obtain ⟨b, T, prepared⟩ := prepare_eq host self arrival
  simp only [accept]
  rw [prepared]
  rfl

/-- The sync word is kept, also when the frame clears. -/
theorem lastSyncword_accept
    : (self.accept host arrival).2.H.lastSyncword = SmurfHeader.getSyncword self.buffer := by
  rw [← SmurfHeader.averageControl_lastSyncword self.H self.buffer self.C.numAverages,
    ← averageControl_prepare host self arrival]
  obtain ⟨b, T, prepared⟩ := prepare_eq host self arrival
  simp only [accept]
  generalize workingIs : (self.prepare host arrival).unwrap.filter = working
  obtain ⟨b, T, V, C, mask, fast, output, eq⟩ :=
    rest_eq host working.average.2.clear arrival working.average.1
  rw [eq, clear_eq, ← workingIs, prepared]
  dsimp only
  split <;> rfl

/-- `average_control` decides by the sync word in the buffer. -/
theorem controlled_accept
    : Controlled self (SmurfHeader.getSyncword self.buffer) (self.accept host arrival).1
        (self.accept host arrival).2 := by
  refine ⟨?_, lastSyncword_accept host self arrival⟩
  rw [(averaged_accept host self arrival).numAverages, cnt_accept,
    SmurfHeader.averageControl_ends]

/-- The sync word read is the frame's own. -/
theorem getSyncword_received (control : arrival.frame.HasControl)
    : SmurfHeader.getSyncword (self.receive arrival.frame).checkOrder.2.buffer
      = arrival.frame.syncword := by
  rw [buffer_received, Frame.syncword, SmurfHeader.getSyncword, SmurfHeader.getSyncword,
    SmurfHeader.getLowField, SmurfHeader.getLowField, pullBitField_frame _ _ control.covers]

end SmurfProcessor

-----------------------------------------------------------------------------------------
-- Averages by the frames accepted
-----------------------------------------------------------------------------------------

namespace Entry

/-- The sync word of the latest frame; `last_syncword` is 0 at first. -/
def lastSync : List Entry → UInt32
  | [] => 0
  | latest :: _ => latest.frame.syncword

/-- The frames since the last average ended or was cleared, and one more, counted in 32 bits.
-/
def counted (earlier : List Entry) : Nat :=
  ((window (earlier.map record)).length + 1) % 2 ^ 32

/-- Without a length, an average ends when the sync word changes; else with the frame that
completes the length.
-/
def EndsAverage (self : Entry) (earlier : List Entry) : Prop :=
  if self.record.numAverages = 0 then self.frame.syncword ≠ lastSync earlier
  else counted earlier = self.record.numAverages.toUInt32.toNat

instance (self : Entry) (earlier : List Entry) : Decidable (self.EndsAverage earlier) :=
  inferInstanceAs
    (Decidable
      (if self.record.numAverages = 0 then self.frame.syncword ≠ lastSync earlier
      else counted earlier = self.record.numAverages.toUInt32.toNat))

/-- `average_control` returns the number of frames where an average ends, else 0. -/
def CountsAverage (self : Entry) (earlier : List Entry) : Prop :=
  self.record.cnt.toNat = if self.EndsAverage earlier then counted earlier else 0

end Entry

/-- A header with a frame counter and a sync word. -/
def syncFrame (counter syncword : UInt8) : Frame where
  segments :=
    [List.replicate 84 0 ++ [counter] ++ List.replicate 11 0 ++ [syncword]
        ++ List.replicate 31 0]

namespace Register

/-- The records alone. -/
def trace (register : Register) : Trace :=
  (register.1, register.2.map Entry.record)

/-- Every entry counts its average, and the counters are those of the frames entered. -/
structure Accounts (register : Register) : Prop where
  counts : register.trace.Counts
  lastSync : register.1.H.lastSyncword = Entry.lastSync register.2
  each : EachEntry Entry.CountsAverage register.2

theorem Accounts.accepted {register : Register} {entry : Entry} {after : SmurfProcessor}
    (accounts : register.Accounts) (averaged : Averaged register.1 entry.record after)
    (controlled : Controlled register.1 entry.frame.syncword entry.record after)
    : Accounts (after, entry :: register.2) := by
  have increment : (register.1.H.averageCounter + 1).toNat = Entry.counted register.2 :=
    averaged.counter_succ accounts.counts
  refine ⟨averaged.counts accounts.counts, controlled.lastSyncword, ?_, accounts.each⟩
  have ends
      : (if entry.record.numAverages = 0 then
            entry.frame.syncword ≠ register.1.H.lastSyncword
          else register.1.H.averageCounter + 1 = entry.record.numAverages.toUInt32)
        ↔ entry.EndsAverage register.2 := by
    rw [Entry.EndsAverage, accounts.lastSync, ← increment, UInt32.toNat_inj]
  rw [Entry.CountsAverage, controlled.cnt]
  simp only [ends]
  split
  case isTrue => exact increment
  case isFalse => rfl

theorem accounts_start (host : Host) (configFile : Option (List String))
    (maskFile : Option (List UInt32))
    : (start host configFile maskFile).Accounts :=
  ⟨Trace.counts_start host configFile maskFile, rfl, trivial⟩

/-- In every run, an average ends where the sync word changes, or the length is reached, and
with the number of frames accepted since the last one ended or was cleared. Witness: the two
counters and the last sync word follow the frames entered in every step.
-/
theorem each_countsAverage (host : Host) (configFile : Option (List String))
    (maskFile : Option (List UInt32)) (arrivals : List Arrival)
    (control : ∀ arrival ∈ arrivals, arrival.frame.HasControl)
    : EachEntry Entry.CountsAverage
        (arrivals.foldl (step host) (start host configFile maskFile)).2 := by
  have each : EachState (step host) Accounts (start host configFile maskFile) arrivals := by
    refine eachState (fun arrival => arrival.frame.HasControl) ?_ ?_
      (accounts_start host configFile maskFile) control
    · intro register arrival accounts _
      exact ⟨⟨accounts.counts.counter, accounts.counts.flat⟩, accounts.lastSync, accounts.each⟩
    · intro register arrival working accounts covered
      have averaged := working.averaged_accept host arrival
      have controlled := working.controlled_accept host arrival
      rw [register.1.getSyncword_received arrival covered] at controlled
      refine accounts.accepted ?_ ⟨controlled.cnt, controlled.lastSyncword⟩
      exact ⟨averaged.numAverages, averaged.filterOrder, averaged.controlled, averaged.counter,
        averaged.filtered⟩
  exact each.final.each

/-- A frame whose sync word is still 0, and one with another sync word. -/
theorem each_countsAverage_two_frames
    : EachEntry Entry.CountsAverage
        ([syncFrame 0 0, syncFrame 1 9].map concreteArrival |>.foldl (step concreteHost)
          (start concreteHost none none)).2 :=
  each_countsAverage concreteHost none none _ (by
    intro arrival member
    obtain ⟨frame, inside, rfl⟩ := List.mem_map.mp member
    simp only [List.mem_cons, List.not_mem_nil, or_false] at inside
    rcases inside with rfl | rfl <;> decide +kernel)

end Register

-----------------------------------------------------------------------------------------
-- Every accepted frame counts once
-----------------------------------------------------------------------------------------

namespace Record

/-- The number of frames whose average was cleared before its end. -/
def forgotten : List Record → Nat
  | [] => 0
  | record :: earlier =>
      (if record.cnt = 0 ∧ record.clearBit then (window earlier).length + 1 else 0)
        + forgotten earlier

/-- The number of frames in the averages that ended, as `average_control` gave it. -/
def averaged (records : List Record) : Nat :=
  (records.map fun record => record.cnt.toNat).sum

/-- The frame ends no average, or one of all frames since the last one. -/
def CountsAll (self : Record) (earlier : List Record) : Prop :=
  self.cnt ≠ 0 → self.cnt.toNat = ((window earlier).length + 1) % 2 ^ 32

/-- By induction on the frames. -/
theorem averaged_add_forgotten {records : List Record} (each : EachEntry CountsAll records)
    (few : records.length < 2 ^ 32)
    : averaged records + forgotten records + (window records).length = records.length := by
  induction records with
  | nil => rfl
  | cons record earlier ih =>
      have shorter : earlier.length < 2 ^ 32 := Nat.lt_of_succ_lt few
      have balanced := ih each.2 shorter
      have inside : (window earlier).length ≤ earlier.length := (List.takeWhile_prefix _).length_le
      have counts := each.1
      rw [CountsAll, Nat.mod_eq_of_lt (by rw [List.length_cons] at few; omega)] at counts
      have sum : averaged (record :: earlier) = record.cnt.toNat + averaged earlier := by
        simp [averaged]
      rw [sum, forgotten, List.length_cons]
      by_cases silent : record.cnt = 0
      · cases clear : record.clearBit with
        | true =>
            rw [window_cons_ends (by simp [ends, clear])]
            simp [silent]
            omega
        | false =>
            rw [window_cons_continues (by simp [ends, silent, clear])]
            simp [silent]
            omega
      · rw [window_cons_ends (by simp [ends, silent]), counts silent]
        simp [silent]
        omega

end Record

namespace Trace

/-- What follows for an accepted frame from the counters before it holds of every frame. -/
theorem each_of_averaged {Q : Record → List Record → Prop}
    (gives
      : ∀ {before after record earlier},
          Averaged before record after → Trace.Counts (before, earlier) → Q record earlier)
    (host : Host) (configFile : Option (List String)) (maskFile : Option (List UInt32))
    (arrivals : List Arrival)
    : EachEntry Q (arrivals.foldl (step host) (start host configFile maskFile)).2 := by
  let Kept (trace : Trace) : Prop := trace.Counts ∧ EachEntry Q trace.2
  have keep : ∀ trace arrival, Kept trace → Kept (step host trace arrival) := by
    rintro trace arrival ⟨counts, each⟩
    rcases step_cases host trace arrival with ⟨record, records, averaged⟩ | ⟨same, H, -, F⟩
    · have onward := averaged.counts counts
      rw [← records] at onward
      exact ⟨onward, records ▸ ⟨gives averaged counts, each⟩⟩
    · refine ⟨⟨?_, ?_⟩, same ▸ each⟩
      · rw [H, same]
        exact counts.counter
      · rw [F, same]
        exact counts.flat
  have each : EachState (step host) Kept (start host configFile maskFile) arrivals :=
    .of_invariant ⟨counts_start host configFile maskFile, trivial⟩ keep arrivals
  exact each.final.2

/-- A run accepts at most the frames it is given, by induction on them. -/
theorem length_records_le (host : Host) (trace : Trace) (arrivals : List Arrival)
    : (arrivals.foldl (step host) trace).2.length ≤ trace.2.length + arrivals.length := by
  induction arrivals generalizing trace with
  | nil => exact Nat.le_refl _
  | cons arrival rest ih =>
      have further := ih (step host trace arrival)
      rw [List.length_cons]
      rcases step_cases host trace arrival with ⟨record, records, -⟩ | ⟨same, -⟩
      · rw [records, List.length_cons] at further
        exact Nat.le_trans further (by omega)
      · rw [same] at further
        exact Nat.le_trans further (by omega)

/-- In every run, every accepted frame counts in exactly one average that ended, was cleared
before its end or is still going on.
-/
theorem averaged_add_forgotten_add_window (host : Host) (configFile : Option (List String))
    (maskFile : Option (List UInt32)) (arrivals : List Arrival)
    (few : arrivals.length < 2 ^ 32)
    : let records := (arrivals.foldl (step host) (start host configFile maskFile)).2
      Record.averaged records + Record.forgotten records + (window records).length
      = records.length := by
  intro records
  have each : EachEntry Record.CountsAll records := by
    refine each_of_averaged (fun averaged counts emitted => ?_) host configFile maskFile arrivals
    rcases averaged.control_cases with ⟨reached, -⟩ | ⟨silent, -⟩
    · rw [reached, averaged.counter_succ counts]
    · exact absurd silent emitted
  have accepted := length_records_le host (start host configFile maskFile) arrivals
  refine Record.averaged_add_forgotten each (Nat.lt_of_le_of_lt accepted ?_)
  rwa [start, List.length_nil, Nat.zero_add]

/-- Three frames are averaged in pairs; the last one is still to be completed. -/
theorem averaged_add_forgotten_add_window_three_frames
    : let records :=
        ([0, 1, 2].map (fun counter => concreteArrival (syncFrame counter 0)) |>.foldl
          (step concreteHost) (start concreteHost (some ["num_averages", "2"]) none)).2
      Record.averaged records + Record.forgotten records + (window records).length
      = records.length :=
  averaged_add_forgotten_add_window concreteHost (some ["num_averages", "2"]) none _ (by decide)

end Trace

end Smurf
