import Smurf.Processor.Averaging

/-! Local averaging, with a configured length.
An average ends when its counter equals the length. The counter only stays below the length
if no change of the length overtakes it.
-/

namespace Smurf

open Runs

/-- The counter of `average_control` that a history of accepted frames leaves. -/
def counterAfter : List Record → UInt32
  | [] => 0
  | latest :: _ => if latest.clearBit then 0 else latest.averageCounter

namespace Record

/-- The configured length, when it is positive. -/
def length (self : Record) : Nat :=
  self.numAverages.toInt.toNat

/-- With a length configured, the frame finds the counter below it, and either ends the
average or leaves the counter one higher and still below it.
-/
def CountsLocally (self : Record) (earlier : List Record) : Prop :=
  0 < self.numAverages.toInt
  → (counterAfter earlier).toNat < self.length
    ∧ ((self.cnt = self.numAverages.toUInt32 ∧ self.averageCounter = 0)
      ∨ (self.cnt = 0
        ∧ self.averageCounter.toNat = (counterAfter earlier).toNat + 1
        ∧ self.averageCounter.toNat < self.length))

/-- The counter that such a frame leaves is below the length. -/
theorem CountsLocally.below {record : Record} {earlier : List Record}
    (counts : record.CountsLocally earlier) (set : 0 < record.numAverages.toInt)
    : record.averageCounter.toNat < record.length := by
  obtain ⟨inside, ⟨-, restarted⟩ | ⟨-, -, below⟩⟩ := counts set
  · rw [restarted]
    exact Nat.zero_lt_of_lt inside
  · exact below

end Record

/-- An accepted frame that finds the counter below the configured length counts locally. -/
theorem Averaged.countsLocally {before after : SmurfProcessor} {record : Record}
    {earlier : List Record} (averaged : Averaged before record after)
    (counter : before.H.averageCounter = counterAfter earlier)
    (inside : 0 < record.numAverages.toInt → (counterAfter earlier).toNat < record.length)
    : record.CountsLocally earlier := by
  intro set
  have less := inside set
  have length : record.numAverages.toUInt32.toNat = record.length :=
    toNat_toUInt32_of_pos set
  have bounded := record.numAverages.toInt_lt
  have within : record.length = record.numAverages.toInt.toNat := rfl
  have nonzero : record.numAverages ≠ 0 := by
    intro zero
    rw [zero] at set
    exact absurd set (by decide)
  obtain ⟨header, controlled⟩ := averaged.controlled
  obtain ⟨cnt, left⟩ := Prod.mk.inj controlled
  have increment : (counterAfter earlier + 1).toNat = (counterAfter earlier).toNat + 1 := by
    rw [UInt32.toNat_add, show (1 : UInt32).toNat = 1 from rfl]
    omega
  refine ⟨less, ?_⟩
  rcases before.H.averageControl_local header record.numAverages nonzero with
    ⟨-, reached, restarted⟩ | ⟨short, silent, counted⟩
  · exact .inl ⟨cnt.trans reached, left.trans restarted⟩
  · rw [counter] at short counted
    have next : record.averageCounter.toNat = (counterAfter earlier).toNat + 1 := by
      rw [left, counted, increment]
    have differs : (counterAfter earlier).toNat + 1 ≠ record.length := by
      intro equal
      exact short (UInt32.toNat_inj.mp (by rw [increment, equal, length]))
    exact .inr ⟨cnt.trans silent, next, by omega⟩

/-- A run of frames with the same length and without clear bit, none of which ends an
average, leaves a counter no lower than the number of frames. By induction on the frames.
-/
theorem length_le_counterAfter {n : Int32} (positive : 0 < n.toInt)
    {block before : List Record}
    (each : EachEntry Record.CountsLocally (block ++ before))
    (alike : ∀ record ∈ block, record.numAverages = n ∧ record.clearBit = false)
    (silent : ∀ record ∈ block, record.cnt ≠ n.toUInt32)
    : block.length ≤ (counterAfter (block ++ before)).toNat := by
  induction block with
  | nil => exact Nat.zero_le _
  | cons latest rest ih =>
      obtain ⟨alikeLatest, alikeRest⟩ := List.forall_mem_cons.mp alike
      obtain ⟨silentLatest, silentRest⟩ := List.forall_mem_cons.mp silent
      rw [List.cons_append] at each ⊢
      have shorter := ih each.2 alikeRest silentRest
      obtain ⟨-, ⟨ended, -⟩ | ⟨-, counted, -⟩⟩ := each.1 (alikeLatest.1 ▸ positive)
      · exact absurd (alikeLatest.1 ▸ ended) silentLatest
      · have left : counterAfter (latest :: (rest ++ before)) = latest.averageCounter := by
          rw [counterAfter, alikeLatest.2, if_neg Bool.false_ne_true]
        rw [left, counted, List.length_cons]
        omega

namespace Trace

/-- A length that differs from the one the last frame was averaged with is either not
positive or still above the counter.
-/
def ChangesInTime (trace : Trace) (_ : Arrival) : Prop :=
  ∀ last ∈ trace.2.head?,
    trace.1.C.numAverages ≠ last.numAverages
    → 0 < trace.1.C.numAverages.toInt
    → trace.1.H.averageCounter.toNat < trace.1.C.numAverages.toInt.toNat

instance (trace : Trace) (arrival : Arrival) : Decidable (trace.ChangesInTime arrival) :=
  inferInstanceAs (Decidable (∀ last ∈ trace.2.head?, _ ≠ _ → _ < _ → _ < _))

/-- With a positive length, `average_control` always leaves the counter below it, and of as
many accepted frames in a row with the same length and without a clear bit, one ends an
average of that length.
-/
structure NeverStalls (trace : Trace) : Prop where
  below
    : ∀ record ∈ trace.2,
        0 < record.numAverages.toInt → record.averageCounter.toNat < record.length
  emits
    : ∀ (n : Int32) (after block before : List Record),
        0 < n.toInt
        → trace.2 = after ++ (block ++ before)
        → block.length = n.toInt.toNat
        → (∀ record ∈ block, record.numAverages = n ∧ record.clearBit = false)
        → ∃ record ∈ block, record.cnt = n.toUInt32

/-- What the two follow from. -/
structure CountsLocally (trace : Trace) : Prop where
  counter : trace.1.H.averageCounter = counterAfter trace.2
  each : EachEntry Record.CountsLocally trace.2

theorem CountsLocally.neverStalls {trace : Trace} (counts : trace.CountsLocally)
    : trace.NeverStalls where
  below := counts.each.forall_mem fun _ _ local_ set => local_.below set
  emits := by
    intro n after block before positive split long alike
    by_contra none
    have silent : ∀ record ∈ block, record.cnt ≠ n.toUInt32 :=
      fun record member ended => none ⟨record, member, ended⟩
    have each := (split ▸ counts.each).earlier
    have atLeast := length_le_counterAfter positive each alike silent
    cases block with
    | nil =>
        rw [List.length_nil] at long
        omega
    | cons latest rest =>
        obtain ⟨length, clear⟩ := alike latest List.mem_cons_self
        have below := each.1.below (length ▸ positive)
        rw [List.cons_append, counterAfter, clear, if_neg Bool.false_ne_true, long] at atLeast
        rw [Record.length, length] at below
        omega

theorem CountsLocally.step (host : Host) {trace : Trace} {arrival : Arrival}
    (counts : trace.CountsLocally) (inTime : trace.ChangesInTime arrival)
    : (Trace.step host trace arrival).CountsLocally := by
  rcases step_cases host trace arrival with ⟨record, records, averaged⟩ | ⟨same, H, -, -⟩
  · have inside
        : 0 < record.numAverages.toInt
          → (counterAfter trace.2).toNat < record.length := by
      intro set
      cases history : trace.2 with
      | nil => exact Int.pos_iff_toNat_pos.mp set
      | cons last earlier =>
          have config := averaged.numAverages
          have lastCounts : last.CountsLocally earlier := (history ▸ counts.each).1
          by_cases same : trace.1.C.numAverages = last.numAverages
          · -- the length is still the one the last frame was counted with
            have length := config.trans same
            have below := lastCounts.below (length ▸ set)
            simp only [counterAfter, Record.length, length] at below ⊢
            split
            · exact Nat.zero_lt_of_lt below
            · exact below
          · have overtaken := inTime last (by rw [history]; rfl) same (config ▸ set)
            rw [← history, ← counts.counter, Record.length, config]
            exact overtaken
    refine ⟨?_, ?_⟩
    · rw [records]
      exact averaged.counter
    · rw [records]
      exact ⟨averaged.countsLocally counts.counter inside, counts.each⟩
  · refine ⟨?_, same ▸ counts.each⟩
    rw [H, same]
    exact counts.counter

/-- In every run in which the configured length changes in time, local averaging never
stalls. Witness: while the counter is below the length, one more frame ends the average or
leaves the counter below it.
-/
theorem neverStalls_of_changesInTime (host : Host) (configFile : Option (List String))
    (maskFile : Option (List UInt32)) (arrivals : List Arrival)
    (inTime : EachStep (step host) ChangesInTime (start host configFile maskFile) arrivals)
    : EachState (step host) NeverStalls (start host configFile maskFile) arrivals := by
  have first : CountsLocally (start host configFile maskFile) := ⟨rfl, trivial⟩
  have each : EachState (step host) CountsLocally (start host configFile maskFile) arrivals :=
    inTime.invariant first (fun _ _ counts guard => counts.step host guard)
  exact each.mono fun _ counts => counts.neverStalls

/-- A frame that makes the loop read a new length, and two more frames. -/
def lengthChange (length : String) : List Arrival :=
  { concreteArrival (concreteFrame 0 8 [] 0) with
    configFile := some ["num_averages", length] }
  :: [1, 2].map fun counter => concreteArrival (concreteFrame counter 0 [] 0)

/-- A length raised from 1 to 2 does not stall. -/
theorem neverStalls_raised
    : NeverStalls
        ((lengthChange "2").foldl (step concreteHost)
          (start concreteHost (some ["num_averages", "1"]) none)) :=
  (neverStalls_of_changesInTime concreteHost (some ["num_averages", "1"]) none
    (lengthChange "2") (by decide +kernel)).final

/-- A length lowered from 3 to 1 after one frame is overtaken: the counter passes it without
meeting it.
-/
theorem not_neverStalls_lowered
    : ¬ NeverStalls
        ((lengthChange "1").foldl (step concreteHost)
          (start concreteHost (some ["num_averages", "3"]) none)) := by
  intro stalls
  have overtaken
      : ((lengthChange "1").foldl (step concreteHost)
            (start concreteHost (some ["num_averages", "3"]) none)).2.all
          (fun record =>
            0 < record.numAverages.toInt → record.averageCounter.toNat < record.length)
        = false := by
    decide +kernel
  have below := List.all_eq_true.mpr fun record member =>
    decide_eq_true (stalls.below record member)
  exact Bool.false_ne_true (overtaken.symm.trans below)

end Trace

end Smurf
