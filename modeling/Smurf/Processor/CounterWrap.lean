import Smurf.Processor.FrameAccounting

/-! Consecutive frame counters.
The counter is compared as a plain 32-bit number, so a run of consecutive counters is seen
without a break only as long as it does not pass the end of the range.
-/

namespace Smurf

open Runs

/-- The frames carry consecutive counters, in 32-bit arithmetic. -/
def Consecutive : UInt32 → List Arrival → Prop
  | _, [] => True
  | counter, arrival :: rest =>
      arrival.frame.HasCounter
      ∧ arrival.frame.counter = counter
      ∧ Consecutive (counter + 1) rest

instance Consecutive.decidable (counter : UInt32) (arrivals : List Arrival)
    : Decidable (Consecutive counter arrivals) :=
  match arrivals with
  | [] => inferInstanceAs (Decidable True)
  | _ :: rest =>
      have := Consecutive.decidable (counter + 1) rest
      inferInstanceAs (Decidable (_ ∧ _ ∧ _))

def Outcome.isAccepted : Outcome → Bool
  | .discarded => false
  | .accepted _ => true

namespace SmurfProcessor

/-- No frame is counted as lost or out of order. -/
def Clean (self : SmurfProcessor) : Prop :=
  self.counts.frameOutOrderCnt = 0 ∧ self.counts.frameLossCnt = 0

/-- Every frame of the run is accepted, and the counters of lost and late frames stay 0. -/
def Seamless (host : Host) (self : SmurfProcessor) (arrivals : List Arrival) : Prop :=
  (∀ outcome ∈ (transduce (iterate host) self arrivals).2, outcome.isAccepted = true)
  ∧ EachState (fun self arrival => (iterate host self arrival).1) Clean self arrivals

/-- Nothing was lost or late so far, and the next counter is due to be `next`. -/
structure Unbroken (processor : SmurfProcessor) (next : Nat) : Prop where
  seen : processor.counts.firstFrame = false
  previous : processor.counts.frameNumber.toNat + 1 = next
  clean : processor.Clean

variable {host : Host} {self : SmurfProcessor} {arrival : Arrival} {arrivals : List Arrival}

theorem seamless_nil (clean : self.Clean) : Seamless host self [] :=
  ⟨fun _ member => absurd member List.not_mem_nil, clean⟩

/-- An accepted frame leaves it to the rest of the run. -/
theorem seamless_cons (clean : self.Clean)
    (inOrder : self.counts.inOrder (self.counterRead arrival) = true)
    : Seamless host self (arrival :: arrivals)
      ↔ Seamless host (self.iterate host arrival).1 arrivals := by
  have accepted : (self.iterate host arrival).2.isAccepted = true := by
    rw [iterate_accepted host self arrival inOrder]
    rfl
  simp only [Seamless, transduce_cons, List.forall_mem_cons, accepted, EachState, clean, true_and]

/-- A discarded frame breaks the run. -/
theorem not_seamless_cons (late : ¬ self.counts.inOrder (self.counterRead arrival) = true)
    : ¬ Seamless host self (arrival :: arrivals) := by
  rintro ⟨accepted, -⟩
  rw [transduce_cons, iterate_discarded host self arrival late] at accepted
  exact absurd (accepted _ (List.mem_cons_self ..)) Bool.noConfusion

/-- A frame with the counter that is due leaves the run unbroken. -/
theorem Unbroken.iterate {next : Nat} (unbroken : self.Unbroken next)
    (due : (self.counterRead arrival).toNat = next)
    : (SmurfProcessor.iterate host self arrival).1.Unbroken (next + 1) := by
  have previous := unbroken.previous
  obtain ⟨inOrder, complete⟩ := unbroken.clean
  have counts := counts_iterate host self arrival
  rw [FrameCounts.count_later _ _ unbroken.seen (by omega)] at counts
  have delta : (self.counterRead arrival - self.counts.frameNumber - 1).toNat = 0 := by
    rw [FrameCounts.delta_toNat _ _ (by omega), if_neg (by omega)]
    omega
  refine ⟨?_, ?_, ?_, ?_⟩
  · rw [counts]
    exact unbroken.seen
  · rw [counts, due]
  · rw [counts]
    exact inOrder
  · rw [counts]
    dsimp only
    omega

/-- An unbroken run stays so exactly as long as it does not pass the end of the counter's
range, by induction on the frames. The counter behind the end is 0, and that frame is late.
-/
theorem Unbroken.seamless_onward {next : Nat} (unbroken : self.Unbroken next)
    (consecutive : Consecutive (UInt32.ofNat next) arrivals)
    : Seamless host self arrivals ↔ arrivals = [] ∨ next + arrivals.length ≤ 2 ^ 32 := by
  induction arrivals generalizing self next with
  | nil => exact iff_of_true (seamless_nil unbroken.clean) (.inl rfl)
  | cons arrival rest ih =>
      obtain ⟨has, counter, later⟩ := consecutive
      have previous := unbroken.previous
      have bounded := self.counts.frameNumber.toNat_lt
      have read : self.counterRead arrival = UInt32.ofNat next :=
        (self.counterRead_eq has).trans counter
      by_cases inside : next < 2 ^ 32
      · have due : (self.counterRead arrival).toNat = next := by
          rw [read, UInt32.toNat_ofNat_of_lt' inside]
        have inOrder : self.counts.inOrder (self.counterRead arrival) = true :=
          (FrameCounts.inOrder_iff _ _).mpr (.inr (by omega))
        have onward : Consecutive (UInt32.ofNat (next + 1)) rest := by
          rw [UInt32.ofNat_add]
          exact later
        rw [seamless_cons unbroken.clean inOrder, ih (unbroken.iterate due) onward]
        simp only [List.length_cons, reduceCtorEq, false_or]
        constructor
        · rintro (rfl | fits)
          · simp only [List.length_nil]
            omega
          · omega
        · exact fun fits => .inr (by omega)
      · have wrapped : (self.counterRead arrival).toNat = 0 := by
          rw [read, UInt32.toNat_ofNat']
          omega
        have late : ¬ self.counts.inOrder (self.counterRead arrival) = true := by
          rw [FrameCounts.inOrder_iff, unbroken.seen]
          rintro (impossible | ordered)
          · cases impossible
          · omega
        refine iff_of_false (not_seamless_cons late) ?_
        simp only [List.length_cons, reduceCtorEq, false_or]
        omega

/-- A run of consecutive counters from the start of the loop on is accepted as a whole,
with no frame lost or out of order, exactly when its counters do not pass the end of their
range.
-/
theorem seamless_iff (configFile : Option (List String)) (maskFile : Option (List UInt32))
    (start : UInt32) (arrivals : List Arrival) (consecutive : Consecutive start arrivals)
    : Seamless host (create host configFile maskFile) arrivals
      ↔ start.toNat + arrivals.length ≤ 2 ^ 32 := by
  have bounded := start.toNat_lt
  cases arrivals with
  | nil =>
      refine iff_of_true (seamless_nil ⟨rfl, rfl⟩) ?_
      simp only [List.length_nil]
      omega
  | cons first rest =>
      obtain ⟨has, counter, later⟩ := consecutive
      have inOrder
          : (create host configFile maskFile).counts.inOrder
              ((create host configFile maskFile).counterRead first)
            = true :=
        rfl
      have unbroken
          : ((create host configFile maskFile).iterate host first).1.Unbroken
              (start.toNat + 1) := by
        have counts := counts_iterate host (create host configFile maskFile) first
        rw [FrameCounts.count_first _ _ rfl, counterRead_eq _ has, counter] at counts
        refine ⟨?_, ?_, ?_, ?_⟩ <;> rw [counts] <;> rfl
      have onward : Consecutive (UInt32.ofNat (start.toNat + 1)) rest := by
        rw [UInt32.ofNat_add, UInt32.ofNat_toNat]
        exact later
      rw [seamless_cons ⟨rfl, rfl⟩ inOrder, unbroken.seamless_onward onward, List.length_cons]
      constructor
      · rintro (rfl | fits)
        · simp only [List.length_nil]
          omega
        · omega
      · exact fun fits => .inr (by omega)

/-- Frames with the counters from `start` on. -/
def countedFrom (start : UInt32) (length : Nat) : List Arrival :=
  (List.range length).map fun i =>
    concreteArrival (concreteFrame (start + UInt32.ofNat i) 0 [] 0)

/-- Two frames before the end of the range pass. -/
theorem seamless_before_end
    : Seamless concreteHost (create concreteHost none none) (countedFrom 0xFFFFFFFE 2) :=
  (seamless_iff none none 0xFFFFFFFE (countedFrom 0xFFFFFFFE 2) (by decide +kernel)).mpr
    (by decide)

/-- The frame with counter 0 after the one with the highest counter is discarded. -/
theorem not_seamless_past_end
    : Consecutive 0xFFFFFFFF (countedFrom 0xFFFFFFFF 2)
      ∧ ¬ Seamless concreteHost (create concreteHost none none) (countedFrom 0xFFFFFFFF 2) := by
  refine ⟨by decide +kernel, ?_⟩
  rintro ⟨accepted, -⟩
  have discarded
      : (transduce (iterate concreteHost) (create concreteHost none none)
            (countedFrom 0xFFFFFFFF 2)).2.all Outcome.isAccepted
        = false := by
    decide +kernel
  exact absurd (List.all_eq_true.mpr accepted) (Bool.eq_false_iff.mp discarded)

end SmurfProcessor

end Smurf
