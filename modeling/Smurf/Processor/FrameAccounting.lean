import Smurf.Library.Runs
import Smurf.Library.SequenceGaps
import Smurf.Processor.Stages

/-! The frame counters against the frames.
Each frame is compared with the frame before it, discarded or not, so the lost frames are
counted right only while every accepted counter follows on the highest one.
-/

namespace Smurf

open SequenceGaps (gaps gaps_empty gaps_singleton highest)
open Runs

/-- What the counters are to agree with: the number of frames, the first counter accepted
and the set of all counters accepted.
-/
structure Ledger where
  frames : Nat
  first : Nat
  accepted : Finset Nat

namespace Ledger

def empty : Ledger where
  frames := 0
  first := 0
  accepted := ∅

/-- Enter a frame with its counter. -/
def enter (self : Ledger) (counter : UInt32) : Outcome → Ledger
  | .discarded => { self with frames := self.frames + 1 }
  | .accepted _ =>
      { frames := self.frames + 1
        first := if self.accepted = ∅ then counter.toNat else self.first
        accepted := insert counter.toNat self.accepted }

end Ledger

/-- The processor beside the ledger of its frames. -/
abbrev Audit := SmurfProcessor × Ledger

namespace Audit

/-- One iteration, entered in the ledger. -/
def step (host : Host) (audit : Audit) (arrival : Arrival) : Audit :=
  let (next, outcome) := audit.1.iterate host arrival
  (next, audit.2.enter (audit.1.counterRead arrival) outcome)

/-- Every frame is counted as received or as out of order, and the lost frames are the gaps
in the accepted counters.
-/
def Accounts (audit : Audit) : Prop :=
  audit.1.counts.frameRxCnt + audit.1.counts.frameOutOrderCnt = audit.2.frames
  ∧ audit.1.counts.frameLossCnt = gaps audit.2.first audit.2.accepted

instance (audit : Audit) : Decidable audit.Accounts :=
  inferInstanceAs (Decidable (_ ∧ _))

/-- The next counter belongs to the first frame or to a late one, or it passes the highest one
directly after the frame that holds it, or it continues the frame before without closing a
gap.
-/
def Follows (audit : Audit) (arrival : Arrival) : Prop :=
  let counter := (audit.1.counterRead arrival).toNat
  let previous := audit.1.counts.frameNumber.toNat
  audit.1.counts.firstFrame = true
  ∨ counter < previous
  ∨ (highest audit.2.accepted < counter ∧ previous = highest audit.2.accepted)
  ∨ (counter = previous + 1
      ∧ counter ≤ highest audit.2.accepted
      ∧ (counter ∈ audit.2.accepted ∨ counter ≤ audit.2.first))

/-- What holds while the counters agree with the ledger: no counter is accepted before the
first frame, and after it no frame is above the highest one accepted.
-/
structure Agrees (audit : Audit) : Prop where
  accounts : audit.Accounts
  unseen : audit.1.counts.firstFrame = true → audit.2.accepted = ∅
  member : audit.1.counts.firstFrame = false → audit.2.first ∈ audit.2.accepted
  below
    : audit.1.counts.firstFrame = false
      → audit.1.counts.frameNumber.toNat ≤ highest audit.2.accepted

variable (host : Host) {audit : Audit} {arrival : Arrival}

theorem step_late (first : audit.1.counts.firstFrame = false)
    (late : (audit.1.counterRead arrival).toNat < audit.1.counts.frameNumber.toNat)
    : (step host audit arrival).1.counts
          = { audit.1.counts with
              frameNumber := audit.1.counterRead arrival
              frameOutOrderCnt := audit.1.counts.frameOutOrderCnt + 1 }
        ∧ (step host audit arrival).2 = { audit.2 with frames := audit.2.frames + 1 } := by
  have discarded : ¬ audit.1.counts.inOrder (audit.1.counterRead arrival) := by
    rw [FrameCounts.inOrder_iff, first]
    rintro (impossible | later)
    · cases impossible
    · omega
  constructor
  · rw [← FrameCounts.count_late _ _ first late]
    exact SmurfProcessor.counts_iterate host audit.1 arrival
  · simp only [step, SmurfProcessor.iterate_discarded host audit.1 arrival discarded, Ledger.enter]

theorem step_accepted (inOrder : audit.1.counts.inOrder (audit.1.counterRead arrival) = true)
    : (step host audit arrival).1.counts
          = audit.1.counts.count (audit.1.counterRead arrival)
        ∧ (step host audit arrival).2
          = { frames := audit.2.frames + 1
              first :=
                if audit.2.accepted = ∅ then (audit.1.counterRead arrival).toNat
                else audit.2.first
              accepted := insert (audit.1.counterRead arrival).toNat audit.2.accepted } := by
  constructor
  · exact SmurfProcessor.counts_iterate host audit.1 arrival
  · simp only [step, SmurfProcessor.iterate_accepted host audit.1 arrival inOrder, Ledger.enter]

/-- The counters after an accepted frame that is not the first. -/
theorem Agrees.step_later (agrees : audit.Agrees)
    (first : audit.1.counts.firstFrame = false)
    (later : audit.1.counts.frameNumber.toNat ≤ (audit.1.counterRead arrival).toNat)
    : (step host audit arrival).1.counts
          = { audit.1.counts with
              frameNumber := audit.1.counterRead arrival
              frameLossCnt :=
                audit.1.counts.frameLossCnt
                + (audit.1.counterRead arrival - audit.1.counts.frameNumber - 1).toNat
              frameRxCnt := audit.1.counts.frameRxCnt + 1 }
        ∧ (step host audit arrival).2
          = { audit.2 with
              frames := audit.2.frames + 1
              accepted := insert (audit.1.counterRead arrival).toNat audit.2.accepted } := by
  have inOrder := (FrameCounts.inOrder_iff _ _).mpr (.inr later)
  obtain ⟨counts, ledger⟩ := step_accepted host inOrder
  have nonempty : audit.2.accepted ≠ ∅ := Finset.ne_empty_of_mem (agrees.member first)
  rw [if_neg nonempty] at ledger
  exact ⟨counts.trans (FrameCounts.count_later _ _ first later), ledger⟩

/-- An accepted frame that is not the first keeps the account exactly when its counter
follows. Witness: above the highest counter the gaps grow by what lies between, up to it
they can only shrink, while the loss counter grows by what lies behind the frame before.
-/
theorem Agrees.accounts_later (agrees : audit.Agrees)
    (first : audit.1.counts.firstFrame = false)
    (later : audit.1.counts.frameNumber.toNat ≤ (audit.1.counterRead arrival).toNat)
    : (step host audit arrival).Accounts ↔ audit.Follows arrival := by
  obtain ⟨counts, ledger⟩ := agrees.step_later host first later
  have delta := FrameCounts.delta_toNat _ _ later
  obtain ⟨received, lost⟩ := agrees.accounts
  have bounded := (audit.1.counterRead arrival).toNat_lt
  have lossIff
      : (step host audit arrival).Accounts
        ↔ gaps audit.2.first (insert (audit.1.counterRead arrival).toNat audit.2.accepted)
          = gaps audit.2.first audit.2.accepted
            + (audit.1.counterRead arrival - audit.1.counts.frameNumber - 1).toNat := by
    simp only [Accounts, counts, ledger, lost]
    omega
  rw [lossIff, delta]
  simp only [Follows, first, Bool.false_eq_true, false_or, Nat.not_lt.mpr later]
  by_cases repeated
    : (audit.1.counterRead arrival).toNat = audit.1.counts.frameNumber.toNat
  · -- a repeated counter adds more than any gap can hold
    have within : (audit.1.counterRead arrival).toNat ≤ highest audit.2.accepted := by
      rw [repeated]
      exact agrees.below first
    have shrinks
        : gaps audit.2.first (insert (audit.1.counterRead arrival).toNat audit.2.accepted)
          ≤ gaps audit.2.first audit.2.accepted :=
      SequenceGaps.gaps_insert_le within
    rw [if_pos repeated]
    omega
  · rw [if_neg repeated]
    exact SequenceGaps.gaps_insert_eq_iff (agrees.member first) (agrees.below first)
      (by omega)

/-- In every case the account stays right exactly when the counter follows. -/
theorem Agrees.accounts_step (agrees : audit.Agrees)
    : (step host audit arrival).Accounts ↔ audit.Follows arrival := by
  obtain ⟨received, lost⟩ := agrees.accounts
  cases first : audit.1.counts.firstFrame with
  | true =>
      obtain ⟨counts, ledger⟩ :=
        step_accepted host ((FrameCounts.inOrder_iff _ (audit.1.counterRead arrival)).mpr
          (.inl first))
      have none := agrees.unseen first
      simp only [none, gaps_empty] at lost
      refine iff_of_true ?_ (.inl first)
      simp only [Accounts, counts, ledger, FrameCounts.count_first _ _ first, none, if_true,
        insert_empty_eq, gaps_singleton]
      omega
  | false =>
      by_cases late : (audit.1.counterRead arrival).toNat < audit.1.counts.frameNumber.toNat
      · obtain ⟨counts, ledger⟩ := step_late host first late
        refine iff_of_true ?_ (.inr (.inl late))
        simp only [Accounts, counts, ledger]
        omega
      · exact agrees.accounts_later host first (by omega)

/-- What else holds beside the account is kept by every step. -/
theorem Agrees.step (agrees : audit.Agrees) (accounts : (Audit.step host audit arrival).Accounts)
    : (Audit.step host audit arrival).Agrees := by
  have counts
      : (Audit.step host audit arrival).1.counts
        = audit.1.counts.count (audit.1.counterRead arrival) :=
    SmurfProcessor.counts_iterate host audit.1 arrival
  have seen : (Audit.step host audit arrival).1.counts.firstFrame = false := by
    rw [counts, FrameCounts.count_firstFrame]
  have unseen
      : (Audit.step host audit arrival).1.counts.firstFrame = true
        → (Audit.step host audit arrival).2.accepted = ∅ :=
    fun first => absurd (first.symm.trans seen) Bool.noConfusion
  by_cases inOrder : audit.1.counts.inOrder (audit.1.counterRead arrival) = true
  · have ledger := (step_accepted host inOrder).2
    refine ⟨accounts, unseen, fun _ => ?_, fun _ => ?_⟩
    · rw [ledger]
      dsimp only
      split
      case isTrue => exact Finset.mem_insert_self _ _
      case isFalse nonempty =>
        have later := Bool.eq_false_iff.mpr (mt agrees.unseen nonempty)
        exact Finset.mem_insert_of_mem (agrees.member later)
    · rw [ledger, counts, FrameCounts.count_frameNumber]
      exact SequenceGaps.le_highest (Finset.mem_insert_self _ _)
  · obtain ⟨later, late⟩ := not_or.mp (mt (FrameCounts.inOrder_iff _ _).mpr inOrder)
    have first := Bool.eq_false_iff.mpr later
    have ledger := (step_late host first (Nat.not_le.mp late)).2
    have below := agrees.below first
    refine ⟨accounts, unseen, fun _ => ?_, fun _ => ?_⟩
    · rw [ledger]
      exact agrees.member first
    · rw [ledger, counts, FrameCounts.count_frameNumber]
      dsimp only
      omega

theorem agrees_create (host : Host) (configFile : Option (List String))
    (maskFile : Option (List UInt32))
    : Agrees (SmurfProcessor.create host configFile maskFile, Ledger.empty) where
  accounts := ⟨rfl, (gaps_empty 0).symm⟩
  unseen _ := rfl
  member first := absurd first Bool.noConfusion
  below first := absurd first Bool.noConfusion

/-- In every run of the loop, the counters agree with the frames after every iteration
exactly when every counter follows the ones before it. Witness: while they agree, one more
frame keeps them so exactly when its counter follows.
-/
theorem accounts_iff_follows (configFile : Option (List String))
    (maskFile : Option (List UInt32)) (arrivals : List Arrival)
    : EachState (step host) Accounts
          (SmurfProcessor.create host configFile maskFile, Ledger.empty) arrivals
      ↔ EachStep (step host) Follows
          (SmurfProcessor.create host configFile maskFile, Ledger.empty) arrivals :=
  eachState_iff_eachStep (agrees_create host configFile maskFile) (fun _ agrees => agrees.accounts)
    (fun _ _ agrees follows => agrees.step host ((agrees.accounts_step host).mpr follows))
    (fun _ _ agrees breaks => mt (agrees.accounts_step host).mp breaks)

/-- A late frame between counters 10 and 11 makes the loop count five lost frames, although
no counter is missing.
-/
theorem not_accounts_late_frame
    : ¬ Accounts
        (([10, 5, 11].map fun counter =>
            concreteArrival (concreteFrame counter 0 [] 0)).foldl (step concreteHost)
          (SmurfProcessor.create concreteHost none none, Ledger.empty)) := by
  decide +kernel

end Audit

end Smurf
