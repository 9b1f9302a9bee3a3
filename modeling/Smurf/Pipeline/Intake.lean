import Smurf.Library.Selections
import Smurf.Pipeline.Flow

/-! The reported counters against the intake. While the frames that are offered carry
consecutive counters, the loop counts as lost exactly those that `acceptFrame` left out.
-/

namespace Smurf

open Runs
open Selections (skipped skipped_append skipped_mono getElem?_of_filter)

namespace Pipeline

/-- The counter of a frame that is offered continues those offered before; the counters
begin with `first` and do not wrap.
-/
def Consecutive (first : Nat) (pipeline : Pipeline) : Event → Prop
  | .acceptFrame offered _ =>
      offered.frame.HasCounter
      ∧ offered.frame.counter.toNat = first + pipeline.offered.length
  | _ => True

/-- How many frames were left out before the `n`-th one accepted. -/
def leftOut (pipeline : Pipeline) (n : Nat) : Nat :=
  skipped Prod.snd pipeline.offered n

/-- What the counters report: the frames worked off since they were cleared, and the frames
left out between those. The frames left out before the first one accepted are not seen.
-/
structure Reports (pipeline : Pipeline) : Prop where
  received
    : pipeline.processor.counts.frameRxCnt = pipeline.handled.length - pipeline.clearedAt
  lost
    : pipeline.processor.counts.frameLossCnt
      = pipeline.leftOut pipeline.handled.length
        - pipeline.leftOut (max 1 pipeline.clearedAt)
  outOfOrder : pipeline.processor.counts.frameOutOrderCnt = 0

/-- What ties the counters to the frames offered. The loop compares the next frame with the
last one it worked off.
-/
structure Counted (first : Nat) (pipeline : Pipeline) : Prop where
  reports : pipeline.Reports
  clearedAt : pipeline.clearedAt ≤ pipeline.handled.length
  accepted : pipeline.accepted = pipeline.handled.map Arrival.frame ++ pipeline.queue
  offered
    : ∀ k entry,
        pipeline.offered[k]? = some entry
        → entry.1.HasCounter ∧ entry.1.counter.toNat = first + k
  firstFrame : pipeline.processor.counts.firstFrame = decide (pipeline.handled = [])
  frameNumber
    : pipeline.handled ≠ []
      → pipeline.processor.counts.frameNumber.toNat + 1
        = first + pipeline.handled.length + pipeline.leftOut pipeline.handled.length

variable {host : Host} {pipeline : Pipeline} {first : Nat}

theorem counted_start (host : Host) (configFile : Option (List String))
    (maskFile : Option (List UInt32)) (first : Nat)
    : (start host configFile maskFile).Counted first where
  reports := ⟨rfl, rfl, rfl⟩
  clearedAt := Nat.le_refl 0
  accepted := rfl
  offered := by simp [start]
  firstFrame := rfl
  frameNumber := by simp [start]

namespace Counted

/-- The frames worked off are among those accepted. -/
theorem handled_le (counted : pipeline.Counted first)
    : pipeline.handled.length ≤ (pipeline.offered.filter Prod.snd).length := by
  have lengths := congrArg List.length counted.accepted
  rw [Pipeline.accepted, List.length_map, List.length_append, List.length_map] at lengths
  omega

/-- Frames offered later do not change how many were left out before those worked off. -/
theorem leftOut_append (counted : pipeline.Counted first) (later : List (Frame × Bool))
    {n : Nat} (inside : n ≤ pipeline.handled.length)
    : skipped Prod.snd (pipeline.offered ++ later) n = pipeline.leftOut n :=
  skipped_append (inside.trans counted.handled_le) later

/-- A further frame offered is numbered behind those before. -/
theorem acceptFrame (counted : pipeline.Counted first) (offered : Offered) (busy : Bool)
    (consecutive : pipeline.Consecutive first (.acceptFrame offered busy))
    : (pipeline.step host (.acceptFrame offered busy)).Counted first := by
  have lost (entry : Frame × Bool)
      : pipeline.processor.counts.frameLossCnt
        = skipped Prod.snd (pipeline.offered ++ [entry]) pipeline.handled.length
          - skipped Prod.snd (pipeline.offered ++ [entry]) (max 1 pipeline.clearedAt) := by
    have clearedAt := counted.clearedAt
    rw [counted.reports.lost, counted.leftOut_append [entry] (Nat.le_refl _)]
    by_cases none : pipeline.handled = []
    · simp [leftOut, none, skipped]
    · have some := List.length_pos_iff.mpr none
      rw [counted.leftOut_append [entry] (by omega)]
  have numbered (accepted : Bool)
      : ∀ k entry,
          (pipeline.offered ++ [(offered.frame, accepted)])[k]? = some entry
          → entry.1.HasCounter ∧ entry.1.counter.toNat = first + k := by
    intro k entry found
    by_cases before : k < pipeline.offered.length
    · rw [List.getElem?_append_left before] at found
      exact counted.offered k entry found
    · have last := (List.getElem?_eq_some_iff.mp found).1
      rw [List.length_append, List.length_singleton] at last
      obtain rfl : k = pipeline.offered.length := by omega
      rw [List.getElem?_concat_length] at found
      exact Option.some.inj found ▸ consecutive
  have frameNumber (entry : Frame × Bool) (some : pipeline.handled ≠ [])
      : pipeline.processor.counts.frameNumber.toNat + 1
        = first + pipeline.handled.length
          + skipped Prod.snd (pipeline.offered ++ [entry]) pipeline.handled.length := by
    rw [counted.leftOut_append [entry] (Nat.le_refl _)]
    exact counted.frameNumber some
  rw [step]
  by_cases rejected : offered.rejected busy = true
  · rw [if_pos rejected]
    exact { counted with
      reports := ⟨counted.reports.received, lost _, counted.reports.outOfOrder⟩
      accepted := by
        rw [← counted.accepted]
        simp [Pipeline.accepted]
      offered := numbered false
      frameNumber := frameNumber _
    }
  · rw [if_neg rejected]
    exact { counted with
      reports := ⟨counted.reports.received, lost _, counted.reports.outOfOrder⟩
      accepted := by
        rw [← List.append_assoc, ← counted.accepted]
        simp [Pipeline.accepted]
      offered := numbered true
      frameNumber := frameNumber _
    }

/-- The counter of the frame the queue hands on: the frames accepted before it and those left
out come before it.
-/
theorem counter_head (counted : pipeline.Counted first) {frame : Frame} {rest : List Frame}
    (queue : pipeline.queue = frame :: rest)
    : frame.HasCounter
      ∧ frame.counter.toNat
        = first + pipeline.handled.length + pipeline.leftOut (pipeline.handled.length + 1)
      ∧ pipeline.handled.length + 1 ≤ (pipeline.offered.filter Prod.snd).length := by
  have head : pipeline.accepted[pipeline.handled.length]? = some frame := by
    rw [counted.accepted, queue, List.getElem?_append_right (by simp)]
    simp
  rw [Pipeline.accepted, List.getElem?_map, Option.map_eq_some_iff] at head
  obtain ⟨entry, found, rfl⟩ := head
  obtain ⟨has, counter⟩ := counted.offered _ entry (getElem?_of_filter found)
  refine ⟨has, ?_, (List.getElem?_eq_some_iff.mp found).1⟩
  rw [counter, leftOut, Nat.add_assoc]

/-- The counts after the frame that the queue hands on. Between it and the last frame worked
off lie the frames that were left out.
-/
theorem count_head (counted : pipeline.Counted first) {frame : Frame} {rest : List Frame}
    (queue : pipeline.queue = frame :: rest)
    : pipeline.processor.counts.count frame.counter
      = { pipeline.processor.counts with
          frameNumber := frame.counter
          firstFrame := false
          frameRxCnt := pipeline.handled.length + 1 - pipeline.clearedAt
          frameLossCnt :=
            pipeline.leftOut (pipeline.handled.length + 1)
              - pipeline.leftOut (max 1 pipeline.clearedAt) } := by
  obtain ⟨-, counter, -⟩ := counted.counter_head queue
  have received := counted.reports.received
  have lost := counted.reports.lost
  have clearedAt := counted.clearedAt
  by_cases none : pipeline.handled = []
  · have firstFrame : pipeline.processor.counts.firstFrame = true := by
      simp [counted.firstFrame, none]
    have unseen : pipeline.handled.length = 0 := by rw [none, List.length_nil]
    rw [unseen, Nat.le_zero] at clearedAt
    rw [unseen, leftOut, skipped, Nat.zero_sub] at lost
    rw [unseen, Nat.zero_sub] at received
    rw [FrameCounts.count_first _ _ firstFrame, unseen, clearedAt, received]
    simp [lost]
  · have firstFrame : pipeline.processor.counts.firstFrame = false := by
      simp [counted.firstFrame, none]
    have some := List.length_pos_iff.mpr none
    have frameNumber := counted.frameNumber none
    have further : pipeline.leftOut pipeline.handled.length
        ≤ pipeline.leftOut (pipeline.handled.length + 1) :=
      skipped_mono (Nat.le_succ _)
    have before : pipeline.leftOut (max 1 pipeline.clearedAt)
        ≤ pipeline.leftOut pipeline.handled.length :=
      skipped_mono (by omega)
    have later : pipeline.processor.counts.frameNumber.toNat ≤ frame.counter.toNat := by omega
    rw [FrameCounts.count_later _ _ firstFrame later, FrameCounts.delta_toNat _ _ later,
      if_neg (by omega), lost, received]
    congr 1 <;> omega

theorem iterate (counted : pipeline.Counted first) (surroundings : Surroundings)
    : (pipeline.step host (.iterate surroundings)).Counted first := by
  cases publishing : pipeline.publishing with
  | some packet => simpa only [step, publishing] using counted
  | none =>
      cases queue : pipeline.queue with
      | nil => simpa only [step, publishing, queue] using counted
      | cons frame rest =>
          obtain ⟨has, counter, inside⟩ := counted.counter_head queue
          have counts
              : (pipeline.processor.iterate host (surroundings.arrival frame)).1.counts
                = pipeline.processor.counts.count frame.counter := by
            rw [SmurfProcessor.counts_iterate, SmurfProcessor.counterRead_eq _ has]
            rfl
          rw [counted.count_head queue] at counts
          have length
              : (pipeline.handled ++ [surroundings.arrival frame]).length
                = pipeline.handled.length + 1 := by
            simp
          simp only [step, publishing, queue]
          exact {
            reports := by
              constructor
              · rw [counts, length]
              · rw [counts, length]
                rfl
              · rw [counts]
                exact counted.reports.outOfOrder
            clearedAt := by
              rw [length]
              exact counted.clearedAt.trans (Nat.le_succ _)
            accepted := by
              rw [List.map_append, List.append_assoc]
              exact counted.accepted.trans (by rw [queue]; rfl)
            offered := counted.offered
            firstFrame := by simp [counts]
            frameNumber := by
              intro _
              rw [counts, length]
              show frame.counter.toNat + 1 = _ + pipeline.leftOut _
              omega
          }

/-- The counters start over, and the frames worked off later are counted from here. -/
theorem clearFrameCnt (counted : pipeline.Counted first)
    : (pipeline.step host .clearFrameCnt).Counted first := by
  exact { counted with
    reports := by
      refine ⟨(Nat.sub_self _).symm, ?_, rfl⟩
      exact (Nat.sub_eq_zero_of_le (skipped_mono (le_max_right 1 _))).symm
    clearedAt := Nat.le_refl _
  }

/-- The buffer and its readers do not touch the counters. -/
theorem transport (counted : pipeline.Counted first) (publishing : Option Packet)
    (txBuffer : TxBuffer) (writes : List WriteCall)
    : ({ pipeline with publishing, txBuffer, writes }).Counted first :=
  { counted with
    reports := ⟨counted.reports.received, counted.reports.lost, counted.reports.outOfOrder⟩ }

/-- Every step keeps the counters tied to the frames offered, by cases on the step. -/
theorem step (counted : pipeline.Counted first) (event : Event)
    (consecutive : pipeline.Consecutive first event)
    : (pipeline.step host event).Counted first := by
  cases event with
  | acceptFrame offered busy => exact counted.acceptFrame offered busy consecutive
  | iterate surroundings => exact counted.iterate surroundings
  | clearFrameCnt => exact counted.clearFrameCnt
  | getWritePtr | copyPacket | doneWriting =>
      simp only [Pipeline.step]
      split
      · exact counted.transport _ _ _
      · exact counted
  | getReadPtr i | doneReading i | transmit returns => exact counted.transport _ _ _
  | writeFile opened =>
      simp only [Pipeline.step, writeFile]
      split
      · exact counted.transport _ _ _
      · exact counted

end Counted

/-- In every interleaving in which the frames that are offered carry consecutive counters, no
frame is out of order, the received frames are those worked off since the counters were
cleared, and the lost ones are those that were left out in between.
-/
theorem reports_of_consecutive (host : Host) (configFile : Option (List String))
    (maskFile : Option (List UInt32)) (first : Nat) (events : List Event)
    (consecutive
      : EachStep (step host) (Consecutive first) (start host configFile maskFile) events)
    : EachState (step host) Reports (start host configFile maskFile) events :=
  (consecutive.invariant (counted_start host configFile maskFile first)
    (fun _ event counted guarded => counted.step event guarded)).mono
    (fun _ counted => counted.reports)

/-- A frame is left out while the queue is busy, and one because of its flags. -/
theorem reports_with_frames_left_out
    : EachState (step concreteHost) Reports (start concreteHost none none)
        [.acceptFrame ⟨concreteFrame 7 0 [] 8192, 0, 0⟩ false, .iterate concreteSurroundings,
          .acceptFrame ⟨concreteFrame 8 0 [] 8192, 0, 0⟩ true,
          .acceptFrame ⟨concreteFrame 9 0 [] 8192, 0, 0x100⟩ false,
          .acceptFrame ⟨concreteFrame 10 0 [] 8192, 0, 0⟩ false, .clearFrameCnt,
          .iterate concreteSurroundings] :=
  reports_of_consecutive _ _ _ 7 _
    ⟨⟨by decide +kernel, by decide +kernel⟩, trivial, ⟨by decide +kernel, by decide +kernel⟩,
      ⟨by decide +kernel, by decide +kernel⟩, ⟨by decide +kernel, by decide +kernel⟩, trivial,
      trivial, trivial⟩

end Pipeline

end Smurf
