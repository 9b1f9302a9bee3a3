import Smurf.Pipeline.Basic

/-! The counters that are reported steer nothing: no stage of an iteration looks at them, and
clearing them changes neither what becomes of a frame nor what is left behind.
-/

namespace Smurf

namespace FrameCounts

/-- Counters that agree but for what is reported. -/
def SameLoop (self other : FrameCounts) : Prop :=
  self.clear = other.clear

variable {self other : FrameCounts}

/-- Whether a frame is in order is up to the loop's own variables. -/
theorem SameLoop.inOrder (same : self.SameLoop other) (frameNumber : UInt32)
    : self.inOrder frameNumber = other.inOrder frameNumber := by
  have cleared : self.clear = other.clear := same
  have first : self.firstFrame = other.firstFrame :=
    congrArg (fun counts => counts.firstFrame) cleared
  have number : self.frameNumber = other.frameNumber :=
    congrArg (fun counts => counts.frameNumber) cleared
  rw [FrameCounts.inOrder, FrameCounts.inOrder, first, number]

/-- Counting a frame keeps the loop's own variables equal. By cases on the first frame. -/
theorem SameLoop.count (same : self.SameLoop other) (frameNumber : UInt32)
    : (self.count frameNumber).SameLoop (other.count frameNumber) := by
  have counted (counts : FrameCounts)
      : (counts.count frameNumber).clear
        = { counts.clear with frameNumber, firstFrame := false } := by
    rw [FrameCounts.count]
    cases first : counts.firstFrame with
    | true => simp [clear]
    | false =>
        simp only [Bool.false_eq_true, if_false]
        split <;> simp [clear, first]
  rw [SameLoop, counted, counted, same]

end FrameCounts

namespace SmurfProcessor

variable (host : Host) (self : SmurfProcessor) (arrival : Arrival) (counts : FrameCounts)

/-- The processor with other counts. -/
def withCounts : SmurfProcessor :=
  { self with counts }

@[simp] theorem counts_withCounts : (self.withCounts counts).counts = counts := rfl

@[simp] theorem C_withCounts : (self.withCounts counts).C = self.C := rfl

@[simp] theorem buffer_withCounts : (self.withCounts counts).buffer = self.buffer := rfl

/-- Filling in the TES bias and the test data looks at the buffer and the generator only. -/
theorem prepare_withCounts
    : (self.withCounts counts).prepare host arrival
      = (self.prepare host arrival).withCounts counts := by
  unfold prepare insertTestData
  by_cases testing : SmurfHeader.getTestMode (self.putTesBias arrival).buffer ≠ 0
  · rw [if_pos testing]
    exact if_pos testing
  · rw [if_neg testing]
    exact if_neg testing

/-- The clear bit is in the buffer. -/
theorem clear_withCounts : (self.withCounts counts).clear = self.clear.withCounts counts := by
  unfold clear
  by_cases bit : SmurfHeader.getClearBit self.buffer = true
  · rw [if_pos bit]
    exact if_pos bit
  · rw [if_neg bit]
    exact if_neg bit

/-- Rereading the files depends on the bit in the buffer and on a counter of its own. -/
theorem reread_withCounts
    : (self.withCounts counts).reread host arrival
      = (self.reread host arrival).withCounts counts := by
  have fast : (self.withCounts counts).fastInternalCounter = self.fastInternalCounter := rfl
  simp only [reread, buffer_withCounts, fast]
  split
  · split <;> rfl
  · rfl

/-- Test data for the packet comes from the buffer and the generator. -/
theorem insertTestAverages_withCounts
    : (self.withCounts counts).insertTestAverages
      = self.insertTestAverages.withCounts counts := by
  have averages : (self.withCounts counts).testAverages = self.testAverages := rfl
  simp only [insertTestAverages, buffer_withCounts, averages]
  split <;> rfl

theorem checkClocks_withCounts
    : (self.withCounts counts).checkClocks arrival
      = (self.checkClocks arrival).withCounts counts := by
  have clocks : (self.withCounts counts).V = self.V := rfl
  have same (V : SmurfValidCheck)
      : { self.withCounts counts with V }
        = ({ self with V } : SmurfProcessor).withCounts counts :=
    rfl
  unfold checkClocks
  rw [buffer_withCounts, clocks]
  exact same _

theorem stamp_withCounts : (self.withCounts counts).stamp = self.stamp.withCounts counts := by
  have clocks : (self.withCounts counts).V = self.V := rfl
  simp only [stamp, buffer_withCounts, clocks]
  generalize SmurfHeader.setNumChannels _ _ = bytes
  rfl

/-- What is done when an average ends is made of the steps above. -/
theorem finish_withCounts
    : (self.withCounts counts).finish arrival = (self.finish arrival).withCounts counts := by
  have ends : (self.withCounts counts).endRun = self.endRun.withCounts counts := rfl
  rw [finish, finish, ends, insertTestAverages_withCounts, checkClocks_withCounts,
    stamp_withCounts]

theorem publish_withCounts : (self.withCounts counts).publish = self.publish := rfl

/-- An accepted frame is worked on without the counts. Witness: each stage leaves them apart. -/
theorem accept_withCounts
    : (self.withCounts counts).accept host arrival
      = ((self.accept host arrival).1, (self.accept host arrival).2.withCounts counts) := by
  simp only [accept]
  rw [prepare_withCounts]
  generalize self.prepare host arrival = ready
  have cnt
      : (ready.withCounts counts).unwrap.filter.average.1
        = ready.unwrap.filter.average.1 :=
    rfl
  have averaged
      : (ready.withCounts counts).unwrap.filter.average.2
        = ready.unwrap.filter.average.2.withCounts counts :=
    rfl
  have next (ends : Prop) [Decidable ends] (one other : SmurfProcessor)
      : (if ends then one.withCounts counts else other.withCounts counts)
        = (if ends then one else other).withCounts counts :=
    (apply_ite (withCounts · counts) ends one other).symm
  rw [averaged, cnt, clear_withCounts, reread_withCounts, finish_withCounts, next,
    publish_withCounts]
  rfl

/-- Other counts lead to the same outcome when the loop's own variables agree, and stay
apart from the rest.
-/
theorem iterate_withCounts {counts : FrameCounts} (same : counts.SameLoop self.counts)
    : (self.withCounts counts).iterate host arrival
      = ((self.iterate host arrival).1.withCounts (counts.count (self.counterRead arrival)),
          (self.iterate host arrival).2) := by
  have read : (self.withCounts counts).counterRead arrival = self.counterRead arrival := rfl
  have received
      : ((self.withCounts counts).receive arrival.frame).checkOrder.2
        = (self.receive arrival.frame).checkOrder.2.withCounts
            (counts.count (self.counterRead arrival)) :=
    rfl
  have order := same.inOrder (self.counterRead arrival)
  by_cases inOrder : self.counts.inOrder (self.counterRead arrival) = true
  · have inOrder' : (self.withCounts counts).counts.inOrder
        ((self.withCounts counts).counterRead arrival) = true := order.trans inOrder
    rw [iterate_accepted host _ arrival inOrder', iterate_accepted host self arrival inOrder,
      received, accept_withCounts]
  · have late : ¬ (self.withCounts counts).counts.inOrder
        ((self.withCounts counts).counterRead arrival) = true := by
      rw [counts_withCounts, read, order]
      exact inOrder
    rw [iterate_discarded host _ arrival late, iterate_discarded host self arrival inOrder,
      received]

end SmurfProcessor

end Smurf
