import Smurf.Processor.FrameLoop

/-! What the stages of an iteration read and leave unchanged. -/

namespace Smurf

open ByteMemory

-----------------------------------------------------------------------------------------
-- Copied frames
-----------------------------------------------------------------------------------------

/-- Copying the segments is copying the frame's bytes, by induction on the segments. -/
theorem frameToBuffer_eq (frame : Frame) (buffer : Bytes)
    : frameToBuffer frame buffer = copyTo buffer 0 frame.bytes := by
  suffices general
    : ∀ (segments : List (List UInt8)) (memory : Bytes) (dst : Nat),
        (segments.foldl copySegment (memory, dst)).1 = copyTo memory dst segments.flatten by
    exact general frame.segments buffer 0
  intro segments
  induction segments with
  | nil => exact fun memory dst => (copyTo_nil memory dst).symm
  | cons segment rest ih =>
      intro memory dst
      rw [List.foldl_cons, copySegment, ih, List.flatten_cons, copyTo_append]

/-- The bytes of a frame do not depend on the buffer it is copied to. -/
theorem frameToBuffer_of_lt (frame : Frame) (buffer other : Bytes) {address : Nat}
    (inside : address < frame.bytes.length)
    : frameToBuffer frame buffer address = frameToBuffer frame other address := by
  rw [frameToBuffer_eq, frameToBuffer_eq, copyTo_of_lt _ (Nat.zero_le _) inside,
    copyTo_of_lt _ (Nat.zero_le _) inside]

/-- The frame alone, in an empty buffer. -/
def Frame.image (frame : Frame) : Bytes :=
  frameToBuffer frame fun _ => 0

/-- A frame long enough for a field has its own value of it. -/
theorem pullBitField_frame (frame : Frame) (buffer : Bytes) {field : HeaderField}
    (covered : field.offset + field.width ≤ frame.bytes.length)
    : pullBitField (frameToBuffer frame buffer) field = pullBitField frame.image field := by
  have same
      : word (frameToBuffer frame buffer) field.offset field.width
        = word frame.image field.offset field.width :=
    word_congr (fun k less => frameToBuffer_of_lt frame buffer _ (by omega))
  rw [pullBitField, pullBitField, same]

/-- A full frame has all its samples. -/
theorem sample_frame {frame : Frame} (full : frame.Full) (buffer : Bytes) {i : Nat}
    (raw : i < smurfRawSamples)
    : sample (frameToBuffer frame buffer) i = sample frame.image i := by
  have least := full.least
  simp only [smurfDataLength, smurfRawSamples, smurfHeaderLength] at least raw
  rw [sample, sample]
  congr 2
  refine word_congr (fun k less => frameToBuffer_of_lt frame buffer _ ?_)
  simp only [smurfHeaderLength]
  omega

theorem sample_zeros (i : Nat) : sample (fun _ => 0) i = 0 := by
  have zero : word (fun _ => 0) (smurfHeaderLength + 2 * i) 2 = 0 := by simp [word]
  rw [sample, zero]
  rfl

-----------------------------------------------------------------------------------------
-- Fields written into the header
-----------------------------------------------------------------------------------------

/-- Writing a header field leaves the samples alone. -/
theorem sample_putField (buffer data : Bytes) {offset width : Nat}
    (inside : offset + width ≤ smurfHeaderLength) (i : Nat)
    : sample (putField buffer offset width data) i = sample buffer i := by
  rw [sample, sample]
  congr 2
  exact word_congr (fun k _ => if_neg (by omega))

-----------------------------------------------------------------------------------------
-- Frame counts
-----------------------------------------------------------------------------------------

namespace FrameCounts

variable (self : FrameCounts) (frameNumber : UInt32)

theorem inOrder_iff
    : self.inOrder frameNumber = true
      ↔ self.firstFrame = true ∨ self.frameNumber.toNat ≤ frameNumber.toNat := by
  simp only [inOrder, Bool.or_eq_true, Bool.not_eq_true', decide_eq_false_iff_not,
    UInt32.lt_iff_toNat_lt, Nat.not_lt]

/-- The frames that an accepted counter adds to the lost ones: those skipped since the frame
before, and for a repeated counter the whole range of the counter.
-/
theorem delta_toNat (later : self.frameNumber.toNat ≤ frameNumber.toNat)
    : (frameNumber - self.frameNumber - 1).toNat
      = if frameNumber.toNat = self.frameNumber.toNat then 2 ^ 32 - 1
        else frameNumber.toNat - self.frameNumber.toNat - 1 := by
  have bounded := frameNumber.toNat_lt
  rw [UInt32.toNat_sub, UInt32.toNat_sub, show (1 : UInt32).toNat = 1 from rfl]
  split <;> omega

/-- The first frame is received, whatever its counter. -/
theorem count_first (first : self.firstFrame = true)
    : self.count frameNumber
      = { self with
          frameNumber
          firstFrame := false
          frameRxCnt := self.frameRxCnt + 1 } := by
  simp only [count, first, if_true]

theorem count_late (first : self.firstFrame = false)
    (late : frameNumber.toNat < self.frameNumber.toNat)
    : self.count frameNumber
      = { self with
          frameNumber
          frameOutOrderCnt := self.frameOutOrderCnt + 1 } := by
  simp only [count, first, UInt32.lt_iff_toNat_lt, late, if_true, Bool.false_eq_true, if_false]

theorem count_later (first : self.firstFrame = false)
    (later : self.frameNumber.toNat ≤ frameNumber.toNat)
    : self.count frameNumber
      = { self with
          frameNumber
          frameLossCnt :=
            self.frameLossCnt + (frameNumber - self.frameNumber - 1).toNat
          frameRxCnt := self.frameRxCnt + 1 } := by
  simp only [count, first, UInt32.lt_iff_toNat_lt, Nat.not_lt.mpr later, Bool.false_eq_true,
    if_false]

@[simp] theorem count_frameNumber : (self.count frameNumber).frameNumber = frameNumber := by
  simp only [count]
  split
  · rfl
  · split <;> rfl

@[simp] theorem count_firstFrame : (self.count frameNumber).firstFrame = false := by
  simp only [count]
  split
  · rfl
  · split <;> simp_all

end FrameCounts

namespace SmurfProcessor

variable (host : Host) (self : SmurfProcessor) (arrival : Arrival)

-----------------------------------------------------------------------------------------
-- Buffers
-----------------------------------------------------------------------------------------

@[simp] theorem buffer_setBuffer (bytes : Bytes) : (self.setBuffer bytes).buffer = bytes := by
  simp only [buffer, setBuffer, Function.update_self]

@[simp] theorem bufferLast_setBuffer (bytes : Bytes)
    : (self.setBuffer bytes).bufferLast = self.bufferLast := by
  simp only [bufferLast, setBuffer]
  exact Function.update_of_ne (by cases self.bufn <;> decide) _ _

@[simp] theorem buffer_receive (frame : Frame)
    : (self.receive frame).buffer = frameToBuffer frame self.bufferLast := by
  rw [receive, buffer_setBuffer, buffer, bufferLast, Bool.not_not]

/-- The buffer of the frame before is the last one filled. -/
@[simp] theorem bufferLast_receive (frame : Frame)
    : (self.receive frame).bufferLast = self.buffer := by
  rw [receive, bufferLast_setBuffer, bufferLast, buffer]

@[simp] theorem buffer_checkOrder : self.checkOrder.2.buffer = self.buffer := by
  simp only [buffer, checkOrder]

@[simp] theorem bufferLast_checkOrder : self.checkOrder.2.bufferLast = self.bufferLast := by
  simp only [bufferLast, checkOrder]

/-- The buffer worked on holds the frame received. -/
theorem buffer_received (frame : Frame)
    : (self.receive frame).checkOrder.2.buffer = frameToBuffer frame self.bufferLast := by
  rw [buffer_checkOrder, buffer_receive]

/-- The other buffer holds the frame before it. -/
theorem bufferLast_received (frame : Frame)
    : (self.receive frame).checkOrder.2.bufferLast = self.buffer := by
  rw [bufferLast_checkOrder, bufferLast_receive]

@[simp] theorem bufferLast_prepare
    : (self.prepare host arrival).bufferLast = self.bufferLast := by
  rw [← bufferLast_setBuffer self, prepare, insertTestData]
  split
  · exact bufferLast_setBuffer _ _
  · rfl

/-- Up to the header's end, only the TES bias words differ from what was received. -/
theorem prepare_header {address : Nat} (inside : address < smurfHeaderLength)
    : (self.prepare host arrival).buffer address
      = putField self.buffer hTesDac.offset hTesDac.width arrival.tesBias address := by
  rw [prepare, insertTestData]
  split
  · rw [buffer_setBuffer, putSamples, dif_neg (by omega), putTesBias, buffer_setBuffer]
  · rw [putTesBias, buffer_setBuffer]

/-- Preparing a frame leaves the fields behind the TES bias words alone. -/
theorem pullBitField_prepare {field : HeaderField}
    (behind : hTesDac.offset + hTesDac.width ≤ field.offset)
    (inside : field.offset + field.width ≤ smurfHeaderLength)
    : pullBitField (self.prepare host arrival).buffer field
      = pullBitField self.buffer field := by
  have same
      : SameHeader (self.prepare host arrival).buffer
          (putField self.buffer hTesDac.offset hTesDac.width arrival.tesBias) :=
    fun _ below => prepare_header host self arrival below
  rw [pullBitField_congr same inside, pullBitField_putField_of_disjoint _ _ (Or.inl behind)]

/-- For a full frame, the fields worked on are its own. -/
theorem pullBitField_prepare_received {buffer : Bytes}
    (received : self.buffer = frameToBuffer arrival.frame buffer) (full : arrival.frame.Full)
    {field : HeaderField} (behind : hTesDac.offset + hTesDac.width ≤ field.offset)
    (inside : field.offset + field.width ≤ smurfHeaderLength)
    : pullBitField (self.prepare host arrival).buffer field
      = pullBitField arrival.frame.image field := by
  have covered : field.offset + field.width ≤ arrival.frame.bytes.length :=
    Nat.le_trans inside (Nat.le_trans (by decide) full.least)
  rw [pullBitField_prepare host self arrival behind inside, received,
    pullBitField_frame arrival.frame _ covered]

-----------------------------------------------------------------------------------------
-- What a stage changes
-----------------------------------------------------------------------------------------

theorem prepare_eq : ∃ b T, self.prepare host arrival = { self with b, T } := by
  unfold prepare insertTestData putTesBias setBuffer
  split
  · exact ⟨_, _, rfl⟩
  · exact ⟨_, self.T, rfl⟩

theorem reread_eq
    : ∃ C mask fastInternalCounter,
        self.reread host arrival = { self with C, mask, fastInternalCounter } := by
  simp only [reread]
  split
  · split
    · exact ⟨_, _, _, rfl⟩
    · exact ⟨self.C, self.mask, _, rfl⟩
  · exact ⟨self.C, self.mask, _, rfl⟩

theorem insertTestAverages_eq
    : ∃ T output, self.insertTestAverages = { self with T, F := { self.F with output } } := by
  unfold insertTestAverages
  split
  · exact ⟨_, _, rfl⟩
  · exact ⟨self.T, self.F.output, rfl⟩

theorem checkClocks_eq : ∃ V, self.checkClocks arrival = { self with V } :=
  ⟨_, rfl⟩

theorem stamp_eq : ∃ bytes, self.stamp = self.setBuffer bytes :=
  ⟨_, rfl⟩

@[simp] theorem buffer_checkClocks : (self.checkClocks arrival).buffer = self.buffer := by
  obtain ⟨V, eq⟩ := checkClocks_eq self arrival
  rw [eq, buffer, buffer]

@[simp] theorem buffer_average : self.average.2.buffer = self.buffer := by
  simp only [average, buffer]

@[simp] theorem F_average : self.average.2.F = self.F := by
  simp only [average]

theorem clear_eq
    : self.clear
      = { self with
          wrapCounter :=
            if SmurfHeader.getClearBit self.buffer then fun _ => 0 else self.wrapCounter
          H := if SmurfHeader.getClearBit self.buffer then self.H.clearAverage else self.H
          F := if SmurfHeader.getClearBit self.buffer then self.F.clearFilter else self.F } := by
  simp only [clear]
  split <;> rfl

/-- What the end of an average changes; only the test averages replace the output. -/
theorem finish_eq
    : ∃ b T V output,
        self.finish arrival
        = { self with b, T, V, F := { self.F.endRun with output } } := by
  obtain ⟨T, output, tested⟩ := insertTestAverages_eq self.endRun
  obtain ⟨V, checked⟩ := checkClocks_eq self.endRun.insertTestAverages arrival
  obtain ⟨bytes, stamped⟩ := stamp_eq (self.endRun.insertTestAverages.checkClocks arrival)
  rw [finish, stamped, checked, tested]
  exact ⟨_, T, V, output, rfl⟩

/-- What the rest of an iteration changes once the clear bit is dealt with. -/
theorem rest_eq (cnt : UInt32)
    : ∃ b T V C mask fastInternalCounter output,
        (if cnt = 0 then self.reread host arrival
          else (self.reread host arrival).finish arrival)
        = { self with
            b, T, V, C, mask, fastInternalCounter
            F := { if cnt = 0 then self.F else self.F.endRun with output } } := by
  obtain ⟨C, mask, fastInternalCounter, read⟩ := reread_eq host self arrival
  split
  · exact ⟨self.b, self.T, self.V, C, mask, fastInternalCounter, self.F.output, read⟩
  · obtain ⟨b, T, V, output, finished⟩ := finish_eq (self.reread host arrival) arrival
    refine ⟨b, T, V, C, mask, fastInternalCounter, output, ?_⟩
    rw [finished, read]

-----------------------------------------------------------------------------------------
-- What counts a frame
-----------------------------------------------------------------------------------------

@[simp] theorem counts_prepare : (self.prepare host arrival).counts = self.counts := by
  obtain ⟨b, T, eq⟩ := prepare_eq host self arrival
  rw [eq]

@[simp] theorem counts_unwrap : self.unwrap.counts = self.counts := by
  simp only [unwrap]

@[simp] theorem counts_filter : self.filter.counts = self.counts := by
  simp only [filter]

@[simp] theorem counts_average : self.average.2.counts = self.counts := by
  simp only [average]

/-- Only the ordering test counts. -/
@[simp] theorem counts_accept : (self.accept host arrival).2.counts = self.counts := by
  simp only [accept]
  generalize workingIs : (self.prepare host arrival).unwrap.filter = working
  obtain ⟨b, T, V, C, mask, fast, output, eq⟩ :=
    rest_eq host working.average.2.clear arrival working.average.1
  rw [eq, clear_eq, ← workingIs]
  simp

/-- The frame counter that an iteration reads. -/
def counterRead : UInt32 :=
  SmurfHeader.getFrameCounter (self.receive arrival.frame).buffer

/-- An iteration counts its frame by the counter it reads. -/
theorem counts_iterate
    : (self.iterate host arrival).1.counts
      = self.counts.count (self.counterRead arrival) := by
  simp only [iterate]
  split
  · rw [counts_accept]
    rfl
  · rfl

/-- A frame whose counter is in order is accepted. -/
theorem iterate_accepted (inOrder : self.counts.inOrder (self.counterRead arrival))
    : self.iterate host arrival
      = (((self.receive arrival.frame).checkOrder.2.accept host arrival).2,
          .accepted ((self.receive arrival.frame).checkOrder.2.accept host arrival).1) :=
  if_pos inOrder

/-- A frame whose counter is not in order is discarded: it is counted, and only the buffers
change.
-/
theorem iterate_discarded (late : ¬ self.counts.inOrder (self.counterRead arrival))
    : self.iterate host arrival
      = ((self.receive arrival.frame).checkOrder.2, .discarded) :=
  if_neg late

/-- An iteration keeps what neither receiving nor accepting a frame changes. -/
theorem iterate_keeps {α : Type*} (view : SmurfProcessor → α)
    (received : view (self.receive arrival.frame).checkOrder.2 = view self)
    (accepts
      : ∀ working,
          view working = view self
          → view (working.accept host arrival).2 = view self)
    : view (self.iterate host arrival).1 = view self := by
  by_cases inOrder : self.counts.inOrder (self.counterRead arrival) = true
  · rw [iterate_accepted host self arrival inOrder]
    exact accepts _ received
  · rw [iterate_discarded host self arrival inOrder]
    exact received

end SmurfProcessor

/-- The frame reaches up to its counter. -/
def Frame.HasCounter (frame : Frame) : Prop :=
  hFrameCounter.offset + hFrameCounter.width ≤ frame.bytes.length

instance (frame : Frame) : Decidable frame.HasCounter :=
  inferInstanceAs (Decidable (_ ≤ _))

theorem Frame.Full.hasCounter {frame : Frame} (full : frame.Full) : frame.HasCounter :=
  Nat.le_trans (by decide) full.least

/-- The frame reaches up to its control field. -/
def Frame.HasControl (frame : Frame) : Prop :=
  hUser0aCtrl.offset + hUser0aCtrl.width ≤ frame.bytes.length

instance (frame : Frame) : Decidable frame.HasControl :=
  inferInstanceAs (Decidable (_ ≤ _))

/-- The counter in the header of a frame. -/
def Frame.counter (frame : Frame) : UInt32 :=
  SmurfHeader.getFrameCounter frame.image

/-- The counter read is the frame's own. -/
theorem SmurfProcessor.counterRead_eq (self : SmurfProcessor) {arrival : Arrival}
    (has : arrival.frame.HasCounter)
    : self.counterRead arrival = arrival.frame.counter := by
  rw [counterRead, buffer_receive, Frame.counter, SmurfHeader.getFrameCounter,
    SmurfHeader.getFrameCounter, SmurfHeader.getField, SmurfHeader.getField,
    pullBitField_frame arrival.frame _ has]

/-- The test mode in the header of a frame. -/
def Frame.testMode (frame : Frame) : UInt32 :=
  SmurfHeader.getTestMode frame.image

/-- Behind the TES bias, a full frame outside test modes stays as it was received. -/
theorem SmurfProcessor.prepare_received (host : Host) (self : SmurfProcessor) (arrival : Arrival)
    {buffer : Bytes} (received : self.buffer = frameToBuffer arrival.frame buffer)
    (full : arrival.frame.Full) (normal : arrival.frame.testMode = 0)
    : (self.prepare host arrival).buffer
      = putField (frameToBuffer arrival.frame buffer) hTesDac.offset hTesDac.width
          arrival.tesBias := by
  have covered : hUser0aCtrl.offset + hUser0aCtrl.width ≤ arrival.frame.bytes.length :=
    Nat.le_trans (by decide) full.least
  have mode : SmurfHeader.getTestMode (self.putTesBias arrival).buffer = 0 := by
    rw [← normal, putTesBias, buffer_setBuffer, received, Frame.testMode, SmurfHeader.getTestMode,
      SmurfHeader.getTestMode, SmurfHeader.getField, SmurfHeader.getField,
      pullBitField_putField_of_disjoint _ _ (by decide), pullBitField_frame _ _ covered]
  rw [prepare, insertTestData, if_neg (not_not.mpr mode), putTesBias, buffer_setBuffer, received]

/-- The samples worked on are the frame's own. -/
theorem SmurfProcessor.sample_prepare_received (host : Host) (self : SmurfProcessor)
    (arrival : Arrival) {buffer : Bytes}
    (received : self.buffer = frameToBuffer arrival.frame buffer)
    (full : arrival.frame.Full) (normal : arrival.frame.testMode = 0) {i : Nat}
    (raw : i < smurfRawSamples)
    : sample (self.prepare host arrival).buffer i = sample arrival.frame.image i := by
  rw [prepare_received host self arrival received full normal, sample_putField _ _ (by decide),
    sample_frame full _ raw]

/-- The clear bit in the header of a frame. -/
def Frame.clearBit (frame : Frame) : Bool :=
  SmurfHeader.getClearBit frame.image

/-- The clear bit worked on is the frame's own. -/
theorem SmurfProcessor.getClearBit_prepare_received (host : Host) (self : SmurfProcessor)
    (arrival : Arrival) {buffer : Bytes}
    (received : self.buffer = frameToBuffer arrival.frame buffer) (full : arrival.frame.Full)
    : SmurfHeader.getClearBit (self.prepare host arrival).buffer = arrival.frame.clearBit := by
  rw [Frame.clearBit, SmurfHeader.getClearBit, SmurfHeader.getClearBit, SmurfHeader.ctrlBit,
    SmurfHeader.ctrlBit,
    pullBitField_prepare_received host self arrival received full (by decide) (by decide)]

/-- So is the test mode. -/
theorem SmurfProcessor.getTestMode_prepare_received (host : Host) (self : SmurfProcessor)
    (arrival : Arrival) {buffer : Bytes}
    (received : self.buffer = frameToBuffer arrival.frame buffer) (full : arrival.frame.Full)
    : SmurfHeader.getTestMode (self.prepare host arrival).buffer = arrival.frame.testMode := by
  rw [Frame.testMode, SmurfHeader.getTestMode, SmurfHeader.getTestMode, SmurfHeader.getField,
    SmurfHeader.getField,
    pullBitField_prepare_received host self arrival received full (by decide) (by decide)]

-----------------------------------------------------------------------------------------
-- Concrete runs
-----------------------------------------------------------------------------------------

/-- A frame with a frame counter, a control byte and some first bytes of its samples; all
other bytes are 0.
-/
def concreteFrame (counter : UInt32) (control : UInt8) (lead : List UInt8) (rest : Nat)
    : Frame where
  segments :=
    [List.replicate 84 0 ++ (List.range 4).map (littleEndian counter.toNat)
        ++ List.replicate 16 0 ++ [control] ++ List.replicate 23 0,
      lead,
      List.replicate rest 0]

theorem length_concreteFrame (counter : UInt32) (control : UInt8) (lead : List UInt8)
    (rest : Nat)
    : (concreteFrame counter control lead rest).bytes.length
      = smurfHeaderLength + (lead.length + rest) := by
  simp only [concreteFrame, Frame.bytes, List.flatten_cons, List.flatten_nil, List.length_append,
    List.length_map, List.length_range, List.length_replicate, List.length_singleton,
    List.length_nil, smurfHeaderLength]
  omega

theorem full_concreteFrame {counter : UInt32} {control : UInt8} {lead : List UInt8} {rest : Nat}
    (samples : lead.length + rest = 2 * smurfRawSamples)
    : (concreteFrame counter control lead rest).Full := by
  constructor
  · rw [length_concreteFrame, samples]
    decide
  · rw [length_concreteFrame, samples]
    decide

/-- The arrival of a frame, without TES bias and files. -/
def concreteArrival (frame : Frame) : Arrival where
  frame
  tesBias := fun _ => 0
  random := fun _ => 0
  configFile := none
  maskFile := none
  unixTime := 0

def concreteHost : Host where
  strtof := fun _ => 0
  sine := fun _ _ => 0

end Smurf
