import Smurf.Packet.SmurfPacket
import Smurf.Processor.Stages

/-! How an accepted frame becomes a packet.
A packet is published when the frame ends an average and packets are asked for. Its header is
the one received, with the TES bias words, the time and the channel count written over it.
-/

namespace Smurf

open ByteMemory

/-- The packet an iteration published. -/
def Outcome.packet? : Outcome → Option Packet
  | .discarded => none
  | .accepted record => record.packet

namespace SmurfProcessor

variable (host : Host) (self : SmurfProcessor) (arrival : Arrival)

-----------------------------------------------------------------------------------------
-- The header through the stages of an iteration
-----------------------------------------------------------------------------------------

/-- The header written in place before a packet is copied from it. -/
def stampedHeader (header : Bytes) (current : UInt64) : Bytes :=
  SmurfHeader.setNumChannels
    (putField header hUnixTime.offset hUnixTime.width (littleEndian current.toNat))
    (UInt32.ofNat smurfSamples)

theorem stampedHeader_congr {header other : Bytes} {address : Nat}
    (same : header address = other address) (current : UInt64)
    : stampedHeader header current address = stampedHeader other current address := by
  simp only [stampedHeader, SmurfHeader.setNumChannels, putField, same]

/-- The processor between the averaging and the end of an average. -/
def settled : SmurfProcessor :=
  (((self.prepare host arrival).unwrap.filter).average.2).clear.reread host arrival

@[simp] theorem buffer_settled
    : (self.settled host arrival).buffer = (self.prepare host arrival).buffer := by
  obtain ⟨C, mask, fast, read⟩ :=
    reread_eq host ((self.prepare host arrival).unwrap.filter).average.2.clear arrival
  rw [settled, read, clear_eq]
  simp only [buffer, average, filter, unwrap]

@[simp] theorem V_settled : (self.settled host arrival).V = self.V := by
  obtain ⟨C, mask, fast, read⟩ :=
    reread_eq host ((self.prepare host arrival).unwrap.filter).average.2.clear arrival
  obtain ⟨b, T, prepared⟩ := prepare_eq host self arrival
  rw [settled, read, clear_eq]
  simp only [average, filter, unwrap]
  rw [prepared]

/-- Whether the average ends with this frame. -/
def averageEnds : Prop :=
  ((self.prepare host arrival).unwrap.filter).average.1 ≠ 0

/-- A packet is published with the header that the end of the average leaves. -/
theorem packet_accept_of_averageEnds (ends : self.averageEnds host arrival)
    : (self.accept host arrival).1.packet
      = ((self.settled host arrival).finish arrival).publish := by
  simp only [accept, settled]
  rw [averageEnds] at ends
  rw [if_neg ends, if_neg ends]

theorem accept_of_averageEnds (ends : self.averageEnds host arrival)
    : (self.accept host arrival).2 = (self.settled host arrival).finish arrival := by
  simp only [accept, settled]
  rw [averageEnds] at ends
  rw [if_neg ends]

theorem packet_accept_of_not_averageEnds (goesOn : ¬ self.averageEnds host arrival)
    : (self.accept host arrival).1.packet = none := by
  simp only [accept]
  rw [averageEnds, not_not] at goesOn
  rw [if_pos goesOn]

theorem accept_of_not_averageEnds (goesOn : ¬ self.averageEnds host arrival)
    : (self.accept host arrival).2 = self.settled host arrival := by
  simp only [accept, settled]
  rw [averageEnds, not_not] at goesOn
  rw [if_pos goesOn]

theorem V_stamp : self.stamp.V = self.V := by
  obtain ⟨bytes, stamped⟩ := stamp_eq self
  rw [stamped, setBuffer]

theorem buffer_stamp
    : self.stamp.buffer = stampedHeader self.buffer self.V.unixTime.current := by
  rw [stamp, buffer_setBuffer, stampedHeader]

/-- The clocks are checked against the header in the buffer. -/
theorem V_checkClocks
    : (self.checkClocks arrival).V = (self.V.run self.buffer arrival.unixTime).2 := by
  obtain ⟨V, run, checked⟩
      : ∃ V,
          V = (self.V.run self.buffer arrival.unixTime).2
          ∧ self.checkClocks arrival = { self with V } :=
    ⟨_, rfl, rfl⟩
  simp only [checked]
  exact run

theorem V_insertTestAverages : self.endRun.insertTestAverages.V = self.V := by
  obtain ⟨T, output, tested⟩ := insertTestAverages_eq self.endRun
  rw [tested, endRun]

theorem buffer_insertTestAverages : self.endRun.insertTestAverages.buffer = self.buffer := by
  obtain ⟨T, output, tested⟩ := insertTestAverages_eq self.endRun
  rw [tested, endRun]
  simp only [buffer]

theorem V_finish
    : (self.finish arrival).V = (self.V.run self.buffer arrival.unixTime).2 := by
  rw [finish, V_stamp, V_checkClocks, V_insertTestAverages, buffer_insertTestAverages]

theorem buffer_finish
    : (self.finish arrival).buffer
      = stampedHeader self.buffer (self.finish arrival).V.unixTime.current := by
  rw [V_finish, finish, buffer_stamp, buffer_checkClocks, buffer_insertTestAverages,
    V_checkClocks, V_insertTestAverages, buffer_insertTestAverages]

/-- What is in the header of a packet that an accepted frame publishes. -/
theorem headerBytes_of_published {packet : Packet}
    (published : (self.accept host arrival).1.packet = some packet)
    : SameHeader packet.headerBytes
        (stampedHeader
          (putField self.buffer hTesDac.offset hTesDac.width arrival.tesBias)
          (self.accept host arrival).2.V.unixTime.current) := by
  by_cases ends : self.averageEnds host arrival
  · rw [packet_accept_of_averageEnds _ _ _ ends] at published
    rw [accept_of_averageEnds _ _ _ ends]
    have left := buffer_finish (self.settled host arrival) arrival
    generalize (self.settled host arrival).finish arrival = finished at published left ⊢
    intro address inside
    have copied : packet.headerBytes address = finished.buffer address := by
      unfold publish at published
      split at published
      · rw [← Option.some.inj published]
        exact dif_pos inside
      · exact absurd published (by simp)
    rw [copied, left, buffer_settled]
    exact stampedHeader_congr (prepare_header host self arrival inside) _
  · rw [packet_accept_of_not_averageEnds _ _ _ ends] at published
    exact absurd published (by simp)

-----------------------------------------------------------------------------------------
-- Header fields behind the TES bias words
-----------------------------------------------------------------------------------------

theorem started_prepare (V : SmurfValidCheck)
    : V.started (self.prepare host arrival).buffer = V.started self.buffer := by
  rw [SmurfValidCheck.started, SmurfValidCheck.started, SmurfHeader.getEpicsSeconds,
    SmurfHeader.getEpicsSeconds, SmurfHeader.getLowField, SmurfHeader.getLowField,
    pullBitField_prepare host self arrival (by decide) (by decide)]

theorem readConfigFile_prepare
    : SmurfHeader.readConfigFile (self.prepare host arrival).buffer
      = SmurfHeader.readConfigFile self.buffer := by
  rw [SmurfHeader.readConfigFile, SmurfHeader.readConfigFile, SmurfHeader.ctrlBit,
    SmurfHeader.ctrlBit, pullBitField_prepare host self arrival (by decide) (by decide)]

theorem averageControl_prepare (H : SmurfHeader) (numAverages : Int32)
    : H.averageControl (self.prepare host arrival).buffer numAverages
      = H.averageControl self.buffer numAverages := by
  rw [SmurfHeader.averageControl, SmurfHeader.averageControl, SmurfHeader.getSyncword,
    SmurfHeader.getSyncword, SmurfHeader.getLowField, SmurfHeader.getLowField,
    pullBitField_prepare host self arrival (by decide) (by decide)]

-----------------------------------------------------------------------------------------
-- When a packet is published
-----------------------------------------------------------------------------------------

theorem averageEnds_iff
    : self.averageEnds host arrival
      ↔ (self.H.averageControl self.buffer self.C.numAverages).1 ≠ 0 := by
  rw [← averageControl_prepare host self arrival, averageEnds]
  obtain ⟨b, T, prepared⟩ := prepare_eq host self arrival
  rw [prepared]
  simp only [average, filter, unwrap, buffer]

/-- The configuration read in an iteration depends on the control field alone. -/
theorem C_reread_congr {other : SmurfProcessor}
    (control
      : SmurfHeader.readConfigFile self.buffer = SmurfHeader.readConfigFile other.buffer)
    (config : self.C = other.C) (counter : self.fastInternalCounter = other.fastInternalCounter)
    : (self.reread host arrival).C = (other.reread host arrival).C := by
  rw [reread, reread, control, config, counter]
  split
  · split <;> rfl
  · rfl

theorem C_settled : (self.settled host arrival).C = (self.reread host arrival).C := by
  obtain ⟨b, T, prepared⟩ := prepare_eq host self arrival
  refine C_reread_congr host _ arrival ?_ ?_ ?_
  · rw [← readConfigFile_prepare host self arrival, clear_eq]
    simp only [average, filter, unwrap, buffer]
  · rw [clear_eq, prepared]
    rfl
  · rw [clear_eq, prepared]
    rfl

theorem C_finish : (self.finish arrival).C = self.C := by
  obtain ⟨b, T, V, output, finished⟩ := finish_eq self arrival
  rw [finished]

/-- An accepted frame may read the file again, and changes nothing else of the
configuration.
-/
theorem C_accept : (self.accept host arrival).2.C = (self.reread host arrival).C := by
  by_cases ends : self.averageEnds host arrival
  · rw [accept_of_averageEnds _ _ _ ends, C_finish, C_settled]
  · rw [accept_of_not_averageEnds _ _ _ ends, C_settled]

/-- The iteration publishes a packet: its frame is in order and ends an average, and packets
are asked for, after the file is read again where it is.
-/
def publishes : Prop :=
  let received := self.receive arrival.frame
  self.counts.inOrder (self.counterRead arrival) = true
  ∧ (self.H.averageControl received.buffer self.C.numAverages).1 ≠ 0
  ∧ (received.reread host arrival).C.dataFrames ≠ 0

instance : Decidable (self.publishes host arrival) :=
  inferInstanceAs (Decidable (_ ∧ _ ∧ _))

theorem isSome_publish : self.publish.isSome ↔ self.C.dataFrames ≠ 0 := by
  rw [publish]
  split
  · rename_i asked
    exact ⟨fun _ => asked, fun _ => rfl⟩
  · rename_i unasked
    exact ⟨fun impossible => absurd impossible (by simp), fun asked => absurd asked unasked⟩

theorem isSome_packet_iterate
    : (self.iterate host arrival).2.packet?.isSome ↔ self.publishes host arrival := by
  by_cases inOrder : self.counts.inOrder (self.counterRead arrival)
  · have same
        : ((self.receive arrival.frame).checkOrder.2.reread host arrival).C
          = ((self.receive arrival.frame).reread host arrival).C :=
      C_reread_congr host _ arrival (by rw [buffer_checkOrder]) rfl rfl
    have ending
        : (self.receive arrival.frame).checkOrder.2.averageEnds host arrival
          ↔ (self.H.averageControl (self.receive arrival.frame).buffer self.C.numAverages).1
            ≠ 0 := by
      rw [averageEnds_iff, buffer_checkOrder]
      rfl
    rw [publishes, iterate_accepted _ _ _ inOrder, ← ending, ← same]
    generalize (self.receive arrival.frame).checkOrder.2 = working
    dsimp only [Outcome.packet?]
    by_cases ends : working.averageEnds host arrival
    · rw [packet_accept_of_averageEnds _ _ _ ends, isSome_publish, C_finish, C_settled]
      simp only [inOrder, ends, true_and]
    · rw [packet_accept_of_not_averageEnds _ _ _ ends]
      simp [ends]
  · rw [iterate_discarded _ _ _ inOrder, publishes]
    simp [Outcome.packet?, inOrder]

/-- What is in the header of a packet that an iteration publishes. -/
theorem headerBytes_iterate {packet : Packet}
    (published : (self.iterate host arrival).2.packet? = some packet)
    : SameHeader packet.headerBytes
        (stampedHeader
          (putField (frameToBuffer arrival.frame self.bufferLast) hTesDac.offset hTesDac.width
            arrival.tesBias)
          (self.iterate host arrival).1.V.unixTime.current) := by
  by_cases inOrder : self.counts.inOrder (self.counterRead arrival)
  · rw [iterate_accepted _ _ _ inOrder] at published ⊢
    have same := headerBytes_of_published host _ arrival published
    rw [buffer_received] at same
    exact same
  · rw [iterate_discarded _ _ _ inOrder] at published
    exact absurd published (by simp [Outcome.packet?])

end SmurfProcessor

-----------------------------------------------------------------------------------------
-- Fields of a stamped header
-----------------------------------------------------------------------------------------

section Fields

variable (header : Bytes) (current : UInt64)

theorem getNumberChannels_stampedHeader
    : SmurfPacket.getNumberChannels (SmurfProcessor.stampedHeader header current)
      = UInt32.ofNat smurfSamples := by
  apply UInt32.toNat_inj.mp
  refine (SmurfPacket.toNat_getHeaderWord (T := UInt32) _ 4).trans ?_
  exact (stores_putField _ 4 4 528).field_self

theorem getUnixTime_stampedHeader
    : SmurfPacket.getUnixTime (SmurfProcessor.stampedHeader header current) = current := by
  apply UInt64.toNat_inj.mp
  refine (SmurfPacket.toNat_getHeaderWord (T := UInt64) _ 48).trans ?_
  refine ((stores_putField _ 4 4 528).field_of_disjoint (by decide)).trans ?_
  exact ((stores_putField header 48 8 current.toNat).field_self).trans
    (Nat.mod_eq_of_lt current.toNat_lt)

/-- Every byte outside the two fields is left alone. -/
theorem stampedHeader_of_outside {address : Nat}
    (outside : address < 4 ∨ 8 ≤ address ∧ address < 48 ∨ 56 ≤ address)
    : SmurfProcessor.stampedHeader header current address = header address := by
  rw [SmurfProcessor.stampedHeader, SmurfHeader.setNumChannels, putField, putField]
  rw [if_neg (by show ¬ (4 ≤ address ∧ address < 4 + 4); omega),
    if_neg (by show ¬ (48 ≤ address ∧ address < 48 + 8); omega)]

/-- So are the TES bias words. -/
theorem field_stampedHeader {index : Nat} (inside : index < tesBiasCount)
    : field (SmurfProcessor.stampedHeader header current)
        (TesBiasArray.wordSpan hTesDac.offset index)
      = field header (TesBiasArray.wordSpan hTesDac.offset index) := by
  refine field_congr (fun k within => ?_)
  have bounds : 8 * 8 + 20 * index ≤ k ∧ k < 8 * 8 + 20 * index + 20 := within
  unfold tesBiasCount at inside
  rw [bit, bit, stampedHeader_of_outside _ _ (Or.inr (Or.inl (by omega)))]

end Fields

/-- The time of a packet is the one the clocks were last checked at. -/
theorem SmurfProcessor.getUnixTime_published (host : Host) (self : SmurfProcessor)
    (arrival : Arrival) {packet : Packet}
    (published : (self.iterate host arrival).2.packet? = some packet)
    : SmurfPacket.getUnixTime packet.headerBytes
      = (self.iterate host arrival).1.V.unixTime.current := by
  have same := headerBytes_iterate host self arrival published
  rw [SmurfPacket.getUnixTime, SmurfPacket.getHeaderWord_congr same (by decide)]
  exact getUnixTime_stampedHeader _ _

end Smurf
