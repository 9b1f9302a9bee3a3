import Smurf.Packet.SmurfPacket

/-! The two header codecs: the frame loop's, which works on the raw buffer with its own
table of offsets and widths, and the packet's. Where both have a field they agree on it.
-/

namespace Smurf

open ByteMemory

-----------------------------------------------------------------------------------------
-- Raw fields as words
-----------------------------------------------------------------------------------------

/-- The mask of a field of up to seven bytes. -/
theorem toNat_mask {width : Nat} (narrow : width < 8)
    : ((1 <<< UInt64.ofNat (width * 8)) - 1 : UInt64).toNat = 2 ^ (8 * width) - 1 := by
  revert width
  decide

/-- Up to seven bytes, the raw value of a field is the word of its bytes. -/
theorem toNat_pullBitField (header : Bytes) (f : HeaderField) (narrow : f.width < 8)
    : (pullBitField header f).toNat = word header f.offset f.width := by
  have lt : word header f.offset f.width < 2 ^ (8 * f.width) := by
    rw [Nat.pow_mul]
    exact word_lt ..
  have fits : word header f.offset f.width < 2 ^ 64 :=
    lt_of_lt_of_le lt (Nat.pow_le_pow_right (by decide) (by omega))
  rw [pullBitField]
  simp only [UInt64.toNat_and, toNat_mask narrow, UInt64.toNat_ofNat', Nat.mod_eq_of_lt fits]
  rw [Nat.and_comm, Nat.and_comm (2 ^ _ - 1), Nat.and_two_pow_sub_one_of_lt_two_pow lt,
    Nat.and_two_pow_sub_one_of_lt_two_pow lt]

namespace SmurfHeader

/-- A field of up to four bytes is returned whole. -/
theorem toNat_getField (header : Bytes) (f : HeaderField) (narrow : f.width ≤ 4)
    : (getField header f).toNat = word header f.offset f.width := by
  have lt : word header f.offset f.width < 2 ^ 32 :=
    lt_of_lt_of_le (word_lt ..) (Nat.pow_le_pow_right (by decide) narrow)
  rw [getField, UInt64.toNat_toUInt32, toNat_pullBitField _ _ (by omega), Nat.mod_eq_of_lt lt]

theorem toNat_getLowField (header : Bytes) (f : HeaderField) (narrow : f.width < 8)
    : (getLowField header f).toNat = word header f.offset f.width % 2 ^ 32 := by
  rw [getLowField, UInt64.toNat_toUInt32, UInt64.toNat_and, toNat_pullBitField _ _ narrow]
  show (_ &&& (2 ^ 32 - 1)) % 2 ^ 32 = _
  rw [Nat.and_two_pow_sub_one_eq_mod, Nat.mod_mod]

/-- The control bits are those of byte 104, although two bytes are read. -/
theorem ctrlBit_eq (header : Bytes) (index : Fin 8)
    : ctrlBit header (UInt64.ofNat index) = bit header (8 * 104 + index) := by
  have mask : ∀ i : Fin 8, (1 <<< UInt64.ofNat i : UInt64).toNat = 2 ^ i.val := by decide
  rw [ctrlBit, Bool.eq_iff_iff, bne_iff_ne, ne_eq, ← UInt64.toNat_inj, UInt64.toNat_and,
    mask index, Nat.and_two_pow, toNat_pullBitField _ _ (by decide), testBit_word,
    decide_eq_true (show index.val < 8 * hUser0aCtrl.width by simp only [hUser0aCtrl]; omega),
    Bool.true_and]
  show ¬ (bit header (8 * 104 + index)).toNat * 2 ^ index.val = 0 ↔ _
  cases bit header (8 * 104 + index) <;> simp

/-- The test mode is the upper half of byte 104. -/
theorem toNat_getTestMode (header : Bytes)
    : (getTestMode header).toNat = field header ⟨8 * 104 + 4, 4⟩ := by
  have mask (j : Nat) : Nat.testBit 0xf0 (4 + j) = decide (j < 4) := by
    rw [show (0xf0 : Nat) = (2 ^ 4 - 1) <<< 4 from rfl, Nat.testBit_shiftLeft,
      Nat.testBit_two_pow_sub_one]
    simp
  apply Nat.eq_of_testBit_eq
  intro j
  have raw : (getField header hUser0aCtrl).toNat = word header 104 2 :=
    toNat_getField header hUser0aCtrl (by decide)
  have bits
      : (getTestMode header).toNat.testBit j
        = ((word header 104 2).testBit (4 + j) && Nat.testBit 0xf0 (4 + j)) := by
    rw [← Nat.testBit_and, ← Nat.testBit_shiftRight, ← raw]
    rfl
  rw [bits, testBit_word, mask, testBit_field, ← Nat.add_assoc]
  by_cases low : j < 4
  · simp [low, show 4 + j < 8 * 2 by omega]
  · simp [low]

end SmurfHeader

-----------------------------------------------------------------------------------------
-- Encoders
-----------------------------------------------------------------------------------------

namespace SmurfPacket

/-- Writing a field of the frame's header and copying the header is copying the header and
writing the packet's field.
-/
theorem copyHeader_putField (buffer header data : Bytes) {offset width : Nat}
    (inside : offset + width ≤ smurfHeaderLength)
    : copyHeader buffer (putField header offset width data)
      = putField (copyHeader buffer header) offset width data := by
  funext address
  simp only [copyHeader, putField]
  by_cases here : offset ≤ address ∧ address < offset + width
  · rw [if_pos (by omega), if_pos (by omega), if_pos here, Nat.sub_zero]
  · by_cases copied : 0 ≤ address ∧ address < 0 + smurfHeaderLength
    · rw [if_pos copied, if_neg here, if_pos copied, if_neg (by omega)]
    · rw [if_neg copied, if_neg here, if_neg copied]

/-- Sets all TES bias words of the packet to those of an array. -/
def setTESBiases (words header : Bytes) : Except String Bytes :=
  (List.range tesBiasCount).foldlM
    (fun header index => do
      let value ← TesBiasArray.getWord 0 words index
      setTESBias header index value)
    header

/-- The first `count` words of an array, set one by one, are copied bit by bit, by induction
on the words.
-/
theorem setTESBiases_upto (words header : Bytes) {count : Nat} (inside : count ≤ tesBiasCount)
    : ∃ after,
        (List.range count).foldlM
            (fun header index => do
              let value ← TesBiasArray.getWord 0 words index
              setTESBias header index value)
            header
          = .ok after
        ∧ ∀ k,
            bit after k
            = if 64 ≤ k ∧ k < 64 + 20 * count then bit words (k - 64) else bit header k := by
  induction count with
  | zero => exact ⟨header, rfl, fun k => by rw [if_neg (by omega)]⟩
  | succ count ih =>
      obtain ⟨before, reached, bits⟩ := ih (by omega)
      let word := field words (TesBiasArray.wordSpan 0 count)
      refine ⟨TesBiasArray.putWord 8 before count (TesBiasArray.signExtend word), ?_, ?_⟩
      · rw [List.range_succ, List.foldlM_append, reached]
        simp only [bind, Except.bind, List.foldlM_cons, List.foldlM_nil, pure, Except.pure,
          TesBiasArray.getWord_eq 0 words (show count < tesBiasCount by omega), setTESBias,
          TesBiasArray.setWord, if_neg (show ¬ tesBiasCount ≤ count by omega)]
        rfl
      · intro k
        rw [TesBiasArray.stores_putWord 8 before count (TesBiasArray.signExtend word) k, bits]
        by_cases last : (TesBiasArray.wordSpan 8 count).Contains k
        · have bounds : 64 + 20 * count ≤ k ∧ k < 64 + 20 * count + 20 := last
          rw [if_pos last, if_pos (by omega)]
          show (TesBiasArray.signExtend word).toUInt32.toNat.testBit (k - (64 + 20 * count)) = _
          rw [TesBiasArray.testBit_signExtend _ (by omega),
            TesBiasArray.testBit_field_wordSpan, decide_eq_true (by omega), Bool.true_and,
            show 8 * 0 + 20 * count + (k - (64 + 20 * count)) = k - 64 by omega]
        · have outside : ¬ (64 + 20 * count ≤ k ∧ k < 64 + 20 * count + 20) := last
          rw [if_neg last]
          by_cases earlier : 64 ≤ k ∧ k < 64 + 20 * count
          · rw [if_pos earlier, if_pos (by omega)]
          · rw [if_neg earlier, if_neg (by omega)]

/-- Setting all sixteen words of an array is writing its 40 bytes. -/
theorem setTESBiases_eq (words header : Bytes)
    : setTESBiases words header
      = .ok (putField header hTesDac.offset hTesDac.width words) := by
  obtain ⟨after, reached, bits⟩ := setTESBiases_upto words header (Nat.le_refl tesBiasCount)
  rw [setTESBiases, reached]
  congr 1
  funext address
  refine eq_of_bit_eq (fun j inside => ?_)
  rw [bits, bit_eq_testBit (putField header _ _ words) address inside, putField]
  by_cases here : hTesDac.offset ≤ address ∧ address < hTesDac.offset + hTesDac.width
  · have bounds : 8 ≤ address ∧ address < 8 + 40 := here
    rw [if_pos here, if_pos (by unfold tesBiasCount; omega),
      show 8 * address + j - 64 = 8 * (address - hTesDac.offset) + j by
        show _ = 8 * (address - 8) + j
        omega,
      bit_eq_testBit _ _ inside]
  · have outside : ¬ (8 ≤ address ∧ address < 8 + 40) := here
    rw [if_neg here, if_neg (by unfold tesBiasCount; omega), bit_eq_testBit _ _ inside]

end SmurfPacket

-----------------------------------------------------------------------------------------
-- Agreement
-----------------------------------------------------------------------------------------

/-- What the frame loop decodes from a header and what the packet's getters return. -/
structure DecodesAlike (header packet : Bytes) : Prop where
  version : (SmurfHeader.getVersion header).toNat = (SmurfPacket.getVersion packet).toNat
  numChannels : SmurfHeader.getNumChannels header = SmurfPacket.getNumberChannels packet
  counter0 : SmurfHeader.get1hzCounter header = SmurfPacket.getCounter0 packet
  counter1 : SmurfHeader.getExtCounter header = SmurfPacket.getCounter1 packet
  counter2
    : (SmurfHeader.getEpicsSeconds header).toNat * 2 ^ 32
        + (SmurfHeader.getEpicsNanoseconds header).toNat
      = (SmurfPacket.getCounter2 packet).toNat
  frameCounter : SmurfHeader.getFrameCounter header = SmurfPacket.getFrameCounter packet
  syncword
    : (SmurfHeader.getSyncword header).toNat
      = (SmurfPacket.getExternalTimeClock packet).toNat % 2 ^ 32
  clearBit : SmurfHeader.getClearBit header = SmurfPacket.getClearAverageBit packet
  disableStream : SmurfHeader.disableStream header = SmurfPacket.getDisableStreamBit packet
  disableFileWrite
    : SmurfHeader.disableFileWrite header = SmurfPacket.getDisableFileWriteBit packet
  readConfigFile
    : SmurfHeader.readConfigFile header = SmurfPacket.getReadConfigEachCycleBit packet
  testMode : (SmurfHeader.getTestMode header).toNat = (SmurfPacket.getTestMode packet).toNat
  testParameter
    : (SmurfHeader.getTestParameter header).toNat = (SmurfPacket.getTestParameters packet).toNat

/-- What the frame loop writes into a header before it copies it, and what the packet's
setters write into the copy.
-/
structure EncodesAlike (header buffer : Bytes) : Prop where
  numChannels
    : ∀ value : UInt32,
        SmurfPacket.copyHeader buffer (SmurfHeader.setNumChannels header value)
        = SmurfPacket.setNumberChannels (SmurfPacket.copyHeader buffer header) value
  unixTime
    : ∀ value : UInt64,
        SmurfPacket.copyHeader buffer
          (putField header hUnixTime.offset hUnixTime.width (littleEndian value.toNat))
        = SmurfPacket.setUnixTime (SmurfPacket.copyHeader buffer header) value
  tesBias
    : ∀ words : Bytes,
        SmurfPacket.setTESBiases words (SmurfPacket.copyHeader buffer header)
        = .ok
            (SmurfPacket.copyHeader buffer
              (putField header hTesDac.offset hTesDac.width words))
  together
    : ∀ (numCh : UInt32) (tm : UInt64) (words : Bytes),
        SmurfPacket.setTESBiases words
          (SmurfPacket.setUnixTime
            (SmurfPacket.setNumberChannels (SmurfPacket.copyHeader buffer header) numCh) tm)
        = .ok
            (SmurfPacket.copyHeader buffer
              (putField
                (putField (SmurfHeader.setNumChannels header numCh) hUnixTime.offset
                  hUnixTime.width (littleEndian tm.toNat))
                hTesDac.offset hTesDac.width words))

section Decoding

variable {header packet : Bytes}

/-- The words of two buffers that hold the same header. -/
theorem word_eq_of_sameHeader (same : SameHeader header packet) {offset width : Nat}
    (inside : offset + width ≤ smurfHeaderLength)
    : word header offset width = word packet offset width :=
  word_congr (fun k less => same _ (by omega))

/-- A raw field of the frame loop and a word of the packet at the same bytes. -/
theorem getField_eq_getHeaderWord (T : Type) [HeaderWord T] (same : SameHeader header packet)
    {f : HeaderField} (width : f.width = HeaderWord.size T) (narrow : f.width ≤ 4)
    (inside : f.offset + f.width ≤ smurfHeaderLength)
    : (SmurfHeader.getField header f).toNat
      = HeaderWord.toNat (SmurfPacket.getHeaderWord T packet f.offset) := by
  rw [SmurfHeader.toNat_getField _ _ narrow, SmurfPacket.toNat_getHeaderWord, field_ofBytes,
    word_eq_of_sameHeader same inside, width]

/-- A control bit of the frame loop and of the packet. -/
theorem ctrlBit_eq_getWordBit (same : SameHeader header packet) (index : Fin 8)
    : SmurfHeader.ctrlBit header (UInt64.ofNat index)
      = SmurfPacket.getWordBit (SmurfPacket.getControlField packet) index := by
  rw [SmurfHeader.ctrlBit_eq, SmurfPacket.getWordBit_getControlField, bit, bit,
    same _ (by show _ < 128; omega)]

/-- Headers with the same bytes decode alike. -/
theorem decodesAlike_of_sameHeader (same : SameHeader header packet)
    : DecodesAlike header packet where
  version := getField_eq_getHeaderWord UInt8 same rfl (by decide) (by decide)
  numChannels :=
    UInt32.toNat_inj.mp (getField_eq_getHeaderWord UInt32 same rfl (by decide) (by decide))
  counter0 :=
    UInt32.toNat_inj.mp (getField_eq_getHeaderWord UInt32 same rfl (by decide) (by decide))
  counter1 :=
    UInt32.toNat_inj.mp (getField_eq_getHeaderWord UInt32 same rfl (by decide) (by decide))
  counter2 := by
    have seconds : (SmurfHeader.getEpicsSeconds header).toNat = word header 76 4 := by
      rw [SmurfHeader.getEpicsSeconds, SmurfHeader.toNat_getLowField _ _ (by decide)]
      exact Nat.mod_eq_of_lt (word_lt header 76 4)
    have nanoseconds : (SmurfHeader.getEpicsNanoseconds header).toNat = word header 72 4 := by
      rw [SmurfHeader.getEpicsNanoseconds, SmurfHeader.toNat_getLowField _ _ (by decide)]
      exact Nat.mod_eq_of_lt (word_lt header 72 4)
    have both : (SmurfPacket.getCounter2 packet).toNat = word header 72 8 := by
      rw [word_eq_of_sameHeader same (by decide), ← field_ofBytes]
      exact SmurfPacket.toNat_getHeaderWord (T := UInt64) packet 72
    rw [seconds, nanoseconds, both, word_add header 72 4 4, Nat.add_comm]
    rfl
  frameCounter :=
    UInt32.toNat_inj.mp (getField_eq_getHeaderWord UInt32 same rfl (by decide) (by decide))
  syncword := by
    have low (width : Nat) : word header 96 (4 + width) % 2 ^ 32 = word header 96 4 :=
      word_mod header 96 4 width
    have clock : (SmurfPacket.getExternalTimeClock packet).toNat = word header 96 8 := by
      rw [word_eq_of_sameHeader same (by decide), ← field_ofBytes]
      exact SmurfPacket.toNat_getHeaderWord (T := UInt64) packet 96
    rw [SmurfHeader.getSyncword, SmurfHeader.toNat_getLowField _ _ (by decide), clock]
    exact (low 1).trans (low 4).symm
  clearBit := ctrlBit_eq_getWordBit same 0
  disableStream := ctrlBit_eq_getWordBit same 1
  disableFileWrite := ctrlBit_eq_getWordBit same 2
  readConfigFile := ctrlBit_eq_getWordBit same 3
  testMode := by
    rw [SmurfHeader.toNat_getTestMode, SmurfPacket.toNat_getTestMode]
    refine field_congr (fun k within => ?_)
    have bounds : 8 * 104 + 4 ≤ k ∧ k < 8 * 104 + 4 + 4 := within
    rw [bit, bit, same _ (by show _ < 128; omega)]
  testParameter := getField_eq_getHeaderWord UInt8 same rfl (by decide) (by decide)

end Decoding

/-- A packet's copy of a header holds the header. -/
theorem sameHeader_copyHeader (header buffer : Bytes)
    : SameHeader header (SmurfPacket.copyHeader buffer header) := by
  intro address inside
  rw [SmurfPacket.copyHeader, putField, if_pos ⟨Nat.zero_le _, by omega⟩, Nat.sub_zero]

/-- For every header, and whatever the packet held before: the two codecs decode the same
values, and write the same bytes.
-/
theorem codecsAgree (header buffer : Bytes)
    : DecodesAlike header (SmurfPacket.copyHeader buffer header)
      ∧ EncodesAlike header buffer := by
  have numChannels (header : Bytes) (value : UInt32)
      : SmurfPacket.copyHeader buffer (SmurfHeader.setNumChannels header value)
        = SmurfPacket.setNumberChannels (SmurfPacket.copyHeader buffer header) value :=
    SmurfPacket.copyHeader_putField buffer header _ (by decide)
  have unixTime (header : Bytes) (value : UInt64)
      : SmurfPacket.copyHeader buffer
          (putField header hUnixTime.offset hUnixTime.width (littleEndian value.toNat))
        = SmurfPacket.setUnixTime (SmurfPacket.copyHeader buffer header) value :=
    SmurfPacket.copyHeader_putField buffer header _ (by decide)
  have tesBias (header words : Bytes)
      : SmurfPacket.setTESBiases words (SmurfPacket.copyHeader buffer header)
        = .ok
            (SmurfPacket.copyHeader buffer
              (putField header hTesDac.offset hTesDac.width words)) := by
    rw [SmurfPacket.setTESBiases_eq, SmurfPacket.copyHeader_putField _ _ _ (by decide)]
  refine ⟨decodesAlike_of_sameHeader (sameHeader_copyHeader header buffer), ?_⟩
  refine ⟨numChannels header, unixTime header, tesBias header, fun numCh tm words => ?_⟩
  rw [← numChannels, ← unixTime, tesBias]

end Smurf
