import Smurf.Packet.TesBias

/-! The packet class: typed access to the fields of its own copy of a header.
The header buffer is taken by address from its start; the getters and setters name no
address behind its 128 bytes.
-/

namespace Smurf

open ByteMemory

/-- The unsigned integers a header word is read and written as. -/
class HeaderWord (T : Type) where
  size : Nat
  ofNat : Nat → T
  toNat : T → Nat
  toNat_ofNat : ∀ n, toNat (ofNat n) = n % 256 ^ size

instance : HeaderWord UInt8 where
  size := 1
  ofNat := UInt8.ofNat
  toNat := UInt8.toNat
  toNat_ofNat _ := UInt8.toNat_ofNat'

instance : HeaderWord UInt16 where
  size := 2
  ofNat := UInt16.ofNat
  toNat := UInt16.toNat
  toNat_ofNat _ := UInt16.toNat_ofNat'

instance : HeaderWord UInt32 where
  size := 4
  ofNat := UInt32.ofNat
  toNat := UInt32.toNat
  toNat_ofNat _ := UInt32.toNat_ofNat'

instance : HeaderWord UInt64 where
  size := 8
  ofNat := UInt64.ofNat
  toNat := UInt64.toNat
  toNat_ofNat _ := UInt64.toNat_ofNat'

namespace SmurfPacket

variable {T : Type} [HeaderWord T]

-----------------------------------------------------------------------------------------
-- Words and bits
-----------------------------------------------------------------------------------------

def getHeaderWord (T : Type) [HeaderWord T] (header : Bytes) (offset : Nat) : T :=
  HeaderWord.ofNat (word header offset (HeaderWord.size T))

def setHeaderWord (header : Bytes) (offset : Nat) (value : T) : Bytes :=
  putField header offset (HeaderWord.size T) (littleEndian (HeaderWord.toNat value))

/-- Bit `index` of a byte. An index from 8 on would throw; all callers pass constants. -/
def getWordBit (byte : UInt8) (index : Fin 8) : Bool :=
  byte &&& (1 <<< UInt8.ofNat index) != 0

def setWordBit (byte : UInt8) (index : Fin 8) (value : Bool) : UInt8 :=
  if value then byte ||| (1 <<< UInt8.ofNat index) else byte &&& ~~~(1 <<< UInt8.ofNat index)

/-- Copies the header of a frame into the packet. -/
def copyHeader (header : Bytes) (h : Bytes) : Bytes :=
  putField header 0 smurfHeaderLength h

-----------------------------------------------------------------------------------------
-- Header word offsets, and the control field's bit offsets
-----------------------------------------------------------------------------------------

abbrev headerVersionOffset : Nat := 0
abbrev headerCrateIDOffset : Nat := 1
abbrev headerSlotNumberOffset : Nat := 2
abbrev headerTimingConfigurationOffset : Nat := 3
abbrev headerNumberChannelOffset : Nat := 4
abbrev headerTESDACOffset : Nat := 8
abbrev headerUnixTimeOffset : Nat := 48
abbrev headerFluxRampIncrementOffset : Nat := 56
abbrev headerFluxRampOffsetOffset : Nat := 60
abbrev headerCounter0Offset : Nat := 64
abbrev headerCounter1Offset : Nat := 68
abbrev headerCounter2Offset : Nat := 72
abbrev headerAveragingResetBitsOffset : Nat := 80
abbrev headerFrameCounterOffset : Nat := 84
abbrev headerTESRelaySettingOffset : Nat := 88
abbrev headerExternalTimeClockOffset : Nat := 96
abbrev headerControlFieldOffset : Nat := 104
abbrev headerTestParametersOffset : Nat := 105
abbrev headerNumberRowsOffset : Nat := 112
abbrev headerNumberRowsReportedOffset : Nat := 114
abbrev headerRowLengthOffset : Nat := 120
abbrev headerDataRateOffset : Nat := 122

abbrev clearAvergaveBitOffset : Fin 8 := 0
abbrev disableStreamBitOffset : Fin 8 := 1
abbrev disableFileWriteBitOffset : Fin 8 := 2
abbrev readConfigEachCycleBitOffset : Fin 8 := 3

-----------------------------------------------------------------------------------------
-- Getters
-----------------------------------------------------------------------------------------

def getVersion (header : Bytes) : UInt8 :=
  getHeaderWord UInt8 header headerVersionOffset

def getCrateID (header : Bytes) : UInt8 :=
  getHeaderWord UInt8 header headerCrateIDOffset

def getSlotNumber (header : Bytes) : UInt8 :=
  getHeaderWord UInt8 header headerSlotNumberOffset

def getTimingConfiguration (header : Bytes) : UInt8 :=
  getHeaderWord UInt8 header headerTimingConfigurationOffset

def getNumberChannels (header : Bytes) : UInt32 :=
  getHeaderWord UInt32 header headerNumberChannelOffset

/-- Throws from index 16 on. -/
def getTESBias (header : Bytes) (index : Nat) : Except String Int32 :=
  TesBiasArray.getWord headerTESDACOffset header index

def getUnixTime (header : Bytes) : UInt64 :=
  getHeaderWord UInt64 header headerUnixTimeOffset

def getFluxRampIncrement (header : Bytes) : UInt32 :=
  getHeaderWord UInt32 header headerFluxRampIncrementOffset

def getFluxRampOffset (header : Bytes) : UInt32 :=
  getHeaderWord UInt32 header headerFluxRampOffsetOffset

def getCounter0 (header : Bytes) : UInt32 :=
  getHeaderWord UInt32 header headerCounter0Offset

def getCounter1 (header : Bytes) : UInt32 :=
  getHeaderWord UInt32 header headerCounter1Offset

def getCounter2 (header : Bytes) : UInt64 :=
  getHeaderWord UInt64 header headerCounter2Offset

def getAveragingResetBits (header : Bytes) : UInt32 :=
  getHeaderWord UInt32 header headerAveragingResetBitsOffset

def getFrameCounter (header : Bytes) : UInt32 :=
  getHeaderWord UInt32 header headerFrameCounterOffset

def getTESRelaySetting (header : Bytes) : UInt32 :=
  getHeaderWord UInt32 header headerTESRelaySettingOffset

def getExternalTimeClock (header : Bytes) : UInt64 :=
  getHeaderWord UInt64 header headerExternalTimeClockOffset

def getControlField (header : Bytes) : UInt8 :=
  getHeaderWord UInt8 header headerControlFieldOffset

def getClearAverageBit (header : Bytes) : Bool :=
  getWordBit (getHeaderWord UInt8 header headerControlFieldOffset) clearAvergaveBitOffset

def getDisableStreamBit (header : Bytes) : Bool :=
  getWordBit (getHeaderWord UInt8 header headerControlFieldOffset) disableStreamBitOffset

def getDisableFileWriteBit (header : Bytes) : Bool :=
  getWordBit (getHeaderWord UInt8 header headerControlFieldOffset) disableFileWriteBitOffset

def getReadConfigEachCycleBit (header : Bytes) : Bool :=
  getWordBit (getHeaderWord UInt8 header headerControlFieldOffset)
    readConfigEachCycleBitOffset

def getTestMode (header : Bytes) : UInt8 :=
  (getHeaderWord UInt8 header headerControlFieldOffset >>> 4) &&& 0x0f

def getTestParameters (header : Bytes) : UInt8 :=
  getHeaderWord UInt8 header headerTestParametersOffset

def getNumberRows (header : Bytes) : UInt16 :=
  getHeaderWord UInt16 header headerNumberRowsOffset

def getNumberRowsReported (header : Bytes) : UInt16 :=
  getHeaderWord UInt16 header headerNumberRowsReportedOffset

def getRowLength (header : Bytes) : UInt16 :=
  getHeaderWord UInt16 header headerRowLengthOffset

def getDataRate (header : Bytes) : UInt16 :=
  getHeaderWord UInt16 header headerDataRateOffset

-----------------------------------------------------------------------------------------
-- Setters
-----------------------------------------------------------------------------------------

def setVersion (header : Bytes) (value : UInt8) : Bytes :=
  setHeaderWord header headerVersionOffset value

def setCrateID (header : Bytes) (value : UInt8) : Bytes :=
  setHeaderWord header headerCrateIDOffset value

def setSlotNumber (header : Bytes) (value : UInt8) : Bytes :=
  setHeaderWord header headerSlotNumberOffset value

def setTimingConfiguration (header : Bytes) (value : UInt8) : Bytes :=
  setHeaderWord header headerTimingConfigurationOffset value

def setNumberChannels (header : Bytes) (value : UInt32) : Bytes :=
  setHeaderWord header headerNumberChannelOffset value

/-- Throws from index 16 on. -/
def setTESBias (header : Bytes) (index : Nat) (value : Int32) : Except String Bytes :=
  TesBiasArray.setWord headerTESDACOffset header index value

def setUnixTime (header : Bytes) (value : UInt64) : Bytes :=
  setHeaderWord header headerUnixTimeOffset value

def setFluxRampIncrement (header : Bytes) (value : UInt32) : Bytes :=
  setHeaderWord header headerFluxRampIncrementOffset value

def setFluxRampOffset (header : Bytes) (value : UInt32) : Bytes :=
  setHeaderWord header headerFluxRampOffsetOffset value

def setCounter0 (header : Bytes) (value : UInt32) : Bytes :=
  setHeaderWord header headerCounter0Offset value

def setCounter1 (header : Bytes) (value : UInt32) : Bytes :=
  setHeaderWord header headerCounter1Offset value

def setCounter2 (header : Bytes) (value : UInt64) : Bytes :=
  setHeaderWord header headerCounter2Offset value

def setAveragingResetBits (header : Bytes) (value : UInt32) : Bytes :=
  setHeaderWord header headerAveragingResetBitsOffset value

def setFrameCounter (header : Bytes) (value : UInt32) : Bytes :=
  setHeaderWord header headerFrameCounterOffset value

def setTESRelaySetting (header : Bytes) (value : UInt32) : Bytes :=
  setHeaderWord header headerTESRelaySettingOffset value

def setExternalTimeClock (header : Bytes) (value : UInt64) : Bytes :=
  setHeaderWord header headerExternalTimeClockOffset value

def setControlField (header : Bytes) (value : UInt8) : Bytes :=
  setHeaderWord header headerControlFieldOffset value

def setClearAverageBit (header : Bytes) (value : Bool) : Bytes :=
  setHeaderWord header headerControlFieldOffset
    (setWordBit (getControlField header) clearAvergaveBitOffset value)

def setDisableStreamBit (header : Bytes) (value : Bool) : Bytes :=
  setHeaderWord header headerControlFieldOffset
    (setWordBit (getControlField header) disableStreamBitOffset value)

def setDisableFileWriteBit (header : Bytes) (value : Bool) : Bytes :=
  setHeaderWord header headerControlFieldOffset
    (setWordBit (getControlField header) disableFileWriteBitOffset value)

def setReadConfigEachCycleBit (header : Bytes) (value : Bool) : Bytes :=
  setHeaderWord header headerControlFieldOffset
    (setWordBit (getControlField header) readConfigEachCycleBitOffset value)

def setTestMode (header : Bytes) (value : UInt8) : Bytes :=
  let u8 := getControlField header &&& 0x0f
  setHeaderWord header headerControlFieldOffset (u8 ||| ((value <<< 4) &&& 0xf0))

def setTestParameters (header : Bytes) (value : UInt8) : Bytes :=
  setHeaderWord header headerTestParametersOffset value

def setNumberRows (header : Bytes) (value : UInt16) : Bytes :=
  setHeaderWord header headerNumberRowsOffset value

def setNumberRowsReported (header : Bytes) (value : UInt16) : Bytes :=
  setHeaderWord header headerNumberRowsReportedOffset value

def setRowLength (header : Bytes) (value : UInt16) : Bytes :=
  setHeaderWord header headerRowLengthOffset value

def setDataRate (header : Bytes) (value : UInt16) : Bytes :=
  setHeaderWord header headerDataRateOffset value

-----------------------------------------------------------------------------------------
-- Words and control bits as fields of bits
-----------------------------------------------------------------------------------------

/-- The bits of the control field from bit `first` on. -/
def controlSpan (first length : Nat) : Span :=
  ⟨8 * headerControlFieldOffset + first, length⟩

@[simp] theorem controlSpan_start (first length : Nat)
    : (controlSpan first length).start = 832 + first :=
  rfl

@[simp] theorem controlSpan_length (first length : Nat)
    : (controlSpan first length).length = length :=
  rfl

theorem toNat_getHeaderWord (header : Bytes) (offset : Nat)
    : HeaderWord.toNat (getHeaderWord T header offset)
      = field header (.ofBytes offset (HeaderWord.size T)) := by
  rw [getHeaderWord, HeaderWord.toNat_ofNat, field_ofBytes, Nat.mod_eq_of_lt (word_lt ..)]

/-- A word only depends on its own bytes. -/
theorem getHeaderWord_congr {header other : Bytes} (same : SameHeader header other)
    {offset : Nat} (inside : offset + HeaderWord.size T ≤ smurfHeaderLength)
    : getHeaderWord T header offset = getHeaderWord T other offset := by
  rw [getHeaderWord, getHeaderWord, word_congr (fun k less => same _ (by omega))]

theorem stores_setHeaderWord (header : Bytes) (offset : Nat) (value : T)
    : Stores header (setHeaderWord header offset value)
        (.ofBytes offset (HeaderWord.size T)) (HeaderWord.toNat value) :=
  stores_putField _ _ _ _

/-- The single-bit mask of an index, and its complement. -/
theorem testBit_mask (index : Fin 8) {j : Nat} (inside : j < 8)
    : ((1 : UInt8) <<< UInt8.ofNat index).toNat.testBit j = decide (j = index)
      ∧ (~~~((1 : UInt8) <<< UInt8.ofNat index)).toNat.testBit j = decide (j ≠ index) := by
  revert j
  revert index
  decide

theorem getWordBit_eq (byte : UInt8) (index : Fin 8)
    : getWordBit byte index = byte.toNat.testBit index := by
  have mask : ∀ i : Fin 8, ((1 : UInt8) <<< UInt8.ofNat i).toNat = 2 ^ i.val := by decide
  rw [getWordBit, Bool.eq_iff_iff, bne_iff_ne, ne_eq, ← UInt8.toNat_inj, UInt8.toNat_and,
    mask index, Nat.and_two_pow]
  cases byte.toNat.testBit index <;> simp

/-- Setting a bit of a byte leaves the others. -/
theorem testBit_setWordBit (byte : UInt8) (index : Fin 8) (value : Bool) {j : Nat}
    (inside : j < 8)
    : (setWordBit byte index value).toNat.testBit j
      = if j = index then value else byte.toNat.testBit j := by
  obtain ⟨mask, others⟩ := testBit_mask index inside
  cases value with
  | true =>
      rw [setWordBit, if_pos rfl, UInt8.toNat_or, Nat.testBit_or, mask]
      by_cases here : j = index
      · simp [here]
      · simp [here]
  | false =>
      rw [setWordBit, if_neg Bool.false_ne_true, UInt8.toNat_and, Nat.testBit_and, others]
      by_cases here : j = index
      · simp [here]
      · simp [here]

theorem testBit_getControlField (header : Bytes) (j : Nat)
    : (getControlField header).toNat.testBit j
      = (decide (j < 8) && bit header (8 * headerControlFieldOffset + j)) := by
  have asField : (getControlField header).toNat = field header (.ofBytes 104 1) :=
    toNat_getHeaderWord (T := UInt8) header 104
  rw [asField, testBit_field]
  rfl

theorem getWordBit_getControlField (header : Bytes) (index : Fin 8)
    : getWordBit (getControlField header) index
      = bit header (8 * headerControlFieldOffset + index) := by
  rw [getWordBit_eq, testBit_getControlField]
  simp

/-- The test mode is the upper half of the control field. -/
theorem toNat_getTestMode (header : Bytes)
    : (getTestMode header).toNat = field header (controlSpan 4 4) := by
  have masks : ∀ j < 8, Nat.testBit 0x0f j = decide (j < 4) := by decide
  apply Nat.eq_of_testBit_eq
  intro j
  have shifted
      : (getControlField header >>> 4).toNat = (getControlField header).toNat >>> 4 :=
    rfl
  have bits
      : (getTestMode header).toNat.testBit j
        = ((getControlField header).toNat.testBit (4 + j) && Nat.testBit 0x0f j) := by
    rw [← Nat.testBit_shiftRight, ← shifted, ← Nat.testBit_and]
    rfl
  rw [bits, testBit_getControlField, testBit_field, controlSpan]
  by_cases low : j < 4
  · rw [masks j (by omega), ← Nat.add_assoc]
    simp [low, show 4 + j < 8 by omega]
  · simp [low, show ¬ 4 + j < 8 by omega]

/-- Writing a control byte that differs from the old one in some bits alone stores those
bits.
-/
theorem stores_setControlField (header : Bytes) (u8 : UInt8) {first length value : Nat}
    (inside : first + length ≤ 8)
    (bits
      : ∀ j < 8,
          u8.toNat.testBit j
          = if first ≤ j ∧ j < first + length then value.testBit (j - first)
            else (getControlField header).toNat.testBit j)
    : Stores header (setControlField header u8) (controlSpan first length) value := by
  have whole : Stores header (setControlField header u8) ⟨832, 8⟩ u8.toNat :=
    stores_setHeaderWord header 104 u8
  have covers : Span.Covers ⟨832, 8⟩ (controlSpan first length) := by
    simp only [Span.Covers, controlSpan_start, controlSpan_length]
    omega
  refine whole.narrow covers (fun k within => ?_)
  obtain ⟨from_, upto⟩ : 832 ≤ k ∧ k < 832 + 8 := within
  obtain ⟨j, rfl⟩ : ∃ j, k = 832 + j := ⟨k - 832, by omega⟩
  have j_lt : j < 8 := by omega
  show u8.toNat.testBit (832 + j - 832) = _
  rw [Nat.add_sub_cancel_left, bits j j_lt, testBit_getControlField, decide_eq_true j_lt,
    Bool.true_and]
  by_cases here : first ≤ j ∧ j < first + length
  · have inner : (controlSpan first length).Contains (832 + j) := by
      simp only [Span.Contains, controlSpan_start, controlSpan_length]
      omega
    rw [if_pos here, if_pos inner, controlSpan_start, Nat.add_sub_add_left]
  · have outer : ¬ (controlSpan first length).Contains (832 + j) := by
      simp only [Span.Contains, controlSpan_start, controlSpan_length]
      omega
    rw [if_neg here, if_neg outer]
    rfl

theorem stores_setWordBit (header : Bytes) (index : Fin 8) (value : Bool)
    : Stores header (setControlField header (setWordBit (getControlField header) index value))
        (controlSpan index 1) value.toNat := by
  refine stores_setControlField header _ (by omega) (fun j inside => ?_)
  rw [testBit_setWordBit _ _ _ inside]
  by_cases here : j = index.val
  · rw [if_pos here, if_pos (by omega), here, Nat.sub_self]
    cases value <;> rfl
  · rw [if_neg here, if_neg (by omega)]

theorem stores_setTestMode (header : Bytes) (value : UInt8)
    : Stores header (setTestMode header value) (controlSpan 4 4) value.toNat := by
  refine stores_setControlField header _ (by omega) (fun j inside => ?_)
  have shifted : (value <<< 4).toNat = (value.toNat <<< 4) % 2 ^ 8 := rfl
  rw [UInt8.or_comm, TesBiasArray.testBit_highHalf_lowHalf _ _ inside, shifted]
  by_cases lower : j < 4
  · rw [if_pos lower, if_neg (by omega)]
  · rw [if_neg lower, if_pos (by omega), Nat.testBit_mod_two_pow, Nat.testBit_shiftLeft]
    simp [inside, show 4 ≤ j by omega]

end SmurfPacket

end Smurf
