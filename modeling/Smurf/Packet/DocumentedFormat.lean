import Smurf.Packet.SmurfPacket

/-! The documented packet header, and where the getters decode something else.
A field's value is the little-endian integer in the bytes the table of the packet gives it.
-/

namespace Smurf

open ByteMemory
open TesBiasArray (signExtend)

namespace SmurfPacket

/-- A getter, and the bytes of its field in the table. -/
structure DocumentedWord where
  get : Bytes → Nat
  offset : Nat
  length : Nat

/-- The fields that are integers as they stand. -/
def documentedWords : List DocumentedWord :=
  [⟨fun header => (getVersion header).toNat, 0, 1⟩,
    ⟨fun header => (getCrateID header).toNat, 1, 1⟩,
    ⟨fun header => (getSlotNumber header).toNat, 2, 1⟩,
    ⟨fun header => (getTimingConfiguration header).toNat, 3, 1⟩,
    ⟨fun header => (getNumberChannels header).toNat, 4, 4⟩,
    ⟨fun header => (getUnixTime header).toNat, 48, 8⟩,
    ⟨fun header => (getFluxRampIncrement header).toNat, 56, 4⟩,
    ⟨fun header => (getFluxRampOffset header).toNat, 60, 4⟩,
    ⟨fun header => (getCounter0 header).toNat, 64, 4⟩,
    ⟨fun header => (getCounter1 header).toNat, 68, 4⟩,
    ⟨fun header => (getCounter2 header).toNat, 72, 8⟩,
    ⟨fun header => (getAveragingResetBits header).toNat, 80, 4⟩,
    ⟨fun header => (getFrameCounter header).toNat, 84, 4⟩,
    ⟨fun header => (getTESRelaySetting header).toNat, 88, 4⟩,
    ⟨fun header => (getControlField header).toNat, 104, 1⟩,
    ⟨fun header => (getTestParameters header).toNat, 105, 1⟩,
    ⟨fun header => (getRowLength header).toNat, 120, 2⟩,
    ⟨fun header => (getDataRate header).toNat, 122, 2⟩]

/-- defaults to 33 if 0 -/
def documentedRows (header : Bytes) : Nat :=
  if word header 112 2 = 0 then 33 else word header 112 2

/-- defaults to the number of rows if 0 -/
def documentedRowsReported (header : Bytes) : Nat :=
  if word header 114 2 = 0 then documentedRows header else word header 114 2

/-- Every getter returns what the table gives its field. The TES words are signed. -/
structure DecodesDocumented (header : Bytes) : Prop where
  words : ∀ entry ∈ documentedWords, entry.get header = word header entry.offset entry.length
  tesBias
    : ∀ index < 16,
        getTESBias header index
        = .ok (signExtend (field header ⟨8 * 8 + 20 * index, 20⟩))
  externalTimeClock : (getExternalTimeClock header).toNat = word header 96 5
  clearAverage : getClearAverageBit header = (header 104).toNat.testBit 0
  disableStream : getDisableStreamBit header = (header 104).toNat.testBit 1
  disableFileWrite : getDisableFileWriteBit header = (header 104).toNat.testBit 2
  readConfigEachCycle : getReadConfigEachCycleBit header = (header 104).toNat.testBit 3
  testMode : (getTestMode header).toNat = (header 104).toNat / 2 ^ 4
  numberRows : (getNumberRows header).toNat = documentedRows header
  numberRowsReported : (getNumberRowsReported header).toNat = documentedRowsReported header

/-- The table has the two flux ramp fields signed. -/
structure DecodesSigns (header : Bytes) : Prop where
  increment
    : ((getFluxRampIncrement header).toNat : Int) = (BitVec.ofNat 32 (word header 56 4)).toInt
  offset : ((getFluxRampOffset header).toNat : Int) = (BitVec.ofNat 32 (word header 60 4)).toInt

section Getters

variable (header : Bytes)

theorem toNat_getHeaderWord_eq_word (T : Type) [HeaderWord T] (offset : Nat)
    : HeaderWord.toNat (getHeaderWord T header offset)
      = word header offset (HeaderWord.size T) :=
  (toNat_getHeaderWord header offset).trans (field_ofBytes ..)

theorem documentedWords_decode
    : ∀ entry ∈ documentedWords,
        entry.get header = word header entry.offset entry.length := by
  have reads (T : Type) [HeaderWord T] := toNat_getHeaderWord_eq_word header T
  simp only [documentedWords, List.forall_mem_cons]
  exact
    ⟨reads UInt8 0, reads UInt8 1, reads UInt8 2, reads UInt8 3, reads UInt32 4, reads UInt64 48,
      reads UInt32 56, reads UInt32 60, reads UInt32 64, reads UInt32 68, reads UInt64 72,
      reads UInt32 80, reads UInt32 84, reads UInt32 88, reads UInt8 104, reads UInt8 105,
      reads UInt16 120, reads UInt16 122, fun _ member => absurd member List.not_mem_nil⟩

/-- The load of eight bytes takes three more than the field has. -/
theorem getExternalTimeClock_iff
    : (getExternalTimeClock header).toNat = word header 96 5
      ↔ ∀ k < 3, header (101 + k) = 0 := by
  have read : (getExternalTimeClock header).toNat = word header 96 (5 + 3) :=
    toNat_getHeaderWord_eq_word header UInt64 96
  rw [read, word_add, Nat.add_eq_left, Nat.mul_eq_zero, or_iff_left (by decide),
    word_eq_zero_iff]

theorem getControlField_eq : getControlField header = header 104 := by
  have read : (getControlField header).toNat = 0 + (header 104).toNat * 1 :=
    toNat_getHeaderWord_eq_word header UInt8 104
  rw [← UInt8.toNat_inj, read, Nat.zero_add, Nat.mul_one]

theorem getWordBit_control (index : Fin 8)
    : getWordBit (getControlField header) index = (header 104).toNat.testBit index := by
  rw [getWordBit_eq, getControlField_eq]

theorem toNat_getTestMode_eq : (getTestMode header).toNat = (header 104).toNat / 2 ^ 4 := by
  have bits
      : (getTestMode header).toNat = ((getControlField header).toNat >>> 4) &&& (2 ^ 4 - 1) :=
    rfl
  have byte := (header 104).toNat_lt
  rw [bits, getControlField_eq, Nat.and_two_pow_sub_one_eq_mod, Nat.shiftRight_eq_div_pow]
  omega

theorem toNat_getNumberRows : (getNumberRows header).toNat = word header 112 2 :=
  toNat_getHeaderWord_eq_word header UInt16 112

theorem toNat_getNumberRowsReported : (getNumberRowsReported header).toNat = word header 114 2 :=
  toNat_getHeaderWord_eq_word header UInt16 114

theorem getNumberRows_iff
    : (getNumberRows header).toNat = documentedRows header ↔ word header 112 2 ≠ 0 := by
  rw [toNat_getNumberRows, documentedRows]
  split
  · next zero => simp [zero]
  · next stored => simp [stored]

/-- The default of the other field is never zero. -/
theorem getNumberRowsReported_iff
    : (getNumberRowsReported header).toNat = documentedRowsReported header
      ↔ word header 114 2 ≠ 0 := by
  have rows : documentedRows header ≠ 0 := by
    rw [documentedRows]
    split
    · decide
    · assumption
  rw [toNat_getNumberRowsReported, documentedRowsReported]
  split
  · next zero => simp [zero, rows.symm]
  · next stored => simp [stored]

/-- A word of four bytes without a sign is its signed value when its top bit is clear. -/
theorem toInt_word_iff (offset : Nat)
    : (word header offset 4 : Int) = (BitVec.ofNat 32 (word header offset 4)).toInt
      ↔ word header offset 4 < 2 ^ 31 := by
  have bound : word header offset 4 < 2 ^ 32 := word_lt header offset 4
  rw [BitVec.toInt_eq_toNat_cond, BitVec.toNat_ofNat, Nat.mod_eq_of_lt bound]
  split <;> omega

end Getters

/-- For every header: the getters decode the documented format exactly when the three bytes behind
the external clock are zero and neither of the row numbers is, and the signs of the flux ramp
fields exactly when these are not negative.
-/
theorem decodesDocumented_iff (header : Bytes)
    : (DecodesDocumented header
        ↔ (∀ k < 3, header (101 + k) = 0) ∧ word header 112 2 ≠ 0 ∧ word header 114 2 ≠ 0)
      ∧ (DecodesSigns header
        ↔ word header 56 4 < 2 ^ 31 ∧ word header 60 4 < 2 ^ 31) := by
  have increment : (getFluxRampIncrement header).toNat = word header 56 4 :=
    toNat_getHeaderWord_eq_word header UInt32 56
  have offset : (getFluxRampOffset header).toNat = word header 60 4 :=
    toNat_getHeaderWord_eq_word header UInt32 60
  constructor
  · constructor
    · intro decodes
      exact
        ⟨(getExternalTimeClock_iff header).mp decodes.externalTimeClock,
          (getNumberRows_iff header).mp decodes.numberRows,
          (getNumberRowsReported_iff header).mp decodes.numberRowsReported⟩
    · rintro ⟨clock, rows, reported⟩
      exact
        {
          words := documentedWords_decode header
          tesBias index inside := TesBiasArray.getWord_eq headerTESDACOffset header inside
          externalTimeClock := (getExternalTimeClock_iff header).mpr clock
          clearAverage := getWordBit_control header 0
          disableStream := getWordBit_control header 1
          disableFileWrite := getWordBit_control header 2
          readConfigEachCycle := getWordBit_control header 3
          testMode := toNat_getTestMode_eq header
          numberRows := (getNumberRows_iff header).mpr rows
          numberRowsReported := (getNumberRowsReported_iff header).mpr reported
        }
  · rw [← toInt_word_iff, ← toInt_word_iff]
    constructor
    · intro signs
      exact ⟨increment ▸ signs.increment, offset ▸ signs.offset⟩
    · rintro ⟨first, second⟩
      exact ⟨increment ▸ first, offset ▸ second⟩

/-- Row numbers left to their defaults, and something behind the external clock. -/
theorem not_decodesDocumented_zeros_ones
    : ¬ DecodesDocumented (fun _ => 0) ∧ ¬ DecodesDocumented (fun _ => 1) := by
  constructor
  · exact fun decodes => absurd decodes.numberRows (by decide)
  · exact fun decodes => absurd decodes.externalTimeClock (by decide)

end SmurfPacket

end Smurf
