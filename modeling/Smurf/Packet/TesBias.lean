import Mathlib.Logic.Function.Basic
import Smurf.Library.BitFields
import Smurf.Packet.Header

/-! The TES bias words: 16 signed words of 20 bits, two to every five bytes. -/

namespace Smurf

open ByteMemory

/-- 16 Tes Bias values -/
abbrev tesBiasCount : Nat := 16

namespace TesBiasArray

/-- The low 20 bits of a word, sign-extended. -/
def signExtend (word : Nat) : Int32 :=
  Int32.ofBitVec ((BitVec.ofNat 20 word).signExtend 32)

/-- Writes word `index` of the array at `pData`, leaving the half byte of its neighbour. -/
def putWord (pData : Nat) (memory : Bytes) (index : Nat) (value : Int32) : Bytes :=
  let block := pData + 5 * (index / 2)
  if index % 2 = 0 then
    let v := littleEndian value.toUInt32.toNat
    let memory := Function.update memory block (v 0)
    let memory := Function.update memory (block + 1) (v 1)
    Function.update memory (block + 2) (memory (block + 2) &&& 0xf0 ||| v 2 &&& 0x0f)
  else
    let b := block + 2
    let v := littleEndian (value <<< 4).toUInt32.toNat
    let memory := Function.update memory b (memory b &&& 0x0f ||| v 0 &&& 0xf0)
    let memory := Function.update memory (b + 1) (v 1)
    Function.update memory (b + 2) (v 2)

def setWord (pData : Nat) (memory : Bytes) (index : Nat) (value : Int32)
    : Except String Bytes :=
  if tesBiasCount ≤ index then
    .error "Trying to write a TES bias value in an address of out the buffer range."
  else .ok (putWord pData memory index value)

/-- Reads word `index` with a load of four bytes, of which 20 bits are kept. -/
def getWord (pData : Nat) (memory : Bytes) (index : Nat) : Except String Int32 :=
  if tesBiasCount ≤ index then
    .error "Trying to read a TES bias value in an address of out the buffer range."
  else
    let offset := if index % 2 = 0 then 0 else 2
    let shift := if index % 2 = 0 then 0 else 4
    .ok (signExtend (word memory (pData + 5 * (index / 2) + offset) 4 >>> shift))

/-- The bits of word `index`. -/
def wordSpan (pData index : Nat) : Span :=
  ⟨8 * pData + 20 * index, 20⟩

-----------------------------------------------------------------------------------------
-- Words as fields of bits
-----------------------------------------------------------------------------------------

theorem signExtend_mod (word : Nat) : signExtend (word % 2 ^ 20) = signExtend word := by
  have same : BitVec.ofNat 20 (word % 2 ^ 20) = BitVec.ofNat 20 word :=
    BitVec.eq_of_toNat_eq (by simp)
  rw [signExtend, signExtend, same]

theorem testBit_field_wordSpan (memory : Bytes) (pData index j : Nat)
    : (field memory (wordSpan pData index)).testBit j
      = (decide (j < 20) && bit memory (8 * pData + 20 * index + j)) :=
  testBit_field memory (wordSpan pData index) j

/-- Sign extension keeps the twenty bits. -/
theorem testBit_signExtend (word : Nat) {j : Nat} (low : j < 20)
    : (signExtend word).toUInt32.toNat.testBit j = word.testBit j := by
  show ((BitVec.ofNat 20 word).signExtend 32).getLsbD j = _
  rw [BitVec.getLsbD_signExtend, if_pos low, BitVec.getLsbD_ofNat]
  simp [low, show j < 32 by omega]

/-- Twenty bits of a loaded word, from the start of a byte or from its middle. -/
theorem word_shiftRight_mod (memory : Bytes) {offset shift start : Nat}
    (here : start = 8 * offset + shift) (room : shift ≤ 12)
    : (word memory offset 4 >>> shift) % 2 ^ 20 = field memory ⟨start, 20⟩ := by
  apply Nat.eq_of_testBit_eq
  intro j
  rw [Nat.testBit_mod_two_pow, Nat.testBit_shiftRight, testBit_word, testBit_field, here,
    ← Nat.add_assoc]
  by_cases low : j < 20
  · simp [low, show shift + j < 8 * 4 by omega]
  · simp [low]

/-- The words are read from their 20 bits alone. -/
theorem getWord_eq (pData : Nat) (memory : Bytes) {index : Nat} (inside : index < tesBiasCount)
    : getWord pData memory index = .ok (signExtend (field memory (wordSpan pData index))) := by
  rw [getWord, if_neg (by omega), wordSpan]
  rcases Nat.mod_two_eq_zero_or_one index with even | odd
  · simp only [even, if_true]
    rw [← signExtend_mod, word_shiftRight_mod memory _ (by omega)]
    omega
  · simp only [odd, Nat.one_ne_zero, if_false]
    rw [← signExtend_mod, word_shiftRight_mod memory _ (by omega)]
    omega

theorem bit_update (memory : Bytes) (address : Nat) (byte : UInt8) (k : Nat)
    : bit (Function.update memory address byte) k
      = if k / 8 = address then byte.toNat.testBit (k % 8) else bit memory k := by
  rw [bit, Function.update_apply]
  split <;> rfl

/-- The low half of one byte behind the high half of another. -/
theorem testBit_highHalf_lowHalf (high low : UInt8) {j : Nat} (inside : j < 8)
    : (high &&& 0xf0 ||| low &&& 0x0f).toNat.testBit j
      = if j < 4 then low.toNat.testBit j else high.toNat.testBit j := by
  have masks
      : ∀ j < 8, Nat.testBit 0xf0 j = decide (4 ≤ j) ∧ Nat.testBit 0x0f j = decide (j < 4) := by
    decide
  rw [UInt8.toNat_or, UInt8.toNat_and, UInt8.toNat_and, Nat.testBit_or, Nat.testBit_and,
    Nat.testBit_and]
  show (_ && Nat.testBit 0xf0 j || _ && Nat.testBit 0x0f j) = _
  rw [(masks j inside).1, (masks j inside).2]
  by_cases lower : j < 4
  · simp [lower, show ¬ 4 ≤ j by omega]
  · simp [lower, show 4 ≤ j by omega]

/-- The word of a block's upper half is shifted to its place before it is written. -/
theorem testBit_shiftLeft (value : Int32) {j : Nat} (from_ : 4 ≤ j) (inside : j < 32)
    : (value <<< 4).toUInt32.toNat.testBit j = value.toUInt32.toNat.testBit (j - 4) := by
  have shifted : (value <<< 4).toUInt32.toNat = (value.toUInt32.toNat <<< 4) % 2 ^ 32 := rfl
  rw [shifted, Nat.testBit_mod_two_pow, Nat.testBit_shiftLeft]
  simp [from_, inside]

/-- A word is written into its own 20 bits: by cases on which half of its block it is, and
on the byte a bit lies in.
-/
theorem stores_putWord (pData : Nat) (memory : Bytes) (index : Nat) (value : Int32)
    : Stores memory (putWord pData memory index value) (wordSpan pData index)
        value.toUInt32.toNat := by
  have low (k : Nat) : k % 8 < 8 := Nat.mod_lt k (by decide)
  rcases Nat.mod_two_eq_zero_or_one index with even | odd
  · have start : 8 * pData + 20 * index = 8 * (pData + 5 * (index / 2)) := by omega
    simp only [putWord, even, if_true, wordSpan, start]
    generalize pData + 5 * (index / 2) = block
    refine .of_inside_outside (fun k here => ?_) (fun k elsewhere => ?_)
    · simp only [Span.Contains] at here
      simp only [bit_update]
      by_cases third : k / 8 = block + 2
      · rw [if_pos third, testBit_highHalf_lowHalf _ _ (low k), if_pos (by omega),
          testBit_littleEndian _ _ (low k), show 8 * 2 + k % 8 = k - 8 * block by omega]
      · by_cases second : k / 8 = block + 1
        · rw [if_neg third, if_pos second, testBit_littleEndian _ _ (low k),
            show 8 * 1 + k % 8 = k - 8 * block by omega]
        · rw [if_neg third, if_neg second, if_pos (by omega), testBit_littleEndian _ _ (low k),
            show 8 * 0 + k % 8 = k - 8 * block by omega]
    · simp only [Span.Contains] at elsewhere
      simp only [bit_update]
      by_cases third : k / 8 = block + 2
      · rw [if_pos third, testBit_highHalf_lowHalf _ _ (low k), if_neg (by omega),
          Function.update_of_ne (by omega), Function.update_of_ne (by omega), bit, third]
      · rw [if_neg third, if_neg (by omega), if_neg (by omega)]
  · have start : 8 * pData + 20 * index = 8 * (pData + 5 * (index / 2)) + 20 := by omega
    simp only [putWord, odd, Nat.one_ne_zero, if_false, wordSpan, start]
    generalize pData + 5 * (index / 2) = block
    refine .of_inside_outside (fun k here => ?_) (fun k elsewhere => ?_)
    · simp only [Span.Contains] at here
      simp only [bit_update]
      by_cases last : k / 8 = block + 2 + 2
      · rw [if_pos last, testBit_littleEndian _ _ (low k),
          testBit_shiftLeft _ (by omega) (by omega),
          show 8 * 2 + k % 8 - 4 = k - (8 * block + 20) by omega]
      · by_cases middle : k / 8 = block + 2 + 1
        · rw [if_neg last, if_pos middle, testBit_littleEndian _ _ (low k),
            testBit_shiftLeft _ (by omega) (by omega),
            show 8 * 1 + k % 8 - 4 = k - (8 * block + 20) by omega]
        · rw [if_neg last, if_neg middle, if_pos (by omega), UInt8.or_comm,
            testBit_highHalf_lowHalf _ _ (low k), if_neg (by omega),
            testBit_littleEndian _ _ (low k), testBit_shiftLeft _ (by omega) (by omega),
            show 8 * 0 + k % 8 - 4 = k - (8 * block + 20) by omega]
    · simp only [Span.Contains] at elsewhere
      simp only [bit_update]
      by_cases shared : k / 8 = block + 2
      · rw [if_neg (by omega), if_neg (by omega), if_pos shared, UInt8.or_comm,
          testBit_highHalf_lowHalf _ _ (low k), if_pos (by omega), bit, shared]
      · rw [if_neg (by omega), if_neg (by omega), if_neg shared]

/-- Word `index` of an array copied into a header is word `index` of the array. -/
theorem field_putField (header words : Bytes) {index : Nat} (inside : index < tesBiasCount)
    : field (putField header hTesDac.offset hTesDac.width words)
        (wordSpan hTesDac.offset index)
      = field words (wordSpan 0 index) := by
  apply Nat.eq_of_testBit_eq
  intro j
  rw [testBit_field_wordSpan, testBit_field_wordSpan]
  by_cases low : j < 20
  · have moved
        : 8 * hTesDac.offset + 20 * index + j
          = 8 * (8 + (20 * index + j) / 8) + (20 * index + j) % 8 := by
      show 8 * 8 + 20 * index + j = _
      omega
    have here : 8 * 0 + 20 * index + j = 8 * ((20 * index + j) / 8) + (20 * index + j) % 8 := by
      omega
    rw [moved, here, bit_eq_testBit _ _ (by omega), bit_eq_testBit _ _ (by omega), putField,
      if_pos ⟨Nat.le_add_right .., by show _ < 8 + 40; unfold tesBiasCount at inside; omega⟩]
    rw [show 8 + (20 * index + j) / 8 - hTesDac.offset = (20 * index + j) / 8 from
      Nat.add_sub_cancel_left ..]
  · simp [low]

end TesBiasArray

end Smurf
