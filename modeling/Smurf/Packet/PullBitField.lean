import Smurf.Packet.Codecs

/-! `pull_bit_field` gives back what `put_field` wrote.
The field's bytes are copied into a word that nothing has set, and the rest is masked off. A
field as wide as the word shifts the mask's bit by the word's size, which is undefined.
-/

namespace Smurf

open ByteMemory

/-- `x << n`, which is undefined from the size of the word on. -/
def shiftLeft? (x n : UInt64) : Option UInt64 :=
  if n < 64 then some (x <<< n) else none

/-- The word `x` with the `width` bytes from `offset` on copied over its first ones. -/
def copyOver (x : UInt64) (header : Bytes) (offset width : Nat) : UInt64 :=
  UInt64.ofNat
    (word (putField (littleEndian x.toNat) 0 width (fun k => header (offset + k))) 0 8)

/-- The function statement by statement, from what the word holds before it is set; none where
it does something undefined.
-/
def pullBitField? (x : UInt64) (header : Bytes) (field : HeaderField) : Option UInt64 :=
  -- a wider field is reported, but then copied over the end of the word all the same
  if 8 < field.width then none
  else do
    let r := (← shiftLeft? 1 (UInt64.ofNat (field.width * 8))) - 1
    let x := copyOver x header field.offset field.width
    let tmp := r &&& x
    return r &&& tmp

/-- No byte is in both fields. -/
def HeaderField.Disjoint (field other : HeaderField) : Prop :=
  field.offset + field.width ≤ other.offset ∨ other.offset + other.width ≤ field.offset

instance (field other : HeaderField) : Decidable (field.Disjoint other) :=
  inferInstanceAs (Decidable (_ ∨ _))

/-- The field is pulled as the value put, whatever the word held. -/
def PullsBack (header : Bytes) (field : HeaderField) (value : UInt64) : Prop :=
  ∀ x,
    pullBitField? x (putField header field.offset field.width (littleEndian value.toNat)) field
    = some (UInt64.ofNat (value.toNat % 2 ^ (8 * field.width)))

/-- Another field is pulled as it was before, whatever the word held. -/
def PullsAlike (header : Bytes) (field other : HeaderField) (value : UInt64) : Prop :=
  ∀ x y,
    ∃ before,
      pullBitField? x header other = some before
      ∧ pullBitField? y
          (putField header field.offset field.width (littleEndian value.toNat)) other
        = some before

-----------------------------------------------------------------------------------------
-- The copied word
-----------------------------------------------------------------------------------------

/-- The bits of the field come from its bytes, and those behind it stay. -/
theorem testBit_copyOver (x : UInt64) (header : Bytes) (offset : Nat) {width j : Nat}
    (inside : j < 8 * width) (fits : j < 64)
    : (copyOver x header offset width).toNat.testBit j = (word header offset width).testBit j := by
  have here : 8 * 0 + j = 8 * (j / 8) + j % 8 := by omega
  have there : 8 * offset + j = 8 * (offset + j / 8) + j % 8 := by omega
  have low : j % 8 < 8 := Nat.mod_lt j (by decide)
  rw [copyOver, UInt64.toNat_ofNat', Nat.testBit_mod_two_pow, testBit_word, testBit_word, here,
    there, bit_eq_testBit _ _ low, bit_eq_testBit _ _ low, putField,
    if_pos ⟨Nat.zero_le _, by omega⟩, Nat.sub_zero]
  simp [inside, fits]

/-- Up to seven bytes, nothing is undefined, and what the word held is masked off. -/
theorem pullBitField?_of_narrow (x : UInt64) (header : Bytes) {field : HeaderField}
    (narrow : field.width < 8)
    : pullBitField? x header field = some (pullBitField header field) := by
  have amount : UInt64.ofNat (field.width * 8) < 64 := by
    rw [UInt64.lt_iff_toNat_lt, UInt64.toNat_ofNat']
    show _ < 64
    omega
  rw [pullBitField?, if_neg (by omega), shiftLeft?, if_pos amount, pullBitField]
  refine congrArg some (UInt64.toNat_inj.mp (Nat.eq_of_testBit_eq (fun j => ?_)))
  simp only [UInt64.toNat_and, toNat_mask narrow, Nat.testBit_and, Nat.testBit_two_pow_sub_one]
  by_cases inside : j < 8 * field.width
  · rw [testBit_copyOver x header field.offset inside (by omega), UInt64.toNat_ofNat',
      Nat.testBit_mod_two_pow, decide_eq_true (show j < 64 by omega), Bool.true_and]
  · simp [inside]

/-- From eight bytes on, the shift is undefined. -/
theorem pullBitField?_of_wide (x : UInt64) (header : Bytes) {field : HeaderField}
    (wide : 8 ≤ field.width)
    : pullBitField? x header field = none := by
  rw [pullBitField?]
  split
  · rfl
  · have eight : field.width = 8 := by omega
    rw [eight]
    rfl

-----------------------------------------------------------------------------------------
-- Putting and pulling
-----------------------------------------------------------------------------------------

section Law

variable (header : Bytes) {field other : HeaderField} (value : UInt64)

/-- A field just put, of up to seven bytes. -/
theorem pullBitField_putField_self (narrow : field.width < 8)
    : pullBitField (putField header field.offset field.width (littleEndian value.toNat)) field
      = UInt64.ofNat (value.toNat % 2 ^ (8 * field.width)) := by
  have stored := (stores_putField header field.offset field.width value.toNat).field_self
  rw [field_ofBytes] at stored
  apply UInt64.toNat_inj.mp
  rw [toNat_pullBitField _ _ narrow, stored, UInt64.toNat_ofNat']
  exact (Nat.mod_eq_of_lt (lt_of_le_of_lt (Nat.mod_le ..) value.toNat_lt)).symm

theorem pullsBack_iff : PullsBack header field value ↔ field.width < 8 := by
  constructor
  · intro pulls
    by_contra wide
    have undefined := pulls 0
    rw [pullBitField?_of_wide _ _ (Nat.not_lt.mp wide)] at undefined
    cases undefined
  · intro narrow x
    rw [pullBitField?_of_narrow _ _ narrow, pullBitField_putField_self header value narrow]

theorem pullsAlike_iff (apart : field.Disjoint other)
    : PullsAlike header field other value ↔ other.width < 8 := by
  constructor
  · intro pulls
    by_contra wide
    obtain ⟨before, undefined, _⟩ := pulls 0 0
    rw [pullBitField?_of_wide _ _ (Nat.not_lt.mp wide)] at undefined
    cases undefined
  · intro narrow x y
    refine ⟨_, pullBitField?_of_narrow x header narrow, ?_⟩
    rw [pullBitField?_of_narrow _ _ narrow, pullBitField_putField_of_disjoint header _ apart]

/-- With the shift amount taken modulo the word's size, a field of eight bytes is masked off
whole.
-/
theorem pullBitField_of_eight (eight : field.width = 8) : pullBitField header field = 0 := by
  rw [pullBitField, eight]
  exact UInt64.zero_and

/-- For every header, pair of disjoint fields and value: the value put is pulled back and the
other field kept exactly when both fields are narrower than the word. Where the machine takes
the shift amount modulo the word's size, a field as wide as the word is pulled as zero, and
other fields are kept whatever their width.
-/
theorem putField_pullBitField_iff (width : field.width ≤ 8)
    (apart : field.Disjoint other)
    : (PullsBack header field value ∧ PullsAlike header field other value
        ↔ field.width < 8 ∧ other.width < 8)
      ∧ (pullBitField (putField header field.offset field.width (littleEndian value.toNat)) field
          = UInt64.ofNat (value.toNat % 2 ^ (8 * field.width))
        ↔ field.width < 8 ∨ value = 0)
      ∧ pullBitField (putField header field.offset field.width (littleEndian value.toNat)) other
        = pullBitField header other := by
  refine
    ⟨and_congr (pullsBack_iff header value) (pullsAlike_iff header value apart), ?_,
      pullBitField_putField_of_disjoint header _ apart⟩
  rcases Nat.lt_or_eq_of_le width with narrow | eight
  · exact
      ⟨fun _ => Or.inl narrow, fun _ => pullBitField_putField_self header value narrow⟩
  · rw [pullBitField_of_eight _ eight, eight,
      Nat.mod_eq_of_lt (show value.toNat < 2 ^ (8 * 8) from value.toNat_lt), UInt64.ofNat_toNat]
    exact
      ⟨fun zero => Or.inr zero.symm, fun either => (either.resolve_left (by decide)).symm⟩

end Law

/-- Three bytes of a larger value, beside the field behind them. -/
theorem putField_pullBitField_three_bytes
    : PullsBack (fun _ => 0xff) ⟨4, 3⟩ 0x123456789
      ∧ PullsAlike (fun _ => 0xff) ⟨4, 3⟩ ⟨7, 5⟩ 0x123456789 :=
  (@putField_pullBitField_iff (fun _ => 0xff) ⟨4, 3⟩ ⟨7, 5⟩ 0x123456789 (by decide)
    (by decide)).1.mpr (by decide)

/-- Eight bytes are not pulled back; the machine that takes the shift amount modulo the word's
size gives 0.
-/
theorem not_pullsBack_eight_bytes
    : ¬ PullsBack (fun _ => 0) ⟨0, 8⟩ 1
      ∧ pullBitField (putField (fun _ => 0) 0 8 (littleEndian 1)) ⟨0, 8⟩ = 0 := by
  refine ⟨fun pulls => ?_, by decide +kernel⟩
  have undefined := pulls 0
  rw [pullBitField?_of_wide _ _ (Nat.le_refl 8)] at undefined
  cases undefined

end Smurf
