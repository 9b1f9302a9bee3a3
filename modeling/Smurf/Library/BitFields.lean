import Mathlib.Data.Nat.Bitwise
import Smurf.Library.ByteMemory

/-! Fields of bits in byte memory.
Bit `k` of the memory is bit `k % 8` of byte `k / 8`, so a field that starts or ends inside
a byte is an interval of bits like any other. A store is described by the bits it leaves.
-/

namespace ByteMemory

/-- An interval of bits. -/
structure Span where
  start : Nat
  length : Nat
  deriving DecidableEq

namespace Span

/-- The bits of the bytes from `offset` on. -/
def ofBytes (offset width : Nat) : Span :=
  ⟨8 * offset, 8 * width⟩

def Contains (span : Span) (k : Nat) : Prop :=
  span.start ≤ k ∧ k < span.start + span.length

def Covers (outer inner : Span) : Prop :=
  outer.start ≤ inner.start
  ∧ inner.start + inner.length ≤ outer.start + outer.length

def Disjoint (span other : Span) : Prop :=
  span.start + span.length ≤ other.start ∨ other.start + other.length ≤ span.start

theorem Disjoint.symm {span other : Span} (apart : span.Disjoint other) : other.Disjoint span :=
  Or.symm apart

instance (span : Span) (k : Nat) : Decidable (span.Contains k) :=
  inferInstanceAs (Decidable (_ ∧ _))

instance (outer inner : Span) : Decidable (outer.Covers inner) :=
  inferInstanceAs (Decidable (_ ∧ _))

instance (span other : Span) : Decidable (span.Disjoint other) :=
  inferInstanceAs (Decidable (_ ∨ _))

end Span

def bit (memory : Bytes) (k : Nat) : Bool :=
  (memory (k / 8)).toNat.testBit (k % 8)

/-- Bit `j` of the byte at an address. -/
theorem bit_eq_testBit (memory : Bytes) (address : Nat) {j : Nat} (inside : j < 8)
    : bit memory (8 * address + j) = (memory address).toNat.testBit j := by
  rw [bit, show (8 * address + j) / 8 = address by omega,
    show (8 * address + j) % 8 = j by omega]

/-- Memories that agree in all bits of a byte agree in the byte. -/
theorem eq_of_bit_eq {memory other : Bytes} {address : Nat}
    (same : ∀ j < 8, bit memory (8 * address + j) = bit other (8 * address + j))
    : memory address = other address := by
  apply UInt8.toNat_inj.mp
  apply Nat.eq_of_testBit_eq
  intro j
  by_cases inside : j < 8
  · rw [← bit_eq_testBit _ _ inside, ← bit_eq_testBit _ _ inside, same j inside]
  · have big : 2 ^ 8 ≤ 2 ^ j := Nat.pow_le_pow_right (by decide) (by omega)
    have lt (b : UInt8) : b.toNat < 2 ^ j := lt_of_lt_of_le b.toNat_lt big
    rw [Nat.testBit_lt_two_pow (lt _), Nat.testBit_lt_two_pow (lt _)]

-----------------------------------------------------------------------------------------
-- Reading
-----------------------------------------------------------------------------------------

/-- A word is less than the power its bytes have room for. -/
theorem word_lt (memory : Bytes) (offset width : Nat)
    : word memory offset width < 256 ^ width := by
  induction width with
  | zero => simp [word]
  | succ width ih =>
      have byte : (memory (offset + width)).toNat ≤ 255 := Nat.le_of_lt_succ (UInt8.toNat_lt _)
      have room := Nat.mul_le_mul_right (256 ^ width) byte
      rw [word, pow_succ]
      omega

/-- The low bytes of a word are the word of its first bytes. -/
theorem word_mod (memory : Bytes) (offset low high : Nat)
    : word memory offset (low + high) % 256 ^ low = word memory offset low := by
  rw [word_add, Nat.add_mul_mod_self_right, Nat.mod_eq_of_lt (word_lt ..)]

/-- The bits of a word are those of its bytes, by induction on its width. -/
theorem testBit_word (memory : Bytes) (offset width j : Nat)
    : (word memory offset width).testBit j
      = (decide (j < 8 * width) && bit memory (8 * offset + j)) := by
  induction width with
  | zero => simp [word]
  | succ width ih =>
      have low : word memory offset width < 2 ^ (8 * width) := by
        rw [Nat.pow_mul]
        exact word_lt memory offset width
      have split
          : word memory offset (width + 1)
            = 2 ^ (8 * width) * (memory (offset + width)).toNat + word memory offset width := by
        rw [word, Nat.pow_mul, Nat.add_comm, Nat.mul_comm]
      rw [split, Nat.testBit_two_pow_mul_add _ low]
      by_cases below : j < 8 * width
      · rw [if_pos below, ih]
        simp [below, show j < 8 * (width + 1) by omega]
      · rw [if_neg below]
        by_cases inside : j < 8 * (width + 1)
        · have here : 8 * offset + j = 8 * (offset + width) + (j - 8 * width) := by omega
          rw [here, bit_eq_testBit _ _ (by omega)]
          simp [inside]
        · have big : 2 ^ 8 ≤ 2 ^ (j - 8 * width) :=
            Nat.pow_le_pow_right (by decide) (by omega)
          rw [Nat.testBit_lt_two_pow (lt_of_lt_of_le (UInt8.toNat_lt _) big)]
          simp [inside]

/-- The number in an interval of bits, lowest bit first: the bytes it lies in are read, and
the bits outside cut off.
-/
def field (memory : Bytes) (span : Span) : Nat :=
  (word memory (span.start / 8) ((span.start % 8 + span.length + 7) / 8) >>> (span.start % 8))
    % 2 ^ span.length

theorem field_lt (memory : Bytes) (span : Span) : field memory span < 2 ^ span.length :=
  Nat.mod_lt _ (Nat.two_pow_pos _)

theorem testBit_field (memory : Bytes) (span : Span) (j : Nat)
    : (field memory span).testBit j
      = (decide (j < span.length) && bit memory (span.start + j)) := by
  rw [field, Nat.testBit_mod_two_pow, Nat.testBit_shiftRight, testBit_word]
  by_cases inside : j < span.length
  · have here : 8 * (span.start / 8) + (span.start % 8 + j) = span.start + j := by omega
    simp only [inside, here, decide_true, Bool.true_and, Bool.and_eq_right_iff_imp,
      decide_eq_true_eq]
    omega
  · simp [inside]

/-- The words of the bytes from an offset on are fields. -/
theorem field_ofBytes (memory : Bytes) (offset width : Nat)
    : field memory (.ofBytes offset width) = word memory offset width := by
  apply Nat.eq_of_testBit_eq
  intro j
  rw [testBit_field, testBit_word]
  rfl

theorem field_zeros (span : Span) : field (fun _ => 0) span = 0 := by
  have zero (k : Nat) : bit (fun _ => 0) k = false := Nat.zero_testBit _
  apply Nat.eq_of_testBit_eq
  intro j
  rw [testBit_field, zero, Bool.and_false, Nat.zero_testBit]

/-- A field of one bit is that bit. -/
theorem field_bit (memory : Bytes) (k : Nat) : field memory ⟨k, 1⟩ = (bit memory k).toNat := by
  apply Nat.eq_of_testBit_eq
  intro j
  rw [testBit_field]
  cases j with
  | zero => cases bit memory k <;> simp_all
  | succ j => cases bit memory k <;> simp [Nat.testBit_succ]

/-- A field only depends on its own bits. -/
theorem field_congr {memory other : Bytes} {span : Span}
    (same : ∀ k, span.Contains k → bit memory k = bit other k)
    : field memory span = field other span := by
  apply Nat.eq_of_testBit_eq
  intro j
  rw [testBit_field, testBit_field]
  by_cases inside : j < span.length
  · rw [same _ ⟨by omega, by omega⟩]
  · simp [inside]

-----------------------------------------------------------------------------------------
-- Storing
-----------------------------------------------------------------------------------------

/-- `after` is `before` with the low bits of `value` in an interval of bits. -/
def Stores (before after : Bytes) (span : Span) (value : Nat) : Prop :=
  ∀ k,
    bit after k
    = if span.Contains k then value.testBit (k - span.start) else bit before k

theorem Stores.of_inside_outside {before after : Bytes} {span : Span} {value : Nat}
    (inside : ∀ k, span.Contains k → bit after k = value.testBit (k - span.start))
    (outside : ∀ k, ¬ span.Contains k → bit after k = bit before k)
    : Stores before after span value := by
  intro k
  split
  · next here => exact inside k here
  · next elsewhere => exact outside k elsewhere

/-- Nothing is stored in an interval of no bits. -/
theorem Stores.nothing (memory : Bytes) (start value : Nat)
    : Stores memory memory ⟨start, 0⟩ value := by
  intro k
  rw [if_neg (fun inside => by obtain ⟨_, _⟩ := inside; simp_all; omega)]

variable {before after other : Bytes} {span inner : Span} {value : Nat}

theorem Stores.field_of_disjoint (stores : Stores before after span value)
    (apart : span.Disjoint inner)
    : field after inner = field before inner := by
  refine field_congr (fun k inside => ?_)
  rw [stores k, if_neg]
  rintro ⟨from_, upto⟩
  obtain ⟨_, _⟩ := inside
  rcases apart with _ | _ <;> omega

theorem Stores.field_self (stores : Stores before after span value)
    : field after span = value % 2 ^ span.length := by
  apply Nat.eq_of_testBit_eq
  intro j
  rw [testBit_field, Nat.testBit_mod_two_pow, stores]
  by_cases inside : j < span.length
  · rw [if_pos ⟨by omega, by omega⟩, Nat.add_sub_cancel_left]
  · simp [inside]

/-- A field inside the stored interval holds its part of the value. -/
theorem Stores.field_of_covers (stores : Stores before after span value)
    (covers : span.Covers inner)
    : field after inner = (value >>> (inner.start - span.start)) % 2 ^ inner.length := by
  obtain ⟨from_, upto⟩ := covers
  apply Nat.eq_of_testBit_eq
  intro j
  rw [testBit_field, Nat.testBit_mod_two_pow, Nat.testBit_shiftRight, stores]
  by_cases inside : j < inner.length
  · rw [if_pos ⟨by omega, by omega⟩]
    rw [show inner.start + j - span.start = inner.start - span.start + j by omega]
  · simp [inside]

/-- A store that writes back the old bits outside an inner interval is a store there. -/
theorem Stores.narrow {outer : Span} {whole : Nat}
    (stores : Stores before after outer whole) (covers : outer.Covers inner)
    (bits
      : ∀ k,
          outer.Contains k
          → whole.testBit (k - outer.start)
            = if inner.Contains k then value.testBit (k - inner.start) else bit before k)
    : Stores before after inner value := by
  intro k
  rw [stores k]
  by_cases within : outer.Contains k
  · rw [if_pos within, bits k within]
  · have outside : ¬ inner.Contains k := by
      rintro ⟨from_, upto⟩
      obtain ⟨_, _⟩ := covers
      exact within ⟨by omega, by omega⟩
    rw [if_neg within, if_neg outside]

-----------------------------------------------------------------------------------------
-- Sequences of stores
-----------------------------------------------------------------------------------------

/-- What a store leaves in a field that it covers. -/
def written (inner : Span) (store : Span × Nat) : Option Nat :=
  if store.1.Covers inner then
    some ((store.2 >>> (inner.start - store.1.start)) % 2 ^ inner.length)
  else none

/-- What the last of some stores to cover a field leaves in it. -/
def lastWritten (inner : Span) : List (Span × Nat) → Option Nat
  | [] => none
  | store :: rest => (lastWritten inner rest).or (written inner store)

/-- After any sequence of stores, each of which covers a field or misses it, the field
holds what the last one to cover it wrote, or its first value if none did, by induction on
the stores.
-/
theorem field_foldl {ι : Type*} {apply : Bytes → ι → Bytes} {store : ι → Span × Nat}
    (stores
      : ∀ memory call, Stores memory (apply memory call) (store call).1 (store call).2)
    {inner : Span}
    (apart
      : ∀ call, (store call).1.Covers inner ∨ (store call).1.Disjoint inner)
    (memory : Bytes) (calls : List ι)
    : field (calls.foldl apply memory) inner
      = (lastWritten inner (calls.map store)).getD (field memory inner) := by
  induction calls generalizing memory with
  | nil => rfl
  | cons call rest ih =>
      rw [List.foldl_cons, ih, List.map_cons, lastWritten]
      cases later : lastWritten inner (rest.map store) with
      | some value => rfl
      | none =>
          simp only [Option.getD_none, Option.none_or, written]
          rcases apart call with covers | misses
          · rw [if_pos covers, (stores memory call).field_of_covers covers]
            rfl
          · by_cases covers : (store call).1.Covers inner
            · rw [if_pos covers, (stores memory call).field_of_covers covers]
              rfl
            · rw [if_neg covers, (stores memory call).field_of_disjoint misses]
              rfl

/-- Bits that none of the stores covers keep their value, by induction on the stores. -/
theorem bit_foldl {ι : Type*} {apply : Bytes → ι → Bytes} {store : ι → Span × Nat}
    (stores
      : ∀ memory call, Stores memory (apply memory call) (store call).1 (store call).2)
    (memory : Bytes) {calls : List ι} {k : Nat}
    (outside : ∀ call ∈ calls, ¬ (store call).1.Contains k)
    : bit (calls.foldl apply memory) k = bit memory k := by
  induction calls generalizing memory with
  | nil => rfl
  | cons call rest ih =>
      rw [List.foldl_cons, ih _ (fun c member => outside c (List.mem_cons_of_mem call member)),
        stores memory call k, if_neg (outside call List.mem_cons_self)]

end ByteMemory

