import Smurf.Library.KeyedUpdates
import Smurf.Packet.TesBias

/-! The TES bias bytes are an array of 16 signed words of 20 bits. -/

namespace Smurf

open ByteMemory
open KeyedUpdates (lastValue)

namespace TesBiasArray

/-- The words are written one after another, up to the first that is refused. -/
def setWords (pData : Nat) (memory : Bytes) (calls : List (Nat × Int32)) : Except String Bytes :=
  calls.foldlM (fun memory call => setWord pData memory call.1 call.2) memory

/-- One call that is not refused. -/
def putCall (pData : Nat) (memory : Bytes) (call : Nat × Int32) : Bytes :=
  putWord pData memory call.1 call.2

section Calls

variable (pData : Nat)

theorem setWords_eq {calls : List (Nat × Int32)}
    (inside : ∀ call ∈ calls, call.1 < tesBiasCount) (memory : Bytes)
    : setWords pData memory calls = .ok (calls.foldl (putCall pData) memory) := by
  induction calls generalizing memory with
  | nil => rfl
  | cons call rest ih =>
      obtain ⟨here, later⟩ := List.forall_mem_cons.mp inside
      rw [setWords, List.foldlM_cons, setWord, if_neg (Nat.not_le.mpr here)]
      exact ih later _

/-- A call sets the bits of its word, and of no other. -/
theorem field_putCall (j : Nat) (memory : Bytes) (call : Nat × Int32)
    : field (putCall pData memory call) (wordSpan pData j)
      = if call.1 = j then call.2.toUInt32.toNat % 2 ^ 20
        else field memory (wordSpan pData j) := by
  have stores := stores_putWord pData memory call.1 call.2
  split
  · next same =>
      rw [← same]
      exact stores.field_self
  · next other =>
      refine stores.field_of_disjoint ?_
      simp only [wordSpan, Span.Disjoint]
      omega

/-- The bits of a word are those of the last value written to it. -/
theorem field_putCalls (j : Nat) (memory : Bytes) (calls : List (Nat × Int32))
    : field (calls.foldl (putCall pData) memory) (wordSpan pData j)
      = ((lastValue j calls).map fun value => value.toUInt32.toNat % 2 ^ 20).getD
          (field memory (wordSpan pData j)) :=
  KeyedUpdates.field_foldl (fun memory => field memory (wordSpan pData j)) (field_putCall pData j)
    memory calls

/-- Bytes that hold no bit of the words are kept. -/
theorem putCalls_outside {calls : List (Nat × Int32)}
    (inside : ∀ call ∈ calls, call.1 < tesBiasCount) (memory : Bytes) {address : Nat}
    (outside : address < pData ∨ pData + hTesDac.width ≤ address)
    : calls.foldl (putCall pData) memory address = memory address := by
  refine eq_of_bit_eq (fun j less => ?_)
  refine @bit_foldl _ (putCall pData)
    (fun call => (wordSpan pData call.1, call.2.toUInt32.toNat))
    (fun memory call => stores_putWord pData memory call.1 call.2) memory _ _
    (fun call member within => ?_)
  have index := inside call member
  simp only [wordSpan, Span.Contains] at within
  simp only [tesBiasCount, hTesDac] at index outside
  omega

/-- Memories with the same 16 words have the same 40 bytes. -/
theorem eq_of_field_eq {memory other : Bytes}
    (same
      : ∀ j < tesBiasCount,
          field memory (wordSpan pData j) = field other (wordSpan pData j))
    {k : Nat} (inside : k < hTesDac.width)
    : memory (pData + k) = other (pData + k) := by
  refine eq_of_bit_eq (fun b less => ?_)
  have here : 8 * (pData + k) + b = 8 * pData + 20 * ((8 * k + b) / 20) + (8 * k + b) % 20 := by
    omega
  have word := congrArg (Nat.testBit · ((8 * k + b) % 20)) (same ((8 * k + b) / 20) (by
    simp only [tesBiasCount, hTesDac] at inside ⊢
    omega))
  simp only [testBit_field_wordSpan, Nat.mod_lt _ (show 20 > 0 by decide), decide_true,
    Bool.true_and] at word
  rw [here, word]

end Calls

/-- Sign extension and truncation again give the twenty bits. -/
theorem signExtend_toUInt32_mod (word : Nat)
    : (signExtend word).toUInt32.toNat % 2 ^ 20 = word % 2 ^ 20 := by
  apply Nat.eq_of_testBit_eq
  intro j
  rw [Nat.testBit_mod_two_pow, Nat.testBit_mod_two_pow]
  by_cases low : j < 20
  · rw [testBit_signExtend word low]
  · simp [low]

/-- For every memory and sequence of calls with an index in range: each word reads as the low
20 bits of the last value written to it, sign-extended, or as its first 20 bits; no byte
outside the 40 changes; and writing the words read from a memory over any other gives its
40 bytes.
-/
theorem setWords_signedWords (pData : Nat) (memory : Bytes) {calls : List (Nat × Int32)}
    (inside : ∀ call ∈ calls, call.1 < tesBiasCount)
    : (∃ after,
        setWords pData memory calls = .ok after
        ∧ (∀ j < tesBiasCount,
            getWord pData after j
            = .ok
                (((lastValue j calls).map fun value => signExtend value.toUInt32.toNat).getD
                  (signExtend (field memory (wordSpan pData j)))))
        ∧ ∀ address,
            address < pData ∨ pData + hTesDac.width ≤ address → after address = memory address)
      ∧ ∀ decoded : Nat → Int32,
          (∀ j < tesBiasCount, getWord pData memory j = .ok (decoded j))
          → ∀ other,
              ∃ after,
                setWords pData other
                    ((List.range tesBiasCount).map fun j => (j, decoded j))
                  = .ok after
                ∧ ∀ k < hTesDac.width, after (pData + k) = memory (pData + k) := by
  constructor
  · refine ⟨_, setWords_eq pData inside memory, fun j less => ?_,
      fun address => putCalls_outside pData inside memory⟩
    rw [getWord_eq pData _ less, field_putCalls]
    cases lastValue j calls with
    | none => rfl
    | some value => exact congrArg Except.ok (signExtend_mod _)
  · intro decoded reads other
    refine ⟨_, setWords_eq pData ?_ other, fun k => eq_of_field_eq pData (fun j less => ?_)⟩
    · intro call member
      obtain ⟨j, range, rfl⟩ := List.mem_map.mp member
      exact List.mem_range.mp range
    · have word : decoded j = signExtend (field memory (wordSpan pData j)) :=
        (Except.ok.inj ((reads j less).symm.trans (getWord_eq pData memory less)))
      rw [field_putCalls, KeyedUpdates.lastValue_map, if_pos (List.mem_range.mpr less),
        Option.map_some, Option.getD_some, word, signExtend_toUInt32_mod]
      exact Nat.mod_eq_of_lt (field_lt memory (wordSpan pData j))

/-- Negative and large values beside each other in a block, one of them written twice. -/
theorem setWords_signedWords_three_calls
    : ∃ after,
        setWords 8 (fun _ => 0xff) [(6, 5), (7, -2), (6, 0x80001)] = .ok after
        ∧ getWord 8 after 6 = .ok (-0x7ffff)
        ∧ getWord 8 after 7 = .ok (-2)
        ∧ getWord 8 after 5 = .ok (-1)
        ∧ after 48 = 0xff := by
  obtain ⟨after, written, reads, outside⟩ :=
    (setWords_signedWords 8 (fun _ => 0xff)
      (show ∀ call ∈ [(6, 5), (7, -2), (6, 0x80001)], call.1 < tesBiasCount by decide)).1
  exact ⟨after, written, reads 6 (by decide), reads 7 (by decide), reads 5 (by decide),
    outside 48 (by decide)⟩

end TesBiasArray

end Smurf
