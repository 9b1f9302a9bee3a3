import Mathlib.Data.Nat.ModEq

/-! Slots of a cyclic buffer of `size` cells.
Entry `k` of an unbounded sequence is kept in slot `k % size`; a cursor that walks the
slots wraps from the last one to the first.
-/

namespace CyclicSlots

/-- The slot a cursor reaches from `slot`: one further, or the first one when that would be
the end of the buffer.
-/
def next (size slot : Nat) : Nat :=
  if slot + 1 = size then 0 else slot + 1

/-- A cursor at the slot of entry `k` goes on to the slot of entry `k + 1`. -/
theorem next_mod {size : Nat} (positive : 0 < size) (k : Nat)
    : next size (k % size) = (k + 1) % size := by
  have inside := Nat.mod_lt k positive
  have turns := Nat.div_add_mod k size
  unfold next
  split
  · next last =>
      have whole : k + 1 = size * (k / size + 1) := by
        rw [Nat.mul_add, Nat.mul_one]
        omega
      rw [whole, Nat.mul_mod_right]
  · next inner =>
      calc k % size + 1
        _ = (k % size + 1) % size := (Nat.mod_eq_of_lt (by omega)).symm
        _ = (size * (k / size) + (k % size + 1)) % size := (Nat.mul_add_mod ..).symm
        _ = (k + 1) % size := by rw [← Nat.add_assoc, turns]

/-- Advancing without the wrap test agrees with the wrapping step away from the last slot.
-/
theorem succ_mod {size k : Nat} (inner : k % size + 1 < size)
    : k % size + 1 = (k + 1) % size := by
  rw [← next_mod (by omega), next, if_neg (by omega)]

/-- Entries less than a whole turn apart share a slot only when they are the same entry. -/
theorem eq_of_mod_eq {size j k : Nat} (le : j ≤ k) (near : k < j + size)
    (same : j % size = k % size)
    : j = k := by
  obtain ⟨turn, eq⟩ := (Nat.modEq_iff_dvd' le).mp same
  rcases Nat.eq_zero_or_pos turn with none | some
  · rw [none, Nat.mul_zero] at eq
    omega
  · have := Nat.le_mul_of_pos_right size some
    omega

/-- Entries a whole turn apart share a slot. -/
theorem mod_add_size (size k : Nat) : (k + size) % size = k % size :=
  Nat.add_mod_right k size

/-- Cursors over the same buffer, at most a whole turn apart, meet exactly when the
distance is zero or a whole turn.
-/
theorem mod_eq_iff (size : Nat) {j k : Nat} (le : j ≤ k) (near : k ≤ j + size)
    : k % size = j % size ↔ k = j ∨ k = j + size := by
  constructor
  · intro same
    by_cases turn : k = j + size
    · exact Or.inr turn
    · exact Or.inl (eq_of_mod_eq le (by omega) same.symm).symm
  · rintro (rfl | rfl)
    · rfl
    · exact mod_add_size size j

/-- The distance a cursor at entry `j` has to go to reach one at entry `k`, read from the
two slots alone, is the number of entries between them up to a whole turn.
-/
theorem mod_distance {size j k : Nat} (positive : 0 < size) (le : j ≤ k)
    : (k % size + size - j % size) % size = (k - j) % size := by
  have inside := Nat.mod_lt j positive
  have moved : k % size + size - j % size + j ≡ k - j + j [MOD size] := by
    have split := Nat.div_add_mod j size
    have cancel : k % size + size - j % size + j = k % size + size * (j / size + 1) := by
      rw [Nat.mul_add, Nat.mul_one]
      omega
    rw [cancel, Nat.sub_add_cancel le]
    simp [Nat.ModEq]
  exact Nat.ModEq.add_right_cancel' j moved

end CyclicSlots
