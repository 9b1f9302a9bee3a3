import Mathlib.Data.List.GetD
import Mathlib.Logic.Function.Basic
import Mathlib.Data.Nat.ModEq

/-! A ring of slots that holds the last values of a growing history.
Values before the start of the history count as zero. The history lists the latest value
first.
-/

namespace RingHistory

variable {α : Type*} [Zero α]

/-- The value of a history `r` entries ago. -/
def ago (history : List α) (r : Nat) : α :=
  history.getD r 0

@[simp] theorem ago_cons_zero (value : α) (history : List α) : ago (value :: history) 0 = value :=
  rfl

@[simp] theorem ago_cons_succ (value : α) (history : List α) (r : Nat)
    : ago (value :: history) (r + 1) = ago history r :=
  rfl

theorem ago_map {β : Type*} [Zero β] {f : α → β} (zero : f 0 = 0) (history : List α) (r : Nat)
    : ago (history.map f) r = f (ago history r) := by
  rw [ago, ago, ← zero, List.getD_map]

/-- The slot `r` entries behind slot `now`, for `r` up to the size of the ring. -/
def behind (size now r : Nat) : Nat :=
  (now + size - r) % size

/-- Slot `now` holds the latest value, and the slot `r` behind it the value `r` entries ago.
-/
def Holds (size : Nat) (slots : Nat → α) (now : Nat) (history : List α) : Prop :=
  ∀ r < size, slots (behind size now r) = ago history r

theorem behind_zero {size now : Nat} (inside : now < size) : behind size now 0 = now := by
  rw [behind, Nat.sub_zero, Nat.add_mod_right, Nat.mod_eq_of_lt inside]

/-- The slot behind the next one is the one before. -/
theorem behind_next {size now r : Nat} (inside : now < size) (less : r < size)
    : behind size ((now + 1) % size) (r + 1) = behind size now r := by
  by_cases inner : now + 1 < size
  · rw [behind, behind, Nat.mod_eq_of_lt inner]
    congr 1
    omega
  · have last : now + 1 = size := by omega
    rw [behind, behind, last, Nat.mod_self, Nat.zero_add,
      show now + size - r = size - (r + 1) + size by omega, Nat.add_mod_right]

/-- Slots less than a turn behind are other slots. -/
theorem behind_ne {size now r : Nat} (inside : now < size) (back : 0 < r) (less : r < size)
    : behind size now r ≠ now := by
  unfold behind
  by_cases wrap : now < r
  · rw [Nat.mod_eq_of_lt (by omega)]
    omega
  · rw [show now + size - r = now - r + size by omega, Nat.add_mod_right,
      Nat.mod_eq_of_lt (by omega)]
    omega

theorem behind_of_le {size now r : Nat} (inside : now < size) (within : r ≤ now)
    : behind size now r = now - r := by
  rw [behind, show now + size - r = now - r + size by omega, Nat.add_mod_right,
    Nat.mod_eq_of_lt (by omega)]

theorem behind_of_lt {size now r : Nat} (wraps : now < r) (less : r ≤ now + size)
    : behind size now r = now + size - r :=
  Nat.mod_eq_of_lt (by omega)

/-- The slot that is as many entries behind as a slot is, is that slot. -/
theorem behind_behind {size now slot : Nat} (inside : now < size) (within : slot < size)
    : behind size now (behind size now slot) = slot := by
  rcases Nat.lt_or_ge now slot with wraps | le
  · rw [behind_of_lt wraps (by omega), behind_of_lt (by omega) (by omega)]
    omega
  · rw [behind_of_le inside le, behind_of_le inside (by omega)]
    omega

theorem behind_lt {size now : Nat} (inside : now < size) (r : Nat) : behind size now r < size :=
  Nat.mod_lt _ (by omega)

/-- The slot that a difference taken modulo `modulus` gives when it is reduced to the ring. -/
def wrapped (modulus size now r : Nat) : Nat :=
  (modulus - r + now) % modulus % size

/-- A difference that wraps around gives the slot behind only in a ring that divides the
modulus. Witness: below zero, the difference is the slot behind and some turns, up to the
modulus.
-/
theorem wrapped_eq_behind_iff {modulus size now r : Nat} (inside : now < size) (less : r < size)
    (fits : size ≤ modulus)
    : wrapped modulus size now r = behind size now r ↔ r ≤ now ∨ size ∣ modulus := by
  by_cases within : r ≤ now
  · refine iff_of_true ?_ (Or.inl within)
    rw [wrapped, behind_of_le inside within, show modulus - r + now = now - r + modulus by omega,
      Nat.add_mod_right, Nat.mod_eq_of_lt (show now - r < modulus by omega),
      Nat.mod_eq_of_lt (show now - r < size by omega)]
  · rw [wrapped, Nat.mod_eq_of_lt (show modulus - r + now < modulus by omega),
      behind_of_lt (by omega) (by omega), or_iff_right within]
    constructor
    · intro same
      have turns := Nat.div_add_mod (modulus - r + now) size
      rw [same] at turns
      refine ⟨(modulus - r + now) / size + 1, ?_⟩
      rw [Nat.mul_add, Nat.mul_one]
      omega
    · rintro ⟨turns, rfl⟩
      obtain ⟨before, rfl⟩ : ∃ before, turns = before + 1 :=
        Nat.exists_eq_succ_of_ne_zero (fun none => by simp [none] at fits; omega)
      rw [Nat.mul_add, Nat.mul_one,
        show size * before + size - r + now = size * before + (now + size - r) by omega,
        Nat.mul_add_mod, Nat.mod_eq_of_lt (by omega)]

/-- Cleared slots hold the empty history. -/
theorem holds_nil (size now : Nat) : Holds size (fun _ => (0 : α)) now [] :=
  fun _ _ => rfl

/-- Writing the next slot appends to the history. -/
theorem Holds.push {size now : Nat} {slots : Nat → α} {history : List α}
    (holds : Holds size slots now history) (inside : now < size) (value : α)
    : Holds size (Function.update slots ((now + 1) % size) value) ((now + 1) % size)
        (value :: history) := by
  intro r less
  have positive : 0 < size := by omega
  have next := Nat.mod_lt (now + 1) positive
  cases r with
  | zero => rw [behind_zero next, Function.update_self, ago_cons_zero]
  | succ r =>
      rw [Function.update_of_ne (behind_ne next (by omega) less), behind_next inside (by omega),
        ago_cons_succ]
      exact holds r (by omega)

end RingHistory
