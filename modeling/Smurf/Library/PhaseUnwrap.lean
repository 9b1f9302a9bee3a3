import Mathlib.Algebra.Order.Ring.Abs
import Mathlib.Tactic.Linarith

/-! Unwrapping a phase that is only known modulo a period.
A jump between two residues beyond a threshold on either side is taken for a wrap. For a
phase that moves slowly against period and threshold, the wraps counted make up for the
reduction exactly.
-/

namespace PhaseUnwrap

variable {period : Nat} {threshold slew : Int}

/-- What residue `d` behind residue `p` adds to the wraps counted. -/
def wrap (period : Nat) (threshold d p : Int) : Int :=
  if threshold < d ∧ p < -threshold then -period
  else if d < -threshold ∧ threshold < p then period
  else 0

theorem wrap_zero (within : 0 ≤ threshold) (d : Int) : wrap period threshold d 0 = 0 := by
  rw [wrap, if_neg (by omega), if_neg (by omega)]

/-- A multiple of the period that is less than two periods away from 0. -/
theorem multiple_cases (period : Nat) {q : Int} (lower : -(2 * period : Int) < period * q)
    (upper : period * q < 2 * (period : Int))
    : period * q = -(period : Int) ∨ period * q = 0 ∨ period * q = period := by
  have positive : (0 : Int) < period := by omega
  have above : -2 < q := by
    by_contra low
    have := mul_le_mul_of_nonneg_left (not_lt.mp low) positive.le
    omega
  have below : q < 2 := by
    by_contra high
    have := mul_le_mul_of_nonneg_left (not_lt.mp high) positive.le
    omega
  obtain rfl | rfl | rfl : q = -1 ∨ q = 0 ∨ q = 1 := by omega
  · exact .inl (mul_neg_one _)
  · exact .inr (.inl (mul_zero _))
  · exact .inr (.inr (mul_one _))

/-- The wrap taken is the one made. Witness: reducing both phases takes off multiples of the
period that differ by at most one period, and in each case the thresholds tell which.
-/
theorem wrap_eq (narrow : 2 * (threshold + slew) < period) (wide : slew ≤ 2 * threshold)
    {phase next : Int} (slow : |next - phase| ≤ slew)
    : wrap period threshold (next.bmod period) (phase.bmod period)
      = (next - next.bmod period) - (phase - phase.bmod period) := by
  obtain ⟨backward, forward⟩ := abs_le.mp slow
  have positive : 0 < period := by omega
  have nextLow := Int.le_bmod (x := next) positive
  have nextHigh := Int.bmod_lt (x := next) positive
  have low := Int.le_bmod (x := phase) positive
  have high := Int.bmod_lt (x := phase) positive
  have taken
      : (next - next.bmod period) - (phase - phase.bmod period)
        = period * (next.bdiv period - phase.bdiv period) := by
    have nextSplit := Int.bdiv_add_bmod next period
    have split := Int.bdiv_add_bmod phase period
    rw [mul_sub]
    omega
  have cases :=
    multiple_cases period (q := next.bdiv period - phase.bdiv period) (by omega) (by omega)
  rw [← taken] at cases
  rw [wrap]
  rcases cases with down | none | up
  · rw [if_pos (by omega)]
    exact down.symm
  · rw [if_neg (by omega), if_neg (by omega)]
    exact none.symm
  · rw [if_neg (by omega), if_pos (by omega)]
    exact up.symm

variable (clears : Nat → Bool)

/-- The sample that the phase at `t` is unwrapped from: the latest one before `t` at which
the wraps were cleared, else the first one.
-/
def reference : Nat → Nat
  | 0 => 0
  | t + 1 => if clears t then t else reference t

theorem reference_le (t : Nat) : reference clears t ≤ t := by
  induction t with
  | zero => exact Nat.le_refl 0
  | succ t ih =>
      rw [reference]
      split
      · exact Nat.le_succ t
      · exact Nat.le_succ_of_le ih

/-- Without a clear in between, two samples are unwrapped from the same one. -/
theorem reference_eq {s t : Nat} (le : s ≤ t) (kept : ∀ k, s ≤ k → k < t → clears k = false)
    : reference clears t = reference clears s := by
  induction t, le using Nat.le_induction with
  | base => rfl
  | succ t le ih =>
      rw [reference, kept t le (Nat.lt_succ_self t), if_neg Bool.false_ne_true]
      exact ih fun k from_s less => kept k from_s (Nat.lt_succ_of_lt less)

/-- The residue before each one; 0 before the first. -/
def previous (d : Nat → Int) : Nat → Int
  | 0 => 0
  | t + 1 => d t

/-- The wraps counted before sample `t`. -/
def carried (period : Nat) (threshold : Int) (d : Nat → Int) : Nat → Int
  | 0 => 0
  | t + 1 =>
      if clears t then 0
      else carried period threshold d t + wrap period threshold (d t) (previous d t)

/-- The wraps counted with a sample are those the phase made since the reference sample, by
induction on the samples.
-/
theorem carried_add_wrap (narrow : 2 * (threshold + slew) < period)
    (wide : slew ≤ 2 * threshold) (within : 0 ≤ threshold) {phase : Nat → Int} {t : Nat}
    (slow : ∀ s < t, |phase (s + 1) - phase s| ≤ slew)
    : let d s := (phase s).bmod period
      carried clears period threshold d t + wrap period threshold (d t) (previous d t)
      = (phase t - d t) - (phase (reference clears t) - d (reference clears t)) := by
  induction t with
  | zero =>
      simp only [carried, previous, reference, sub_self, zero_add, wrap_zero within]
  | succ t ih =>
      have earlier := ih fun s less => slow s (Nat.lt_succ_of_lt less)
      have latest := wrap_eq narrow wide (slow t (Nat.lt_succ_self t))
      simp only [carried, previous, reference] at earlier ⊢
      rw [latest]
      split
      · omega
      · omega

end PhaseUnwrap
