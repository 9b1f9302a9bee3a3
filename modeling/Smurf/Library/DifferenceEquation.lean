import Mathlib.Algebra.BigOperators.Intervals
import Mathlib.Algebra.Order.BigOperators.Ring.Finset
import Mathlib.Algebra.Order.Field.Basic
import Mathlib.Tactic.Ring
import Smurf.Library.RingHistory

/-! Linear difference equations over an unbounded history.
Histories list the latest entry first; what lies before the start counts as zero. The
coefficients and the order may change from step to step.
-/

namespace DifferenceEquation

open RingHistory

variable {K : Type*} [Field K]

/-- The coefficients of one step: `b` for the inputs, `a` for the outputs. -/
structure Taps (K : Type*) where
  order : Nat
  a : Nat → K
  b : Nat → K

/-- The output of a step with input `x`, from the earlier inputs and outputs. -/
def respond (taps : Taps K) (inputs outputs : List K) (x : K) : K :=
  (∑ r ∈ Finset.range (taps.order + 1), taps.b r * ago (x :: inputs) r
      - ∑ r ∈ Finset.Icc 1 taps.order, taps.a r * ago outputs (r - 1))
    / taps.a 0

/-- The outputs of a sequence of steps, the latest first. -/
def responses : List (Taps K × K) → List K
  | [] => []
  | (taps, x) :: earlier =>
      respond taps (earlier.map Prod.snd) (responses earlier) x :: responses earlier

@[simp] theorem responses_cons (taps : Taps K) (x : K) (earlier : List (Taps K × K))
    : responses ((taps, x) :: earlier)
      = respond taps (earlier.map Prod.snd) (responses earlier) x :: responses earlier :=
  rfl

/-- Accumulating one tap after another, as a loop does, gives the response. Witness:
induction on the order, with the two sums split at the last tap.
-/
theorem foldl_taps (taps : Taps K) (inputs outputs : List K) (x : K)
    : (List.range' 1 taps.order).foldl
          (fun sum r => sum + (taps.b r * ago (x :: inputs) r - taps.a r * ago outputs (r - 1)))
          (taps.b 0 * x)
        / taps.a 0
      = respond taps inputs outputs x := by
  rw [respond]
  congr 1
  induction taps.order with
  | zero => simp
  | succ order ih =>
      rw [List.range'_1_concat, List.foldl_append, ih, List.foldl_cons, List.foldl_nil,
        Finset.sum_range_succ _ (order + 1), Finset.sum_Icc_succ_top (by omega),
        Nat.add_comm 1 order]
      ring

-----------------------------------------------------------------------------------------
-- Stability
-----------------------------------------------------------------------------------------

section Stability

variable [LinearOrder K] [IsStrictOrderedRing K] {M Y : K}

/-- Inputs up to `M` and earlier outputs up to `Y` give an output up to `Y`. -/
def Taps.Contracts (taps : Taps K) (M Y : K) : Prop :=
  (∑ r ∈ Finset.range (taps.order + 1), |taps.b r|) * M
      + (∑ r ∈ Finset.Icc 1 taps.order, |taps.a r|) * Y
    ≤ |taps.a 0| * Y

theorem abs_ago_le {bound : K} {history : List K} (nonneg : 0 ≤ bound)
    (each : ∀ value ∈ history, |value| ≤ bound) (r : Nat)
    : |ago history r| ≤ bound := by
  rw [ago, List.getD_eq_getElem?_getD]
  cases found : history[r]? with
  | none => simpa using nonneg
  | some value => exact each value (List.mem_of_getElem? found)

/-- A weighted sum of values up to a bound. -/
theorem abs_sum_mul_le (indices : Finset Nat) (weight : Nat → K) {value : Nat → K} {bound : K}
    (each : ∀ r ∈ indices, |value r| ≤ bound)
    : |∑ r ∈ indices, weight r * value r| ≤ (∑ r ∈ indices, |weight r|) * bound := by
  calc |∑ r ∈ indices, weight r * value r|
      _ ≤ ∑ r ∈ indices, |weight r * value r| := Finset.abs_sum_le_sum_abs _ _
      _ ≤ ∑ r ∈ indices, |weight r| * bound := by
        refine Finset.sum_le_sum (fun r member => ?_)
        rw [abs_mul]
        exact mul_le_mul_of_nonneg_left (each r member) (abs_nonneg _)
      _ = (∑ r ∈ indices, |weight r|) * bound := (Finset.sum_mul _ _ _).symm

/-- One step stays within the bound. -/
theorem abs_respond_le {taps : Taps K} {inputs outputs : List K} {x : K}
    (contracts : taps.Contracts M Y) (divides : taps.a 0 ≠ 0) (small : |x| ≤ M)
    (nonneg : 0 ≤ Y) (earlierInputs : ∀ input ∈ inputs, |input| ≤ M)
    (earlierOutputs : ∀ output ∈ outputs, |output| ≤ Y)
    : |respond taps inputs outputs x| ≤ Y := by
  have given : ∀ input ∈ x :: inputs, |input| ≤ M := List.forall_mem_cons.mpr ⟨small, earlierInputs⟩
  have forward :=
    abs_sum_mul_le (Finset.range (taps.order + 1)) taps.b
      (fun r _ => abs_ago_le (le_trans (abs_nonneg x) small) given r)
  have back :=
    abs_sum_mul_le (Finset.Icc 1 taps.order) taps.a
      (fun r _ => abs_ago_le nonneg earlierOutputs (r - 1))
  rw [respond, abs_div, div_le_iff₀ (abs_pos.mpr divides), mul_comm Y]
  exact le_trans (abs_sub _ _) (le_trans (add_le_add forward back) contracts)

/-- So does every step of a sequence, by induction on the steps. -/
theorem abs_responses_le {steps : List (Taps K × K)} (nonneg : 0 ≤ Y)
    (each : ∀ step ∈ steps, step.1.Contracts M Y ∧ step.1.a 0 ≠ 0 ∧ |step.2| ≤ M)
    : ∀ y ∈ responses steps, |y| ≤ Y := by
  induction steps with
  | nil => exact fun y member => absurd member List.not_mem_nil
  | cons step earlier ih =>
      obtain ⟨⟨contracts, divides, small⟩, before⟩ := List.forall_mem_cons.mp each
      have outputs := ih before
      refine List.forall_mem_cons.mpr ⟨?_, outputs⟩
      refine abs_respond_le contracts divides small nonneg (fun input member => ?_) outputs
      obtain ⟨former, inside, rfl⟩ := List.mem_map.mp member
      exact (before former inside).2.2

end Stability

end DifferenceEquation
