import Mathlib.Tactic.FieldSimp
import Mathlib.Tactic.Push
import Mathlib.Tactic.Ring
import Smurf.Filter.Channel

/-! The flat average: filter order -1.
While the order stays -1, the first slot of the output ring sums the input of every call
since the last reset.
-/

namespace Smurf

/-- Truncating a quotient of integers is dividing them toward zero. Witness: the reduced
fraction differs by a common factor.
-/
theorem tdiv_of_div (sum : Int) {count : Nat} (positive : 0 < count)
    : ((sum : ℚ) / (count : ℚ)).num.tdiv ((sum : ℚ) / (count : ℚ)).den = sum.tdiv count := by
  generalize quotient : (sum : ℚ) / (count : ℚ) = q
  have denNonzero : (q.den : ℚ) ≠ 0 := Nat.cast_ne_zero.mpr q.den_nz
  have countNonzero : (count : ℚ) ≠ 0 := Nat.cast_ne_zero.mpr (by omega)
  have fraction : (q.num : ℚ) / (q.den : ℚ) = (sum : ℚ) / (count : ℚ) := by
    rw [Rat.num_div_den, quotient]
  have crossed : (count : Int) * q.num = (q.den : Int) * sum := by
    rw [div_eq_div_iff denNonzero countNonzero] at fraction
    have integral : q.num * (count : Int) = sum * (q.den : Int) := by exact_mod_cast fraction
    rw [Int.mul_comm, integral, Int.mul_comm]
  calc q.num.tdiv q.den
      = ((count : Int) * q.num).tdiv ((count : Int) * q.den) :=
        (Int.mul_tdiv_mul_of_pos _ _ (by omega)).symm
    _ = ((q.den : Int) * sum).tdiv ((q.den : Int) * count) := by
        rw [crossed, Int.mul_comm (count : Int)]
    _ = sum.tdiv count :=
        Int.mul_tdiv_mul_of_pos _ _ (by have := q.den_pos; omega)

/-- Bounds of a sum of 32-bit values, by induction on them. -/
theorem sum_bounds (values : List Int32)
    : -2 ^ 31 * (values.length : Int) ≤ (values.map Int32.toInt).sum
      ∧ (values.map Int32.toInt).sum ≤ (2 ^ 31 - 1) * (values.length : Int) := by
  induction values with
  | nil => simp
  | cons value rest ih =>
      have least := value.le_toInt
      have most := value.toInt_lt
      simp only [List.map_cons, List.sum_cons, List.length_cons]
      push_cast
      omega

/-- The truncated mean of 32-bit values fits in 32 bits. -/
theorem toInt_truncate_mean {values : List Int32} (nonempty : values ≠ [])
    : (truncate (((values.map Int32.toInt).sum : ℚ) / (values.length : ℚ))).toInt
      = (values.map Int32.toInt).sum.tdiv values.length := by
  have positive : 0 < values.length := List.length_pos_of_ne_nil nonempty
  obtain ⟨least, most⟩ := sum_bounds values
  have above : -2 ^ 31 ≤ (values.map Int32.toInt).sum.tdiv values.length :=
    Int.le_tdiv_of_mul_le (by omega) least
  have below : (values.map Int32.toInt).sum.tdiv values.length < 2 ^ 31 := by
    rcases Int.le_total 0 (values.map Int32.toInt).sum with nonneg | nonpos
    · rw [Int.tdiv_eq_ediv_of_nonneg nonneg]
      exact Int.ediv_lt_of_lt_mul (by omega) (by omega)
    · have bound := Int.tdiv_le_of_le_mul (b := 0) (show 0 < (values.length : Int) by omega)
        (by omega : (values.map Int32.toInt).sum ≤ 0 * (values.length : Int))
      split at bound <;> omega
  rw [toInt_truncate, tdiv_of_div _ positive] <;> rw [tdiv_of_div _ positive] <;> assumption

/-- One channel adds the value to its slot. -/
theorem Channel.accumulate_y (self : Channel) (value : Int32)
    : (self.accumulate value).y self.slot = self.y self.slot + (value.toInt : ℚ) := by
  simp only [accumulate, setOutput, setY, Function.update_self]

/-- One channel puts out the sum divided by the count. -/
theorem Channel.accumulate_output (self : Channel) (value : Int32)
    : (self.accumulate value).output
      = truncate
          ((self.y self.slot + (value.toInt : ℚ)) / (self.samplesSinceClear.toNat : ℚ)) := by
  simp only [accumulate, setOutput, setY, Function.update_self]

namespace SmurfFilter

variable {samples : Nat}

/-- The flat average has summed `count` inputs. -/
structure Flat (filter : SmurfFilter samples) (count : Nat) (sums : Fin samples → Int)
    : Prop where
  slot : filter.bn = 0
  counted : filter.samplesSinceClear.toNat = count % 2 ^ 32
  summed : ∀ n, filter.yd (index 0 n) = (sums n : ℚ)

/-- A cleared filter has summed nothing. -/
theorem flat_clearFilter (self : SmurfFilter samples) : self.clearFilter.Flat 0 fun _ => 0 where
  slot := rfl
  counted := rfl
  summed _ := rfl

/-- The output is no part of the average. -/
theorem Flat.withOutput {self : SmurfFilter samples} {count : Nat} {sums : Fin samples → Int}
    (flat : self.Flat count sums) (output : Fin samples → Int32)
    : ({ self with output } : SmurfFilter samples).Flat count sums :=
  ⟨flat.slot, flat.counted, flat.summed⟩

/-- The filter that a flat average continues: cleared, if the order was another. -/
def flatStart (self : SmurfFilter samples) : SmurfFilter samples :=
  if self.orderN ≠ -1 then self.clearFilter else self

theorem flatStart_of_flat {self : SmurfFilter samples} (flat : self.orderN = -1)
    : self.flatStart = self :=
  if_neg (not_not.mpr flat)

@[simp] theorem flatStart_clearFilter (self : SmurfFilter samples)
    : self.clearFilter.flatStart = self.clearFilter :=
  flatStart_of_flat rfl

/-- After a run of averages has ended, the next flat average starts from a cleared filter,
whatever the order was.
-/
@[simp] theorem flatStart_endRun (self : SmurfFilter samples)
    : self.endRun.flatStart = self.clearFilter := by
  by_cases flat : self.orderN = -1
  · rw [endRun, if_pos flat, flatStart_clearFilter]
  · rw [endRun, if_neg flat, flatStart, if_pos flat]

theorem flatStart_withOutput (self : SmurfFilter samples) (output : Fin samples → Int32)
    : ({ self with output } : SmurfFilter samples).flatStart
      = { self.flatStart with output } := by
  simp only [flatStart]
  split <;> rfl

/-- The loop of the flat average only changes sums and outputs, by induction on the
channels.
-/
theorem foldl_accumulate (data : Fin samples → Int32) (channels : List (Fin samples))
    (self : SmurfFilter samples)
    : let after := channels.foldl (accumulate data) self
      after.bn = self.bn
      ∧ after.samplesSinceClear = self.samplesSinceClear
      ∧ after.orderN = self.orderN := by
  induction channels generalizing self with
  | nil => exact ⟨rfl, rfl, rfl⟩
  | cons n channels ih => exact ih (accumulate data self n)

/-- A flat average takes one more input, from a cleared filter if the order was another.
Witness: one channel adds its input to its first slot and divides by the count.
-/
theorem Flat.filter {self : SmurfFilter samples} {count : Nat} {sums : Fin samples → Int}
    (flat : self.flatStart.Flat count sums)
    (data : Fin samples → Int32) (a b : Nat → ℚ) (g : ℚ)
    : let after := self.filter data (-1) a b g
      after.orderN = -1
      ∧ after.Flat (count + 1) (fun n => sums n + (data n).toInt)
      ∧ ∀ n,
          after.output n
          = truncate
              (((sums n + (data n).toInt : Int) : ℚ) / (after.samplesSinceClear.toNat : ℚ)) := by
  simp only [SmurfFilter.filter, if_true]
  rw [flatStart] at flat
  generalize (if self.orderN ≠ -1 then self.clearFilter else self) = cleared at flat
  generalize countedIs
    : { cleared with
        orderN := -1
        samplesSinceClear := cleared.samplesSinceClear + 1 : SmurfFilter samples } = counted
  obtain ⟨bn, samplesSinceClear, orderN⟩ :=
    foldl_accumulate data (List.finRange samples) counted
  have slot : counted.bn = 0 := by
    rw [← countedIs]
    exact flat.slot
  have channelIs (n : Fin samples)
      : ((List.finRange samples).foldl (accumulate data) counted).channel n
        = (counted.channel n).accumulate (data n) :=
    channel_loop n (Channel.accumulate (data n))
      (fun m ne self => channel_accumulate_other n data self ne)
      (fun self => channel_accumulate n data self) counted
  have before (n : Fin samples)
      : (counted.channel n).y (counted.channel n).slot + ((data n).toInt : ℚ)
        = ((sums n + (data n).toInt : Int) : ℚ) := by
    change counted.yd (index counted.bn n) + _ = _
    rw [slot, ← countedIs, flat.summed n, Int.cast_add]
  have summed (n : Fin samples)
      : ((List.finRange samples).foldl (accumulate data) counted).yd (index 0 n)
        = ((sums n + (data n).toInt : Int) : ℚ) := by
    rw [← before n, ← Channel.accumulate_y, ← channelIs n, ← slot]
    rfl
  refine ⟨?_, ⟨?_, ?_, summed⟩, ?_⟩
  · rw [orderN, ← countedIs]
  · rw [bn, slot]
  · have increment := UInt32.toNat_add cleared.samplesSinceClear 1
    rw [flat.counted, show (1 : UInt32).toNat = 1 from rfl] at increment
    rw [samplesSinceClear, ← countedIs, increment]
    omega
  · intro n
    rw [samplesSinceClear, ← before n]
    exact (congrArg Channel.output (channelIs n)).trans (Channel.accumulate_output _ _)

end SmurfFilter

end Smurf
