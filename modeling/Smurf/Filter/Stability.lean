import Mathlib.Algebra.Order.Ring.Rat
import Mathlib.Data.Nat.Cast.Order.Field
import Smurf.Filter.DifferenceEquation

/-! Bounded inputs give bounded outputs.
While the coefficients contract, every value the filter puts out stays within a bound, and
none leaves the range of the integers it is converted to.
-/

namespace Smurf

open DifferenceEquation (Taps responses)

-----------------------------------------------------------------------------------------
-- Conversion
-----------------------------------------------------------------------------------------

/-- Truncation does not exceed the value. -/
theorem abs_tdiv_le (value : ℚ) : |((value.num.tdiv value.den : ℤ) : ℚ)| ≤ |value| := by
  have quotient : (value.num.tdiv value.den).natAbs = value.num.natAbs / value.den := by
    rw [Int.natAbs_tdiv, Int.natAbs_natCast]
    rfl
  have size : |value| = (value.num.natAbs : ℚ) / (value.den : ℚ) := by
    conv_lhs => rw [← Rat.num_div_den value]
    rw [abs_div, Nat.abs_cast, ← Int.cast_abs, Int.abs_eq_natAbs, Int.cast_natCast]
  rw [← Int.cast_abs, Int.abs_eq_natAbs, Int.cast_natCast, quotient, size]
  exact Nat.cast_div_le

/-- A value below `2 ^ 31` is truncated exactly. -/
theorem toInt_truncate_of_abs_lt {value : ℚ} (small : |value| < 2 ^ 31)
    : (truncate value).toInt = value.num.tdiv value.den := by
  have less := lt_of_le_of_lt (abs_tdiv_le value) small
  have bound : |value.num.tdiv value.den| < 2 ^ 31 := by exact_mod_cast less
  obtain ⟨least, most⟩ := abs_lt.mp bound
  exact toInt_truncate (le_of_lt least) most

-----------------------------------------------------------------------------------------
-- Histories
-----------------------------------------------------------------------------------------

/-- The calls since the last reset are calls of the run, by induction on it. -/
theorem Call.mem_since {Data : Type} (calls : List (Call Data)) (earlier : List (FilterCall Data))
    {call : FilterCall Data} (member : call ∈ calls.foldl since earlier)
    : call ∈ earlier ∨ Call.filter call ∈ calls := by
  induction calls generalizing earlier with
  | nil => exact .inl member
  | cons first rest ih =>
      rcases ih (since earlier first) member with before | later
      · cases first with
        | filter latest =>
            rcases List.mem_cons.mp before with rfl | continued
            · exact .inr List.mem_cons_self
            · rw [FilterCall.continues] at continued
              split at continued
              · exact .inl continued
              · exact absurd continued List.not_mem_nil
        | clearFilter => exact absurd before List.not_mem_nil
        | endRun => exact .inl before
      · exact .inr (List.mem_cons_of_mem _ later)

/-- The calls have one order. -/
def FilterCall.OneOrder {Data : Type} (since : List (FilterCall Data)) : Prop :=
  ∀ call ∈ since, ∀ latest ∈ since.head?, call.order = latest.order

theorem FilterCall.OneOrder.continues {Data : Type} {since : List (FilterCall Data)}
    (one : OneOrder since) (call : FilterCall Data)
    : ∀ former ∈ call.continues since, former.order = call.order := by
  intro former member
  rw [FilterCall.continues] at member
  cases since with
  | nil => exact absurd member (by simp)
  | cons latest earlier =>
      split at member
      case isTrue same =>
        have order : latest.order = call.order := by simpa using same
        exact (one former member latest rfl).trans order
      case isFalse => exact absurd member List.not_mem_nil

/-- A change of the order starts a new history. -/
theorem Call.oneOrder_since {Data : Type} {earlier : List (FilterCall Data)}
    (one : FilterCall.OneOrder earlier) (call : Call Data)
    : FilterCall.OneOrder (since earlier call) := by
  cases call with
  | filter call =>
      intro former member latest head
      obtain rfl := Option.some.inj head
      rcases List.mem_cons.mp member with rfl | continued
      · rfl
      · exact one.continues _ former continued
  | clearFilter => exact fun former member => absurd member List.not_mem_nil
  | endRun => exact one

/-- By induction on the calls. -/
theorem Call.oneOrder_sinceReset {Data : Type} (calls : List (Call Data))
    : FilterCall.OneOrder (sinceReset calls) := by
  have general (earlier : List (FilterCall Data)) (one : FilterCall.OneOrder earlier)
      : FilterCall.OneOrder (calls.foldl since earlier) := by
    induction calls generalizing earlier with
    | nil => exact one
    | cons call rest ih => exact ih _ (oneOrder_since one call)
  exact general [] (fun former member => absurd member List.not_mem_nil)

-----------------------------------------------------------------------------------------
-- The filter
-----------------------------------------------------------------------------------------

namespace Call

/-- The data of a filter call is at most `M`, and unless it averages flat, its coefficients
keep outputs up to `Y`, which the gain does not take out of range.
-/
def Stable (M Y : ℚ) : Call Int32 → Prop
  | .filter call =>
      |(call.data.toInt : ℚ)| ≤ M
      ∧ (call.order ≠ -1 → call.taps.Contracts M Y ∧ |call.g| * Y < 2 ^ 31)
  | .clearFilter => True
  | .endRun => True

end Call

/-- In every run of admissible and stable calls, a channel responds to a filter call of order 0
or more with a value up to the bound.
-/
theorem Channel.bounded_responses {M Y : ℚ} (nonneg : 0 ≤ Y) (earlier : List (Call Int32))
    (call : FilterCall Int32) (forward : call.order ≠ -1)
    (admissible : ∀ c ∈ earlier ++ [Call.filter call], c.Admissible)
    (stable : ∀ c ∈ earlier ++ [Call.filter call], c.Stable M Y)
    : let self := (earlier ++ [Call.filter call]).foldl perform (create 16)
      |self.y self.slot| ≤ Y ∧ self.output = truncate (self.y self.slot * call.g) := by
  have before : ∀ c ∈ earlier, c.Admissible := fun c member => admissible c (by simp [member])
  have last : call.Admissible := admissible (.filter call) (by simp)
  have tracks := Channel.tracks_create.run before
  obtain ⟨-, current, output⟩ := tracks.filter call last forward
  rw [List.foldl_append, List.foldl_cons, List.foldl_nil]
  dsimp only
  rw [current]
  refine ⟨?_, output⟩
  obtain ⟨small, contracts⟩ : Call.Stable M Y (.filter call) := stable _ (by simp)
  have since
      : ∀ former ∈ call.continues (earlier.foldl Call.since []),
          former.taps.Contracts M Y ∧ former.a 0 ≠ 0 ∧ |(former.data.toInt : ℚ)| ≤ M := by
    intro former member
    have order : former.order = call.order :=
      (Call.oneOrder_sinceReset earlier).continues call former member
    have inside : Call.filter former ∈ earlier := by
      rw [FilterCall.continues] at member
      split at member
      · exact (Call.mem_since earlier [] member).resolve_left List.not_mem_nil
      · exact absurd member List.not_mem_nil
    obtain ⟨data, held⟩ : Call.Stable M Y (.filter former) := stable _ (by simp [inside])
    exact ⟨(held (order ▸ forward)).1, (before _ inside).divides, data⟩
  have steps
      : ∀ step ∈ (call.continues (earlier.foldl Call.since [])).map FilterCall.entry,
          step.1.Contracts M Y ∧ step.1.a 0 ≠ 0 ∧ |step.2| ≤ M := by
    intro step member
    obtain ⟨former, inside, rfl⟩ := List.mem_map.mp member
    exact since former inside
  refine DifferenceEquation.abs_respond_le (contracts forward).1 last.divides small nonneg ?_
    (DifferenceEquation.abs_responses_le nonneg steps)
  intro input member
  obtain ⟨former, inside, rfl⟩ := List.mem_map.mp member
  exact (since former inside).2.2

namespace SmurfFilter

variable {samples : Nat}

/-- In every run of admissible calls whose coefficients contract, a filter call of order 0 or
more leaves in each channel a value up to the bound, and its scaled value is in range and
truncated exactly.
-/
theorem bounded_of_stable {M Y : ℚ} (nonneg : 0 ≤ Y)
    (earlier : List (Call (Fin samples → Int32))) (call : FilterCall (Fin samples → Int32))
    (forward : call.order ≠ -1)
    (admissible : ∀ c ∈ earlier ++ [Call.filter call], c.Admissible)
    (stable : ∀ n, ∀ c ∈ earlier ++ [Call.filter call], (c.map fun data => data n).Stable M Y)
    (n : Fin samples)
    : let self := (earlier ++ [Call.filter call]).foldl perform (create samples 16)
      let scaled := self.yd (index self.bn n) * call.g
      |self.yd (index self.bn n)| ≤ Y
      ∧ (self.output n).toInt = scaled.num.tdiv scaled.den
      ∧ |((self.output n).toInt : ℚ)| ≤ |call.g| * Y := by
  intro self scaled
  let part (c : Call (Fin samples → Int32)) : Call Int32 := c.map fun data => data n
  have parts
      : (earlier ++ [Call.filter call]).map part
        = earlier.map part ++ [Call.filter (call.map fun data => data n)] := by
    rw [List.map_append]
    rfl
  have channel
      : self.channel n
        = (earlier.map part ++ [Call.filter (call.map fun data => data n)]).foldl
            Channel.perform (Channel.create 16) := by
    rw [channel_run, channel_create, ← parts]
  have calledAt
      : ∀ c ∈ earlier.map part ++ [Call.filter (call.map fun data => data n)],
          c.Admissible := by
    intro c member
    rw [← parts] at member
    obtain ⟨original, inside, rfl⟩ := List.mem_map.mp member
    exact (Call.admissible_map _ original).mpr (admissible original inside)
  have stableAt
      : ∀ c ∈ earlier.map part ++ [Call.filter (call.map fun data => data n)],
          c.Stable M Y := by
    intro c member
    rw [← parts] at member
    obtain ⟨original, inside, rfl⟩ := List.mem_map.mp member
    exact stable n original inside
  obtain ⟨bounded, output⟩ :=
    Channel.bounded_responses nonneg (earlier.map part) (call.map fun data => data n) forward
      calledAt stableAt
  have value : self.yd (index self.bn n) = _ :=
    congrArg (fun channel : Channel => channel.y channel.slot) channel
  have result : self.output n = _ := (congrArg Channel.output channel).trans output
  rw [← value] at bounded result
  obtain ⟨-, held⟩ : Call.Stable M Y (part (.filter call)) := stable n _ (by simp)
  have small : |scaled| ≤ |call.g| * Y := by
    rw [abs_mul, mul_comm]
    exact mul_le_mul_of_nonneg_left bounded (abs_nonneg _)
  have truncated : (self.output n).toInt = scaled.num.tdiv scaled.den := by
    rw [result]
    exact toInt_truncate_of_abs_lt (lt_of_le_of_lt small (held forward).2)
  refine ⟨bounded, truncated, ?_⟩
  rw [truncated]
  exact le_trans (abs_tdiv_le scaled) small

/-- One step of a filter on two channels that takes the mean of the data and its last value.
-/
def smoothing (x : Int32) : FilterCall (Fin 2 → Int32) where
  data := fun _ => x
  order := 1
  a := fun r => if r = 0 then 2 else -1
  b := fun r => if r = 0 then 1 else 0
  g := 1

/-- Three steps with a clear in between, on data up to 100. -/
theorem bounded_of_stable_smoothing
    : let self :=
        ([Call.filter (smoothing 100), Call.clearFilter, Call.filter (smoothing (-99))]
          ++ [Call.filter (smoothing 73)]).foldl perform (create 2 16)
      |((self.output 1).toInt : ℚ)| ≤ 100 := by
  have admissible (x : Int32) : (smoothing x).Admissible :=
    ⟨show -1 ≤ Int32.toInt 1 by decide, show Int32.toInt 1 ≤ 15 by decide,
      show (2 : ℚ) ≠ 0 by decide⟩
  have stable (x : Int32) (small : |(x.toInt : ℚ)| ≤ 100) (n : Fin 2)
      : ((Call.filter (smoothing x)).map fun data => data n).Stable 100 100 := by
    refine ⟨small, fun _ => ⟨?_, ?_⟩⟩
    · rw [Taps.Contracts]
      show (∑ r ∈ Finset.range 2, |(smoothing x).b r|) * 100
          + (∑ r ∈ Finset.Icc 1 1, |(smoothing x).a r|) * 100
        ≤ |(2 : ℚ)| * 100
      simp only [smoothing]
      decide +kernel
    · show |(1 : ℚ)| * 100 < 2 ^ 31
      decide +kernel
  have result :=
    bounded_of_stable (M := 100) (Y := 100) (show (0 : ℚ) ≤ 100 by decide +kernel)
      [Call.filter (smoothing 100), Call.clearFilter, Call.filter (smoothing (-99))]
      (smoothing 73) (show (1 : Int32) ≠ -1 by decide)
      (by simp [admissible, Call.Admissible])
      (fun n => by
        simp only [List.cons_append, List.nil_append, List.forall_mem_cons]
        exact ⟨stable 100 (by decide +kernel) n, trivial, stable (-99) (by decide +kernel) n,
          stable 73 (by decide +kernel) n, by simp⟩)
      1
  exact le_trans result.2.2 (show |(1 : ℚ)| * 100 ≤ 100 by decide +kernel)

end SmurfFilter

end Smurf
