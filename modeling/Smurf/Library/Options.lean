import Mathlib.Data.List.Induction

/-! Settings made by options, where the last option of a kind counts.
-/

namespace Options

universe u

variable {σ ι ε α : Type*}

/-- The value of the last option that gives one. -/
def last (pick : ι → Option α) (unset : α) (options : List ι) : α :=
  ((options.filterMap pick).getLast?).getD unset

end Options
