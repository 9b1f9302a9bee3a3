import Mathlib.Logic.Basic

/-! Mutual exclusion: the owner recorded for a mutex against the parties that are between lock and
unlock.
-/

namespace MutualExclusion

variable {α : Type*} {owner : Option α} {inside next : α → Bool}

/-- The owner, if there is one, is the only party inside. -/
def Excludes (owner : Option α) (inside : α → Bool) : Prop :=
  ∀ party, owner = some party ↔ inside party = true

/-- With a free mutex nobody is inside. -/
theorem Excludes.outside (excludes : Excludes none inside) (party : α)
    : inside party = false :=
  Bool.eq_false_iff.mpr (fun within => by cases (excludes party).mpr within)

/-- No two parties are inside. -/
theorem Excludes.eq_of_inside (excludes : Excludes owner inside) {first second : α}
    (one : inside first = true) (other : inside second = true)
    : first = second :=
  Option.some.inj (((excludes first).mpr one).symm.trans ((excludes second).mpr other))

/-- A step that neither locks nor unlocks. -/
theorem Excludes.keeps (excludes : Excludes owner inside)
    (same : ∀ party, next party = inside party)
    : Excludes owner next :=
  fun party => by rw [same]; exact excludes party

theorem Excludes.lock (excludes : Excludes none inside) (party : α) (enters : next party = true)
    (others : ∀ other, other ≠ party → next other = inside other)
    : Excludes (some party) next := by
  intro other
  by_cases own : other = party
  · subst own
    exact iff_of_true rfl enters
  · rw [others other own, excludes.outside other]
    exact iff_of_false (fun same => own (Option.some.inj same).symm) Bool.false_ne_true

theorem Excludes.unlock (excludes : Excludes owner inside) (party : α)
    (within : inside party = true) (leaves : next party = false)
    (others : ∀ other, other ≠ party → next other = inside other)
    : Excludes none next := by
  intro other
  refine iff_of_false (fun same => by cases same) (fun remains => ?_)
  by_cases own : other = party
  · rw [own, leaves] at remains
    cases remains
  · rw [others other own] at remains
    exact own (excludes.eq_of_inside remains within)

end MutualExclusion
