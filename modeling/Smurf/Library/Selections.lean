import Mathlib.Data.List.Basic

/-! What a selection from a list passes over: the entries left out before the one that is
selected as the `n`-th.
-/

namespace Selections

variable {α : Type*} (selected : α → Bool)

/-- The number of entries left out before the `n`-th selected one, or of all entries left out
if fewer than `n` are selected.
-/
def skipped : List α → Nat → Nat
  | _, 0 => 0
  | [], _ + 1 => 0
  | entry :: rest, n + 1 =>
      if selected entry then skipped rest n else skipped rest (n + 1) + 1

variable {selected} {entry : α} {entries more : List α} {n m : Nat}

theorem skipped_cons_selected (here : selected entry = true)
    : skipped selected (entry :: entries) (n + 1) = skipped selected entries n := by
  rw [skipped, if_pos here]

theorem skipped_cons_left_out (here : ¬ selected entry = true)
    : skipped selected (entry :: entries) (n + 1) = skipped selected entries (n + 1) + 1 := by
  rw [skipped, if_neg here]

/-- What comes behind the `n`-th selected entry does not matter, by induction on the entries.
-/
theorem skipped_append (inside : n ≤ (entries.filter selected).length) (more : List α)
    : skipped selected (entries ++ more) n = skipped selected entries n := by
  induction entries generalizing n with
  | nil =>
      obtain rfl : n = 0 := Nat.le_zero.mp inside
      simp [skipped]
  | cons entry rest ih =>
      cases n with
      | zero => simp [skipped]
      | succ n =>
          rw [List.cons_append]
          by_cases here : selected entry = true
          · rw [List.filter_cons_of_pos here, List.length_cons] at inside
            rw [skipped_cons_selected here, skipped_cons_selected here,
              ih (Nat.le_of_succ_le_succ inside)]
          · rw [List.filter_cons_of_neg here] at inside
            rw [skipped_cons_left_out here, skipped_cons_left_out here, ih inside]

/-- Later selected entries have more entries left out before them. -/
theorem skipped_mono (le : n ≤ m) : skipped selected entries n ≤ skipped selected entries m := by
  induction entries generalizing n m with
  | nil => cases n <;> cases m <;> simp [skipped]
  | cons entry rest ih =>
      cases n with
      | zero => simp [skipped]
      | succ n =>
          obtain ⟨m, rfl⟩ : ∃ later, m = later + 1 := ⟨m - 1, by omega⟩
          by_cases here : selected entry = true
          · rw [skipped_cons_selected here, skipped_cons_selected here]
            exact ih (Nat.le_of_succ_le_succ le)
          · rw [skipped_cons_left_out here, skipped_cons_left_out here]
            exact Nat.succ_le_succ (ih le)

/-- Where the selected entries are among all entries. -/
theorem getElem?_of_filter (found : (entries.filter selected)[n]? = some entry)
    : entries[n + skipped selected entries (n + 1)]? = some entry := by
  induction entries generalizing n with
  | nil => simp at found
  | cons first rest ih =>
      by_cases here : selected first = true
      · rw [List.filter_cons_of_pos here] at found
        rw [skipped_cons_selected here]
        cases n with
        | zero => simpa [skipped] using found
        | succ n =>
            rw [Nat.add_right_comm]
            exact ih found
      · rw [List.filter_cons_of_neg here] at found
        rw [skipped_cons_left_out here, ← Nat.add_assoc]
        exact ih found

end Selections
