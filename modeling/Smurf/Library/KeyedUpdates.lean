import Mathlib.Data.List.Basic

/-! Updates by key: of all updates of one key, the last one counts. -/

namespace KeyedUpdates

variable {κ ν σ α : Type*}

/-- What a field meets at first, it meets at last when the value that may have replaced it
does.
-/
theorem getD_map_iff {P : α → Prop} {first : α} (holds : P first) (convert : ν → α)
    (last : Option ν)
    : P ((last.map convert).getD first) ↔ ∀ value ∈ last, P (convert value) := by
  cases last with
  | none => exact ⟨fun _ _ member => absurd member (Option.not_mem_none _), fun _ => holds⟩
  | some value => exact ⟨fun met _ same => Option.some.inj same ▸ met, fun all => all value rfl⟩

/-- A field that no update sets is kept. -/
theorem field_foldl_of_kept (get : σ → α) {apply : σ → κ × ν → σ}
    (kept : ∀ state update, get (apply state update) = get state)
    (state : σ) (updates : List (κ × ν))
    : get (updates.foldl apply state) = get state := by
  induction updates generalizing state with
  | nil => rfl
  | cons update later ih => rw [List.foldl_cons, ih, kept]

variable [DecidableEq κ]

/-- The value of the last update of a key. -/
def lastValue (key : κ) : List (κ × ν) → Option ν
  | [] => none
  | update :: later =>
      (lastValue key later).or (if update.1 = key then some update.2 else none)

/-- A field that one key sets holds what the last update of that key makes of it, or its first
value if there is none, by induction on the updates.
-/
theorem field_foldl (get : σ → α) {apply : σ → κ × ν → σ} {key : κ} {convert : ν → α}
    (sets
      : ∀ state update,
          get (apply state update) = if update.1 = key then convert update.2 else get state)
    (state : σ) (updates : List (κ × ν))
    : get (updates.foldl apply state)
      = ((lastValue key updates).map convert).getD (get state) := by
  induction updates generalizing state with
  | nil => rfl
  | cons update later ih =>
      rw [List.foldl_cons, ih, sets, lastValue]
      cases lastValue key later with
      | some value => rfl
      | none =>
          simp only [Option.none_or]
          split <;> rfl

/-- One update for each of some keys, by induction on the keys. -/
theorem lastValue_map (f : κ → ν) (key : κ) (keys : List κ)
    : lastValue key (keys.map fun k => (k, f k)) = if key ∈ keys then some (f key) else none := by
  induction keys with
  | nil => rfl
  | cons first rest ih =>
      rw [List.map_cons, lastValue, ih]
      by_cases later : key ∈ rest
      · rw [if_pos later, if_pos (List.mem_cons_of_mem first later)]
        rfl
      · rw [if_neg later, Option.none_or]
        by_cases here : first = key
        · rw [if_pos here, if_pos (here ▸ List.mem_cons_self), here]
        · rw [if_neg here, if_neg (List.not_mem_cons_of_ne_of_not_mem (Ne.symm here) later)]

end KeyedUpdates
