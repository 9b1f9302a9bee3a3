import Mathlib.Data.List.Basic
import Mathlib.Logic.Function.Basic

/-! Which stores the cells of a memory come from.
A piece of code is a list of stores. Beside the memory, every cell is marked with the tag of
the code that wrote it last, so that a cell with this tag is one that this code wrote.
-/

namespace Provenance

variable {A V T : Type*} [DecidableEq A]

/-- The memory after some stores. -/
def storeAll (stores : List (A × V)) (memory : A → V) : A → V :=
  stores.foldl (fun memory store => Function.update memory store.1 store.2) memory

/-- The marks after some stores of one tag. -/
def markAll (tag : T) (stores : List (A × V)) (marks : A → T) : A → T :=
  stores.foldl (fun marks store => Function.update marks store.1 tag) marks

@[simp] theorem storeAll_cons (store : A × V) (stores : List (A × V)) (memory : A → V)
    : storeAll (store :: stores) memory
      = storeAll stores (Function.update memory store.1 store.2) :=
  rfl

@[simp] theorem markAll_cons (tag : T) (store : A × V) (stores : List (A × V)) (marks : A → T)
    : markAll tag (store :: stores) marks
      = markAll tag stores (Function.update marks store.1 tag) :=
  rfl

/-- Stores elsewhere leave a cell alone, by induction on the stores. -/
theorem storeAll_of_not_mem {stores : List (A × V)} {cell : A}
    (elsewhere : cell ∉ stores.map Prod.fst) (memory : A → V)
    : storeAll stores memory cell = memory cell := by
  induction stores generalizing memory with
  | nil => rfl
  | cons store stores ih =>
      rw [List.map_cons, List.mem_cons, not_or] at elsewhere
      rw [storeAll_cons, ih elsewhere.2, Function.update_of_ne elsewhere.1]

/-- A cell stored to no longer depends on the memory before, by induction on the stores. -/
theorem storeAll_of_mem {stores : List (A × V)} {cell : A}
    (written : cell ∈ stores.map Prod.fst) (memory other : A → V)
    : storeAll stores memory cell = storeAll stores other cell := by
  induction stores generalizing memory other with
  | nil => exact absurd written List.not_mem_nil
  | cons store stores ih =>
      rw [storeAll_cons, storeAll_cons]
      by_cases later : cell ∈ stores.map Prod.fst
      · exact ih later _ _
      · have here : cell = store.1 := (List.mem_cons.mp written).resolve_right later
        rw [storeAll_of_not_mem later, storeAll_of_not_mem later, here, Function.update_self,
          Function.update_self]

/-- The cells stored to are marked, and no others, by induction on the stores. -/
theorem markAll_apply (tag : T) (stores : List (A × V)) (marks : A → T) (cell : A)
    : markAll tag stores marks cell
      = if cell ∈ stores.map Prod.fst then tag else marks cell := by
  induction stores generalizing marks with
  | nil => rfl
  | cons store stores ih =>
      rw [markAll_cons, ih, List.map_cons]
      by_cases later : cell ∈ stores.map Prod.fst
      · rw [if_pos later, if_pos (List.mem_cons_of_mem _ later)]
      · rw [if_neg later, Function.update_apply]
        simp only [List.mem_cons, later, or_false]

/-- Where a tag is new, its cells are exactly those its code stored to. -/
theorem markAll_eq_tag_iff {tag : T} {stores : List (A × V)} {marks : A → T} {cell : A}
    (new : marks cell ≠ tag)
    : markAll tag stores marks cell = tag ↔ cell ∈ stores.map Prod.fst := by
  rw [markAll_apply]
  split
  case isTrue written => exact ⟨fun _ => written, fun _ => rfl⟩
  case isFalse elsewhere => exact ⟨fun same => absurd same new, fun in_ => absurd in_ elsewhere⟩

end Provenance

