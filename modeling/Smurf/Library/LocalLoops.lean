import Mathlib.Data.List.Basic

/-! Loops whose iterations do not interfere.
Each index has its own part of the state, and an iteration reads and writes the part of its
index only. The loop then does to each part what its one iteration there does.
-/

namespace LocalLoops

variable {ι σ τ : Type*} {view : σ → τ} {body : σ → ι → σ} {i : ι}

/-- Iterations that all keep a part of the state keep it together, by induction on them. -/
theorem foldl_kept {indices : List ι} (frame : ∀ j ∈ indices, ∀ s, view (body s j) = view s)
    (s : σ)
    : view (indices.foldl body s) = view s := by
  induction indices generalizing s with
  | nil => rfl
  | cons first rest ih =>
      obtain ⟨here, later⟩ := List.forall_mem_cons.mp frame
      rw [List.foldl_cons, ih later, here]

/-- Iterations at other indices keep the part of `i`. -/
theorem foldl_other (frame : ∀ j ≠ i, ∀ s, view (body s j) = view s) {indices : List ι}
    (absent : i ∉ indices) (s : σ)
    : view (indices.foldl body s) = view s :=
  foldl_kept (fun j member => frame j (fun same => absent (same ▸ member))) s

/-- A loop over distinct indices changes the part of `i` as iteration `i` does. Witness:
induction on the indices; those before `i` keep its part, and so do those after it.
-/
theorem foldl_own {own : τ → τ} (frame : ∀ j ≠ i, ∀ s, view (body s j) = view s)
    (acts : ∀ s, view (body s i) = own (view s)) {indices : List ι}
    (distinct : indices.Nodup) (member : i ∈ indices) (s : σ)
    : view (indices.foldl body s) = own (view s) := by
  induction indices generalizing s with
  | nil => cases member
  | cons first rest ih =>
      obtain ⟨absent, distinctRest⟩ := List.nodup_cons.mp distinct
      rw [List.foldl_cons]
      by_cases here : first = i
      · subst first
        rw [foldl_other frame absent, acts]
      · have later := (List.mem_cons.mp member).resolve_left (Ne.symm here)
        rw [ih distinctRest later, frame first here]

end LocalLoops
