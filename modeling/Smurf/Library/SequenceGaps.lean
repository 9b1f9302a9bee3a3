import Mathlib

/-! Gaps in a stream of sequence numbers: the numbers between the first and the highest one
accepted that were not accepted themselves.
-/

namespace SequenceGaps

/-- The highest number accepted, 0 when there is none. -/
def highest (accepted : Finset ℕ) : ℕ :=
  accepted.sup id

/-- How many numbers strictly between the first and the highest one are missing. -/
def gaps (first : ℕ) (accepted : Finset ℕ) : ℕ :=
  (Finset.Ioo first (highest accepted) \ accepted).card

variable {first c : ℕ} {accepted : Finset ℕ}

theorem le_highest (member : c ∈ accepted) : c ≤ highest accepted :=
  Finset.le_sup (f := id) member

theorem highest_mem (nonempty : accepted.Nonempty) : highest accepted ∈ accepted := by
  obtain ⟨c, member, attained⟩ := Finset.exists_mem_eq_sup accepted nonempty id
  rw [highest, attained]
  exact member

theorem highest_insert (c : ℕ) (accepted : Finset ℕ)
    : highest (insert c accepted) = max c (highest accepted) :=
  Finset.sup_insert

@[simp] theorem gaps_empty (first : ℕ) : gaps first ∅ = 0 := by
  simp [gaps, highest]

@[simp] theorem gaps_singleton (first : ℕ) : gaps first {first} = 0 := by
  simp [gaps, highest]

/-- A number above all accepted ones adds those skipped. Witness: the missing numbers are
those from before, below the old highest one, and those between the old and the new one.
-/
theorem gaps_insert_above (member : first ∈ accepted) (above : highest accepted < c)
    : gaps first (insert c accepted) = gaps first accepted + (c - highest accepted - 1) := by
  have highestIn := highest_mem ⟨first, member⟩
  have from_first := le_highest member
  have split
      : Finset.Ioo first c \ insert c accepted
        = (Finset.Ioo first (highest accepted) \ accepted)
          ∪ Finset.Ioo (highest accepted) c := by
    ext x
    simp only [Finset.mem_sdiff, Finset.mem_Ioo, Finset.mem_insert, not_or, Finset.mem_union]
    constructor
    · rintro ⟨⟨low, less⟩, -, absent⟩
      rcases Nat.lt_trichotomy x (highest accepted) with below | equal | beyond
      · exact .inl ⟨⟨low, below⟩, absent⟩
      · exact absurd (equal ▸ highestIn) absent
      · exact .inr ⟨beyond, less⟩
    · rintro (⟨⟨low, below⟩, absent⟩ | ⟨beyond, less⟩)
      · exact ⟨⟨low, by omega⟩, by omega, absent⟩
      · exact ⟨⟨by omega, less⟩, by omega, fun inside => absurd (le_highest inside) (by omega)⟩
  have disjoint
      : Disjoint (Finset.Ioo first (highest accepted) \ accepted)
          (Finset.Ioo (highest accepted) c) := by
    refine Finset.disjoint_left.mpr (fun x inner outer => ?_)
    have below := (Finset.mem_Ioo.mp (Finset.mem_sdiff.mp inner).1).2
    have beyond := (Finset.mem_Ioo.mp outer).1
    omega
  rw [gaps, highest_insert, max_eq_left (by omega), split, Finset.card_union_of_disjoint disjoint,
    Nat.card_Ioo]
  rfl

/-- A number up to the highest one can only fill a gap. -/
theorem gaps_insert_within (within : c ≤ highest accepted)
    : gaps first (insert c accepted)
      = ((Finset.Ioo first (highest accepted) \ accepted).erase c).card := by
  rw [gaps, highest_insert, max_eq_right within, Finset.sdiff_insert]

/-- A number that was missing fills its gap. -/
theorem gaps_insert_missing (low : first < c) (within : c < highest accepted)
    (missing : c ∉ accepted)
    : gaps first (insert c accepted) + 1 = gaps first accepted := by
  have inside : c ∈ Finset.Ioo first (highest accepted) \ accepted :=
    Finset.mem_sdiff.mpr ⟨Finset.mem_Ioo.mpr ⟨low, within⟩, missing⟩
  rw [gaps_insert_within (by omega), Finset.card_erase_add_one inside]
  rfl

/-- A number that was not missing leaves the gaps as they are. -/
theorem gaps_insert_known (within : c ≤ highest accepted) (known : c ∈ accepted ∨ c ≤ first)
    : gaps first (insert c accepted) = gaps first accepted := by
  have outside : c ∉ Finset.Ioo first (highest accepted) \ accepted := by
    simp only [Finset.mem_sdiff, Finset.mem_Ioo]
    rintro ⟨⟨low, -⟩, absent⟩
    rcases known with member | before
    · exact absent member
    · omega
  rw [gaps_insert_within within, Finset.erase_eq_of_notMem outside]
  rfl

/-- A number up to the highest one never adds a gap. -/
theorem gaps_insert_le (within : c ≤ highest accepted)
    : gaps first (insert c accepted) ≤ gaps first accepted := by
  rw [gaps_insert_within within]
  exact Finset.card_le_card (Finset.erase_subset _ _)

/-- A number `c` that comes after `previous`, which is not above the highest one, adds the
numbers between them to the gaps exactly when `previous` is the highest one and `c` passes
it, or when `c` is next to `previous` and no gap.
-/
theorem gaps_insert_eq_iff {previous : ℕ} (member : first ∈ accepted)
    (below : previous ≤ highest accepted) (later : previous < c)
    : gaps first (insert c accepted) = gaps first accepted + (c - previous - 1)
      ↔ (highest accepted < c ∧ previous = highest accepted)
        ∨ (c = previous + 1 ∧ c ≤ highest accepted ∧ (c ∈ accepted ∨ c ≤ first)) := by
  by_cases above : highest accepted < c
  · rw [gaps_insert_above member above]
    omega
  · have within : c ≤ highest accepted := by omega
    by_cases known : c ∈ accepted ∨ c ≤ first
    · rw [gaps_insert_known within known]
      simp only [known, and_true]
      omega
    · obtain ⟨absent, low⟩ := not_or.mp known
      have inner : c < highest accepted := by
        refine lt_of_le_of_ne within (fun equal => absent ?_)
        rw [equal]
        exact highest_mem ⟨first, member⟩
      have filled := gaps_insert_missing (show first < c by omega) inner absent
      constructor
      · omega
      · rintro (⟨beyond, -⟩ | ⟨-, -, isKnown⟩)
        · exact absurd beyond above
        · exact absurd isKnown known

end SequenceGaps
