import Mathlib.Data.List.Induction
import Mathlib.Data.Nat.Basic

/-! Cutting a list that grows at its end: into pieces of `n` entries, or at separators. -/

namespace Chunks

variable {α : Type*} {n : Nat}

/-- Piece `p`, the last one as far as it goes. -/
def chunk (n p : Nat) (xs : List α) : List α :=
  (xs.drop (p * n)).take n

/-- A piece that is complete stays as it is. -/
theorem chunk_concat_of_complete {p : Nat} {xs : List α} (complete : (p + 1) * n ≤ xs.length)
    (x : α)
    : chunk n p (xs ++ [x]) = chunk n p xs := by
  rw [Nat.add_mul, Nat.one_mul] at complete
  rw [chunk, chunk, List.drop_append_of_le_length (by omega),
    List.take_append_of_le_length (by rw [List.length_drop]; omega)]

/-- A new entry goes to the end of the last piece. -/
theorem chunk_concat_last (positive : 0 < n) (xs : List α) (x : α)
    : chunk n (xs.length / n) (xs ++ [x]) = chunk n (xs.length / n) xs ++ [x] := by
  have least : xs.length / n * n ≤ xs.length := Nat.div_mul_le_self ..
  have rest : xs.length - xs.length / n * n < n := by
    rw [← Nat.mod_eq_sub_div_mul]
    exact Nat.mod_lt _ positive
  have short : (xs.drop (xs.length / n * n)).length < n := by rwa [List.length_drop]
  rw [chunk, chunk, List.drop_append_of_le_length least,
    List.take_of_length_le (by rw [List.length_append, List.length_singleton]; omega),
    List.take_of_length_le (by omega)]

/-- Nothing is in the piece that a next entry would begin. -/
theorem chunk_last_of_complete {xs : List α} (complete : xs.length % n = 0)
    : chunk n (xs.length / n) xs = [] := by
  rw [chunk, Nat.div_mul_cancel (Nat.dvd_of_mod_eq_zero complete), List.drop_length,
    List.take_nil]

/-- The piece a next entry goes to, and its place there, where the piece gets complete. -/
theorem succ_div_mod_of_last {m : Nat} (positive : 0 < n) (last : n ≤ m % n + 1)
    : (m + 1) / n = m / n + 1 ∧ (m + 1) % n = 0 := by
  have bound := Nat.mod_lt m positive
  rw [Nat.div_mod_unique positive]
  have whole := Nat.mod_add_div m n
  rw [Nat.mul_add, Nat.mul_one]
  omega

/-- The piece a next entry goes to, and its place there, where more entries fit. -/
theorem succ_div_mod_of_not_last {m : Nat} (positive : 0 < n) (more : m % n + 1 < n)
    : (m + 1) / n = m / n ∧ (m + 1) % n = m % n + 1 := by
  rw [Nat.div_mod_unique positive]
  have whole := Nat.mod_add_div m n
  omega

-----------------------------------------------------------------------------------------
-- Separators
-----------------------------------------------------------------------------------------

/-- The entries behind the last separator, and the sections before it, the latest first. A
separator belongs to none.
-/
structure Sections (α : Type*) where
  current : List α
  earlier : List (List α)

namespace Sections

def after (separates : α → Bool) (self : Sections α) (x : α) : Sections α :=
  if separates x then ⟨[], self.current :: self.earlier⟩
  else ⟨self.current ++ [x], self.earlier⟩

def all (self : Sections α) : List (List α) :=
  self.current :: self.earlier

/-- The latest section with more than `k` entries. -/
def reaching? (self : Sections α) (k : Nat) : Option (List α) :=
  self.all.find? fun piece => k < piece.length

/-- Each section has fewer than `m` entries. -/
def Short (self : Sections α) (m : Nat) : Prop :=
  ∀ piece ∈ self.all, piece.length < m

variable {separates : α → Bool} {self : Sections α} {x : α} {k m : Nat}

theorem after_of_separates (separated : separates x = true)
    : self.after separates x = ⟨[], self.current :: self.earlier⟩ :=
  if_pos separated

theorem after_of_not_separates (joined : separates x = false)
    : self.after separates x = ⟨self.current ++ [x], self.earlier⟩ :=
  if_neg (by simp [joined])

theorem reaching?_of_lt (reaches : k < self.current.length)
    : self.reaching? k = some self.current := by
  simp [reaching?, all, reaches]

theorem reaching?_of_le (short : self.current.length ≤ k)
    : self.reaching? k = self.earlier.find? fun piece => k < piece.length := by
  simp [reaching?, all, Nat.not_lt.mpr short]

/-- A separator keeps the sections that there are. -/
theorem reaching?_after_of_separates (separated : separates x = true)
    : (self.after separates x).reaching? k = self.reaching? k := by
  rw [after_of_separates separated, reaching?_of_le (Nat.zero_le k)]
  rfl

/-- The sections are no longer before the last entry. -/
theorem Short.of_after (short : (self.after separates x).Short m) : self.Short m := by
  by_cases separated : separates x = true
  · rw [after_of_separates separated] at short
    exact fun piece member => short piece (List.mem_cons_of_mem _ member)
  · rw [after_of_not_separates (Bool.eq_false_iff.mpr separated)] at short
    obtain ⟨longer, rest⟩ := List.forall_mem_cons.mp short
    rw [List.length_append, List.length_singleton] at longer
    exact List.forall_mem_cons.mpr ⟨Nat.lt_of_succ_lt longer, rest⟩

end Sections

/-- The sections of a list between separators. -/
def sections (separates : α → Bool) (xs : List α) : Sections α :=
  xs.foldl (Sections.after separates) ⟨[], []⟩

theorem sections_concat (separates : α → Bool) (xs : List α) (x : α)
    : sections separates (xs ++ [x]) = (sections separates xs).after separates x :=
  List.foldl_append

end Chunks
