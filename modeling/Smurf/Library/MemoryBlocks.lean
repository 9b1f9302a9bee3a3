import Mathlib.Logic.Function.Basic

/-! Blocks of memory of a fixed size, and programs on them.
An access outside its block has no result. A program on blocks that stays inside them does what
it does on cells without a bound.
-/

namespace MemoryBlocks

/-- A block of `size` cells. -/
abbrev Block (size : Nat) (α : Type*) : Type _ :=
  Fin size → α

namespace Block

variable {size : Nat} {α : Type*}

def load (block : Block size α) (k : Nat) : Option α :=
  if inside : k < size then some (block ⟨k, inside⟩) else none

def store (block : Block size α) (k : Nat) (value : α) : Option (Block size α) :=
  if inside : k < size then some (Function.update block ⟨k, inside⟩ value) else none

/-- Fill `count` cells from `start` on. -/
def fill (block : Block size α) (start count : Nat) (value : α) : Option (Block size α) :=
  if start + count ≤ size then
    some (fun k => if start ≤ k ∧ k < start + count then value else block k)
  else none

theorem lt_of_store {block stored : Block size α} {k : Nat} {value : α}
    (succeeds : block.store k value = some stored)
    : k < size := by
  by_contra outside
  rw [store, dif_neg outside] at succeeds
  cases succeeds

-----------------------------------------------------------------------------------------
-- Cells without a bound
-----------------------------------------------------------------------------------------

/-- The block holds what is in the first cells. -/
def Holds (block : Block size α) (cells : Nat → α) : Prop :=
  ∀ k : Fin size, block k = cells k

variable {block : Block size α} {cells : Nat → α}

theorem Holds.load (holds : block.Holds cells) {k : Nat} (inside : k < size)
    : block.load k = some (cells k) := by
  rw [Block.load, dif_pos inside, holds]

theorem Holds.store (holds : block.Holds cells) {k : Nat} (inside : k < size) (value : α)
    : ∃ stored,
        block.store k value = some stored
        ∧ stored.Holds (Function.update cells k value) := by
  refine ⟨_, dif_pos inside, fun j => ?_⟩
  by_cases same : j = ⟨k, inside⟩
  · subst same
    rw [Function.update_self, Function.update_self]
  · rw [Function.update_of_ne same, Function.update_of_ne (fun equal => same (Fin.ext equal))]
    exact holds j

theorem Holds.fill (holds : block.Holds cells) {start count : Nat}
    (inside : start + count ≤ size) (value : α)
    : ∃ filled,
        block.fill start count value = some filled
        ∧ filled.Holds (fun k => if start ≤ k ∧ k < start + count then value else cells k) := by
  refine ⟨_, if_pos inside, fun j => ?_⟩
  dsimp only
  rw [holds]

end Block

-----------------------------------------------------------------------------------------
-- Loops
-----------------------------------------------------------------------------------------

section Loops

variable {σ τ ι : Type*} {checked : σ → ι → Option σ}

section Simulation

variable {R : List ι → σ → τ → Prop} {step : τ → ι → τ}
  (each : ∀ done s t x, R done s t → ∃ s', checked s x = some s' ∧ R (done ++ [x]) s' (step t x))
include each

/-- The rest of a loop, after the iterations done. By induction on it. -/
theorem foldlM_simulates_from (done : List ι) {s : σ} {t : τ} (start : R done s t)
    (inputs : List ι)
    : ∃ s', inputs.foldlM checked s = some s' ∧ R (done ++ inputs) s' (inputs.foldl step t) := by
  induction inputs generalizing done s t with
  | nil => exact ⟨s, rfl, by rwa [List.append_nil]⟩
  | cons x rest ih =>
      obtain ⟨next, stepped, kept⟩ := each done s t x start
      obtain ⟨last, ended, holds⟩ := ih _ kept
      refine ⟨last, ?_, ?_⟩
      · rw [List.foldlM_cons, stepped]
        exact ended
      · rwa [List.append_assoc] at holds

/-- A loop of steps that have a result, and keep a relation to another loop's steps, has a result
that keeps it. The relation may depend on the iterations done.
-/
theorem foldlM_simulates {s : σ} {t : τ} (start : R [] s t) (inputs : List ι)
    : ∃ s', inputs.foldlM checked s = some s' ∧ R inputs s' (inputs.foldl step t) :=
  foldlM_simulates_from each [] start inputs

end Simulation

/-- Where a loop has a result, an invariant of its steps holds there, and each of its iterations
had a result in a state that keeps the invariant. By induction on the loop.
-/
theorem foldlM_succeeds {I : σ → Prop} (keep : ∀ s x s', I s → checked s x = some s' → I s')
    {inputs : List ι} {s last : σ} (start : I s) (ended : inputs.foldlM checked s = some last)
    : I last ∧ ∀ x ∈ inputs, ∃ s s', I s ∧ checked s x = some s' := by
  induction inputs generalizing s with
  | nil =>
      cases ended
      exact ⟨start, fun x member => absurd member List.not_mem_nil⟩
  | cons first rest ih =>
      rw [List.foldlM_cons] at ended
      obtain ⟨next, stepped, ended⟩ := Option.bind_eq_some_iff.mp ended
      obtain ⟨held, each⟩ := ih (keep s first next start stepped) ended
      exact ⟨held, List.forall_mem_cons.mpr ⟨⟨s, next, start, stepped⟩, each⟩⟩

end Loops

end MemoryBlocks
