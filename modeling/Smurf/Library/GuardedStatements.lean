import Mathlib.Logic.Function.Iterate

/-! Programs that are executed one statement at a time.
A condition is a statement of its own: executing it puts what it guards before the rest of the
program. Threads over one store interleave such statements.
-/

namespace GuardedStatements

/-- What a statement does to the store, and which statements it guards there. -/
structure Language (σ ι : Type*) where
  exec : σ → ι → σ
  guarded : σ → ι → List ι

namespace Language

variable {σ ι : Type*} (language : Language σ ι)

/-- The next statement of a program is executed; a program that has ended does nothing. -/
def next (store : σ) : List ι → σ × List ι
  | [] => (store, [])
  | statement :: rest =>
      (language.exec store statement, language.guarded store statement ++ rest)

/-- A statement together with what it guards, without interruption. -/
def run (store : σ) (statement : ι) : σ :=
  (language.guarded store statement).foldl language.exec (language.exec store statement)

/-- Conditions do not guard other conditions. -/
def Flat : Prop :=
  ∀ store statement, ∀ inner ∈ language.guarded store statement, ∀ store',
    language.guarded store' inner = []

variable {language}

/-- Statements without conditions are executed one by one, by induction on them. -/
theorem iterate_next_append {plain : List ι}
    (unguarded : ∀ inner ∈ plain, ∀ store, language.guarded store inner = []) (store : σ)
    (rest : List ι)
    : (fun state => language.next state.1 state.2)^[plain.length] (store, plain ++ rest)
      = (plain.foldl language.exec store, rest) := by
  induction plain generalizing store with
  | nil => rfl
  | cons inner plain ih =>
      obtain ⟨here, later⟩ := List.forall_mem_cons.mp unguarded
      rw [List.length_cons, Function.iterate_succ_apply, List.cons_append, next, here,
        List.nil_append, ih later, List.foldl_cons]

/-- A program that is not interrupted ends, having run its statements in a row. By induction on
the program.
-/
theorem Flat.exists_iterate_next (flat : language.Flat) (store : σ) (program : List ι)
    : ∃ turns,
        (fun state => language.next state.1 state.2)^[turns] (store, program)
        = (program.foldl language.run store, []) := by
  induction program generalizing store with
  | nil => exact ⟨0, rfl⟩
  | cons statement rest ih =>
      obtain ⟨turns, ended⟩ := ih (language.run store statement)
      refine ⟨turns + (language.guarded store statement).length + 1, ?_⟩
      rw [Function.iterate_succ_apply, Function.iterate_add_apply, next,
        iterate_next_append (flat store statement), List.foldl_cons]
      exact ended

end Language

end GuardedStatements
