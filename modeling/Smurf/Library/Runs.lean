import Mathlib.Data.List.Forall2
import Mathlib.Data.List.Induction

/-! Runs of deterministic machines, and what holds along them.
A run is the list of inputs a machine takes from a starting state. Properties of a run are
stated at each state it passes, guards at each of its steps.
-/

namespace Runs

variable {σ ι ο : Type*}

-----------------------------------------------------------------------------------------
-- States passed and steps taken
-----------------------------------------------------------------------------------------

/-- `P` holds in every state the run passes, the first and the last included. -/
def EachState (step : σ → ι → σ) (P : σ → Prop) : σ → List ι → Prop
  | state, [] => P state
  | state, input :: rest => P state ∧ EachState step P (step state input) rest

/-- `G` holds of every step of the run, read in the state before the step. -/
def EachStep (step : σ → ι → σ) (G : σ → ι → Prop) : σ → List ι → Prop
  | _, [] => True
  | state, input :: rest => G state input ∧ EachStep step G (step state input) rest

instance EachState.decidable (step : σ → ι → σ) (P : σ → Prop) [DecidablePred P]
    (state : σ) (inputs : List ι)
    : Decidable (EachState step P state inputs) :=
  match inputs with
  | [] => inferInstanceAs (Decidable (P state))
  | input :: rest =>
      have := EachState.decidable step P (step state input) rest
      inferInstanceAs (Decidable (P state ∧ EachState step P (step state input) rest))

instance EachStep.decidable (step : σ → ι → σ) (G : σ → ι → Prop)
    [∀ state input, Decidable (G state input)] (state : σ) (inputs : List ι)
    : Decidable (EachStep step G state inputs) :=
  match inputs with
  | [] => inferInstanceAs (Decidable True)
  | input :: rest =>
      have := EachStep.decidable step G (step state input) rest
      inferInstanceAs (Decidable (G state input ∧ EachStep step G (step state input) rest))

/-- What holds in every state holds in the first one. -/
theorem EachState.first {step : σ → ι → σ} {P : σ → Prop} {state : σ} {inputs : List ι}
    (h : EachState step P state inputs)
    : P state := by
  cases inputs with
  | nil => exact h
  | cons input rest => exact h.1

/-- What holds in every state holds in the state the run ends in, by induction on the run.
-/
theorem EachState.final {step : σ → ι → σ} {P : σ → Prop} {state : σ} {inputs : List ι}
    (h : EachState step P state inputs)
    : P (inputs.foldl step state) := by
  induction inputs generalizing state with
  | nil => exact h
  | cons input rest ih => exact ih h.2

/-- A weaker property holds in the same states. -/
theorem EachState.mono {step : σ → ι → σ} {P Q : σ → Prop} {state : σ} {inputs : List ι}
    (h : EachState step P state inputs) (weaker : ∀ s, P s → Q s)
    : EachState step Q state inputs := by
  induction inputs generalizing state with
  | nil => exact weaker state h
  | cons input rest ih => exact ⟨weaker state h.1, ih h.2⟩

/-- A guard that every input meets in every state holds along every run. -/
theorem EachStep.of_forall {step : σ → ι → σ} {G : σ → ι → Prop} {inputs : List ι}
    (always : ∀ x ∈ inputs, ∀ s, G s x) (state : σ)
    : EachStep step G state inputs := by
  induction inputs generalizing state with
  | nil => trivial
  | cons input rest ih =>
      obtain ⟨here, later⟩ := List.forall_mem_cons.mp always
      exact ⟨here state, ih later _⟩

/-- A weaker guard holds at the same steps. -/
theorem EachStep.mono {step : σ → ι → σ} {G H : σ → ι → Prop} {state : σ} {inputs : List ι}
    (steps : EachStep step G state inputs) (weaker : ∀ s x, G s x → H s x)
    : EachStep step H state inputs := by
  induction inputs generalizing state with
  | nil => trivial
  | cons input rest ih => exact ⟨weaker state input steps.1, ih steps.2⟩

/-- A guard holds along two runs of which the second goes on where the first ends. -/
theorem EachStep.append {step : σ → ι → σ} {G : σ → ι → Prop} {state : σ} {inputs more : List ι}
    (steps : EachStep step G state inputs)
    (further : EachStep step G (inputs.foldl step state) more)
    : EachStep step G state (inputs ++ more) := by
  induction inputs generalizing state with
  | nil => exact further
  | cons input rest ih => exact ⟨steps.1, ih steps.2 further⟩

/-- A guard on inputs alone holds along the runs of such inputs. -/
theorem eachStep_iff_forall {step : σ → ι → σ} {H : ι → Prop} {state : σ} {inputs : List ι}
    : EachStep step (fun _ x => H x) state inputs ↔ ∀ x ∈ inputs, H x := by
  induction inputs generalizing state with
  | nil => exact ⟨fun _ _ member => absurd member List.not_mem_nil, fun _ => trivial⟩
  | cons input rest ih => exact (and_congr_right' ih).trans List.forall_mem_cons.symm

/-- A guard holds along a run with one more step when it holds along the run, and at its
end, by induction on the run.
-/
theorem eachStep_concat {step : σ → ι → σ} {G : σ → ι → Prop} {state : σ} {inputs : List ι}
    {input : ι}
    : EachStep step G state (inputs ++ [input])
      ↔ EachStep step G state inputs ∧ G (inputs.foldl step state) input := by
  induction inputs generalizing state with
  | nil => exact ⟨fun each => ⟨trivial, each.1⟩, fun each => ⟨each.2, trivial⟩⟩
  | cons first rest ih =>
      exact ⟨fun each => ⟨⟨each.1, (ih.mp each.2).1⟩, (ih.mp each.2).2⟩,
        fun each => ⟨each.1.1, ih.mpr ⟨each.1.2, each.2⟩⟩⟩

-----------------------------------------------------------------------------------------
-- Invariants
-----------------------------------------------------------------------------------------

/-- An invariant that every guarded step keeps holds along every run whose steps all meet
the guard, by induction on the run.
-/
theorem EachStep.invariant {step : σ → ι → σ} {G : σ → ι → Prop} {I : σ → Prop} {state : σ}
    {inputs : List ι} (steps : EachStep step G state inputs) (start : I state)
    (keep : ∀ s x, I s → G s x → I (step s x))
    : EachState step I state inputs := by
  induction inputs generalizing state with
  | nil => exact start
  | cons input rest ih => exact ⟨start, ih steps.2 (keep state input start steps.1)⟩

/-- An invariant that every step keeps holds along every run. -/
theorem EachState.of_invariant {step : σ → ι → σ} {I : σ → Prop} {state : σ} (start : I state)
    (keep : ∀ s x, I s → I (step s x)) (inputs : List ι)
    : EachState step I state inputs :=
  (EachStep.of_forall (G := fun _ _ => True) (fun _ _ _ => trivial) state).invariant start
    (fun s x holds _ => keep s x holds)

/-- Where a guarded step keeps the invariant, the invariant gives `P`, and an unguarded
step breaks `P` at once, `P` holds along a run exactly when all its steps meet the guard.
-/
theorem eachState_iff_eachStep {step : σ → ι → σ} {G : σ → ι → Prop} {I P : σ → Prop}
    {state : σ} {inputs : List ι} (start : I state) (gives : ∀ s, I s → P s)
    (keep : ∀ s x, I s → G s x → I (step s x))
    (breaks : ∀ s x, I s → ¬ G s x → ¬ P (step s x))
    : EachState step P state inputs ↔ EachStep step G state inputs := by
  constructor
  · intro holds
    induction inputs generalizing state with
    | nil => trivial
    | cons input rest ih =>
        have guarded : G state input :=
          Classical.byContradiction
            (fun unguarded => breaks state input start unguarded holds.2.first)
        exact ⟨guarded, ih (keep state input start guarded) holds.2⟩
  · intro steps
    exact (steps.invariant start keep).mono gives

/-- Where a step leaves `P` exactly when `P` held and the step met the guard, a run ends with `P`
exactly when it began with it and all its steps met the guard. By induction on the run.
-/
theorem final_iff_eachStep {step : σ → ι → σ} {G : σ → ι → Prop} {P : σ → Prop}
    (each : ∀ s x, P (step s x) ↔ P s ∧ G s x) (state : σ) (inputs : List ι)
    : P (inputs.foldl step state) ↔ P state ∧ EachStep step G state inputs := by
  induction inputs generalizing state with
  | nil => exact (and_iff_left trivial).symm
  | cons input rest ih => rw [List.foldl_cons, ih, each, EachStep, and_assoc]

/-- A guard that gives another one wherever an invariant holds, which steps that meet the
guard keep, gives it along every run. By induction on the run.
-/
theorem EachStep.mono_of_kept {step : σ → ι → σ} {G H : σ → ι → Prop} {I : σ → Prop}
    {inputs : List ι} (keep : ∀ x ∈ inputs, ∀ s, I s → G s x → I (step s x))
    (gives : ∀ x ∈ inputs, ∀ s, I s → G s x → H s x) {state : σ} (start : I state)
    (steps : EachStep step G state inputs)
    : EachStep step H state inputs := by
  induction inputs generalizing state with
  | nil => trivial
  | cons input rest ih =>
      obtain ⟨keepsHere, keepsLater⟩ := List.forall_mem_cons.mp keep
      obtain ⟨here, later⟩ := List.forall_mem_cons.mp gives
      obtain ⟨guarded, guardedLater⟩ := steps
      exact
        ⟨here state start guarded,
          ih keepsLater later (keepsHere state start guarded) guardedLater⟩

/-- Guards that agree wherever an invariant holds, which steps that meet the first of them
keep, hold along the same runs.
-/
theorem EachStep.congr_of_kept {step : σ → ι → σ} {G H : σ → ι → Prop} {I : σ → Prop}
    {inputs : List ι} (keep : ∀ x ∈ inputs, ∀ s, I s → G s x → I (step s x))
    (agree : ∀ x ∈ inputs, ∀ s, I s → (G s x ↔ H s x)) {state : σ} (start : I state)
    : EachStep step G state inputs ↔ EachStep step H state inputs := by
  constructor
  · exact mono_of_kept keep (fun x member s holds => (agree x member s holds).mp) start
  · apply mono_of_kept (I := I) _ _ start
    · intro x member s holds guarded
      exact keep x member s holds ((agree x member s holds).mpr guarded)
    · exact fun x member s holds => (agree x member s holds).mpr

/-- Guards that agree wherever an invariant holds, hold along the same runs. -/
theorem EachStep.congr_of_invariant {step : σ → ι → σ} {G H : σ → ι → Prop} {I : σ → Prop}
    (keep : ∀ s x, I s → I (step s x)) (agree : ∀ s x, I s → (G s x ↔ H s x)) {state : σ}
    (start : I state) (inputs : List ι)
    : EachStep step G state inputs ↔ EachStep step H state inputs :=
  congr_of_kept (fun x _ s holds _ => keep s x holds) (fun x _ s holds => agree s x holds) start

/-- Guards that agree on every step hold along the same runs. -/
theorem EachStep.congr {step : σ → ι → σ} {G H : σ → ι → Prop}
    (agree : ∀ s x, G s x ↔ H s x) (state : σ) (inputs : List ι)
    : EachStep step G state inputs ↔ EachStep step H state inputs :=
  congr_of_invariant (I := fun _ => True) (fun _ _ _ => trivial) (fun s x _ => agree s x) trivial
    inputs

-----------------------------------------------------------------------------------------
-- Progress
-----------------------------------------------------------------------------------------

/-- Where from every state that keeps an invariant, and is not at the goal yet, some guarded step
comes closer to it, guarded steps reach it. By induction on the distance.
-/
theorem exists_run_of_progress {step : σ → ι → σ} {G : σ → ι → Prop} {I Q : σ → Prop}
    (distance : σ → Nat)
    (progress
      : ∀ s, I s → ¬ Q s → ∃ x, G s x ∧ I (step s x) ∧ distance (step s x) < distance s)
    {state : σ} (start : I state)
    : ∃ inputs : List ι,
        inputs.length ≤ distance state
        ∧ EachStep step G state inputs
        ∧ I (inputs.foldl step state)
        ∧ Q (inputs.foldl step state) := by
  induction far : distance state using Nat.strongRecOn generalizing state with
  | ind n ih =>
      by_cases reached : Q state
      · exact ⟨[], Nat.zero_le _, trivial, start, reached⟩
      · obtain ⟨x, guarded, kept, closer⟩ := progress state start reached
        obtain ⟨rest, few, steps, last, goal⟩ := ih _ (far ▸ closer) kept rfl
        exact ⟨x :: rest, by rw [List.length_cons]; omega, ⟨guarded, steps⟩, last, goal⟩

-----------------------------------------------------------------------------------------
-- Machines that pass inputs on
-----------------------------------------------------------------------------------------

/-- What the steps of a run pass on to another machine, in order. -/
def passedOn {κ : Type*} (step : σ → ι → σ) (passes : σ → ι → Option κ) : σ → List ι → List κ
  | _, [] => []
  | state, input :: rest =>
      (passes state input).toList ++ passedOn step passes (step state input) rest

/-- A relation to another machine that every guarded step keeps, together with the step it passes
on, holds after every run whose steps all meet the guard. By induction on the run.
-/
theorem EachStep.related {τ κ : Type*} {step : σ → ι → σ} {R : σ → τ → Prop}
    {G : σ → ι → Prop} {state : σ} {other : τ} {inputs : List ι}
    (steps : EachStep step G state inputs) (passes : σ → ι → Option κ) (step' : τ → κ → τ)
    (start : R state other)
    (keep
      : ∀ s t x, R s t → G s x → R (step s x) ((passes s x).toList.foldl step' t))
    : R (inputs.foldl step state) ((passedOn step passes state inputs).foldl step' other) := by
  induction inputs generalizing state other with
  | nil => exact start
  | cons input rest ih =>
      rw [passedOn, List.foldl_append]
      exact ih steps.2 (keep state other input start steps.1)

-----------------------------------------------------------------------------------------
-- Properties that inputs set and reset
-----------------------------------------------------------------------------------------

/-- A property that inputs set and reset holds after a run when an input set it that no later
one reset, or when it held before the run and no input reset it. By induction on the run, from
its end.
-/
theorem latched_iff {step : σ → ι → σ} {P : σ → Prop} {sets resets : ι → Prop}
    (latch : ∀ s x, P (step s x) ↔ sets x ∨ P s ∧ ¬ resets x) (state : σ) (inputs : List ι)
    : P (inputs.foldl step state)
      ↔ (∃ before x after,
          inputs = before ++ x :: after ∧ sets x ∧ ∀ y ∈ after, ¬ resets y)
        ∨ P state ∧ ∀ y ∈ inputs, ¬ resets y := by
  induction inputs using List.reverseRecOn with
  | nil => simp
  | append_singleton inputs last ih =>
      rw [List.foldl_append, List.foldl_cons, List.foldl_nil, latch, ih]
      constructor
      · rintro (set | ⟨⟨before, x, after, rfl, set, kept⟩ | ⟨held, kept⟩, keeps⟩)
        · exact .inl ⟨inputs, last, [], rfl, set, fun y member => absurd member List.not_mem_nil⟩
        · refine .inl ⟨before, x, after ++ [last], by simp, set, fun y member => ?_⟩
          rcases List.mem_append.mp member with earlier | rest
          · exact kept y earlier
          · exact List.mem_singleton.mp rest ▸ keeps
        · refine .inr ⟨held, fun y member => ?_⟩
          rcases List.mem_append.mp member with earlier | rest
          · exact kept y earlier
          · exact List.mem_singleton.mp rest ▸ keeps
      · rintro (⟨before, x, after, same, set, kept⟩ | ⟨held, kept⟩)
        · rcases List.eq_nil_or_concat after with rfl | ⟨rest, final, rfl⟩
          · obtain ⟨-, single⟩ := List.append_inj' same rfl
            exact .inl (List.singleton_inj.mp single ▸ set)
          · rw [List.concat_eq_append] at same kept
            rw [← List.cons_append, ← List.append_assoc] at same
            obtain ⟨whole, single⟩ := List.append_inj' same rfl
            refine .inr ⟨.inl ⟨before, x, rest, whole, set, fun y member => ?_⟩, ?_⟩
            · exact kept y (List.mem_append_left _ member)
            · exact List.singleton_inj.mp single ▸ kept final (by simp)
        · exact .inr ⟨.inr ⟨held, fun y member => kept y (List.mem_append_left _ member)⟩,
            kept last (by simp)⟩

-----------------------------------------------------------------------------------------
-- Histories
-----------------------------------------------------------------------------------------

/-- `Q` holds of every entry of a history, which lists the latest entry first, with the
entries before it.
-/
def EachEntry (Q : ο → List ο → Prop) : List ο → Prop
  | [] => True
  | entry :: earlier => Q entry earlier ∧ EachEntry Q earlier

/-- What holds of every entry holds of those up to a point, by induction on the later ones.
-/
theorem EachEntry.earlier {Q : ο → List ο → Prop} {later history : List ο}
    (each : EachEntry Q (later ++ history))
    : EachEntry Q history := by
  induction later with
  | nil => exact each
  | cons entry later ih => exact ih each.2

/-- What holds of every entry with its history holds of each one. -/
theorem EachEntry.forall_mem {Q : ο → List ο → Prop} {P : ο → Prop} {history : List ο}
    (each : EachEntry Q history) (weaker : ∀ entry earlier, Q entry earlier → P entry)
    : ∀ entry ∈ history, P entry := by
  induction history with
  | nil => exact fun _ member => absurd member List.not_mem_nil
  | cons latest earlier ih =>
      intro entry member
      rcases List.mem_cons.mp member with rfl | before
      · exact weaker entry earlier each.1
      · exact ih each.2 entry before

-----------------------------------------------------------------------------------------
-- Machines with one output per input
-----------------------------------------------------------------------------------------

/-- The state a machine with outputs ends in, and its outputs in order. -/
def transduce (step : σ → ι → σ × ο) : σ → List ι → σ × List ο
  | state, [] => (state, [])
  | state, input :: rest =>
      let (next, output) := step state input
      let (last, outputs) := transduce step next rest
      (last, output :: outputs)

@[simp] theorem transduce_cons (step : σ → ι → σ × ο) (state : σ) (input : ι) (rest : List ι)
    : transduce step state (input :: rest)
      = ((transduce step (step state input).1 rest).1,
          (step state input).2 :: (transduce step (step state input).1 rest).2) :=
  rfl

/-- One more step at the end, by induction on the run. -/
theorem transduce_concat (step : σ → ι → σ × ο) (state : σ) (inputs : List ι) (input : ι)
    : transduce step state (inputs ++ [input])
      = ((step (transduce step state inputs).1 input).1,
          (transduce step state inputs).2
            ++ [(step (transduce step state inputs).1 input).2]) := by
  induction inputs generalizing state with
  | nil => rfl
  | cons first rest ih => rw [List.cons_append, transduce_cons, ih, transduce_cons]; rfl

/-- Along a run, an invariant that may depend on the time gives a property of each output,
by induction on the run.
-/
theorem transduce_timed {step : σ → ι → σ × ο} {I : Nat → σ → Prop} {G : σ → ι → Prop}
    {P : Nat → ι → Prop} {Q : Nat → ο → Prop}
    (keep
      : ∀ t s x, I t s → G s x → P t x → I (t + 1) (step s x).1 ∧ Q t (step s x).2)
    {state : σ} {inputs : List ι} {t : Nat} (start : I t state)
    (steps : EachStep (fun s x => (step s x).1) G state inputs)
    (inputsGood : ∀ k x, inputs[k]? = some x → P (t + k) x)
    : ∀ k < inputs.length,
        ∃ o, (transduce step state inputs).2[k]? = some o ∧ Q (t + k) o := by
  induction inputs generalizing state t with
  | nil => exact fun k inside => absurd inside (Nat.not_lt_zero k)
  | cons input rest ih =>
      obtain ⟨next, output⟩ := keep t state input start steps.1 (inputsGood 0 input rfl)
      intro k inside
      cases k with
      | zero => exact ⟨(step state input).2, rfl, output⟩
      | succ k =>
          obtain ⟨o, found, holds⟩ :=
            ih next steps.2
              (fun k x member => by
                rw [Nat.add_right_comm, Nat.add_assoc]
                exact inputsGood (k + 1) x member)
              k (Nat.lt_of_succ_lt_succ inside)
          exact ⟨o, found, by rwa [Nat.add_right_comm, Nat.add_assoc] at holds⟩

/-- A relation between the states of two machines that every pair of guarded steps on paired
inputs keeps, with outputs that look alike, makes all outputs of their runs look alike.
Witness: induction on the inputs, with the relation as the invariant.
-/
theorem transduce_paired {τ κ ω : Type*} {step : σ → ι → σ × ο} {step' : τ → κ → τ × ο}
    (R : σ → τ → Prop) (paired : ι → κ → Prop) (observe : ο → ω) {G : σ → ι → Prop}
    {G' : τ → κ → Prop}
    (keep
      : ∀ s t x y,
          R s t
          → paired x y
          → G s x
          → G' t y
          → R (step s x).1 (step' t y).1 ∧ observe (step s x).2 = observe (step' t y).2)
    {s : σ} {t : τ} (start : R s t) {inputs : List ι} {inputs' : List κ}
    (pairs : List.Forall₂ paired inputs inputs')
    (steps : EachStep (fun s x => (step s x).1) G s inputs)
    (steps' : EachStep (fun t y => (step' t y).1) G' t inputs')
    : R (transduce step s inputs).1 (transduce step' t inputs').1
      ∧ (transduce step s inputs).2.map observe
        = (transduce step' t inputs').2.map observe := by
  induction pairs generalizing s t with
  | nil => exact ⟨start, rfl⟩
  | cons pair _ ih =>
      obtain ⟨next, same⟩ := keep s t _ _ start pair steps.1 steps'.1
      obtain ⟨last, outputs⟩ := ih next steps.2 steps'.2
      exact ⟨last, by simp only [transduce_cons, List.map_cons, same, outputs]⟩

/-- A relation between the states of two machines that every pair of steps keeps, with
equal outputs, makes their runs on the same inputs equal in all outputs.
-/
theorem transduce_simulation {τ : Type*} {step : σ → ι → σ × ο} {step' : τ → ι → τ × ο}
    (R : σ → τ → Prop) (good : ι → Prop)
    (keep
      : ∀ s t x,
          R s t
          → good x
          → R (step s x).1 (step' t x).1 ∧ (step s x).2 = (step' t x).2)
    {s : σ} {t : τ} (start : R s t) {inputs : List ι} (inputsGood : ∀ x ∈ inputs, good x)
    : R (transduce step s inputs).1 (transduce step' t inputs).1
      ∧ (transduce step s inputs).2 = (transduce step' t inputs).2 := by
  have pairs : List.Forall₂ (fun x y => x = y ∧ good x) inputs inputs :=
    List.forall₂_same.mpr (fun x member => ⟨rfl, inputsGood x member⟩)
  have left : EachStep (fun s x => (step s x).1) (fun _ _ => True) s inputs :=
    .of_forall (fun _ _ _ => trivial) s
  have right : EachStep (fun t x => (step' t x).1) (fun _ _ => True) t inputs :=
    .of_forall (fun _ _ _ => trivial) t
  simpa only [List.map_id] using
    transduce_paired R _ id
      (fun s t x _ related pair _ _ => pair.1 ▸ keep s t x related pair.2) start pairs left right

-----------------------------------------------------------------------------------------
-- What one party of a shared machine sees
-----------------------------------------------------------------------------------------

/-- The outputs of a run at the inputs that are visible to one party. -/
def visibleOutputs (step : σ → ι → σ × ο) (visible : ι → Bool) : σ → List ι → List ο
  | _, [] => []
  | state, input :: rest =>
      let (next, output) := step state input
      if visible input then output :: visibleOutputs step visible next rest
      else visibleOutputs step visible next rest

theorem visibleOutputs_cons (step : σ → ι → σ × ο) (visible : ι → Bool) (state : σ)
    (input : ι) (rest : List ι)
    : visibleOutputs step visible state (input :: rest)
      = if visible input then
          (step state input).2 :: visibleOutputs step visible (step state input).1 rest
        else visibleOutputs step visible (step state input).1 rest :=
  rfl

/-- Where invisible inputs leave a party's view of the state alone, and visible ones make
the next view and the output from the view before, the party sees what it would see if the
invisible inputs were deleted. Witness: induction on the run, the two states having the
same view.
-/
theorem visibleOutputs_eq_purged {ν : Type*} {step : σ → ι → σ × ο} {visible : ι → Bool}
    (view : σ → ν)
    (unseen : ∀ s x, visible x = false → view (step s x).1 = view s)
    (seen
      : ∀ s t x,
          visible x = true
          → view s = view t
          → view (step s x).1 = view (step t x).1 ∧ (step s x).2 = (step t x).2)
    {s t : σ} (start : view s = view t) (inputs : List ι)
    : visibleOutputs step visible s inputs
      = (transduce step t (inputs.filter visible)).2 := by
  induction inputs generalizing s t with
  | nil => rfl
  | cons input rest ih =>
      cases shown : visible input with
      | false =>
          rw [visibleOutputs_cons, shown, List.filter_cons_of_neg (by simp [shown])]
          exact ih ((unseen s input shown).trans start)
      | true =>
          obtain ⟨next, output⟩ := seen s t input shown start
          rw [visibleOutputs_cons, shown, List.filter_cons_of_pos shown, transduce_cons]
          simp only [if_true, output, ih next]

end Runs
