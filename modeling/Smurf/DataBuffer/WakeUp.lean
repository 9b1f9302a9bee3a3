import Smurf.DataBuffer.Waiting
import Smurf.Library.Runs

/-! Lost wake-ups.
A reader that waits may have a packet to read and no notification to come: exactly the runs in
which this happens, with and without the steps between a packet's flags and its notification.
-/

namespace Smurf.DataBuffer

/-- A packet shows in the flags, and its notification is still to come. -/
def PublisherPhase.announces : PublisherPhase → Bool
  | .flagged | .locked => true
  | .idle | .granted _ | .filled | .notified => false

/-- The number of packets written when the reader, about to wait, found its buffer empty. -/
def ListenerPhase.foundEmptyAt? : ListenerPhase → Option Nat
  | .foundEmpty writeCnt | .locked writeCnt => some writeCnt
  | _ => none

/-- The reader holds the mutex, and its next step releases it and blocks. -/
def ListenerPhase.startsWaitingAt? : ListenerPhase → Option Nat
  | .locked writeCnt => some writeCnt
  | _ => none

namespace Listening

variable {size numberReaders : Nat} {Packet : Type*}

/-- A reader that is blocked has no unread packet, or a notification issued since it started
waiting is pending for it.
-/
def NoLostWakeUp (system : Listening size numberReaders Packet) : Prop :=
  ∀ i notified,
    system.listener i = .waiting notified
    → unreadCount system.buffer i = 0 ∨ notified = true

instance (system : Listening size numberReaders Packet) : Decidable system.NoLostWakeUp :=
  inferInstanceAs
    (Decidable (∀ i notified,
      system.listener i = .waiting notified
      → unreadCount system.buffer i = 0 ∨ notified = true))

/-- No `doneWriting` updates the flags between a reader's test that finds its buffer empty and
the notification, or the end, of the wait that follows.
-/
def Undisturbed (system : Listening size numberReaders Packet)
    : Turn numberReaders Packet → Prop
  | .writer _ => system.publisher = .filled → ∀ i, system.listener i ≠ .waiting false
  | .reader i _ =>
      ∀ writeCnt ∈ (system.listener i).startsWaitingAt?, system.buffer.writeCnt = writeCnt

instance (system : Listening size numberReaders Packet) (turn : Turn numberReaders Packet)
    : Decidable (system.Undisturbed turn) :=
  match turn with
  | .writer _ =>
      inferInstanceAs
        (Decidable (system.publisher = .filled → ∀ i, system.listener i ≠ .waiting false))
  | .reader i _ =>
      inferInstanceAs
        (Decidable (∀ writeCnt ∈ (system.listener i).startsWaitingAt?,
          system.buffer.writeCnt = writeCnt))

/-- When a reader starts to wait, nothing was written since it found its buffer empty, or the
notification of what was written last is still to come.
-/
def WaitsInTime (system : Listening size numberReaders Packet)
    : Turn numberReaders Packet → Prop
  | .writer _ => True
  | .reader i _ =>
      ∀ writeCnt ∈ (system.listener i).startsWaitingAt?,
        system.buffer.writeCnt = writeCnt ∨ system.publisher.announces = true

instance (system : Listening size numberReaders Packet) (turn : Turn numberReaders Packet)
    : Decidable (system.WaitsInTime turn) :=
  match turn with
  | .writer _ => inferInstanceAs (Decidable True)
  | .reader i _ =>
      inferInstanceAs
        (Decidable (∀ writeCnt ∈ (system.listener i).startsWaitingAt?,
          system.buffer.writeCnt = writeCnt ∨ system.publisher.announces = true))

-----------------------------------------------------------------------------------------
-- What a step can do
-----------------------------------------------------------------------------------------

/-- What the frame loop's next step does, by where it is: it updates pointer and flags, it
notifies the readers, or neither.
-/
inductive WriterMoves (system next : Listening size numberReaders Packet) : Prop
  | updates (filled : system.publisher = .filled)
      (moved : next = { system with buffer := system.buffer.doneWriting, publisher := .flagged })
  | notifies (locked : system.publisher = .locked)
      (buffer : next.buffer = system.buffer)
      (notified : next.listener = fun i => (system.listener i).notify)
  | neither (holds : system.publisher ≠ .filled)
      (empty : next.buffer.empty = system.buffer.empty)
      (writeCnt : next.buffer.writeCnt = system.buffer.writeCnt)
      (listener : next.listener = system.listener)
      (announces : system.publisher.announces = true → next.publisher.announces = true)

theorem writerStep_filled {system : Listening size numberReaders Packet}
    (filled : system.publisher = .filled) (packet : Packet)
    : system.writerStep packet
      = { system with buffer := system.buffer.doneWriting, publisher := .flagged } := by
  simp only [writerStep, filled]

theorem writerStep_moves (system : Listening size numberReaders Packet) (packet : Packet)
    : WriterMoves system (system.writerStep packet) := by
  obtain ⟨buffer, publisher, listener, mutex⟩ := system
  cases publisher with
  | filled => exact .updates rfl rfl
  | flagged =>
      by_cases free : mutex = none
      · simp only [writerStep, free, if_true]
        exact .neither (by simp) rfl rfl rfl (fun _ => rfl)
      · simp only [writerStep, free, if_false]
        exact .neither (by simp) rfl rfl rfl id
  | locked => exact .notifies rfl rfl rfl
  | idle | granted | notified => exact .neither (by simp) rfl rfl rfl (fun open_ => by cases open_)

/-- What a step of reader `i` does. Where it comes to a test that found its buffer empty, or to
a wait, it leaves the buffer alone.
-/
structure ReaderMoves (i : Fin numberReaders) (system next : Listening size numberReaders Packet)
    : Prop where
  publisher : next.publisher = system.publisher
  writeCnt : next.buffer.writeCnt = system.buffer.writeCnt
  empty : ∀ j, j ≠ i → next.buffer.empty j = system.buffer.empty j
  listener : ∀ j, j ≠ i → next.listener j = system.listener j
  foundEmpty
    : ∀ writeCnt,
        (next.listener i).foundEmptyAt? = some writeCnt
        → next.buffer = system.buffer
          ∧ ((system.listener i).foundEmptyAt? = some writeCnt
            ∨ system.buffer.empty i = true ∧ system.buffer.writeCnt = writeCnt)
  waits
    : next.listener i = .waiting false
      → next.buffer = system.buffer
        ∧ (system.listener i = .waiting false ∨ ∃ writeCnt, system.listener i = .locked writeCnt)

/-- A step to a phase in which the reader neither waits nor is about to. -/
theorem ReaderMoves.goTo {i : Fin numberReaders} {system : Listening size numberReaders Packet}
    {phase : ListenerPhase} {buffer : DataBuffer size numberReaders Packet}
    {mutex : Option (Owner numberReaders)} (tested : phase.foundEmptyAt? = none)
    (waits : phase ≠ .waiting false) (writeCnt : buffer.writeCnt = system.buffer.writeCnt)
    (empty : ∀ j, j ≠ i → buffer.empty j = system.buffer.empty j)
    : ReaderMoves i system { system.goTo i phase with buffer, mutex } where
  publisher := rfl
  writeCnt := writeCnt
  empty := empty
  listener _ ne := Function.update_of_ne ne ..
  foundEmpty writeCnt found := by
    have found : (Function.update system.listener i phase i).foundEmptyAt? = some writeCnt := found
    rw [Function.update_self, tested] at found
    cases found
  waits now := by
    have now : Function.update system.listener i phase i = .waiting false := now
    rw [Function.update_self] at now
    exact absurd now waits

/-- A step that leaves the buffer alone and keeps what the reader found. -/
theorem ReaderMoves.stays {i : Fin numberReaders} {system : Listening size numberReaders Packet}
    {phase : ListenerPhase} {mutex : Option (Owner numberReaders)}
    (tested
      : ∀ writeCnt,
          phase.foundEmptyAt? = some writeCnt
          → (system.listener i).foundEmptyAt? = some writeCnt
            ∨ system.buffer.empty i = true ∧ system.buffer.writeCnt = writeCnt)
    (waits
      : phase = .waiting false
        → system.listener i = .waiting false
          ∨ ∃ writeCnt, system.listener i = .locked writeCnt)
    : ReaderMoves i system { system.goTo i phase with mutex } where
  publisher := rfl
  writeCnt := rfl
  empty _ _ := rfl
  listener _ ne := Function.update_of_ne ne ..
  foundEmpty writeCnt found := by
    have found : (Function.update system.listener i phase i).foundEmptyAt? = some writeCnt := found
    rw [Function.update_self] at found
    exact ⟨rfl, tested writeCnt found⟩
  waits now := by
    have now : Function.update system.listener i phase i = .waiting false := now
    rw [Function.update_self] at now
    exact ⟨rfl, waits now⟩

theorem ReaderMoves.refl (i : Fin numberReaders) (system : Listening size numberReaders Packet)
    : ReaderMoves i system system where
  publisher := rfl
  writeCnt := rfl
  empty _ _ := rfl
  listener _ _ := rfl
  foundEmpty _ found := ⟨rfl, .inl found⟩
  waits now := ⟨rfl, .inl now⟩

theorem readerStep_moves (system : Listening size numberReaders Packet) (i : Fin numberReaders)
    (returns : Bool)
    : ReaderMoves i system (system.readerStep i returns) := by
  cases here : system.listener i with
  | testing =>
      cases empty : system.buffer.empty i with
      | true =>
          simp only [readerStep, here, isEmpty, empty, if_true]
          exact .stays (fun _ found => .inr ⟨empty, Option.some.inj found⟩) (by simp)
      | false =>
          simp only [readerStep, here, isEmpty, empty]
          exact .goTo rfl (by simp) rfl (fun _ _ => rfl)
  | foundEmpty writeCnt =>
      by_cases free : system.mutex = none
      · simp only [readerStep, here, free, if_true]
        exact .stays (fun _ found => .inl (by rw [here]; exact found)) (by simp)
      · simp only [readerStep, here, free, if_false]
        exact .refl i system
  | locked writeCnt =>
      simp only [readerStep, here]
      exact .stays (fun _ found => by cases found) (fun _ => .inr ⟨writeCnt, here⟩)
  | waiting notified =>
      by_cases free : system.mutex = none
      · simp only [readerStep, here, free, if_true]
        exact .goTo rfl (by simp) rfl (fun _ _ => rfl)
      · simp only [readerStep, here, free, if_false]
        exact .refl i system
  | woken =>
      simp only [readerStep, here]
      exact .goTo rfl (by simp) rfl (fun _ _ => rfl)
  | fetching =>
      cases empty : system.buffer.empty i with
      | true =>
          simp only [readerStep, here, getReadPtr_of_empty _ _ empty]
          exact .goTo rfl (by simp) rfl (fun _ _ => rfl)
      | false =>
          simp only [readerStep, here, getReadPtr_of_not_empty _ _ empty]
          exact .goTo rfl (by simp) rfl (fun _ _ => rfl)
  | processing slot =>
      cases returns with
      | true =>
          simp only [readerStep, here, if_true]
          exact .goTo rfl (by simp) rfl (fun _ _ => rfl)
      | false =>
          simp only [readerStep, here]
          exact .goTo rfl (by simp) rfl (fun _ _ => rfl)
  | processed slot =>
      simp only [readerStep, here]
      exact .goTo rfl (by simp) rfl (fun j ne => (doneReading_of_ne system.buffer ne).2.2.1)

-----------------------------------------------------------------------------------------
-- What holds in every state
-----------------------------------------------------------------------------------------

/-- Between a reader's test that finds its buffer empty and its wait, the buffer stays empty
exactly as long as nothing is written.
-/
def TestsHold (system : Listening size numberReaders Packet) : Prop :=
  ∀ i writeCnt,
    (system.listener i).foundEmptyAt? = some writeCnt
    → writeCnt ≤ system.buffer.writeCnt
      ∧ (system.buffer.empty i = true ↔ system.buffer.writeCnt = writeCnt)

theorem notify_foundEmptyAt? (phase : ListenerPhase)
    : phase.notify.foundEmptyAt? = phase.foundEmptyAt? := by
  cases phase <;> rfl

theorem notify_ne_waiting (phase : ListenerPhase) : phase.notify ≠ .waiting false := by
  cases phase <;> simp [ListenerPhase.notify]

/-- What readers found holds after every step, by cases on what it does. -/
theorem TestsHold.step {system : Listening size numberReaders Packet} (holds : system.TestsHold)
    (turn : Turn numberReaders Packet)
    : (system.step turn).TestsHold := by
  intro i writeCnt found
  cases turn with
  | writer packet =>
      rcases system.writerStep_moves packet with ⟨-, moved⟩ | ⟨-, buffer, notified⟩ |
        ⟨-, empty, same, listener, -⟩
      · rw [Listening.step, moved] at found ⊢
        obtain ⟨le, -⟩ := holds i writeCnt found
        refine ⟨Nat.le_succ_of_le le, iff_of_false (by simp) ?_⟩
        rw [doneWriting_writeCnt]
        omega
      · rw [Listening.step, notified, notify_foundEmptyAt?] at found
        rw [Listening.step, buffer]
        exact holds i writeCnt found
      · rw [Listening.step, listener] at found
        rw [Listening.step, same, empty]
        exact holds i writeCnt found
  | reader j returns =>
      have moves := system.readerStep_moves j returns
      by_cases own : i = j
      · subst own
        obtain ⟨buffer, before | ⟨empty, now⟩⟩ := moves.foundEmpty writeCnt found
        · rw [Listening.step, buffer]
          exact holds i writeCnt before
        · rw [Listening.step, buffer]
          exact ⟨now.ge, iff_of_true empty now⟩
      · rw [Listening.step, moves.listener i own] at found
        rw [Listening.step, moves.writeCnt, moves.empty i own]
        exact holds i writeCnt found

/-- Unless `allowed`, a reader that waits and has not been notified has an empty buffer. -/
def WaitsEmpty (system : Listening size numberReaders Packet) (allowed : Prop) : Prop :=
  ∀ i, system.listener i = .waiting false → system.buffer.empty i = true ∨ allowed

theorem noLostWakeUp_iff_waitsEmpty (positive : 0 < size)
    {system : Listening size numberReaders Packet}
    : system.NoLostWakeUp ↔ system.WaitsEmpty False := by
  constructor
  · intro holds i waits
    exact ((holds i false waits).imp_left (unreadCount_eq_zero_iff positive).mp).imp_right
      (fun notified => absurd notified (by simp))
  · intro holds i notified waits
    cases notified with
    | true => exact .inr rfl
    | false => exact (holds i waits).imp (unreadCount_eq_zero_iff positive).mpr False.elim

theorem mem_startsWaitingAt? {phase : ListenerPhase} {writeCnt : Nat}
    : writeCnt ∈ phase.startsWaitingAt? ↔ phase = .locked writeCnt := by
  cases phase <;> simp [ListenerPhase.startsWaitingAt?]

/-- The frame loop's step keeps `WaitsEmpty`, if updated flags reach no waiting reader or are
allowed to.
-/
theorem WaitsEmpty.writerStep {system : Listening size numberReaders Packet} {packet : Packet}
    {allowed allowed' : Prop} (holds : system.WaitsEmpty allowed)
    (updates
      : system.publisher = .filled → (∀ i, system.listener i ≠ .waiting false) ∨ allowed')
    (neither
      : (system.publisher.announces = true
          → (system.writerStep packet).publisher.announces = true)
        → allowed
        → allowed')
    : (system.writerStep packet).WaitsEmpty allowed' := by
  intro i waits
  rcases system.writerStep_moves packet with ⟨filled, moved⟩ | ⟨-, -, notified⟩ |
    ⟨-, empty, -, listener, announces⟩
  · rw [moved] at waits
    exact .inr ((updates filled).resolve_left (fun nobody => nobody i waits))
  · rw [notified] at waits
    exact absurd waits (notify_ne_waiting _)
  · rw [listener] at waits
    rw [empty]
    exact (holds i waits).imp_right (neither announces)

/-- A reader's step keeps `WaitsEmpty`, if it does not start to wait after something was written
or is allowed to.
-/
theorem WaitsEmpty.readerStep {system : Listening size numberReaders Packet} {allowed : Prop}
    (holds : system.WaitsEmpty allowed) (tests : system.TestsHold) (i : Fin numberReaders)
    (returns : Bool)
    (inTime
      : ∀ writeCnt ∈ (system.listener i).startsWaitingAt?,
          system.buffer.writeCnt = writeCnt ∨ allowed)
    : (system.readerStep i returns).WaitsEmpty allowed := by
  intro j waits
  have moves := system.readerStep_moves i returns
  by_cases own : j = i
  · subst own
    obtain ⟨buffer, before | ⟨writeCnt, locked⟩⟩ := moves.waits waits
    · rw [buffer]
      exact holds j before
    · rw [buffer]
      have found := tests j writeCnt (by rw [locked]; rfl)
      exact (inTime writeCnt (mem_startsWaitingAt?.mpr locked)).imp_left found.2.mpr
  · rw [moves.listener j own] at waits
    rw [moves.empty j own]
    exact holds j waits

/-- A reader that starts to wait after something was written waits with a packet to read. -/
theorem TestsHold.waits_pending {system : Listening size numberReaders Packet}
    (tests : system.TestsHold) {i : Fin numberReaders} {returns : Bool} {writeCnt : Nat}
    (locked : system.listener i = .locked writeCnt) (written : system.buffer.writeCnt ≠ writeCnt)
    : ¬ (system.readerStep i returns).WaitsEmpty False := by
  intro holds
  have moved
      : system.readerStep i returns = { system.goTo i (.waiting false) with mutex := none } := by
    simp only [Listening.readerStep, locked]
  rw [moved] at holds
  have empty := (holds i (Function.update_self ..)).resolve_right id
  exact written ((tests i writeCnt (by rw [locked]; rfl)).2.mp empty)

/-- In every run, a blocked reader never has an unread packet without a pending notification
exactly if no `doneWriting` updates the flags between a reader's test and the end of its wait.
Where the states between that update and `notify_all` are set apart, exactly if no reader starts
to wait after a packet was both written and announced behind its test. Witness: what readers
found, and the emptiness of the buffers of those that wait, hold in every state.
-/
theorem noLostWakeUp_iff (positive : 0 < size) (packet : Packet)
    (turns : List (Turn numberReaders Packet))
    : (Runs.EachState step NoLostWakeUp (start size numberReaders packet) turns
        ↔ Runs.EachStep step Undisturbed (start size numberReaders packet) turns)
      ∧ (Runs.EachState step
          (fun system => system.publisher.announces = false → system.NoLostWakeUp)
          (start size numberReaders packet) turns
        ↔ Runs.EachStep step WaitsInTime (start size numberReaders packet) turns) := by
  have tests : (start size numberReaders packet).TestsHold := fun i writeCnt found => by
    cases found
  have waits (allowed : Prop) : (start size numberReaders packet).WaitsEmpty allowed :=
    fun i waits => by cases waits
  constructor
  · refine Runs.eachState_iff_eachStep
      (I := fun system => system.TestsHold ∧ system.WaitsEmpty False) ⟨tests, waits False⟩
      (fun _ holds => (noLostWakeUp_iff_waitsEmpty positive).mpr holds.2) ?_ ?_
    · rintro system turn ⟨tests, holds⟩ undisturbed
      refine ⟨tests.step turn, ?_⟩
      cases turn with
      | writer packet =>
          exact holds.writerStep (fun filled => .inl (undisturbed filled)) (fun _ => id)
      | reader i returns =>
          exact holds.readerStep tests i returns
            (fun writeCnt locked => .inl (undisturbed writeCnt locked))
    · rintro system turn ⟨tests, holds⟩ disturbed after
      have after := (noLostWakeUp_iff_waitsEmpty positive).mp after
      refine disturbed ?_
      cases turn with
      | writer packet =>
          intro filled i waits
          rw [Listening.step, writerStep_filled filled] at after
          exact (after i waits).elim (fun empty => by cases empty) id
      | reader i returns =>
          intro writeCnt locked
          by_contra written
          exact tests.waits_pending (mem_startsWaitingAt?.mp locked) written after
  · refine Runs.eachState_iff_eachStep
      (I := fun system =>
        system.TestsHold ∧ system.WaitsEmpty (system.publisher.announces = true))
      ⟨tests, waits _⟩ ?_ ?_ ?_
    · rintro system ⟨-, holds⟩ announced
      refine (noLostWakeUp_iff_waitsEmpty positive).mpr (fun i waits => ?_)
      refine (holds i waits).imp_right (fun announces => ?_)
      rw [announced] at announces
      cases announces
    · rintro system turn ⟨tests, holds⟩ inTime
      refine ⟨tests.step turn, ?_⟩
      cases turn with
      | writer packet =>
          refine holds.writerStep (fun filled => .inr ?_) (fun kept => kept)
          rw [Listening.step, writerStep_filled filled]
          rfl
      | reader i returns =>
          have kept := holds.readerStep tests i returns inTime
          rw [← (system.readerStep_moves i returns).publisher] at kept
          exact kept
    · rintro system turn ⟨tests, holds⟩ late after
      cases turn with
      | writer packet => exact late trivial
      | reader i returns =>
          refine late (fun writeCnt locked => ?_)
          by_contra neither
          obtain ⟨written, announced⟩ := not_or.mp neither
          have after := after
            ((system.readerStep_moves i returns).publisher ▸ Bool.eq_false_iff.mpr announced)
          exact tests.waits_pending (mem_startsWaitingAt?.mp locked) written
            ((noLostWakeUp_iff_waitsEmpty positive).mp after)

/-- The reader waits before the packet is written, is notified, and reads it: only between the
update of the flags and the notification does it wait with an unread packet.
-/
theorem noLostWakeUp_iff_waiting_reader
    : ¬ Runs.EachState step NoLostWakeUp (start 2 1 ())
          (List.replicate 3 (.reader 0 true) ++ List.replicate 6 (.writer ())
            ++ List.replicate 6 (.reader 0 true))
      ∧ Runs.EachState step
          (fun system => system.publisher.announces = false → system.NoLostWakeUp) (start 2 1 ())
          (List.replicate 3 (.reader 0 true) ++ List.replicate 6 (.writer ())
            ++ List.replicate 6 (.reader 0 true)) :=
  ⟨fun holds => absurd ((noLostWakeUp_iff (by decide) () _).1.mp holds) (by decide),
    (noLostWakeUp_iff (by decide) () _).2.mpr (by decide)⟩

/-- A whole `doneWriting` between the reader's test and its wait: the reader is blocked with
a packet to read and no notification to come.
-/
theorem not_noLostWakeUp_late_wait
    : ¬ Runs.EachState step NoLostWakeUp (start 2 1 ())
        ([.reader 0 true] ++ List.replicate 6 (.writer ())
          ++ List.replicate 2 (.reader 0 true)) := by
  decide

end Listening

end Smurf.DataBuffer
