import Mathlib.Algebra.Order.BigOperators.Group.Finset
import Smurf.DataBuffer.Calls
import Smurf.DataBuffer.ExactlyOnce
import Smurf.DataBuffer.SlowReader
import Smurf.Library.MutualExclusion

/-! Nobody waits for ever.
The mutex belongs to the thread that is between lock and unlock. From every state the threads can
return to the heads of their loops, and a reader that kept up can then read all that is left for
it.
-/

namespace Smurf.DataBuffer

open MutualExclusion Runs

/-- The frame loop is between lock and unlock. -/
def PublisherPhase.locks : PublisherPhase → Bool
  | .locked | .notified => true
  | .idle | .granted _ | .filled | .flagged => false

/-- The reader is between lock and unlock; while it waits the mutex is free. -/
def ListenerPhase.locks : ListenerPhase → Bool
  | .locked _ | .woken => true
  | .testing | .foundEmpty _ | .waiting _ | .fetching | .processing _ | .processed _ => false

/-- The steps left to the head of the frame loop. -/
def PublisherPhase.toHead : PublisherPhase → Nat
  | .idle => 0
  | .granted _ => 5
  | .filled => 4
  | .flagged => 3
  | .locked => 2
  | .notified => 1

/-- The steps left to the head of the reader's loop. -/
def ListenerPhase.toHead : ListenerPhase → Nat
  | .testing => 0
  | .foundEmpty _ => 4
  | .locked _ | .fetching => 3
  | .waiting _ | .processing _ => 2
  | .woken | .processed _ => 1

theorem PublisherPhase.toHead_le (phase : PublisherPhase) : phase.toHead ≤ 5 := by
  cases phase <;> simp [toHead]

theorem ListenerPhase.toHead_le (phase : ListenerPhase) : phase.toHead ≤ 4 := by
  cases phase <;> simp [toHead]

theorem notify_locks (phase : ListenerPhase) : phase.notify.locks = phase.locks := by
  cases phase <;> rfl

theorem notify_toHead (phase : ListenerPhase) : phase.notify.toHead = phase.toHead := by
  cases phase <;> rfl

namespace Listening

variable {size numberReaders : Nat} {Packet : Type*}

/-- The thread is between lock and unlock. -/
def locks (system : Listening size numberReaders Packet) : Owner numberReaders → Bool
  | .writer => system.publisher.locks
  | .reader i => (system.listener i).locks

/-- Every thread is at the head of its loop, and the mutex is free. -/
structure AtHeads (system : Listening size numberReaders Packet) : Prop where
  mutex : system.mutex = none
  publisher : system.publisher = .idle
  listener : ∀ i, system.listener i = .testing

def toHeads (system : Listening size numberReaders Packet) : Nat :=
  system.publisher.toHead + ∑ i, (system.listener i).toHead

/-- The thread is not at the head of its loop. -/
def Returns (system : Listening size numberReaders Packet) : Turn numberReaders Packet → Prop
  | .writer _ => system.publisher ≠ .idle
  | .reader i _ => system.listener i ≠ .testing

theorem toHeads_le (system : Listening size numberReaders Packet)
    : system.toHeads ≤ 5 + 4 * numberReaders := by
  have readers : ∑ i, (system.listener i).toHead ≤ numberReaders * 4 := by
    simpa using
      Finset.sum_le_card_nsmul Finset.univ _ 4 (fun i _ => (system.listener i).toHead_le)
  have writer := system.publisher.toHead_le
  rw [toHeads]
  omega

-----------------------------------------------------------------------------------------
-- The mutex
-----------------------------------------------------------------------------------------

/-- Of the threads, only reader `i` changes sides. -/
theorem locks_goTo {system : Listening size numberReaders Packet} {i : Fin numberReaders}
    {phase : ListenerPhase} {other : Owner numberReaders} (ne : other ≠ .reader i)
    : (system.goTo i phase).locks other = system.locks other := by
  cases other with
  | writer => rfl
  | reader j =>
      exact congrArg ListenerPhase.locks
        (Function.update_of_ne (fun same => ne (congrArg Owner.reader same)) ..)

theorem locks_goTo_self (system : Listening size numberReaders Packet) (i : Fin numberReaders)
    (phase : ListenerPhase)
    : (system.goTo i phase).locks (.reader i) = phase.locks :=
  congrArg ListenerPhase.locks (Function.update_self ..)

theorem excludes_start (packet : Packet)
    : Excludes (start size numberReaders packet).mutex (start size numberReaders packet).locks := by
  intro party
  refine iff_of_false (fun same => by cases same) ?_
  cases party <;> exact Bool.false_ne_true

section Mutex

variable {system : Listening size numberReaders Packet}
  (excludes : Excludes system.mutex system.locks)
include excludes

/-- By cases on where the frame loop is. -/
theorem excludes_writerStep (packet : Packet)
    : Excludes (system.writerStep packet).mutex (system.writerStep packet).locks := by
  have others {next : Listening size numberReaders Packet}
      (listener : next.listener = system.listener) (other : Owner numberReaders)
      (ne : other ≠ .writer)
      : next.locks other = system.locks other := by
    cases other with
    | writer => exact absurd rfl ne
    | reader i => rw [locks, locks, listener]
  have keeps {next : Listening size numberReaders Packet}
      (publisher : next.publisher.locks = system.publisher.locks)
      (listener : ∀ i, (next.listener i).locks = (system.listener i).locks)
      : Excludes system.mutex next.locks := by
    refine excludes.keeps (fun party => ?_)
    cases party with
    | writer => exact publisher
    | reader i => exact listener i
  cases phase : system.publisher with
  | idle | granted | filled =>
      simp only [writerStep, phase]
      exact keeps (by rw [phase]; rfl) (fun _ => rfl)
  | flagged =>
      simp only [writerStep, phase]
      split
      · next free =>
          rw [free] at excludes
          exact excludes.lock .writer rfl (others rfl)
      · exact excludes
  | locked =>
      simp only [writerStep, phase]
      exact keeps (by rw [phase]; rfl) (fun i => notify_locks _)
  | notified =>
      simp only [writerStep, phase]
      refine excludes.unlock .writer ?_ rfl (others rfl)
      rw [locks, phase]
      rfl

/-- A step of reader `i` that neither locks nor unlocks. -/
theorem excludes_goTo {i : Fin numberReaders} {phase : ListenerPhase}
    (same : phase.locks = (system.listener i).locks)
    : Excludes system.mutex (system.goTo i phase).locks := by
  refine excludes.keeps (fun party => ?_)
  by_cases own : party = .reader i
  · rw [own, locks_goTo_self]
    exact same
  · exact locks_goTo own

theorem excludes_goTo_lock (free : system.mutex = none) {i : Fin numberReaders}
    {phase : ListenerPhase} (enters : phase.locks = true)
    : Excludes (some (.reader i)) (system.goTo i phase).locks := by
  rw [free] at excludes
  exact excludes.lock (.reader i) ((locks_goTo_self ..).trans enters) (fun _ => locks_goTo)

theorem excludes_goTo_unlock {i : Fin numberReaders} {phase : ListenerPhase}
    (within : (system.listener i).locks = true) (leaves : phase.locks = false)
    : Excludes none (system.goTo i phase).locks :=
  excludes.unlock (.reader i) within ((locks_goTo_self ..).trans leaves) (fun _ => locks_goTo)

/-- By cases on where the reader is. -/
theorem excludes_readerStep (i : Fin numberReaders) (returns : Bool)
    : Excludes (system.readerStep i returns).mutex (system.readerStep i returns).locks := by
  cases phase : system.listener i with
  | testing | processing =>
      simp only [readerStep, phase]
      split <;> exact excludes_goTo excludes (by rw [phase]; rfl)
  | foundEmpty | waiting =>
      simp only [readerStep, phase]
      split
      · next free => exact excludes_goTo_lock excludes free rfl
      · exact excludes
  | locked | woken =>
      simp only [readerStep, phase]
      exact excludes_goTo_unlock excludes (by rw [phase]; rfl) rfl
  | fetching =>
      cases empty : system.buffer.empty i with
      | true =>
          simp only [readerStep, phase, getReadPtr_of_empty _ _ empty]
          exact excludes_goTo excludes (by rw [phase]; rfl)
      | false =>
          simp only [readerStep, phase, getReadPtr_of_not_empty _ _ empty]
          exact excludes_goTo excludes (by rw [phase]; rfl)
  | processed =>
      simp only [readerStep, phase]
      exact excludes_goTo excludes (by rw [phase]; rfl)

theorem excludes_step (turn : Turn numberReaders Packet)
    : Excludes (system.step turn).mutex (system.step turn).locks := by
  cases turn with
  | writer packet => exact excludes_writerStep excludes packet
  | reader i returns => exact excludes_readerStep excludes i returns

end Mutex

/-- In every run the mutex belongs to the thread that is between lock and unlock. -/
theorem excludes_run (packet : Packet) (turns : List (Turn numberReaders Packet))
    : Excludes (turns.foldl step (start size numberReaders packet)).mutex
        (turns.foldl step (start size numberReaders packet)).locks :=
  (EachState.of_invariant
    (I := fun system : Listening size numberReaders Packet => Excludes system.mutex system.locks)
    (excludes_start packet) (fun _ turn excludes => excludes_step excludes turn) turns).final

-----------------------------------------------------------------------------------------
-- Back to the heads of the loops
-----------------------------------------------------------------------------------------

section Heads

variable {system : Listening size numberReaders Packet}

/-- The frame loop's next step brings it closer to the head of its loop, unless it is blocked. -/
theorem writerStep_toHeads_lt (away : system.publisher ≠ .idle)
    (free : system.publisher.locks = false → system.mutex = none) (packet : Packet)
    : (system.writerStep packet).toHeads < system.toHeads := by
  cases phase : system.publisher with
  | idle => exact absurd phase away
  | granted | filled | notified =>
      simp only [writerStep, phase, toHeads, PublisherPhase.toHead]
      omega
  | flagged =>
      rw [phase] at free
      simp only [writerStep, phase, if_pos (free rfl), toHeads, PublisherPhase.toHead]
      omega
  | locked =>
      simp only [writerStep, phase, toHeads, PublisherPhase.toHead, notify_toHead]
      omega

theorem toHeads_goTo_lt {i : Fin numberReaders} {phase : ListenerPhase}
    (closer : phase.toHead < (system.listener i).toHead)
    : (system.goTo i phase).toHeads < system.toHeads := by
  refine Nat.add_lt_add_left (Finset.sum_lt_sum (fun j _ => ?_) ⟨i, Finset.mem_univ i, ?_⟩) _
  · by_cases own : j = i
    · subst own
      simp only [goTo, Function.update_self]
      exact closer.le
    · simp only [goTo, Function.update_of_ne own, le_refl]
  · simp only [goTo, Function.update_self]
    exact closer

/-- A reader's next step brings it closer to the head of its loop, unless it is blocked. -/
theorem readerStep_toHeads_lt {i : Fin numberReaders} (away : system.listener i ≠ .testing)
    (free : (system.listener i).locks = false → system.mutex = none) (returns : Bool)
    : (system.readerStep i returns).toHeads < system.toHeads := by
  have closer {phase : ListenerPhase} (lower : phase.toHead < (system.listener i).toHead)
      : (system.goTo i phase).toHeads < system.toHeads :=
    toHeads_goTo_lt lower
  cases phase : system.listener i with
  | testing => exact absurd phase away
  | foundEmpty | waiting =>
      rw [phase] at closer free
      simp only [readerStep, phase, if_pos (free rfl)]
      exact closer (by simp [ListenerPhase.toHead])
  | locked | woken | processed =>
      rw [phase] at closer
      simp only [readerStep, phase]
      exact closer (by simp [ListenerPhase.toHead])
  | fetching =>
      rw [phase] at closer
      cases empty : system.buffer.empty i with
      | true =>
          simp only [readerStep, phase, getReadPtr_of_empty _ _ empty]
          exact closer (by simp [ListenerPhase.toHead])
      | false =>
          simp only [readerStep, phase, getReadPtr_of_not_empty _ _ empty]
          exact closer (by simp [ListenerPhase.toHead])
  | processing =>
      rw [phase] at closer
      simp only [readerStep, phase]
      split
      · exact closer (by simp [ListenerPhase.toHead])
      · exact closer (by simp [ListenerPhase.toHead])

end Heads

/-- Some thread away from the head of its loop is not blocked. -/
theorem exists_returns {system : Listening size numberReaders Packet}
    (excludes : Excludes system.mutex system.locks) (away : ¬ system.AtHeads) (packet : Packet)
    : ∃ turn, system.Returns turn ∧ (system.step turn).toHeads < system.toHeads := by
  have writes (busy : system.publisher ≠ .idle)
      (free : system.publisher.locks = false → system.mutex = none)
      : ∃ turn, system.Returns turn ∧ (system.step turn).toHeads < system.toHeads :=
    ⟨.writer packet, busy, writerStep_toHeads_lt busy free packet⟩
  have reads (i : Fin numberReaders) (busy : system.listener i ≠ .testing)
      (free : (system.listener i).locks = false → system.mutex = none)
      : ∃ turn, system.Returns turn ∧ (system.step turn).toHeads < system.toHeads :=
    ⟨.reader i true, busy, readerStep_toHeads_lt busy free true⟩
  cases mutex : system.mutex with
  | some owner =>
      -- the owner is never blocked
      have within := (excludes owner).mp mutex
      cases owner with
      | writer =>
          have within : system.publisher.locks = true := within
          refine writes (fun idle => ?_) (fun outside => ?_)
          · rw [idle] at within
            cases within
          · rw [within] at outside
            cases outside
      | reader i =>
          have within : (system.listener i).locks = true := within
          refine reads i (fun testing => ?_) (fun outside => ?_)
          · rw [testing] at within
            cases within
          · rw [within] at outside
            cases outside
  | none =>
      by_cases idle : system.publisher = .idle
      · obtain ⟨i, busy⟩ : ∃ i, system.listener i ≠ .testing := by
          by_contra testing
          exact away ⟨mutex, idle, fun i => not_not.mp (fun busy => testing ⟨i, busy⟩)⟩
        exact reads i busy (fun _ => mutex)
      · exact writes idle (fun _ => mutex)

/-- Steps of threads away from the heads of their loops bring all of them there, whatever else
these steps keep.
-/
theorem exists_atHeads {I : Listening size numberReaders Packet → Prop}
    (keep : ∀ system turn, I system → system.Returns turn → I (system.step turn))
    {system : Listening size numberReaders Packet} (start : I system)
    (excludes : Excludes system.mutex system.locks) (packet : Packet)
    : ∃ more : List (Turn numberReaders Packet),
        more.length ≤ 5 + 4 * numberReaders
        ∧ EachStep step Returns system more
        ∧ I (more.foldl step system)
        ∧ (more.foldl step system).AtHeads := by
  obtain ⟨more, few, steps, ⟨kept, -⟩, heads⟩ :=
    exists_run_of_progress (G := Returns)
      (I := fun system => I system ∧ Excludes system.mutex system.locks) (Q := AtHeads) toHeads
      (fun system holds away => by
        obtain ⟨turn, returns, closer⟩ := exists_returns holds.2 away packet
        exact ⟨turn, returns, ⟨keep system turn holds.1 returns, excludes_step holds.2 turn⟩,
          closer⟩)
      ⟨start, excludes⟩
  exact ⟨more, few.trans system.toHeads_le, steps, kept, heads⟩

/-- In every state of every run, a bounded number of steps brings all threads back to the heads of
their loops, with the mutex free. Witness: the owner of the mutex is never blocked, and with a
free mutex nobody is.
-/
theorem atHeads_of_run (packet : Packet) (turns : List (Turn numberReaders Packet))
    : let reached := turns.foldl step (start size numberReaders packet)
      Excludes reached.mutex reached.locks
      ∧ ∃ more : List (Turn numberReaders Packet),
          more.length ≤ 5 + 4 * numberReaders
          ∧ EachStep step Returns reached more
          ∧ (more.foldl step reached).AtHeads := by
  intro reached
  have excludes : Excludes reached.mutex reached.locks := excludes_run packet turns
  obtain ⟨more, few, steps, -, heads⟩ :=
    exists_atHeads (I := fun _ => True) (fun _ _ _ _ => trivial) trivial excludes packet
  exact ⟨excludes, more, few, steps, heads⟩

-----------------------------------------------------------------------------------------
-- Reading what is left
-----------------------------------------------------------------------------------------

/-- Reader `i`'s buffer is not full when the frame loop begins a packet. -/
def KeepsUp (i : Fin numberReaders) (system : Listening size numberReaders Packet)
    : Turn numberReaders Packet → Prop
  | .writer _ => system.publisher = .idle → system.buffer.full i = false
  | .reader .. => True

instance (i : Fin numberReaders) (system : Listening size numberReaders Packet)
    (turn : Turn numberReaders Packet)
    : Decidable (system.KeepsUp i turn) :=
  match turn with
  | .writer _ =>
      inferInstanceAs (Decidable (system.publisher = .idle → system.buffer.full i = false))
  | .reader .. => inferInstanceAs (Decidable True)

/-- The frame loop begins no packet. -/
def Finishes (system : Listening size numberReaders Packet) : Turn numberReaders Packet → Prop
  | .writer _ => system.publisher ≠ .idle
  | .reader .. => True

/-- The calls made so far, in which reader `i` lost nothing. -/
structure Tracks (i : Fin numberReaders) (listening : Listening size numberReaders Packet)
    (system : System size numberReaders Packet) : Prop where
  mirrors : listening.Mirrors system
  lossless : system.Lossless i

section Reading

variable {listening : Listening size numberReaders Packet}
  {system : System size numberReaders Packet} {i : Fin numberReaders}

theorem call?_eq_getWritePtr {turn : Turn numberReaders Packet}
    (begins : listening.call? turn = some .getWritePtr)
    : listening.publisher = .idle ∧ ∃ packet, turn = .writer packet := by
  cases turn with
  | writer packet =>
      cases phase : listening.publisher with
      | idle => exact ⟨rfl, packet, rfl⟩
      | granted | filled | flagged | locked | notified =>
          rw [call?, phase] at begins
          cases begins
  | reader j returns =>
      cases phase : listening.listener j <;>
        · simp only [call?, phase] at begins
          cases begins

theorem Tracks.step (tracks : Tracks i listening system) (positive : 0 < size)
    (turn : Turn numberReaders Packet) (keepsUp : listening.KeepsUp i turn)
    : Tracks i (listening.step turn)
        ((listening.call? turn).toList.foldl System.step system) where
  mirrors := tracks.mirrors.step turn
  lossless := by
    cases call : listening.call? turn with
    | none => exact tracks.lossless
    | some action =>
        refine tracks.lossless.step positive action (fun begins _ => ?_)
        obtain ⟨idle, packet, rfl⟩ := call?_eq_getWritePtr (begins ▸ call)
        have room : listening.buffer.full i = false := keepsUp idle
        rw [tracks.mirrors.buffer] at room
        exact room

/-- A reader's turn writes nothing. -/
theorem written_of_reader (returns : Bool)
    : ((listening.call? (.reader i returns)).toList.foldl System.step system).written
      = system.written := by
  cases phase : listening.listener i <;> simp only [call?, phase]
  case fetching => exact (system.step_of_reader i returns (.inl rfl)).2.1
  case processing => exact (system.step_of_reader i returns (.inr (.inl rfl))).2.1
  case processed => exact (system.step_of_reader i returns (.inr (.inr rfl))).2.1
  all_goals rfl

theorem goTo_goTo (phase next : ListenerPhase)
    : (listening.goTo i phase).goTo i next = listening.goTo i next := by
  simp only [goTo, Function.update_idem]

/-- From the heads of the loops, four turns of a reader read one packet. -/
theorem AtHeads.reads (heads : listening.AtHeads) (pending : listening.buffer.empty i = false)
    : let next := (List.replicate 4 (Turn.reader i true)).foldl step listening
      next.AtHeads ∧ next.buffer = listening.buffer.doneReading i := by
  have here (phase : ListenerPhase) : (listening.goTo i phase).listener i = phase :=
    Function.update_self ..
  have tested : listening.readerStep i true = listening.goTo i .fetching := by
    simp only [readerStep, heads.listener i, isEmpty, pending, Bool.false_eq_true, if_false]
  have fetched
      : (listening.goTo i .fetching).readerStep i true
        = listening.goTo i (.processing (listening.buffer.readPtr i)) := by
    have there : (listening.goTo i .fetching).buffer.empty i = false := pending
    simp only [readerStep, here, getReadPtr_of_not_empty _ _ there, goTo_goTo]
    rfl
  have processed (slot : Nat)
      : (listening.goTo i (.processing slot)).readerStep i true
        = listening.goTo i (.processed slot) := by
    simp only [readerStep, here, if_true, goTo_goTo]
  have done (slot : Nat)
      : (listening.goTo i (.processed slot)).readerStep i true
        = { listening.goTo i .testing with buffer := listening.buffer.doneReading i } := by
    simp only [readerStep, here, goTo_goTo]
    rfl
  simp only [List.replicate, List.foldl_cons, List.foldl_nil, step, tested, fetched, processed,
    done]
  refine ⟨⟨heads.mutex, heads.publisher, fun j => ?_⟩, trivial⟩
  show Function.update listening.listener i .testing j = .testing
  by_cases own : j = i
  · rw [own, Function.update_self]
  · rw [Function.update_of_ne own]
    exact heads.listener j

theorem Tracks.unreadCount_eq (tracks : Tracks i listening system) (positive : 0 < size)
    : unreadCount listening.buffer i
      = system.written.length - listening.buffer.position i := by
  rw [tracks.mirrors.buffer]
  exact tracks.lossless.reader.unreadCount_eq tracks.lossless.writer positive

/-- Reading one packet leaves one less. -/
theorem Tracks.reads (tracks : Tracks i listening system) (positive : 0 < size)
    (heads : listening.AtHeads) (pending : listening.buffer.empty i = false)
    : let next := (List.replicate 4 (Turn.reader i true)).foldl Listening.step listening
      (∃ system, Tracks i next system)
      ∧ unreadCount next.buffer i < unreadCount listening.buffer i := by
  intro next
  have reader (turn : Turn numberReaders Packet) (member : turn ∈ List.replicate 4 (.reader i true))
      : turn = .reader i true :=
    (List.mem_replicate.mp member).2
  have steps
      : EachStep Listening.step (fun _ turn => turn = Turn.reader i true) listening
          (List.replicate 4 (.reader i true)) :=
    eachStep_iff_forall.mpr reader
  obtain ⟨kept, written⟩ :=
    steps.related call? System.step
      (R := fun listening after => Tracks i listening after ∧ after.written = system.written)
      ⟨tracks, rfl⟩
      (fun listening after turn related same => by
        subst same
        exact ⟨related.1.step positive _ trivial, (written_of_reader true).trans related.2⟩)
  obtain ⟨-, buffer⟩ := heads.reads pending
  have moved : next.buffer.position i = listening.buffer.position i + 1 := by
    rw [buffer, position, doneReading_readCnt_self, doneReading_OWCnt, position]
    omega
  have before := tracks.unreadCount_eq positive
  have after
      : unreadCount next.buffer i = system.written.length - next.buffer.position i := by
    rw [← written]
    exact kept.unreadCount_eq positive
  have left : unreadCount listening.buffer i ≠ 0 := by
    rw [Ne, unreadCount_eq_zero_iff positive, pending]
    exact Bool.false_ne_true
  exact ⟨⟨_, kept⟩, by omega⟩

/-- From the heads of the loops a reader reads all that is left for it, four turns for each
packet. By induction on their number.
-/
theorem Tracks.empties (tracks : Tracks i listening system) (positive : 0 < size)
    (heads : listening.AtHeads) {left : Nat} (few : unreadCount listening.buffer i ≤ left)
    : ∃ rounds ≤ left,
        let ended :=
          (List.replicate (4 * rounds) (Turn.reader i true)).foldl Listening.step listening
        ended.AtHeads ∧ ended.buffer.isEmpty i = true := by
  induction left generalizing listening system with
  | zero =>
      have none := Nat.le_zero.mp few
      exact ⟨0, le_rfl, heads, (unreadCount_eq_zero_iff positive).mp none⟩
  | succ left ih =>
      cases empty : listening.buffer.empty i with
      | true => exact ⟨0, Nat.zero_le _, heads, empty⟩
      | false =>
          obtain ⟨⟨after, kept⟩, fewer⟩ := tracks.reads positive heads empty
          obtain ⟨rounds, within, ended⟩ := ih kept (heads.reads empty).1 (by omega)
          refine ⟨rounds + 1, by omega, ?_⟩
          rw [Nat.mul_succ, Nat.add_comm, List.replicate_add, List.foldl_append]
          exact ended

end Reading

/-- In every state of a run in which reader `i` keeps up, a bounded number of steps that begin no
packet brings all threads back to the heads of their loops, and has reader `i` complete the
packets that were handed to `fill` and published.
-/
theorem empties_of_keepsUp (positive : 0 < size) (packet : Packet) (i : Fin numberReaders)
    (turns : List (Turn numberReaders Packet))
    (keepsUp : EachStep step (KeepsUp i) (start size numberReaders packet) turns)
    : ∃ more : List (Turn numberReaders Packet),
        more.length ≤ 5 + 4 * numberReaders + 4 * size
        ∧ EachStep step Finishes (turns.foldl step (start size numberReaders packet)) more
        ∧ let ended := (turns ++ more).foldl step (start size numberReaders packet)
          let began := System.start size numberReaders packet
          let made := calls size packet (turns ++ more)
          ended.AtHeads
          ∧ ended.buffer.isEmpty i = true
          ∧ ended.Mirrors (made.foldl System.step began)
          ∧ ((made.foldl System.step began).completed i).map Numbered.packet
            = (made.foldl System.stepHandingOver (began, ⟨none, []⟩)).2.published := by
  have related {inputs : List (Turn numberReaders Packet)}
      (steps : EachStep step (KeepsUp i) (start size numberReaders packet) inputs)
      : Tracks i (inputs.foldl step (start size numberReaders packet))
          ((calls size packet inputs).foldl System.step (System.start size numberReaders packet)) :=
    steps.related call? System.step
      ⟨mirrors_start packet, System.lossless_start size numberReaders positive packet i⟩
      (fun _ _ turn tracks keepsUp => tracks.step positive turn keepsUp)
  obtain ⟨back, few, returns, ⟨after, tracks⟩, heads⟩ :=
    exists_atHeads (I := fun listening => ∃ system, Tracks i listening system)
      (fun listening turn ⟨system, tracks⟩ returns => by
        refine ⟨_, tracks.step positive turn ?_⟩
        cases turn with
        | writer => exact fun idle => absurd idle returns
        | reader => trivial)
      ⟨_, related keepsUp⟩ (excludes_run packet turns) packet
  obtain ⟨rounds, bound, ended, empty⟩ :=
    tracks.empties positive heads (unreadCount_le positive _ i)
  have finishes
      : EachStep step Finishes (turns.foldl step (start size numberReaders packet))
          (back ++ List.replicate (4 * rounds) (.reader i true)) := by
    refine (returns.mono (fun system turn away => ?_)).append
      (EachStep.of_forall (fun turn member _ => ?_) _)
    · cases turn with
      | writer => exact away
      | reader => trivial
    · rw [(List.mem_replicate.mp member).2]
      trivial
  have whole := keepsUp.append (finishes.mono (H := KeepsUp i) (fun system turn holds => by
    cases turn with
    | writer => exact fun idle => absurd idle holds
    | reader => trivial))
  have kept := related whole
  refine ⟨back ++ List.replicate (4 * rounds) (.reader i true), ?_, finishes, ?_⟩
  · rw [List.length_append, List.length_replicate]
    omega
  · rw [List.foldl_append, List.foldl_append] at kept ⊢
    refine ⟨ended, empty, kept.mirrors, ?_⟩
    rw [← System.written_eq_published]
    refine kept.lossless.completed_of_empty ?_
    rw [kept.mirrors.buffer] at empty
    exact empty

/-- The reader is blocked with a packet to read and no notification to come. -/
theorem empties_of_keepsUp_late_wait
    : let turns : List (Turn 1 Unit) :=
        [.reader 0 true] ++ List.replicate 6 (.writer ()) ++ List.replicate 2 (.reader 0 true)
      ∃ more : List (Turn 1 Unit),
        more.length ≤ 17
        ∧ ((turns ++ more).foldl step (start 2 1 ())).buffer.isEmpty 0 = true := by
  intro turns
  have keepsUp : EachStep step (KeepsUp 0) (start 2 1 ()) turns := by decide
  obtain ⟨more, few, -, -, empty, -⟩ :=
    empties_of_keepsUp (show 0 < 2 by decide) () 0 turns keepsUp
  exact ⟨more, few, empty⟩

end Listening

end Smurf.DataBuffer
