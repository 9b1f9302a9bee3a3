import Smurf.DataBuffer.Waiting
import Smurf.Library.Runs

/-! What the waiting threads do with the buffer.
Tests, locks, waits and notifications leave the buffer alone. The other turns are steps of
`System`, so the buffer, and what is read from it, are those of a run in which nobody waits.
-/

namespace Smurf.DataBuffer

section Map

variable {size numberReaders : Nat} {Packet Other : Type*}

/-- The buffer with `f` applied to the packets in its cells. -/
def map (f : Packet → Other) (buffer : DataBuffer size numberReaders Packet)
    : DataBuffer size numberReaders Other where
  data := fun slot => f (buffer.data slot)
  readPtr := buffer.readPtr
  writePtr := buffer.writePtr
  full := buffer.full
  empty := buffer.empty
  writeCnt := buffer.writeCnt
  readCnt := buffer.readCnt
  OWCnt := buffer.OWCnt
  ROFCnt := buffer.ROFCnt

variable (f : Packet → Other) (buffer : DataBuffer size numberReaders Packet)

theorem map_getWritePtr
    : (buffer.map f).getWritePtr = (buffer.getWritePtr.1, buffer.getWritePtr.2.map f) :=
  rfl

theorem map_fill (slot : Nat) (packet : Packet)
    : (buffer.map f).fill slot (f packet) = (buffer.fill slot packet).map f := by
  rw [fill, fill, map, map]
  congr 1
  funext other
  exact (Function.apply_update (fun _ => f) buffer.data slot packet other).symm

theorem map_doneWriting : (buffer.map f).doneWriting = buffer.doneWriting.map f :=
  rfl

theorem map_doneReading (i : Fin numberReaders)
    : (buffer.map f).doneReading i = (buffer.doneReading i).map f :=
  rfl

end Map

variable {size numberReaders : Nat} {Packet : Type*}

/-- The frame loop is in the same call; from the flags on, it is done with the buffer. -/
def PublisherPhase.Calls : PublisherPhase → WriterPhase → Prop
  | .granted slot, writer => writer = .granted slot
  | .filled, writer => ∃ slot, writer = .filled slot
  | .idle, writer | .flagged, writer | .locked, writer | .notified, writer => writer = .idle

/-- The reader is in the same call; as long as it has no packet, it is in none. -/
def ListenerPhase.Calls : ListenerPhase → ReaderPhase Packet → Prop
  | .processing slot, reader => ∃ returned, reader = .holding slot returned
  | .processed slot, reader => ∃ returned seen, reader = .processed slot returned seen
  | .testing, reader | .foundEmpty _, reader | .locked _, reader | .waiting _, reader
  | .woken, reader | .fetching, reader => reader = .idle

namespace Listening

/-- The call of the buffer that a turn makes, if any. -/
def call? (system : Listening size numberReaders Packet)
    : Turn numberReaders Packet → Option (Action numberReaders Packet)
  | .writer packet =>
      match system.publisher with
      | .idle => some .getWritePtr
      | .granted _ => some (.fill packet)
      | .filled => some .doneWriting
      | .flagged | .locked | .notified => none
  | .reader i returns =>
      match system.listener i with
      | .fetching => some (.getReadPtr i)
      | .processing _ => some (.process i returns)
      | .processed _ => some (.doneReading i)
      | .testing | .foundEmpty _ | .locked _ | .waiting _ | .woken => none

/-- The buffer calls of a run from the start, in order. -/
def calls (size : Nat) (packet : Packet) (turns : List (Turn numberReaders Packet))
    : List (Action numberReaders Packet) :=
  Runs.passedOn step call? (start size numberReaders packet) turns

/-- The same buffer, and every thread in the same call. A reader that is about to fetch a packet
finds one.
-/
structure Mirrors (listening : Listening size numberReaders Packet)
    (system : System size numberReaders Packet) : Prop where
  buffer : listening.buffer = system.buffer.map Numbered.packet
  writer : listening.publisher.Calls system.writer
  reader : ∀ i, (listening.listener i).Calls (system.reader i)
  fetching : ∀ i, listening.listener i = .fetching → system.buffer.empty i = false

theorem mirrors_start (packet : Packet)
    : (start size numberReaders packet).Mirrors (System.start size numberReaders packet) where
  buffer := rfl
  writer := rfl
  reader _ := rfl
  fetching _ now := by cases now

theorem notify_calls (phase : ListenerPhase) (reader : ReaderPhase Packet)
    : phase.notify.Calls reader ↔ phase.Calls reader := by
  cases phase <;> rfl

theorem notify_eq_fetching_iff (phase : ListenerPhase)
    : phase.notify = .fetching ↔ phase = .fetching := by
  cases phase <;> simp [ListenerPhase.notify]

section Steps

variable {listening : Listening size numberReaders Packet}
  {system : System size numberReaders Packet}

/-- By cases on where the frame loop is. -/
theorem Mirrors.writerStep (mirrors : listening.Mirrors system) (packet : Packet)
    : (listening.writerStep packet).Mirrors
        ((listening.call? (.writer packet)).toList.foldl System.step system) := by
  obtain ⟨buffer, writer, reader, fetching⟩ := mirrors
  cases phase : listening.publisher with
  | idle =>
      rw [phase] at writer
      have writer : system.writer = .idle := writer
      simp only [Listening.writerStep, call?, phase, Option.toList_some, List.foldl_cons,
        List.foldl_nil, System.step, writer, buffer, map_getWritePtr]
      exact ⟨rfl, rfl, reader, fetching⟩
  | granted slot =>
      rw [phase] at writer
      have writer : system.writer = .granted slot := writer
      simp only [Listening.writerStep, call?, phase, Option.toList_some, List.foldl_cons,
        List.foldl_nil, System.step, writer, buffer]
      exact ⟨map_fill Numbered.packet system.buffer slot ⟨system.written.length, packet⟩,
        ⟨slot, rfl⟩, reader, fetching⟩
  | filled =>
      rw [phase] at writer
      obtain ⟨slot, writer⟩ := writer
      simp only [Listening.writerStep, call?, phase, Option.toList_some, List.foldl_cons,
        List.foldl_nil, System.step, writer, buffer, map_doneWriting]
      exact ⟨rfl, rfl, reader, fun i _ => rfl⟩
  | flagged =>
      rw [phase] at writer
      simp only [Listening.writerStep, call?, phase, Option.toList_none, List.foldl_nil]
      split
      · exact ⟨buffer, writer, reader, fetching⟩
      · exact ⟨buffer, by rw [phase]; exact writer, reader, fetching⟩
  | locked =>
      rw [phase] at writer
      simp only [Listening.writerStep, call?, phase, Option.toList_none, List.foldl_nil]
      exact ⟨buffer, writer, fun i => (notify_calls ..).mpr (reader i),
        fun i now => fetching i ((notify_eq_fetching_iff _).mp now)⟩
  | notified =>
      rw [phase] at writer
      simp only [Listening.writerStep, call?, phase, Option.toList_none, List.foldl_nil]
      exact ⟨buffer, writer, reader, fetching⟩

/-- A reader's step to another phase, with the call it makes there. -/
theorem Mirrors.goTo {i : Fin numberReaders} {phase : ListenerPhase}
    {buffer : DataBuffer size numberReaders Packet} {mutex : Option (Owner numberReaders)}
    {after : System size numberReaders Packet} {reader : ReaderPhase Packet}
    (mirrors : listening.Mirrors system) (mapped : buffer = after.buffer.map Numbered.packet)
    (writer : after.writer = system.writer)
    (readers : after.reader = Function.update system.reader i reader)
    (empty : ∀ j, j ≠ i → after.buffer.empty j = system.buffer.empty j)
    (calls : phase.Calls reader)
    (fetching : phase = .fetching → after.buffer.empty i = false)
    : Mirrors { listening.goTo i phase with buffer, mutex } after where
  buffer := mapped
  writer := by
    rw [writer]
    exact mirrors.writer
  reader j := by
    show (Function.update listening.listener i phase j).Calls (after.reader j)
    rw [readers]
    by_cases own : j = i
    · subst own
      rwa [Function.update_self, Function.update_self]
    · rw [Function.update_of_ne own, Function.update_of_ne own]
      exact mirrors.reader j
  fetching j now := by
    have now : Function.update listening.listener i phase j = .fetching := now
    by_cases own : j = i
    · subst own
      rw [Function.update_self] at now
      exact fetching now
    · rw [Function.update_of_ne own] at now
      rw [empty j own]
      exact mirrors.fetching j now

/-- A reader's step that makes no call. -/
theorem Mirrors.waits {i : Fin numberReaders} {phase : ListenerPhase}
    {mutex : Option (Owner numberReaders)} (mirrors : listening.Mirrors system)
    (calls : phase.Calls (system.reader i))
    (fetching : phase = .fetching → system.buffer.empty i = false)
    : Mirrors { listening.goTo i phase with mutex } system :=
  mirrors.goTo mirrors.buffer rfl (Function.update_eq_self i system.reader).symm (fun _ _ => rfl)
    calls fetching

/-- By cases on where the reader is. -/
theorem Mirrors.readerStep (mirrors : listening.Mirrors system) (i : Fin numberReaders)
    (returns : Bool)
    : (listening.readerStep i returns).Mirrors
        ((listening.call? (.reader i returns)).toList.foldl System.step system) := by
  have reader := mirrors.reader i
  have empty : listening.buffer.empty i = system.buffer.empty i := by
    rw [mirrors.buffer]
    rfl
  cases phase : listening.listener i with
  | testing =>
      rw [phase] at reader
      simp only [Listening.readerStep, call?, phase, Option.toList_none, List.foldl_nil, isEmpty,
        empty]
      split
      · exact mirrors.waits reader (fun now => by cases now)
      · next pending => exact mirrors.waits reader (fun _ => Bool.eq_false_iff.mpr pending)
  | foundEmpty | waiting =>
      rw [phase] at reader
      simp only [Listening.readerStep, call?, phase, Option.toList_none, List.foldl_nil]
      split
      · exact mirrors.waits reader (fun now => by cases now)
      · exact mirrors
  | locked | woken =>
      rw [phase] at reader
      simp only [Listening.readerStep, call?, phase, Option.toList_none, List.foldl_nil]
      exact mirrors.waits reader (fun now => by cases now)
  | fetching =>
      rw [phase] at reader
      have reader : system.reader i = .idle := reader
      have pending := mirrors.fetching i phase
      simp only [Listening.readerStep, call?, phase, Option.toList_some, List.foldl_cons,
        List.foldl_nil, System.step, reader, isEmpty, pending, Bool.false_eq_true, if_false,
        getReadPtr_of_not_empty _ _ pending, getReadPtr_of_not_empty _ _ (empty.trans pending)]
      refine mirrors.goTo mirrors.buffer rfl rfl (fun _ _ => rfl)
        ⟨system.buffer.data (system.buffer.readPtr i), ?_⟩ (fun now => by cases now)
      rw [mirrors.buffer]
      rfl
  | processing slot =>
      rw [phase] at reader
      obtain ⟨returned, reader⟩ := reader
      simp only [Listening.readerStep, call?, phase, Option.toList_some, List.foldl_cons,
        List.foldl_nil, System.step, reader]
      split
      · exact mirrors.goTo mirrors.buffer rfl rfl (fun _ _ => rfl) ⟨_, _, rfl⟩
          (fun now => by cases now)
      · exact mirrors.goTo mirrors.buffer rfl rfl (fun _ _ => rfl) rfl (fun now => by cases now)
  | processed slot =>
      rw [phase] at reader
      obtain ⟨returned, seen, reader⟩ := reader
      simp only [Listening.readerStep, call?, phase, Option.toList_some, List.foldl_cons,
        List.foldl_nil, System.step, reader]
      refine mirrors.goTo ?_ rfl rfl
        (fun j ne => (doneReading_of_ne system.buffer ne).2.2.1) rfl (fun now => by cases now)
      rw [mirrors.buffer, map_doneReading]

theorem Mirrors.step (mirrors : listening.Mirrors system) (turn : Turn numberReaders Packet)
    : (listening.step turn).Mirrors ((listening.call? turn).toList.foldl System.step system) := by
  cases turn with
  | writer packet => exact mirrors.writerStep packet
  | reader i returns => exact mirrors.readerStep i returns

end Steps

/-- In every run the buffer is the one that its calls alone leave, with the threads in the same
calls.
-/
theorem mirrors_run (packet : Packet) (turns : List (Turn numberReaders Packet))
    : (turns.foldl step (start size numberReaders packet)).Mirrors
        ((calls size packet turns).foldl System.step (System.start size numberReaders packet)) :=
  (Runs.EachStep.of_forall (G := fun _ _ => True) (fun _ _ _ => trivial) _).related
    call? System.step (mirrors_start packet) (fun _ _ turn mirrors _ => mirrors.step turn)

end Listening

end Smurf.DataBuffer
