import Mathlib.Data.List.FinRange
import Smurf.DataBuffer.Basic
import Smurf.Library.GuardedStatements
import Smurf.Library.Runs

/-! `doneWriting` and `doneReading` statement by statement.
Neither method holds the mutex while it moves its pointer and sets flags, so their statements
interleave. A comparison is one statement and the assignment it guards another, so the other
method may come in between and what was compared be out of date.
-/

namespace Smurf.DataBuffer

open GuardedStatements Runs

variable {size numberReaders : Nat} {Packet : Type*}

/-- The statements of `doneWriting`. -/
inductive WriteStatement (numberReaders : Nat)
  | advance
  | ifAtEnd
  | toBegin
  | ifFull (j : Fin numberReaders)
  | setFull (j : Fin numberReaders)
  | clearEmpty
  | count
  | lock
  | notify
  deriving DecidableEq

/-- The statements of `doneReading`. -/
inductive ReadStatement
  | advance
  | ifAtEnd
  | toBegin
  | ifEmpty
  | setEmpty
  | clearFull
  | count
  deriving DecidableEq

def WriteStatement.exec (buffer : DataBuffer size numberReaders Packet)
    : WriteStatement numberReaders → DataBuffer size numberReaders Packet
  | .advance => { buffer with writePtr := buffer.writePtr + 1 }
  | .toBegin => { buffer with writePtr := 0 }
  | .setFull j => { buffer with full := Function.update buffer.full j true }
  | .clearEmpty => { buffer with empty := fun _ => false }
  | .count => { buffer with writeCnt := buffer.writeCnt + 1 }
  -- comparisons; and the mutex and the condition variable, of which `doneReading` uses neither
  | .ifAtEnd | .ifFull _ | .lock | .notify => buffer

def ReadStatement.exec (i : Fin numberReaders) (buffer : DataBuffer size numberReaders Packet)
    : ReadStatement → DataBuffer size numberReaders Packet
  | .advance =>
      { buffer with readPtr := Function.update buffer.readPtr i (buffer.readPtr i + 1) }
  | .toBegin => { buffer with readPtr := Function.update buffer.readPtr i 0 }
  | .setEmpty => { buffer with empty := Function.update buffer.empty i true }
  | .clearFull => { buffer with full := Function.update buffer.full i false }
  | .count =>
      { buffer with readCnt := Function.update buffer.readCnt i (buffer.readCnt i + 1) }
  | .ifAtEnd | .ifEmpty => buffer

/-- The statement of `doneWriting` that a comparison makes the next one. -/
def WriteStatement.guarded (buffer : DataBuffer size numberReaders Packet)
    : WriteStatement numberReaders → List (WriteStatement numberReaders)
  | .ifAtEnd => if buffer.writePtr = size then [.toBegin] else []
  | .ifFull j => if buffer.writePtr = buffer.readPtr j then [.setFull j] else []
  | _ => []

/-- The statement of `doneReading` that a comparison makes the next one. -/
def ReadStatement.guarded (i : Fin numberReaders)
    (buffer : DataBuffer size numberReaders Packet)
    : ReadStatement → List ReadStatement
  | .ifAtEnd => if buffer.readPtr i = size then [.toBegin] else []
  | .ifEmpty => if buffer.readPtr i = buffer.writePtr then [.setEmpty] else []
  | _ => []

def writeLanguage (size numberReaders : Nat) (Packet : Type*)
    : Language (DataBuffer size numberReaders Packet) (WriteStatement numberReaders) where
  exec := WriteStatement.exec
  guarded := WriteStatement.guarded

def readLanguage (size : Nat) (Packet : Type*) (i : Fin numberReaders)
    : Language (DataBuffer size numberReaders Packet) ReadStatement where
  exec := ReadStatement.exec i
  guarded := ReadStatement.guarded i

/-- What is left of `doneWriting` when its pointer is in place and the buffers of `readers`
have still to be checked.
-/
def checkStatements (readers : List (Fin numberReaders)) : List (WriteStatement numberReaders) :=
  readers.map .ifFull ++ [.clearEmpty, .count, .lock, .notify]

def doneWritingStatements (numberReaders : Nat) : List (WriteStatement numberReaders) :=
  .advance :: .ifAtEnd :: checkStatements (List.finRange numberReaders)

def doneReadingStatements : List ReadStatement :=
  [.advance, .ifAtEnd, .ifEmpty, .clearFull, .count]

/-- What a comparison in `doneWriting` guards, and when. -/
theorem WriteStatement.of_mem_guarded {buffer : DataBuffer size numberReaders Packet}
    {statement inner : WriteStatement numberReaders} (member : inner ∈ statement.guarded buffer)
    : statement = .ifAtEnd ∧ inner = .toBegin
      ∨ ∃ j, statement = .ifFull j ∧ inner = .setFull j
          ∧ buffer.writePtr = buffer.readPtr j := by
  cases statement with
  | ifAtEnd =>
      obtain ⟨-, inner⟩ := List.mem_ite_nil_right.mp member
      exact .inl ⟨rfl, List.mem_singleton.mp inner⟩
  | ifFull j =>
      obtain ⟨meets, inner⟩ := List.mem_ite_nil_right.mp member
      exact .inr ⟨j, rfl, List.mem_singleton.mp inner, meets⟩
  | advance | toBegin | setFull | clearEmpty | count | lock | notify =>
      exact absurd member List.not_mem_nil

/-- What a comparison in `doneReading` guards, and when. -/
theorem ReadStatement.of_mem_guarded {i : Fin numberReaders}
    {buffer : DataBuffer size numberReaders Packet} {statement inner : ReadStatement}
    (member : inner ∈ statement.guarded i buffer)
    : statement = .ifAtEnd ∧ inner = .toBegin
      ∨ statement = .ifEmpty ∧ inner = .setEmpty ∧ buffer.readPtr i = buffer.writePtr := by
  cases statement with
  | ifAtEnd =>
      obtain ⟨-, inner⟩ := List.mem_ite_nil_right.mp member
      exact .inl ⟨rfl, List.mem_singleton.mp inner⟩
  | ifEmpty =>
      obtain ⟨meets, inner⟩ := List.mem_ite_nil_right.mp member
      exact .inr ⟨rfl, List.mem_singleton.mp inner, meets⟩
  | advance | toBegin | setEmpty | clearFull | count => exact absurd member List.not_mem_nil

theorem flat_writeLanguage : (writeLanguage size numberReaders Packet).Flat := by
  intro store statement inner member other
  rcases WriteStatement.of_mem_guarded member with ⟨-, rfl⟩ | ⟨j, -, rfl, -⟩
  · rfl
  · rfl

theorem flat_readLanguage (i : Fin numberReaders) : (readLanguage size Packet i).Flat := by
  intro store statement inner member other
  rcases ReadStatement.of_mem_guarded member with ⟨-, rfl⟩ | ⟨-, rfl, -⟩
  · rfl
  · rfl

-----------------------------------------------------------------------------------------
-- The statements in a row are the method
-----------------------------------------------------------------------------------------

/-- Checking some readers' buffers in a row sets their full flags where the pointers meet,
by induction on the readers.
-/
theorem foldl_ifFull (readers : List (Fin numberReaders))
    (buffer : DataBuffer size numberReaders Packet)
    : (readers.map .ifFull).foldl (writeLanguage size numberReaders Packet).run buffer
      = { buffer with
          full := fun i =>
            if i ∈ readers ∧ buffer.writePtr = buffer.readPtr i then true
            else buffer.full i } := by
  induction readers generalizing buffer with
  | nil => simp
  | cons j rest ih =>
      have checked
          : (writeLanguage size numberReaders Packet).run buffer (.ifFull j)
            = if buffer.writePtr = buffer.readPtr j then
                { buffer with full := Function.update buffer.full j true }
              else buffer := by
        rw [Language.run, writeLanguage]
        simp only [WriteStatement.guarded, WriteStatement.exec]
        split <;> rfl
      rw [List.map_cons, List.foldl_cons, ih, checked]
      by_cases meets : buffer.writePtr = buffer.readPtr j
      · rw [if_pos meets]
        congr 1
        funext i
        by_cases own : i = j
        · simp [own, meets]
        · simp [own]
      · rw [if_neg meets]
        congr 1
        funext i
        by_cases own : i = j
        · simp [own, meets]
        · simp [own]

/-- The statements of `doneWriting` in a row do what the method does. -/
theorem foldl_doneWritingStatements (buffer : DataBuffer size numberReaders Packet)
    : (doneWritingStatements numberReaders).foldl (writeLanguage size numberReaders Packet).run
        buffer
      = buffer.doneWriting := by
  have moved
      : (writeLanguage size numberReaders Packet).run
          ((writeLanguage size numberReaders Packet).run buffer .advance) .ifAtEnd
        = { buffer with writePtr := CyclicSlots.next size buffer.writePtr } := by
    simp only [Language.run, writeLanguage, WriteStatement.guarded, WriteStatement.exec,
      List.foldl_nil, CyclicSlots.next]
    split <;> rfl
  rw [doneWritingStatements, List.foldl_cons, List.foldl_cons, moved, checkStatements,
    List.foldl_append, foldl_ifFull]
  simp [Language.run, writeLanguage, WriteStatement.guarded, WriteStatement.exec, doneWriting]

/-- The statements of `doneReading` in a row do what the method does. -/
theorem foldl_doneReadingStatements (i : Fin numberReaders)
    (buffer : DataBuffer size numberReaders Packet)
    : doneReadingStatements.foldl (readLanguage size Packet i).run buffer
      = buffer.doneReading i := by
  have moved
      : (readLanguage size Packet i).run
          ((readLanguage size Packet i).run buffer .advance) .ifAtEnd
        = { buffer with
            readPtr :=
              Function.update buffer.readPtr i (CyclicSlots.next size (buffer.readPtr i)) } := by
    simp only [Language.run, readLanguage, ReadStatement.guarded, ReadStatement.exec,
      List.foldl_nil, CyclicSlots.next, Function.update_self]
    split
    · simp only [List.foldl_cons, List.foldl_nil, ReadStatement.exec, Function.update_idem]
    · rfl
  simp only [doneReadingStatements, List.foldl_cons, List.foldl_nil, moved]
  simp only [Language.run, readLanguage, ReadStatement.guarded, ReadStatement.exec, doneReading,
    List.foldl_nil, Function.update_self]
  split <;> rfl

-----------------------------------------------------------------------------------------
-- One write and one read at the same time
-----------------------------------------------------------------------------------------

/-- The buffer while a `doneWriting` and a `doneReading` are under way, with the statements
each has still to execute.
-/
structure Interleaving (size numberReaders : Nat) (Packet : Type*) where
  buffer : DataBuffer size numberReaders Packet
  writing : List (WriteStatement numberReaders)
  reading : List ReadStatement

inductive Side
  | writer
  | reader
  deriving DecidableEq

namespace Interleaving

def start (buffer : DataBuffer size numberReaders Packet)
    : Interleaving size numberReaders Packet where
  buffer
  writing := doneWritingStatements numberReaders
  reading := doneReadingStatements

/-- One side executes its next statement; a side that has finished does nothing. -/
def step (i : Fin numberReaders) (run : Interleaving size numberReaders Packet)
    : Side → Interleaving size numberReaders Packet
  | .writer =>
      let (buffer, writing) := (writeLanguage size numberReaders Packet).next run.buffer run.writing
      { run with buffer, writing }
  | .reader =>
      let (buffer, reading) := (readLanguage size Packet i).next run.buffer run.reading
      { run with buffer, reading }

def finished (run : Interleaving size numberReaders Packet) : Prop :=
  run.writing = [] ∧ run.reading = []

instance (run : Interleaving size numberReaders Packet) : Decidable run.finished :=
  inferInstanceAs (Decidable (run.writing = [] ∧ run.reading = []))

/-- Left alone, `doneWriting` ends with what the method does. -/
theorem exists_writer_alone (i : Fin numberReaders)
    (buffer : DataBuffer size numberReaders Packet) (reading : List ReadStatement)
    : ∃ turns,
        (fun run => step i run .writer)^[turns]
          ⟨buffer, doneWritingStatements numberReaders, reading⟩
        = ⟨buffer.doneWriting, [], reading⟩ := by
  have same
      : Function.Semiconj
          (fun state : DataBuffer size numberReaders Packet × _ =>
            (⟨state.1, state.2, reading⟩ : Interleaving size numberReaders Packet))
          (fun state => (writeLanguage size numberReaders Packet).next state.1 state.2)
          (fun run => step i run .writer) :=
    fun _ => rfl
  obtain ⟨turns, ended⟩ :=
    flat_writeLanguage.exists_iterate_next buffer (doneWritingStatements numberReaders)
  have carried := (same.iterate_right turns) (buffer, doneWritingStatements numberReaders)
  rw [ended, foldl_doneWritingStatements] at carried
  exact ⟨turns, carried.symm⟩

/-- Left alone, `doneReading` ends with what the method does. -/
theorem exists_reader_alone (i : Fin numberReaders)
    (buffer : DataBuffer size numberReaders Packet)
    (writing : List (WriteStatement numberReaders))
    : ∃ turns,
        (fun run => step i run .reader)^[turns] ⟨buffer, writing, doneReadingStatements⟩
        = ⟨buffer.doneReading i, writing, []⟩ := by
  have same
      : Function.Semiconj
          (fun state : DataBuffer size numberReaders Packet × _ =>
            (⟨state.1, writing, state.2⟩ : Interleaving size numberReaders Packet))
          (fun state => (readLanguage size Packet i).next state.1 state.2)
          (fun run => step i run .reader) :=
    fun _ => rfl
  obtain ⟨turns, ended⟩ := (flat_readLanguage i).exists_iterate_next buffer doneReadingStatements
  have carried := (same.iterate_right turns) (buffer, doneReadingStatements)
  rw [ended, foldl_doneReadingStatements] at carried
  exact ⟨turns, carried.symm⟩

/-- An assignment that a comparison of the pointers guards comes before the other method clears
the flag: `doneWriting` does not set a full flag that `doneReading` has cleared, nor does
`doneReading` set an empty flag that `doneWriting` has cleared.
-/
def InTime (i : Fin numberReaders) (run : Interleaving size numberReaders Packet) : Side → Prop
  | .writer => run.writing.head? = some (.setFull i) → .clearFull ∈ run.reading
  | .reader => run.reading.head? = some .setEmpty → .clearEmpty ∈ run.writing

instance (i : Fin numberReaders) (run : Interleaving size numberReaders Packet) (side : Side)
    : Decidable (run.InTime i side) :=
  match side with
  | .writer =>
      inferInstanceAs
        (Decidable (run.writing.head? = some (.setFull i) → .clearFull ∈ run.reading))
  | .reader =>
      inferInstanceAs
        (Decidable (run.reading.head? = some .setEmpty → .clearEmpty ∈ run.writing))

end Interleaving

/-- Reader `i`'s pointers and flags are those of a buffer to which `written` packets were
written and from which the reader has taken `taken`.
-/
structure Agrees (buffer : DataBuffer size numberReaders Packet) (i : Fin numberReaders)
    (taken written : Nat) : Prop where
  writePtr : buffer.writePtr = written % size
  readPtr : buffer.readPtr i = taken % size
  empty : buffer.empty i = true ↔ written = taken
  full : buffer.full i = true ↔ written = taken + size

-----------------------------------------------------------------------------------------
-- Flags
-----------------------------------------------------------------------------------------

/-- Flags of reader `i` that have been cleared are down. -/
structure Interleaving.Down (i : Fin numberReaders) (run : Interleaving size numberReaders Packet)
    : Prop where
  empty : .clearEmpty ∉ run.writing → run.buffer.empty i = false
  full : .clearFull ∉ run.reading → run.buffer.full i = false

section Flags

variable (buffer : DataBuffer size numberReaders Packet) (i : Fin numberReaders)

theorem WriteStatement.empty_exec (statement : WriteStatement numberReaders)
    : (statement.exec buffer).empty i
      = if statement = .clearEmpty then false else buffer.empty i := by
  cases statement <;> rfl

theorem WriteStatement.full_exec (statement : WriteStatement numberReaders)
    : (statement.exec buffer).full i
      = if statement = .setFull i then true else buffer.full i := by
  cases statement with
  | setFull j =>
      by_cases own : i = j
      · simp [exec, own]
      · simp [exec, own, Ne.symm own]
  | advance | ifAtEnd | toBegin | ifFull | clearEmpty | count | lock | notify => rfl

theorem ReadStatement.empty_exec (statement : ReadStatement)
    : (statement.exec i buffer).empty i
      = if statement = .setEmpty then true else buffer.empty i := by
  cases statement with
  | setEmpty => exact Function.update_self ..
  | advance | ifAtEnd | toBegin | ifEmpty | clearFull | count => rfl

theorem ReadStatement.full_exec (statement : ReadStatement)
    : (statement.exec i buffer).full i
      = if statement = .clearFull then false else buffer.full i := by
  cases statement with
  | clearFull => exact Function.update_self ..
  | advance | ifAtEnd | toBegin | ifEmpty | setEmpty | count => rfl

/-- A comparison guards no statement that clears a flag. -/
theorem WriteStatement.mem_guarded_append {statement : WriteStatement numberReaders}
    {rest : List (WriteStatement numberReaders)}
    : .clearEmpty ∈ statement.guarded buffer ++ rest ↔ .clearEmpty ∈ rest := by
  refine List.mem_append.trans (or_iff_right (fun member => ?_))
  rcases of_mem_guarded member with ⟨-, clears⟩ | ⟨j, -, clears, -⟩
  · cases clears
  · cases clears

theorem ReadStatement.mem_guarded_append {statement : ReadStatement} {rest : List ReadStatement}
    : .clearFull ∈ statement.guarded i buffer ++ rest ↔ .clearFull ∈ rest := by
  refine List.mem_append.trans (or_iff_right (fun member => ?_))
  rcases of_mem_guarded member with ⟨-, clears⟩ | ⟨-, clears, -⟩
  · cases clears
  · cases clears

end Flags

/-- A step leaves cleared flags down exactly if they were down and it does not come too late. -/
theorem Interleaving.down_step (i : Fin numberReaders)
    (run : Interleaving size numberReaders Packet) (side : Side)
    : (run.step i side).Down i ↔ run.Down i ∧ run.InTime i side := by
  obtain ⟨buffer, writing, reading⟩ := run
  have down_iff (run : Interleaving size numberReaders Packet)
      : run.Down i
        ↔ (.clearEmpty ∉ run.writing → run.buffer.empty i = false)
          ∧ (.clearFull ∉ run.reading → run.buffer.full i = false) :=
    ⟨fun down => ⟨down.empty, down.full⟩, fun both => ⟨both.1, both.2⟩⟩
  simp only [down_iff]
  cases side with
  | writer =>
      cases writing with
      | nil => exact (and_iff_left (fun none => absurd none (by simp))).symm
      | cons statement rest =>
          simp only [step, Language.next, writeLanguage, WriteStatement.mem_guarded_append,
            WriteStatement.empty_exec, WriteStatement.full_exec, InTime, List.head?_cons,
            Option.some.injEq, List.mem_cons]
          by_cases clears : statement = .clearEmpty
          · subst clears
            simp
          · by_cases sets : statement = .setFull i
            · subst sets
              simp
              tauto
            · simp [clears, sets, Ne.symm clears]
  | reader =>
      cases reading with
      | nil => exact (and_iff_left (fun none => absurd none (by simp))).symm
      | cons statement rest =>
          simp only [step, Language.next, readLanguage, ReadStatement.mem_guarded_append,
            ReadStatement.empty_exec, ReadStatement.full_exec, InTime, List.head?_cons,
            Option.some.injEq, List.mem_cons]
          by_cases clears : statement = .clearFull
          · subst clears
            simp
          · by_cases sets : statement = .setEmpty
            · subst sets
              simp
              tauto
            · simp [clears, sets, Ne.symm clears]

-----------------------------------------------------------------------------------------
-- Pointers
-----------------------------------------------------------------------------------------

/-- Where the write pointer is, given what `doneWriting` has still to execute. -/
inductive WriterAt (size written writePtr : Nat) : List (WriteStatement numberReaders) → Prop
  | begun (at_ : writePtr = written % size)
    : WriterAt size written writePtr (doneWritingStatements numberReaders)
  | advanced (at_ : writePtr = written % size + 1)
    : WriterAt size written writePtr
        (.ifAtEnd :: checkStatements (List.finRange numberReaders))
  | atEnd (at_ : writePtr = written % size + 1) (last : writePtr = size)
    : WriterAt size written writePtr
        (.toBegin :: checkStatements (List.finRange numberReaders))
  | checking (readers : List (Fin numberReaders)) (at_ : writePtr = (written + 1) % size)
    : WriterAt size written writePtr (checkStatements readers)
  | raising (j : Fin numberReaders) (readers : List (Fin numberReaders))
    (at_ : writePtr = (written + 1) % size)
    : WriterAt size written writePtr (.setFull j :: checkStatements readers)
  | finishing (rest : List (WriteStatement numberReaders))
    (tail : rest ⊆ [.count, .lock, .notify]) (at_ : writePtr = (written + 1) % size)
    : WriterAt size written writePtr rest

/-- Where the read pointer is, given what `doneReading` has still to execute. -/
inductive ReaderAt (size taken readPtr : Nat) : List ReadStatement → Prop
  | begun (at_ : readPtr = taken % size) : ReaderAt size taken readPtr doneReadingStatements
  | advanced (at_ : readPtr = taken % size + 1)
    : ReaderAt size taken readPtr [.ifAtEnd, .ifEmpty, .clearFull, .count]
  | atEnd (at_ : readPtr = taken % size + 1) (last : readPtr = size)
    : ReaderAt size taken readPtr [.toBegin, .ifEmpty, .clearFull, .count]
  | wrapped (at_ : readPtr = (taken + 1) % size)
    : ReaderAt size taken readPtr [.ifEmpty, .clearFull, .count]
  | raising (at_ : readPtr = (taken + 1) % size)
    : ReaderAt size taken readPtr [.setEmpty, .clearFull, .count]
  | finishing (rest : List ReadStatement) (tail : rest ⊆ [.clearFull, .count])
    (at_ : readPtr = (taken + 1) % size)
    : ReaderAt size taken readPtr rest

section Pointers

variable {buffer : DataBuffer size numberReaders Packet} {i : Fin numberReaders}
  {taken written ptr : Nat}

/-- One further is the next slot, or behind the last one. -/
theorem succ_mod_of_ne (positive : 0 < size) (inner : written % size + 1 ≠ size)
    : written % size + 1 = (written + 1) % size :=
  CyclicSlots.succ_mod (by have := Nat.mod_lt written positive; omega)

theorem zero_eq_succ_mod (positive : 0 < size) (last : written % size + 1 = size)
    : 0 = (written + 1) % size := by
  rw [← CyclicSlots.next_mod positive, CyclicSlots.next, if_pos last]

/-- The writer's next statement takes it to its next place, by cases on its place. -/
theorem WriterAt.next (positive : 0 < size) {statement : WriteStatement numberReaders}
    {rest : List (WriteStatement numberReaders)}
    (here : WriterAt size written buffer.writePtr (statement :: rest))
    : WriterAt size written (statement.exec buffer).writePtr
        (statement.guarded buffer ++ rest) := by
  generalize all : statement :: rest = statements at here
  cases here with
  | begun at_ =>
      obtain ⟨rfl, rfl⟩ := List.cons.inj all
      exact .advanced (congrArg (· + 1) at_)
  | advanced at_ =>
      obtain ⟨rfl, rfl⟩ := List.cons.inj all
      simp only [WriteStatement.guarded, WriteStatement.exec]
      split
      case isTrue last => exact .atEnd at_ last
      case isFalse inner => exact .checking _ (at_.trans (succ_mod_of_ne positive (at_ ▸ inner)))
  | atEnd at_ last =>
      obtain ⟨rfl, rfl⟩ := List.cons.inj all
      exact .checking _ (zero_eq_succ_mod positive (at_.symm.trans last))
  | checking readers at_ =>
      cases readers with
      | nil =>
          obtain ⟨rfl, rfl⟩ := List.cons.inj all
          exact .finishing _ (List.Subset.refl _) at_
      | cons j readers =>
          obtain ⟨rfl, rfl⟩ := List.cons.inj all
          simp only [WriteStatement.guarded, WriteStatement.exec]
          split
          case isTrue => exact .raising j readers at_
          case isFalse => exact .checking readers at_
  | raising j readers at_ =>
      obtain ⟨rfl, rfl⟩ := List.cons.inj all
      exact .checking readers at_
  | finishing _ tail at_ =>
      subst all
      have last : statement ∈ [.count, .lock, .notify] := tail List.mem_cons_self
      have unchanged
          : (statement.exec buffer).writePtr = buffer.writePtr
            ∧ statement.guarded buffer = [] := by
        simp only [List.mem_cons, List.not_mem_nil, or_false] at last
        rcases last with rfl | rfl | rfl
        · exact ⟨rfl, rfl⟩
        · exact ⟨rfl, rfl⟩
        · exact ⟨rfl, rfl⟩
      rw [unchanged.1, unchanged.2]
      exact .finishing rest (fun _ member => tail (List.mem_cons_of_mem _ member)) at_

/-- The reader's next statement takes it to its next place, by cases on its place. -/
theorem ReaderAt.next (positive : 0 < size) {statement : ReadStatement}
    {rest : List ReadStatement}
    (here : ReaderAt size taken (buffer.readPtr i) (statement :: rest))
    : ReaderAt size taken ((statement.exec i buffer).readPtr i)
        (statement.guarded i buffer ++ rest) := by
  generalize all : statement :: rest = statements at here
  cases here with
  | begun at_ =>
      obtain ⟨rfl, rfl⟩ := List.cons.inj all
      exact .advanced ((Function.update_self ..).trans (congrArg (· + 1) at_))
  | advanced at_ =>
      obtain ⟨rfl, rfl⟩ := List.cons.inj all
      simp only [ReadStatement.guarded, ReadStatement.exec]
      split
      case isTrue last => exact .atEnd at_ last
      case isFalse inner => exact .wrapped (at_.trans (succ_mod_of_ne positive (at_ ▸ inner)))
  | atEnd at_ last =>
      obtain ⟨rfl, rfl⟩ := List.cons.inj all
      exact
        .wrapped
          ((Function.update_self ..).trans
            (zero_eq_succ_mod positive (at_.symm.trans last)))
  | wrapped at_ =>
      obtain ⟨rfl, rfl⟩ := List.cons.inj all
      simp only [ReadStatement.guarded, ReadStatement.exec]
      split
      case isTrue => exact .raising at_
      case isFalse => exact .finishing _ (List.Subset.refl _) at_
  | raising at_ =>
      obtain ⟨rfl, rfl⟩ := List.cons.inj all
      exact .finishing _ (List.Subset.refl _) at_
  | finishing _ tail at_ =>
      subst all
      have last : statement ∈ [.clearFull, .count] := tail List.mem_cons_self
      have unchanged
          : (statement.exec i buffer).readPtr = buffer.readPtr
            ∧ statement.guarded i buffer = [] := by
        rcases List.mem_pair.mp last with rfl | rfl
        · exact ⟨rfl, rfl⟩
        · exact ⟨rfl, rfl⟩
      rw [unchanged.1, unchanged.2]
      exact .finishing rest (fun _ member => tail (List.mem_cons_of_mem _ member)) at_

/-- A finished `doneWriting` has moved the pointer. -/
theorem WriterAt.of_nil
    (here : WriterAt size written ptr ([] : List (WriteStatement numberReaders)))
    : ptr = (written + 1) % size := by
  generalize all : [] = statements at here
  cases here with
  | begun | advanced | atEnd | raising => exact absurd all (List.cons_ne_nil _ _).symm
  | checking readers => exact absurd all.symm (by simp [checkStatements])
  | finishing _ _ at_ => exact at_

/-- A finished `doneReading` has moved the pointer. -/
theorem ReaderAt.of_nil (here : ReaderAt size taken ptr []) : ptr = (taken + 1) % size := by
  generalize all : [] = statements at here
  cases here with
  | begun | advanced | atEnd | wrapped | raising =>
      exact absurd all (List.cons_ne_nil _ _).symm
  | finishing _ _ at_ => exact at_

/-- A pointer inside the buffer has not moved, or is at its new place. -/
theorem WriterAt.inside (positive : 0 < size) {writing : List (WriteStatement numberReaders)}
    (here : WriterAt size written ptr writing) (inside : ptr < size)
    : ptr = written % size ∨ ptr = (written + 1) % size := by
  cases here with
  | begun at_ => exact .inl at_
  | advanced at_ => exact .inr (at_.trans (succ_mod_of_ne positive (by omega)))
  | atEnd at_ last => omega
  | checking _ at_ | raising _ _ at_ | finishing _ _ at_ => exact .inr at_

theorem ReaderAt.inside (positive : 0 < size) {reading : List ReadStatement}
    (here : ReaderAt size taken ptr reading) (inside : ptr < size)
    : ptr = taken % size ∨ ptr = (taken + 1) % size := by
  cases here with
  | begun at_ => exact .inl at_
  | advanced at_ => exact .inr (at_.trans (succ_mod_of_ne positive (by omega)))
  | atEnd at_ last => omega
  | wrapped at_ | raising at_ | finishing _ _ at_ => exact .inr at_

/-- When the reader compares the pointers, its own is in place. -/
theorem ReaderAt.readPtr_of_ifEmpty {rest : List ReadStatement}
    (here : ReaderAt size taken ptr (.ifEmpty :: rest))
    : ptr = (taken + 1) % size := by
  generalize all : ReadStatement.ifEmpty :: rest = statements at here
  cases here with
  | begun | advanced | atEnd | raising => exact absurd (List.cons.inj all).1 (by simp)
  | wrapped at_ | finishing _ _ at_ => exact at_

/-- When the writer compares the pointers, its own is in place. -/
theorem WriterAt.writePtr_of_ifFull {j : Fin numberReaders}
    {rest : List (WriteStatement numberReaders)}
    (here : WriterAt size written ptr (.ifFull j :: rest))
    : ptr = (written + 1) % size := by
  generalize all : WriteStatement.ifFull j :: rest = statements at here
  cases here with
  | begun | advanced | atEnd | raising => exact absurd (List.cons.inj all).1 (by simp)
  | checking _ at_ | finishing _ _ at_ => exact at_

end Pointers

/-- Both pointers are at a place of theirs. -/
structure Interleaving.Under (run : Interleaving size numberReaders Packet)
    (i : Fin numberReaders) (taken written : Nat) : Prop where
  writer : WriterAt size written run.buffer.writePtr run.writing
  reader : ReaderAt size taken (run.buffer.readPtr i) run.reading

theorem Interleaving.under_start {buffer : DataBuffer size numberReaders Packet}
    {i : Fin numberReaders} {taken written : Nat} (agrees : Agrees buffer i taken written)
    : (start buffer).Under i taken written :=
  ⟨.begun agrees.writePtr, .begun agrees.readPtr⟩

/-- Neither method moves the other's pointer, so a step of either keeps both at their places. -/
theorem Interleaving.Under.step {run : Interleaving size numberReaders Packet}
    {i : Fin numberReaders} {taken written : Nat} (under : run.Under i taken written)
    (positive : 0 < size) (side : Side)
    : (run.step i side).Under i taken written := by
  obtain ⟨buffer, writing, reading⟩ := run
  obtain ⟨writer, reader⟩ := under
  cases side with
  | writer =>
      cases writing with
      | nil => exact ⟨writer, reader⟩
      | cons statement rest =>
          have same : (statement.exec buffer).readPtr = buffer.readPtr := by
            cases statement <;> rfl
          exact ⟨writer.next positive, (congrFun same i).symm ▸ reader⟩
  | reader =>
      cases reading with
      | nil => exact ⟨writer, reader⟩
      | cons statement rest =>
          have same : (statement.exec i buffer).writePtr = buffer.writePtr := by
            cases statement <;> rfl
          exact ⟨same.symm ▸ writer, reader.next positive⟩

-----------------------------------------------------------------------------------------
-- Interleavings
-----------------------------------------------------------------------------------------

/-- No assignment behind a comparison is under way. -/
structure Interleaving.Calm (i : Fin numberReaders)
    (run : Interleaving size numberReaders Packet) : Prop where
  writing : .setFull i ∉ run.writing
  reading : .setEmpty ∉ run.reading

theorem Interleaving.Calm.inTime {i : Fin numberReaders}
    {run : Interleaving size numberReaders Packet} (calm : run.Calm i) (side : Side)
    : run.InTime i side := by
  cases side with
  | writer => exact fun head => absurd (List.mem_of_mem_head? head) calm.writing
  | reader => exact fun head => absurd (List.mem_of_mem_head? head) calm.reading

/-- Between two and `size - 2` packets apart, the pointers never meet. -/
theorem Interleaving.Calm.step {run : Interleaving size numberReaders Packet}
    {i : Fin numberReaders} {taken written : Nat} (calm : run.Calm i)
    (under : run.Under i taken written) (more : taken + 1 < written)
    (room : written + 1 < taken + size) (side : Side)
    : (run.step i side).Calm i := by
  have positive : 0 < size := by omega
  obtain ⟨buffer, writing, reading⟩ := run
  cases side with
  | writer =>
      cases writing with
      | nil => exact calm
      | cons statement rest =>
          refine ⟨fun member => ?_, calm.reading⟩
          rcases List.mem_append.mp member with guarded | later
          · rcases WriteStatement.of_mem_guarded guarded with ⟨-, sets⟩ | ⟨j, rfl, sets, meets⟩
            · cases sets
            · cases sets
              have here := under.writer.writePtr_of_ifFull
              have inside : buffer.readPtr i < size := by
                rw [← meets, here]
                exact Nat.mod_lt _ positive
              rcases under.reader.inside positive inside with there | there
              · have same := CyclicSlots.eq_of_mod_eq (by omega) (by omega)
                  (there.symm.trans (meets.symm.trans here))
                omega
              · have same := CyclicSlots.eq_of_mod_eq (by omega) (by omega)
                  (there.symm.trans (meets.symm.trans here))
                omega
          · exact calm.writing (List.mem_cons_of_mem _ later)
  | reader =>
      cases reading with
      | nil => exact calm
      | cons statement rest =>
          refine ⟨calm.writing, fun member => ?_⟩
          rcases List.mem_append.mp member with guarded | later
          · rcases ReadStatement.of_mem_guarded guarded with ⟨-, sets⟩ | ⟨rfl, -, meets⟩
            · cases sets
            · have here := under.reader.readPtr_of_ifEmpty
              have inside : buffer.writePtr < size := by
                rw [← meets, here]
                exact Nat.mod_lt _ positive
              rcases under.writer.inside positive inside with there | there
              · have same := CyclicSlots.eq_of_mod_eq (by omega) (by omega)
                  (here.symm.trans (meets.trans there))
                omega
              · have same := CyclicSlots.eq_of_mod_eq (by omega) (by omega)
                  (here.symm.trans (meets.trans there))
                omega
          · exact calm.reading (List.mem_cons_of_mem _ later)

/-- From any state whose pointers and flags agree, with at least one and fewer than `size`
packets unread, however a `doneWriting` and a `doneReading` interleave: when both have finished,
the pointers and flags agree again exactly if no statement set a flag behind the one that clears
it; and with two to `size - 2` packets unread none does. Witness: a flag once cleared is down
after a step exactly if it was and the step came in time.
-/
theorem agrees_iff_inTime {buffer : DataBuffer size numberReaders Packet}
    {i : Fin numberReaders} {taken written : Nat} (agrees : Agrees buffer i taken written)
    (unread : taken < written) (room : written < taken + size) (schedule : List Side)
    : let run := schedule.foldl (Interleaving.step i) (.start buffer)
      (run.finished
        → (Agrees run.buffer i (taken + 1) (written + 1)
          ↔ EachStep (Interleaving.step i) (Interleaving.InTime i) (.start buffer) schedule))
      ∧ (taken + 1 < written
        → written + 1 < taken + size
        → EachStep (Interleaving.step i) (Interleaving.InTime i) (.start buffer) schedule) := by
  intro run
  have positive : 0 < size := by omega
  have start := Interleaving.under_start agrees
  constructor
  · intro finished
    have began : (Interleaving.start buffer).Down i := by
      constructor
      · exact fun cleared => absurd (by simp [Interleaving.start, doneWritingStatements,
          checkStatements]) cleared
      · exact fun cleared => absurd (by simp [Interleaving.start, doneReadingStatements]) cleared
    have down :=
      (final_iff_eachStep (Interleaving.down_step i) (.start buffer) schedule).trans
        (and_iff_right began)
    have under : run.Under i taken written :=
      (EachState.of_invariant (I := fun run => Interleaving.Under run i taken written) start
        (fun _ side under => under.step positive side) schedule).final
    refine Iff.trans ?_ down
    constructor
    · intro agrees
      have pending : run.buffer.empty i = false :=
        Bool.eq_false_iff.mpr (fun empty => by have := agrees.empty.mp empty; omega)
      have noneFull : run.buffer.full i = false :=
        Bool.eq_false_iff.mpr (fun full => by have := agrees.full.mp full; omega)
      exact ⟨fun _ => pending, fun _ => noneFull⟩
    · intro down
      have pending := down.empty (by rw [finished.1]; exact List.not_mem_nil)
      have noneFull := down.full (by rw [finished.2]; exact List.not_mem_nil)
      refine ⟨(finished.1 ▸ under.writer).of_nil, (finished.2 ▸ under.reader).of_nil, ?_, ?_⟩
      · exact iff_of_false (by rw [pending]; decide) (by omega)
      · exact iff_of_false (by rw [noneFull]; decide) (by omega)
  · intro more apart
    have calm : (Interleaving.start buffer).Calm i := by
      constructor
      · simp [Interleaving.start, doneWritingStatements, checkStatements]
      · simp [Interleaving.start, doneReadingStatements]
    refine (EachStep.congr_of_invariant (G := fun _ _ => True)
      (I := fun run => Interleaving.Under run i taken written ∧ run.Calm i) ?_ ?_
      ⟨start, calm⟩ schedule).mp (.of_forall (fun _ _ _ => trivial) _)
    · exact fun run side both => ⟨both.1.step positive side, both.2.step both.1 more apart side⟩
    · exact fun run side both => iff_of_true trivial (both.2.inTime side)

/-- Three cells with one unread packet, the two methods taking turns. -/
theorem agrees_iff_inTime_three_cells
    : Agrees
        ((List.replicate 6 [Side.reader, Side.writer, Side.writer]).flatten.foldl
          (Interleaving.step 0)
          (.start (DataBuffer.create 3 1 ()).doneWriting)).buffer
        0 1 2 :=
  ((agrees_iff_inTime ⟨rfl, rfl, by decide, by decide⟩ (by decide) (by decide) _).1
    (by decide)).mpr (by decide)

/-- Two cells with one unread packet: `doneReading` finds the pointers equal, `doneWriting` moves
its own and clears the empty flag, and `doneReading` sets it.
-/
theorem not_agrees_late_assignment
    : Agrees (DataBuffer.create 2 1 ()).doneWriting 0 0 1
      ∧ ¬ ∀ schedule : List Side,
          let run :=
            schedule.foldl (Interleaving.step 0) (.start (DataBuffer.create 2 1 ()).doneWriting)
          run.finished
          → ((run.buffer.empty 0 = true ↔ 2 = 1) ∧ (run.buffer.full 0 = true ↔ 2 = 1 + 2)) := by
  refine ⟨⟨rfl, rfl, by decide, by decide⟩, fun all => ?_⟩
  have flags :=
    all (List.replicate 3 .reader ++ List.replicate 8 .writer ++ List.replicate 4 .reader)
      (by decide)
  exact absurd flags.1 (by decide)

end Smurf.DataBuffer
