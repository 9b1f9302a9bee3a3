import Smurf.DataBuffer.SlotInvariant
import Smurf.Library.DropOldest
import Smurf.Library.Runs

/-! A slow reader under overwrites.
The packet a reader works on stays as it is and every packet is accounted for exactly as
long as the writer neither overtakes the reader inside a packet nor moves it past the last
cell.
-/

namespace Smurf.DataBuffer.System

open Runs

variable {size numberReaders : Nat} {Packet : Type*}

/-- Reader `i` works on the packet it got, and what it did not get is counted: every packet
written was processed once, is still to be read, or is one of the `OWCnt` overwritten ones.
-/
structure NoSilentLoss (system : System size numberReaders Packet) (i : Fin numberReaders)
    : Prop where
  cell : system.buffer.readPtr i < size
  unchanged
    : ∀ slot returned,
        (system.reader i).held? = some (slot, returned) → system.buffer.data slot = returned
  saw_returned
    : ∀ slot returned seen,
        system.reader i = .processed slot returned seen → seen = returned
  retires
    : ∀ slot returned,
        (system.reader i).held? = some (slot, returned)
        → slot = system.buffer.readPtr i ∧ (system.unread i).head? = some returned
  accounted
    : ∃ overwritten : List Nat,
        overwritten.length = system.buffer.OWCnt i
        ∧ ((system.completed i).map Numbered.number
            ++ ((system.unread i).map Numbered.number ++ overwritten)).Perm
            (List.range system.written.length)
  contents
    : ∀ packet ∈ system.completed i ++ system.unread i,
        system.written[packet.number]? = some packet.packet

/-- The writer begins no packet while reader `i` has a full buffer and either works on a
packet or points at the last cell.
-/
def OverwritesSafely (i : Fin numberReaders) (system : System size numberReaders Packet)
    (action : Action numberReaders Packet) : Prop :=
  action = .getWritePtr → system.writer = .idle → OverwriteSafe system i

instance [DecidableEq Packet] (i : Fin numberReaders)
    (system : System size numberReaders Packet) (action : Action numberReaders Packet)
    : Decidable (OverwritesSafely i system action) :=
  inferInstanceAs
    (Decidable
      (action = .getWritePtr
        → system.writer = .idle
        → system.buffer.full i = true
        → system.reader i = .idle ∧ system.buffer.readPtr i + 1 < size))

/-- The pointers and the empty flag tell how many packets are left. Witness: the distance of
two cells is that of their packet numbers up to a turn.
-/
theorem ReaderHolds.unreadCount_eq {system : System size numberReaders Packet}
    {i : Fin numberReaders} (holds : ReaderHolds system i) (writer : WriterHolds system)
    (positive : 0 < size)
    : unreadCount system.buffer i
      = system.written.length - system.buffer.position i := by
  have le := holds.le_written
  have room := holds.room
  rw [unreadCount, writer.writePtr, holds.readPtr, CyclicSlots.mod_distance positive le]
  cases empty : system.buffer.empty i with
  | true =>
      have := holds.empty.mp empty
      simp only [if_true]
      omega
  | false =>
      have notEmpty := mt holds.empty.mpr (Bool.eq_false_iff.mp empty)
      simp only [Bool.false_eq_true, if_false]
      by_cases whole : system.written.length - system.buffer.position i = size
      · rw [whole, Nat.mod_self, if_pos rfl]
      · rw [Nat.mod_eq_of_lt (by omega), if_neg (by omega)]

/-- The packets left are those from the reader's position to the last one written. -/
theorem ReaderHolds.unread_getElem? {system : System size numberReaders Packet}
    {i : Fin numberReaders} (holds : ReaderHolds system i) (writer : WriterHolds system)
    (positive : 0 < size) {offset : Nat} {packet : Packet}
    (found : system.written[system.buffer.position i + offset]? = some packet)
    : (system.unread i)[offset]? = some ⟨system.buffer.position i + offset, packet⟩ := by
  have bound := (List.getElem?_eq_some_iff.mp found).1
  have inside : offset < unreadCount system.buffer i := by
    rw [holds.unreadCount_eq writer positive]
    omega
  rw [unread, List.getElem?_map, List.getElem?_range inside, Option.map_some, holds.readPtr,
    Nat.mod_add_mod, holds.cells _ _ (Nat.le_add_right ..) found]

theorem ReaderHolds.unread_number {system : System size numberReaders Packet}
    {i : Fin numberReaders} (holds : ReaderHolds system i) (writer : WriterHolds system)
    (positive : 0 < size)
    : (system.unread i).map Numbered.number
      = List.range' (system.buffer.position i)
          (system.written.length - system.buffer.position i) := by
  apply List.ext_getElem?
  intro offset
  by_cases inside : offset < system.written.length - system.buffer.position i
  · have present := List.getElem?_eq_getElem
      (show system.buffer.position i + offset < system.written.length by omega)
    rw [List.getElem?_map, holds.unread_getElem? writer positive present,
      List.getElem?_range' inside, Option.map_some, Nat.one_mul]
  · have length : ((system.unread i).map Numbered.number).length
        = system.written.length - system.buffer.position i := by
      rw [List.length_map, unread, List.length_map, List.length_range,
        holds.unreadCount_eq writer positive]
    rw [List.getElem?_eq_none (by omega), List.getElem?_eq_none (by simpa using inside)]

/-- The slot invariant accounts for every packet. Witness: behind its position a reader's
completed packets are distinct, and the others are as many as its overwrite counter.
-/
theorem ReaderHolds.noSilentLoss {system : System size numberReaders Packet}
    {i : Fin numberReaders} (holds : ReaderHolds system i) (writer : WriterHolds system)
    (positive : 0 < size)
    : NoSilentLoss system i where
  cell := by
    rw [holds.readPtr]
    exact Nat.mod_lt _ positive
  unchanged := fun _ _ held => (holds.held_unchanged held).2
  saw_returned := holds.seen
  retires := by
    intro slot returned held
    obtain ⟨here, number, present⟩ := holds.held slot returned held
    refine ⟨here, ?_⟩
    rw [number] at present
    rw [List.head?_eq_getElem?, holds.unread_getElem? writer positive present]
    exact congrArg some (Numbered.ext number.symm rfl)
  accounted := by
    let finished := (system.completed i).map Numbered.number
    have below : ∀ entry ∈ finished, entry < system.buffer.position i := by
      intro entry member
      obtain ⟨packet, among, rfl⟩ := List.mem_map.mp member
      exact holds.completed_lt packet among
    have behind
        : (finished
            ++ (List.range (system.buffer.position i)).filter (· ∉ finished)).Perm
            (List.range (system.buffer.position i)) :=
      DropOldest.perm_range_of_lt holds.completed_nodup below
    refine ⟨(List.range (system.buffer.position i)).filter (· ∉ finished), ?_, ?_⟩
    · have count := behind.length_eq
      rw [List.length_append, List.length_map, holds.completed_length, List.length_range]
        at count
      rw [position] at *
      omega
    · have whole : List.range system.written.length
          = List.range (system.buffer.position i)
            ++ List.range' (system.buffer.position i)
                (system.written.length - system.buffer.position i) := by
        simpa only [List.range_eq_range', Nat.sub_zero]
          using DropOldest.range'_split (Nat.zero_le _) holds.le_written
      rw [holds.unread_number writer positive, whole]
      exact (List.perm_append_comm.append_left _).trans
        (List.append_assoc .. ▸ behind.append_right _)
  contents := by
    intro packet member
    rcases List.mem_append.mp member with finished | left
    · obtain ⟨attempt, among, rfl⟩ := List.mem_map.mp finished
      exact holds.attempts_written attempt (List.mem_filter.mp among).1
    · obtain ⟨offset, at_offset⟩ := List.getElem?_of_mem left
      have inside : offset < unreadCount system.buffer i := by
        have bound := (List.getElem?_eq_some_iff.mp at_offset).1
        rwa [unread, List.length_map, List.length_range] at bound
      rw [holds.unreadCount_eq writer positive] at inside
      have present := List.getElem?_eq_getElem
        (show system.buffer.position i + offset < system.written.length by omega)
      rw [holds.unread_getElem? writer positive present] at at_offset
      obtain rfl := Option.some.inj at_offset
      exact present

/-- An unsafe overwrite shows at once: the reader's pointer leaves the cell it works on, or
the buffer.
-/
theorem ReaderHolds.not_noSilentLoss {system : System size numberReaders Packet}
    {i : Fin numberReaders} (holds : ReaderHolds system i)
    (action : Action numberReaders Packet) (unsafely : ¬ OverwritesSafely i system action)
    : ¬ NoSilentLoss (system.step action) i := by
  intro fine
  refine unsafely (fun begins idle full => ?_)
  subst begins
  have begun : system.step .getWritePtr
      = { system with
          buffer := system.buffer.getWritePtr.2
          writer := .granted system.buffer.writePtr } := by
    simp only [System.step, idle, getWritePtr_slot]
  have moved : (system.step .getWritePtr).buffer.readPtr i = system.buffer.readPtr i + 1 := by
    rw [begun, getWritePtr_readPtr, full, if_pos rfl]
  refine ⟨?_, moved ▸ fine.cell⟩
  cases phase : system.reader i with
  | idle => rfl
  | holding slot returned | processed slot returned _ =>
      have held : (system.reader i).held? = some (slot, returned) := by rw [phase]; rfl
      have here := (holds.held slot returned held).1
      have after := (fine.retires slot returned (by rw [begun]; exact held)).1
      omega

/-- In every interleaving, reader `i` works on the packets it got and every packet is
accounted for all along exactly when the writer begins packets only when that is safe for
reader `i`.
-/
theorem noSilentLoss_iff_overwritesSafely (positive : 0 < size) (packet : Packet)
    (i : Fin numberReaders) (actions : List (Action numberReaders Packet))
    : EachState step (fun system => NoSilentLoss system i)
        (start size numberReaders packet) actions
      ↔ EachStep step (OverwritesSafely i) (start size numberReaders packet) actions := by
  refine eachState_iff_eachStep (I := fun system => WriterHolds system ∧ ReaderHolds system i)
    ?_ ?_ ?_ ?_
  · exact ⟨writerHolds_start size numberReaders packet,
      readerHolds_start size numberReaders positive packet i⟩
  · exact fun _ holds => holds.2.noSilentLoss holds.1 positive
  · exact fun _ action holds safe =>
      ⟨holds.1.step positive action, holds.2.step holds.1 positive action safe⟩
  · exact fun _ action holds unsafely => holds.2.not_noSilentLoss action unsafely

/-- A reader that loses one packet of a buffer of three cells before it reads. -/
theorem noSilentLoss_three_cells
    : EachState step (fun system => NoSilentLoss system 0) (start 3 1 0)
        [.getWritePtr, .fill 10, .doneWriting, .getWritePtr, .fill 11, .doneWriting,
          .getWritePtr, .fill 12, .doneWriting, .getWritePtr, .fill 13, .getReadPtr 0,
          .doneWriting, .process 0 true, .doneReading 0] :=
  (noSilentLoss_iff_overwritesSafely (by decide) 0 0 _).mpr (by decide)

/-- An overwrite between `getReadPtr` and `doneReading`: the reader, given packet 0, sees
packet 2, and `doneReading` retires packet 1, which it then neither has nor will get.
-/
theorem not_noSilentLoss_overtaken
    : ¬ EachState step (fun system => NoSilentLoss system 0) (start 2 1 0)
          [.getWritePtr, .fill 10, .doneWriting, .getWritePtr, .fill 11, .doneWriting,
            .getReadPtr 0, .getWritePtr, .fill 12, .process 0 true, .doneReading 0,
            .doneWriting] := by
  intro everywhere
  obtain ⟨overwritten, -, accounted⟩ := everywhere.final.accounted
  have distinct := accounted.nodup_iff.mpr List.nodup_range
  have twice : 2 ∉ [2] ++ overwritten :=
    (List.nodup_cons.mp (show ([2] ++ ([2] ++ overwritten)).Nodup from distinct)).1
  exact twice (by simp)

end Smurf.DataBuffer.System
