import Smurf.DataFile.Basic

/-! The frame counter counts the packets of the open file.
A file that is closed because another name is configured leaves its count to the next one.
-/

namespace Smurf

open Runs SmurfDataFile

/-- The number of packets written to the open file since it was opened. -/
def Action.held (held : Nat) : Action → Nat
  | .unlink _ => held
  | .openFile _ _ => 0
  | .writeToFile _ _ => held + 1
  | .close _ => 0

/-- What the file held that was closed right behind a packet, if one was. -/
def Action.heldAtRotation? (held : Nat) : List Action → Option Nat
  | .writeToFile _ _ :: .close _ :: _ => some (held + 1)
  | action :: later => heldAtRotation? (action.held held) later
  | [] => none

namespace Recorder

def held (recorder : Recorder) : Nat :=
  recorder.observe Action.held 0

/-- The counter is the number of packets in the open file, and 0 if none is open. -/
def CountsOpenFile (recorder : Recorder) : Prop :=
  recorder.file.frameCounter.toNat = recorder.held
  ∧ (recorder.file.fd = 0 → recorder.file.frameCounter = 0)

/-- A call leaves the counter as it should be, and only closes a file behind its packet when
this holds at least `data_frames` packets.
-/
def CountsFrames (recorder : Recorder) (call : WriteCall) : Prop :=
  (recorder.step call).CountsOpenFile
  ∧ ∀ count ∈ Action.heldAtRotation? recorder.held (recorder.asks call),
      call.config.perFile ≤ count

/-- A file is only closed for another name when one packet is to a file. -/
def RenamesWhole (recorder : Recorder) (call : WriteCall) : Prop :=
  call.Enabled
  → recorder.file.fd ≠ 0
  → recorder.file.nameChanged call.config = true
  → call.config.dataFrames = 1

instance (recorder : Recorder) : Decidable recorder.CountsOpenFile :=
  inferInstanceAs (Decidable (_ ∧ _))

instance (recorder : Recorder) (call : WriteCall) : Decidable (recorder.CountsFrames call) :=
  inferInstanceAs (Decidable (_ ∧ ∀ count ∈ _, _))

instance (recorder : Recorder) (call : WriteCall) : Decidable (recorder.RenamesWhole call) :=
  inferInstanceAs (Decidable (_ → _ → _ → _))

/-- What holds between calls while the counter is right: an open file holds a packet. -/
structure Counted (recorder : Recorder) : Prop where
  counter : recorder.file.frameCounter.toNat = recorder.held
  closed : recorder.file.fd = 0 → recorder.held = 0
  isOpen : recorder.file.fd ≠ 0 → 0 < recorder.held
  small : recorder.held < 2 ^ 31

theorem counted_start : Counted (start create) where
  counter := rfl
  closed _ := rfl
  isOpen nonzero := absurd rfl nonzero
  small := by decide

variable {recorder : Recorder} {call : WriteCall}

theorem Counted.disabled (counted : Counted recorder) (disabled : ¬ call.Enabled)
    : Counted (recorder.step call)
      ∧ Action.heldAtRotation? recorder.held (recorder.asks call) = none := by
  have wrote := writeFile_disabled recorder.file call.config call.opened
    (Bool.eq_true_of_not_eq_false disabled)
  have none : (recorder.step call).held = 0 := by
    rw [held, observe_step, asks, wrote, closeFile]
    by_cases fd : recorder.file.fd = 0
    · rw [if_neg (not_not.mpr fd)]
      exact counted.closed fd
    · rw [if_pos fd]
      rfl
  refine ⟨⟨?_, fun _ => none, fun nonzero => absurd ?_ nonzero, ?_⟩, ?_⟩
  · rw [none, Recorder.step, wrote]
    rfl
  · rw [Recorder.step, wrote]
  · rw [none]
    decide
  · rw [asks, wrote, closeFile]
    split <;> rfl

/-- A call closes a file for another name. -/
def Renames (recorder : Recorder) (call : WriteCall) : Prop :=
  recorder.file.fd ≠ 0 ∧ recorder.file.nameChanged call.config = true

/-- An enabled packet is written to `file`, which holds `held` packets before, and is counted
behind the packets counted before.
-/
structure WritesTo (recorder : Recorder) (call : WriteCall) (file : SmurfDataFile) (held : Nat)
    : Prop where
  isOpen : file.fd ≠ 0
  counter : file.frameCounter = recorder.file.frameCounter
  left : (recorder.step call).file = (file.countFrame call.config).2
  holds
    : (recorder.step call).held = (file.countFrame call.config).1.foldl Action.held (held + 1)
  rotation
    : Action.heldAtRotation? recorder.held (recorder.asks call)
      = Action.heldAtRotation? held
          (.writeToFile file.fd call.packet :: (file.countFrame call.config).1)
  source : recorder.Renames call ∧ held = 0 ∨ ¬ recorder.Renames call ∧ held = recorder.held

/-- A file opened for another name starts from nothing. -/
theorem Counted.writesTo (counted : Counted recorder) (enabled : call.Enabled)
    (opened : 0 < call.opened)
    : ∃ file held, recorder.WritesTo call file held := by
  by_cases opens : recorder.file.opens call.config = true
  · have nonzero : call.opened ≠ 0 := fun zero => by simp [zero] at opened
    have wrote := writeFile_opens call.packet enabled opens nonzero
    refine ⟨recorder.file.openNext call.config call.opened, 0, ?_⟩
    constructor
    · exact mt toUInt32_eq_zero_iff.mp nonzero
    · rfl
    · rw [Recorder.step, wrote]
    · rw [held, observe_step, asks, wrote, List.append_assoc, List.foldl_append]
      rfl
    · rw [asks, wrote, closeFile]
      split <;> rfl
    · by_cases fd : recorder.file.fd = 0
      · exact Or.inr ⟨fun both => both.1 fd, (counted.closed fd).symm⟩
      · refine Or.inl ⟨⟨fd, ?_⟩, rfl⟩
        simpa [SmurfDataFile.opens, fd] using opens
  · have stays := Bool.eq_false_iff.mpr opens
    have wrote := writeFile_appends call.packet call.opened enabled stays
    obtain ⟨fd, same⟩ : recorder.file.fd ≠ 0 ∧ recorder.file.nameChanged call.config = false := by
      simpa [SmurfDataFile.opens] using stays
    refine ⟨recorder.file, recorder.held, ?_⟩
    constructor
    · exact fd
    · rfl
    · rw [Recorder.step, wrote]
    · rw [held, observe_step, asks, wrote]
      rfl
    · rw [asks, wrote]
    · exact Or.inr ⟨by simp [Renames, same], rfl⟩

theorem perFile_eq_one_iff {config : SmurfConfig}
    : config.perFile = 1 ↔ config.dataFrames = 1 := by
  rw [SmurfConfig.perFile, ← Int32.toInt_inj, show (1 : Int32).toInt = 1 from rfl]
  omega

theorem renamesWhole_iff (enabled : call.Enabled)
    : recorder.RenamesWhole call ↔ (recorder.Renames call → call.config.perFile = 1) := by
  rw [perFile_eq_one_iff, Renames, and_imp]
  exact ⟨fun whole => whole enabled, fun whole _ => whole⟩

section WritesTo

variable {file : SmurfDataFile} {held : Nat}

/-- The packet completes its file: nothing is counted on, but a file opened for another name is
closed with this one packet.
-/
theorem WritesTo.completes (writes : recorder.WritesTo call file held)
    (positive : 0 < call.config.dataFrames.toInt)
    (complete : call.config.perFile ≤ recorder.held + 1)
    (counts
      : file.countFrame call.config
        = (file.closeFile.1,
            { file with fd := 0, frameCounter := 0, part := (file.part + 1) % 99999 }))
    : (recorder.CountsFrames call ↔ (recorder.Renames call → call.config.perFile = 1))
      ∧ Counted (recorder.step call) := by
  have nonempty := perFile_pos positive
  have closes : file.closeFile.1 = [.close file.fd] := if_pos writes.isOpen
  have left := writes.left
  have holds := writes.holds
  have rotation := writes.rotation
  rw [counts] at left
  rw [counts, closes] at holds rotation
  have none : (recorder.step call).held = 0 := holds
  have restarted : Counted (recorder.step call) :=
    ⟨by rw [left, none]; rfl, fun _ => none, fun nonzero => absurd (by rw [left]) nonzero,
      by rw [none]; decide⟩
  have open_ : (recorder.step call).CountsOpenFile :=
    ⟨restarted.counter, fun _ => by rw [left]⟩
  refine ⟨?_, restarted⟩
  rw [CountsFrames, rotation]
  simp only [open_, true_and, Action.heldAtRotation?, Option.mem_some_iff, forall_eq']
  rcases writes.source with ⟨renames, empty⟩ | ⟨kept, same⟩
  · rw [empty]
    exact ⟨fun full _ => by omega, fun whole => by have := whole renames; omega⟩
  · rw [same]
    exact ⟨fun _ renames => absurd renames kept, fun _ => complete⟩

/-- More packets are to come: the file's packet is counted on those of another file where it was
opened for another name.
-/
theorem WritesTo.goesOn (writes : recorder.WritesTo call file held) (counted : Counted recorder)
    (more : recorder.held + 1 < call.config.perFile)
    (next : (file.frameCounter + 1).toNat = recorder.held + 1)
    (counts
      : file.countFrame call.config = ([], { file with frameCounter := file.frameCounter + 1 }))
    : (recorder.CountsFrames call ↔ (recorder.Renames call → call.config.perFile = 1))
      ∧ (recorder.CountsFrames call → Counted (recorder.step call)) := by
  have left := writes.left
  have holds := writes.holds
  have rotation := writes.rotation
  rw [counts] at left holds rotation
  have count : (recorder.step call).file.frameCounter.toNat = recorder.held + 1 := by
    rw [left]
    exact next
  have stillOpen : (recorder.step call).file.fd ≠ 0 := by
    rw [left]
    exact writes.isOpen
  have keeps : recorder.CountsFrames call ↔ recorder.held = held := by
    have none : Action.heldAtRotation? held [.writeToFile file.fd call.packet] = none := rfl
    rw [CountsFrames, CountsOpenFile, count, holds, rotation, none]
    simp only [List.foldl_nil, Nat.add_right_cancel_iff, stillOpen, false_implies, and_true,
      Option.not_mem_none, implies_true]
  rw [keeps]
  rcases writes.source with ⟨renames, empty⟩ | ⟨kept, same⟩
  · have some := counted.isOpen renames.1
    exact ⟨⟨fun same => by omega, fun whole => by have := whole renames; omega⟩,
      fun same => by omega⟩
  · have small := perFile_lt call.config
    refine ⟨⟨fun _ renames => absurd renames kept, fun _ => same.symm⟩, fun _ => ?_⟩
    have grown : (recorder.step call).held = recorder.held + 1 := by
      rw [holds, same]
      rfl
    constructor
    · rw [count, grown]
    · exact fun none => absurd none stillOpen
    · intro _
      rw [grown]
      exact Nat.succ_pos _
    · rw [grown]
      omega

end WritesTo

/-- A call that keeps the count is one that renames no file, or only files of one packet; it
leaves the count as it should be. By cases on whether the packet completes its file.
-/
theorem Counted.countsFrames_iff (counted : Counted recorder)
    (positive : 0 < call.config.dataFrames.toInt) (opened : 0 < call.opened)
    : (recorder.CountsFrames call ↔ recorder.RenamesWhole call)
      ∧ (recorder.CountsFrames call → Counted (recorder.step call)) := by
  by_cases enabled : call.Enabled
  · obtain ⟨file, held, writes⟩ := counted.writesTo enabled opened
    have before : file.frameCounter.toNat = recorder.held := by
      rw [writes.counter, counted.counter]
    rw [renamesWhole_iff enabled]
    rcases countFrame_cases positive before counted.small with
      ⟨complete, counts⟩ | ⟨more, next, counts⟩
    · obtain ⟨iff, restarted⟩ := writes.completes positive complete counts
      exact ⟨iff, fun _ => restarted⟩
    · exact writes.goesOn counted more next counts
  · obtain ⟨after, none⟩ := counted.disabled enabled
    have wrote := writeFile_disabled recorder.file call.config call.opened
      (Bool.eq_true_of_not_eq_false enabled)
    have zero : (recorder.step call).file.frameCounter = 0 := by
      rw [Recorder.step, wrote]
    refine
      ⟨⟨fun _ allowed => absurd allowed enabled,
          fun _ => ⟨⟨after.counter, fun _ => zero⟩, ?_⟩⟩,
        fun _ => after⟩
    rw [none]
    exact fun _ absent => absurd absent (by simp)

/-- From a new data file, whatever the packets and the configuration, with at least one packet
to a file and every `open` succeeding with a descriptor other than 0: the counter is right
after every call, and every file rotated holds its packets, exactly when no call closes a
file for another name unless its own packet is a file. Witness: `Counted` is the invariant.
-/
theorem countsFrames_iff_renamesWhole (calls : List WriteCall)
    (opens
      : ∀ call ∈ calls, 0 < call.config.dataFrames.toInt ∧ 0 < call.opened)
    : EachStep step CountsFrames (start create) calls
      ↔ EachStep step RenamesWhole (start create) calls :=
  EachStep.congr_of_kept
    (fun call member _ counted =>
      (counted.countsFrames_iff (opens call member).1 (opens call member).2).2)
    (fun call member _ counted =>
      (counted.countsFrames_iff (opens call member).1 (opens call member).2).1)
    counted_start

/-- Calls of one name, with a file of two packets. -/
def namedCalls (names : List String) (dataFrames : Int32) : List WriteCall :=
  names.map fun name =>
    ⟨blankPacket,
      { SmurfConfig.defaults with
        dataFileName := name
        fileNameExtend := 0
        dataFrames },
      5⟩

/-- Two packets to one file, and one to another behind it. -/
theorem countsFrames_two_files
    : EachStep step CountsFrames (start create) (namedCalls ["data", "data", "other"] 2) := by
  refine (countsFrames_iff_renamesWhole _ ?_).mpr (by decide +kernel)
  intro call member
  obtain ⟨name, -, rfl⟩ := List.mem_map.mp member
  exact ⟨show (0 : Int) < 2 by decide, show (0 : Int32) < 5 by decide⟩

/-- The name changes before the first file is complete: the second one is closed behind its
first packet, though a file is for three.
-/
theorem not_countsFrames_name_changed
    : ¬ EachStep step CountsFrames (start create)
        (namedCalls ["data", "data", "other"] 3) := by
  decide +kernel

end Recorder

end Smurf
