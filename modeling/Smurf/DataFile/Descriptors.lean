import Smurf.DataFile.Basic

/-! The descriptors that are open.
Whatever packets and configurations come, and whatever `open` returns, only the file in use has a
descriptor open, and none is closed twice. The exception is descriptor 0, which counts as a
failure: it is never closed.
-/

namespace Smurf

open Runs SmurfDataFile

namespace Action

/-- The descriptors open after an action, the latest first. -/
def descriptors (held : List Int32) : Action → List Int32
  | .openFile _ result => if 0 ≤ result then result :: held else held
  | .close fd => held.erase fd.toInt32
  | .unlink _ | .writeToFile _ _ => held

/-- The action is on a descriptor that is open, or on what a failed `open` returned. -/
def IsOn (held : List Int32) : Action → Prop
  | .writeToFile fd _ | .close fd => fd.toInt32 ∈ held ∨ fd.toInt32 < 0
  | .unlink _ | .openFile _ _ => True

/-- So are all the actions, one after another. -/
def AllOn (held : List Int32) : List Action → Prop
  | [] => True
  | action :: later => action.IsOn held ∧ AllOn (action.descriptors held) later

/-- The action opens a file and gets descriptor 0. -/
def leaks : Action → Bool
  | .openFile _ result => result = 0
  | _ => false

theorem allOn_append {held : List Int32} {first later : List Action}
    : AllOn held (first ++ later)
      ↔ AllOn held first ∧ AllOn (first.foldl descriptors held) later := by
  induction first generalizing held with
  | nil => exact ⟨fun all => ⟨trivial, all⟩, fun both => both.2⟩
  | cons action first ih =>
      rw [List.cons_append, AllOn, AllOn, ih, and_assoc]
      rfl

end Action

open Smurf.Action (descriptors AllOn)

namespace SmurfDataFile

/-- The descriptor of the file in use, beside a number of zeros. -/
def holding (self : SmurfDataFile) (zeros : Nat) : List Int32 :=
  if 0 < self.fd.toInt32 then self.fd.toInt32 :: List.replicate zeros 0
  else List.replicate zeros 0

theorem holding_of_fd_zero {self : SmurfDataFile} (closed : self.fd = 0) (zeros : Nat)
    : self.holding zeros = List.replicate zeros 0 := by
  rw [holding, closed]
  rfl

/-- Whether something is written to the file or it is closed, its descriptor is in use. -/
theorem isOn_holding {self : SmurfDataFile} (used : self.fd ≠ 0) (zeros : Nat)
    : self.fd.toInt32 ∈ self.holding zeros ∨ self.fd.toInt32 < 0 := by
  by_cases positive : 0 < self.fd.toInt32
  · refine .inl ?_
    rw [holding, if_pos positive]
    exact List.mem_cons_self
  · have nonzero : self.fd.toInt32 ≠ 0 := by
      intro zero
      exact used (by rw [← UInt32.toUInt32_toInt32 self.fd, zero]; rfl)
    exact .inr (Int32.lt_of_le_of_ne (Int32.not_lt.mp positive) nonzero)

/-- Closing the file leaves the zeros. -/
theorem descriptors_closeFile (self : SmurfDataFile) (zeros : Nat)
    : AllOn (self.holding zeros) self.closeFile.1
      ∧ self.closeFile.1.foldl descriptors (self.holding zeros) = List.replicate zeros 0 := by
  rw [closeFile]
  by_cases used : self.fd ≠ 0
  · rw [if_pos used]
    refine ⟨⟨isOn_holding used zeros, trivial⟩, ?_⟩
    rw [List.foldl_cons, List.foldl_nil, descriptors, holding]
    split
    case isTrue => exact List.erase_cons_head ..
    case isFalse notPositive =>
      refine List.erase_of_not_mem (fun member => used ?_)
      have zero := List.eq_of_mem_replicate member
      rw [← UInt32.toUInt32_toInt32 self.fd, zero]
      rfl
  · rw [if_neg used]
    exact ⟨trivial, holding_of_fd_zero (not_not.mp used) zeros⟩

/-- So does counting a packet that completes the file; else this stays in use. -/
theorem descriptors_countFrame (self : SmurfDataFile) (config : SmurfConfig) (zeros : Nat)
    : AllOn (self.holding zeros) (self.countFrame config).1
      ∧ (self.countFrame config).1.foldl descriptors (self.holding zeros)
        = (self.countFrame config).2.holding zeros := by
  rw [countFrame]
  split
  · exact descriptors_closeFile { self with frameCounter := self.frameCounter + 1 } zeros
  · exact ⟨trivial, rfl⟩

theorem countP_closeFile (self : SmurfDataFile) : self.closeFile.1.countP Action.leaks = 0 := by
  rw [closeFile]
  split <;> rfl

theorem countP_countFrame (self : SmurfDataFile) (config : SmurfConfig)
    : (self.countFrame config).1.countP Action.leaks = 0 := by
  rw [countFrame]
  split
  · exact countP_closeFile _
  · rfl

end SmurfDataFile

namespace Recorder

/-- The descriptors that are open. -/
def descriptors (recorder : Recorder) : List Int32 :=
  recorder.observe Action.descriptors []

/-- The number of files that got descriptor 0. -/
def leaked (recorder : Recorder) : Nat :=
  recorder.actions.countP Action.leaks

/-- The descriptor of the file in use is open, if it is one, and a zero for each file that got
descriptor 0.
-/
def HoldsOwn (recorder : Recorder) : Prop :=
  recorder.descriptors = recorder.file.holding recorder.leaked

/-- A call writes and closes what is open. -/
def ActsOnOwn (recorder : Recorder) (call : WriteCall) : Prop :=
  AllOn recorder.descriptors (recorder.asks call)

variable {recorder : Recorder} {call : WriteCall}

theorem leaked_step (recorder : Recorder) (call : WriteCall)
    : (recorder.step call).leaked
      = recorder.leaked + (recorder.asks call).countP Action.leaks :=
  List.countP_append

/-- What a call does with descriptors. -/
structure Keeps (recorder : Recorder) (call : WriteCall) : Prop where
  acts : AllOn (recorder.file.holding recorder.leaked) (recorder.asks call)
  holds
    : (recorder.asks call).foldl Action.descriptors (recorder.file.holding recorder.leaked)
      = (recorder.step call).file.holding
          (recorder.leaked + (recorder.asks call).countP Action.leaks)

/-- A call that comes to `open`: by cases on whether this returns 0. -/
theorem keeps_of_opens (enabled : call.Enabled)
    (opens : recorder.file.opens call.config = true)
    : recorder.Keeps call := by
  obtain ⟨closes, left⟩ := descriptors_closeFile recorder.file recorder.leaked
  by_cases zero : call.opened = 0
  · have wrote := writeFile_unopened call.packet enabled opens zero
    have asked : recorder.asks call = _ := congrArg (fun result => result.2.1) wrote
    have after : (recorder.step call).file = _ := congrArg (fun result => result.2.2) wrote
    have fd : (recorder.file.openNext call.config call.opened).fd = 0 :=
      toUInt32_eq_zero_iff.mpr zero
    constructor
    · rw [asked, Action.allOn_append]
      exact ⟨closes, trivial, trivial, trivial⟩
    · rw [asked, after, List.foldl_append, left, holding_of_fd_zero fd, List.countP_append,
        countP_closeFile, Nat.zero_add, zero]
      rfl
  · have wrote := writeFile_opens call.packet enabled opens zero
    have asked : recorder.asks call = _ := congrArg (fun result => result.2.1) wrote
    have after : (recorder.step call).file = _ := congrArg (fun result => result.2.2) wrote
    have fd : (recorder.file.openNext call.config call.opened).fd ≠ 0 :=
      mt toUInt32_eq_zero_iff.mp zero
    have opened
        : Action.descriptors (List.replicate recorder.leaked 0)
            (.openFile (recorder.file.openNext call.config call.opened).filename call.opened)
          = (recorder.file.openNext call.config call.opened).holding recorder.leaked := by
      have same
          : (recorder.file.openNext call.config call.opened).fd.toInt32 = call.opened :=
        Int32.toInt32_toUInt32 call.opened
      rw [Action.descriptors, holding, same]
      by_cases least : 0 ≤ call.opened
      · rw [if_pos least, if_pos (Int32.lt_of_le_of_ne least (Ne.symm zero))]
      · rw [if_neg least, if_neg (fun positive => least (Int32.le_of_lt positive))]
    obtain ⟨counts, counted⟩ :=
      descriptors_countFrame (recorder.file.openNext call.config call.opened) call.config
        recorder.leaked
    have writes := isOn_holding fd recorder.leaked
    constructor
    · rw [asked, Action.allOn_append, Action.allOn_append, List.foldl_append, left]
      refine ⟨⟨closes, trivial, trivial, trivial⟩, ?_⟩
      simp only [List.foldl_cons, List.foldl_nil, Action.descriptors] at opened ⊢
      rw [opened]
      exact ⟨writes, counts⟩
    · have none
          : ((recorder.asks call).countP Action.leaks) = 0 := by
        rw [asked]
        simp [List.countP_append, countP_closeFile, countP_countFrame,
          Action.leaks, zero]
      rw [none, after, asked, List.foldl_append, List.foldl_append, left]
      simp only [List.foldl_cons, List.foldl_nil, Action.descriptors] at opened ⊢
      rw [opened]
      exact counted

/-- Every call keeps the descriptors, by cases on what it comes to. -/
theorem keeps (recorder : Recorder) (call : WriteCall) : recorder.Keeps call := by
  by_cases enabled : call.Enabled
  · by_cases opens : recorder.file.opens call.config = true
    · exact keeps_of_opens enabled opens
    · have stays := Bool.eq_false_iff.mpr opens
      have wrote := writeFile_appends call.packet call.opened enabled stays
      have asked : recorder.asks call = _ := congrArg (fun result => result.2.1) wrote
      have after : (recorder.step call).file = _ := congrArg (fun result => result.2.2) wrote
      have fd : recorder.file.fd ≠ 0 := by
        intro zero
        simp [SmurfDataFile.opens, zero] at stays
      obtain ⟨counts, counted⟩ :=
        descriptors_countFrame recorder.file call.config recorder.leaked
      constructor
      · rw [asked]
        exact ⟨isOn_holding fd _, counts⟩
      · rw [asked, after, List.countP_cons, countP_countFrame]
        exact counted
  · have wrote := writeFile_disabled recorder.file call.config call.opened
      (Bool.eq_true_of_not_eq_false enabled)
    have asked : recorder.asks call = _ := congrArg (fun result => result.2.1) wrote
    have after : (recorder.step call).file = _ := congrArg (fun result => result.2.2) wrote
    obtain ⟨closes, left⟩ := descriptors_closeFile recorder.file recorder.leaked
    constructor
    · rw [asked]
      exact closes
    · rw [asked, after, left, countP_closeFile]
      exact (holding_of_fd_zero rfl _).symm

theorem HoldsOwn.actsOnOwn (holds : recorder.HoldsOwn) (call : WriteCall)
    : recorder.ActsOnOwn call := by
  rw [ActsOnOwn, holds]
  exact (recorder.keeps call).acts

theorem HoldsOwn.step (holds : recorder.HoldsOwn) (call : WriteCall)
    : (recorder.step call).HoldsOwn := by
  have own : recorder.observe Action.descriptors [] = _ := holds
  rw [HoldsOwn, descriptors, observe_step, leaked_step, own]
  exact (recorder.keeps call).holds

/-- In every run of `write_file` calls, with any packets and configurations and whatever `open`
returns: packets go to a descriptor that is open then, or was returned by a failed `open`; so
does each `close`; and between calls the open descriptors are that of the file in use and a 0
for each time that `open` returned it.
-/
theorem holdsOwn_run (calls : List WriteCall)
    : EachStep step ActsOnOwn (start create) calls
      ∧ EachState step HoldsOwn (start create) calls := by
  have keep (recorder : Recorder) (call : WriteCall) (holds : recorder.HoldsOwn)
      : (recorder.step call).HoldsOwn :=
    holds.step call
  have first : (start create).HoldsOwn := rfl
  refine ⟨?_, EachState.of_invariant first keep calls⟩
  refine (EachStep.congr_of_invariant (G := fun _ _ => True) keep ?_ first calls).mp
    (.of_forall (fun _ _ _ => trivial) _)
  exact fun recorder call holds => ⟨fun _ => holds.actsOnOwn call, fun _ => trivial⟩

end Recorder

end Smurf
