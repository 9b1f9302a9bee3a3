import Smurf.DataFile.Basic

/-! Opens that fail.
`open` returns -1 where it fails. It is kept as unsigned, and only 0 counts as a failure.
-/

namespace Smurf

open Runs SmurfDataFile

/-- The descriptor that is really open. -/
def Action.live (live : Option Int32) : Action → Option Int32
  | .openFile _ result => if 0 ≤ result then some result else live
  | .close fd => if live = some fd.toInt32 then none else live
  | .unlink _ | .writeToFile _ _ => live

/-- Every packet is written to the descriptor that is really open then. -/
def Action.WritesLive (live : Option Int32) : List Action → Prop
  | [] => True
  | .writeToFile fd packet :: later =>
      live = some fd.toInt32 ∧ WritesLive (Action.live live (.writeToFile fd packet)) later
  | action :: later => WritesLive (action.live live) later

def Action.isWrite : Action → Bool
  | .writeToFile _ _ => true
  | _ => false

namespace Recorder

def live (recorder : Recorder) : Option Int32 :=
  recorder.observe Action.live none

/-- What `write_file` returns. -/
def returns (recorder : Recorder) (call : WriteCall) : UInt32 :=
  (recorder.file.writeFile call.packet call.config call.opened).1

/-- `open` fails, which it shows by a negative result, in a call that comes to it. -/
def FailsToOpen (recorder : Recorder) (call : WriteCall) : Prop :=
  call.Enabled ∧ recorder.file.opens call.config = true ∧ call.opened < 0

/-- Without an open file, a failed `open` ends the call: nothing is written or counted, and no
file is marked open.
-/
def KeepsState (recorder : Recorder) (call : WriteCall) : Prop :=
  recorder.file.fd = 0
  → recorder.FailsToOpen call
  → recorder.returns call = 0
    ∧ (∀ action ∈ recorder.asks call, action.isWrite = false)
    ∧ (recorder.step call).file.fd = 0
    ∧ (recorder.step call).file.frameCounter = recorder.file.frameCounter
    ∧ (recorder.step call).file.part = recorder.file.part

/-- A failed `open` loses no state, and every packet that is counted was written to a file
that was really opened.
-/
def LosesNothing (recorder : Recorder) (call : WriteCall) : Prop :=
  recorder.KeepsState call ∧ Action.WritesLive recorder.live (recorder.asks call)

instance decidableWritesLive
    : (live : Option Int32) → (actions : List Action)
      → Decidable (Action.WritesLive live actions)
  | _, [] => inferInstanceAs (Decidable True)
  | live, .writeToFile fd packet :: later =>
      have := decidableWritesLive (Action.live live (.writeToFile fd packet)) later
      inferInstanceAs (Decidable (_ ∧ _))
  | live, .unlink filename :: later =>
      decidableWritesLive (Action.live live (.unlink filename)) later
  | live, .openFile filename result :: later =>
      decidableWritesLive (Action.live live (.openFile filename result)) later
  | live, .close fd :: later => decidableWritesLive (Action.live live (.close fd)) later

instance (recorder : Recorder) (call : WriteCall) : Decidable (recorder.FailsToOpen call) :=
  inferInstanceAs (Decidable (_ ∧ _ ∧ _))

instance (recorder : Recorder) (call : WriteCall) : Decidable (recorder.LosesNothing call) :=
  inferInstanceAs (Decidable ((_ → _ → _ ∧ (∀ action ∈ _, _) ∧ _ ∧ _ ∧ _) ∧ _))

/-- What holds between calls while no `open` failed: an open file was really opened. -/
def ReallyOpen (recorder : Recorder) : Prop :=
  recorder.file.fd ≠ 0 → recorder.live = some recorder.file.fd.toInt32

/-- Closing writes nothing. -/
theorem writesLive_closeFile (file : SmurfDataFile) (live : Option Int32)
    (later : List Action)
    : Action.WritesLive live (file.closeFile.1 ++ later)
      ↔ Action.WritesLive (file.closeFile.1.foldl Action.live live) later := by
  rw [closeFile]
  split <;> exact Iff.rfl

/-- Neither does counting; where it leaves the file open, it asks for nothing. -/
theorem writesLive_countFrame (file : SmurfDataFile) (config : SmurfConfig)
    (live : Option Int32)
    : Action.WritesLive live (file.countFrame config).1
      ∧ ((file.countFrame config).2.fd ≠ 0
        → (file.countFrame config).2.fd = file.fd ∧ (file.countFrame config).1 = []) := by
  rw [countFrame]
  split
  · refine ⟨?_, fun nonzero => absurd rfl nonzero⟩
    rw [← List.append_nil (closeFile _).1, writesLive_closeFile]
    trivial
  · exact ⟨trivial, fun _ => ⟨rfl, rfl⟩⟩

variable {recorder : Recorder} {call : WriteCall}

/-- What a call asks for that opens a file and gets a descriptor. -/
theorem asks_opens (enabled : call.Enabled) (opens : recorder.file.opens call.config = true)
    (nonzero : call.opened ≠ 0)
    : recorder.asks call
      = recorder.file.closeFile.1
        ++ .unlink (nextName call.config recorder.file.part)
          :: .openFile (nextName call.config recorder.file.part) call.opened
          :: .writeToFile call.opened.toUInt32 call.packet
          :: ((recorder.file.openNext call.config call.opened).countFrame call.config).1 := by
  rw [asks, writeFile_opens call.packet enabled opens nonzero, List.append_assoc]
  rfl

/-- A failed `open` loses something: the packet is written to no open file, by cases on whether
one was open before.
-/
theorem ReallyOpen.loses (open_ : ReallyOpen recorder) (failed : recorder.FailsToOpen call)
    : ¬ recorder.LosesNothing call := by
  rintro ⟨keeps, writes⟩
  obtain ⟨enabled, opens, fails⟩ := failed
  have nonzero : call.opened ≠ 0 := fun zero => absurd fails (by rw [zero]; decide)
  have asked := asks_opens enabled opens nonzero
  by_cases fd : recorder.file.fd = 0
  · have silent :=
      (keeps fd ⟨enabled, opens, fails⟩).2.1 (.writeToFile call.opened.toUInt32 call.packet)
        (by rw [asked]; simp)
    cases silent
  · have closes : recorder.file.closeFile.1.foldl Action.live recorder.live = none := by
      rw [closeFile, if_pos fd, List.foldl_cons, List.foldl_nil, Action.live,
        if_pos (open_ fd)]
    rw [asked, writesLive_closeFile, closes] at writes
    simp only [Action.WritesLive, Action.live, if_neg (Int32.not_le.mpr fails)] at writes
    cases writes.1

/-- Where no `open` fails, a packet is written to the open file, which stays really open unless
it is closed. By cases on what the call comes to.
-/
theorem ReallyOpen.writes (open_ : ReallyOpen recorder) (succeeds : ¬ recorder.FailsToOpen call)
    : Action.WritesLive recorder.live (recorder.asks call) ∧ ReallyOpen (recorder.step call) := by
  by_cases enabled : call.Enabled
  · by_cases opens : recorder.file.opens call.config = true
    · by_cases zero : call.opened = 0
      · have wrote := writeFile_unopened call.packet enabled opens zero
        constructor
        · rw [asks, wrote, writesLive_closeFile]
          trivial
        · intro nonzero
          rw [step, wrote] at nonzero
          exact absurd (toUInt32_eq_zero_iff.mpr zero) nonzero
      · have wrote := writeFile_opens call.packet enabled opens zero
        have asked := asks_opens enabled opens zero
        have opened : 0 ≤ call.opened :=
          Int32.not_lt.mp (fun fails => succeeds ⟨enabled, opens, fails⟩)
        obtain ⟨counting, after⟩ :=
          writesLive_countFrame (recorder.file.openNext call.config call.opened) call.config
            (some call.opened)
        constructor
        · rw [asked, writesLive_closeFile]
          simp only [Action.WritesLive, Action.live, if_pos opened, Int32.toInt32_toUInt32,
            true_and]
          exact counting
        · intro nonzero
          rw [step, wrote] at nonzero ⊢
          obtain ⟨same, nothing⟩ := after nonzero
          rw [same]
          show (recorder.step call).live = _
          rw [live, observe_step, asked, nothing]
          simp only [List.foldl_append, List.foldl_cons, List.foldl_nil, Action.live,
            if_pos opened]
          rfl
    · have stays := Bool.eq_false_iff.mpr opens
      have wrote := writeFile_appends call.packet call.opened enabled stays
      have fd : recorder.file.fd ≠ 0 := by
        intro zero
        simp [SmurfDataFile.opens, zero] at stays
      obtain ⟨counting, after⟩ :=
        writesLive_countFrame recorder.file call.config recorder.live
      constructor
      · rw [asks, wrote]
        exact ⟨open_ fd, counting⟩
      · intro nonzero
        rw [step, wrote] at nonzero ⊢
        obtain ⟨same, nothing⟩ := after nonzero
        rw [same]
        show (recorder.step call).live = _
        rw [live, observe_step, asks, wrote, nothing]
        exact open_ fd
  · have wrote := writeFile_disabled recorder.file call.config call.opened
      (Bool.eq_true_of_not_eq_false enabled)
    constructor
    · rw [asks, wrote, ← List.append_nil (closeFile _).1, writesLive_closeFile]
      trivial
    · intro nonzero
      rw [step, wrote] at nonzero
      exact absurd rfl nonzero

/-- A call loses nothing exactly when no `open` fails in it. -/
theorem ReallyOpen.losesNothing_iff (open_ : ReallyOpen recorder)
    : recorder.LosesNothing call ↔ ¬ recorder.FailsToOpen call :=
  ⟨fun keeps failed => open_.loses failed keeps,
    fun succeeds => ⟨fun _ failed => absurd failed succeeds, (open_.writes succeeds).1⟩⟩

/-- From a new data file, whatever the packets and configurations: no call loses anything
exactly when no `open` fails. Witness: `ReallyOpen` is the invariant.
-/
theorem losesNothing_iff_not_failsToOpen (calls : List WriteCall)
    : EachStep step LosesNothing (start create) calls
      ↔ EachStep step (fun recorder call => ¬ recorder.FailsToOpen call) (start create) calls :=
  EachStep.congr_of_kept (I := ReallyOpen)
    (fun _ _ _ open_ keeps => (open_.writes (open_.losesNothing_iff.mp keeps)).2)
    (fun _ _ _ open_ => open_.losesNothing_iff) (fun nonzero => absurd rfl nonzero)

/-- The first `open` fails: the packet is counted, and descriptor -1 kept as an open file. -/
theorem not_losesNothing_first_open
    : ¬ EachStep step LosesNothing (start create)
        [⟨blankPacket, { SmurfConfig.defaults with dataFrames := 2 }, -1⟩] := by
  decide +kernel

end Recorder

end Smurf
