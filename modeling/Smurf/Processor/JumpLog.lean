import Smurf.Library.Runs
import Smurf.Processor.ValidCheck

/-! Which jumps get into the jump log.
A jump is logged when its frame number is past that of the last one logged. Every `fopen`
of the log succeeds.
-/

namespace Smurf

open ByteMemory (Bytes)
open Runs

/-- A text appended to the log: the names of the columns, or the numbers of a jump. -/
inductive JumpLogText
  | columns
  | jump
      (syncbox syncboxDelta smurfFrameDelta timingsystemDelta unixDelta smurf2mceDelta : UInt64)
  deriving DecidableEq

/-- The names of the columns come without a newline. -/
def JumpLogText.lines : JumpLogText → Nat
  | .columns => 0
  | .jump .. => 1

namespace SmurfValidCheck

/-- The numbers of a jump, the times in microseconds. -/
def jumpText (self : SmurfValidCheck) : JumpLogText :=
  .jump self.syncbox.current self.syncbox.delta self.smurfFrame.delta
    (self.timingsystem.delta / 1000) (self.unixTime.delta / 1000) (self.smurf2mce.delta / 1000)

/-- What a call of `run` appends. The first one that is not too early begins with the names of
the columns.
-/
def writes (self : SmurfValidCheck) (header : Bytes) (unixTime : UInt64) : List JumpLogText :=
  if self.started header then
    let result := self.run header unixTime
    (if self.ready then [] else [.columns]) ++ (if result.1 then [result.2.jumpText] else [])
  else []

/-- Whether one of the four updates that count reports a jump. -/
def jumps (self : SmurfValidCheck) (header : Bytes) (unixTime : UInt64) : Bool :=
  (self.updateAll header unixTime).1

section Call

variable {self : SmurfValidCheck} {header : Bytes} (unixTime : UInt64)

/-- What is noted of the start makes no difference to the updates. -/
theorem updateAll_noteStart
    : ((self.noteStart header).updateAll header unixTime).1 = self.jumps header unixTime := by
  rw [noteStart, jumps, updateAll, updateAll]

/-- The updates leave what is noted of the last jump. -/
theorem updateAll_eq
    : ∃ syncbox timingsystem counter1hz smurfFrame unix smurf2mce,
        smurfFrame.current = (SmurfHeader.getFrameCounter header).toUInt64
        ∧ (self.updateAll header unixTime).2
          = { self with
              syncbox, timingsystem, counter1hz, smurfFrame, unixTime := unix, smurf2mce } := by
  rewrite [updateAll]
  exact ⟨_, _, _, (self.smurfFrame.update _).2, _, _, SmurfTime.update_current _ _, rfl⟩

/-- Whether a line is due, and what is noted. -/
theorem noteJump_memory (jump : Bool) {frame : UInt32}
    (current : self.smurfFrame.current = frame.toUInt64)
    : ((self.noteJump jump).1 = true
        ↔ jump = true ∧ (self.lastFrameJump + self.frameWait).toUInt64 < frame.toUInt64)
      ∧ (self.noteJump jump).2.frameWait = self.frameWait
      ∧ (self.noteJump jump).2.lastFrameJump
        = if (self.noteJump jump).1 then frame else self.lastFrameJump := by
  rewrite [noteJump, current]
  split
  · next due => exact ⟨iff_of_true rfl due, rfl, UInt32.toUInt32_toUInt64 frame⟩
  · next skipped => exact ⟨iff_of_false Bool.false_ne_true skipped, rfl, rfl⟩

/-- A call that is not too early: whether a line is due, and what is noted. -/
theorem run_memory (late : self.started header = true)
    : ((self.run header unixTime).1 = true
        ↔ self.jumps header unixTime = true
          ∧ (self.lastFrameJump + self.frameWait).toUInt64
            < (SmurfHeader.getFrameCounter header).toUInt64)
      ∧ (self.run header unixTime).2.frameWait = self.frameWait
      ∧ (self.run header unixTime).2.lastFrameJump
        = if (self.run header unixTime).1 then SmurfHeader.getFrameCounter header
          else self.lastFrameJump := by
  obtain ⟨_, _, _, _, _, _, current, updated⟩ :=
    @updateAll_eq (self.noteStart header) header unixTime
  rewrite [run_of_started late, updateAll_noteStart, updated]
  exact noteJump_memory (self.jumps header unixTime) current

theorem lines_writes (late : self.started header = true)
    : ((self.writes header unixTime).map JumpLogText.lines).sum
      = if (self.run header unixTime).1 then 1 else 0 := by
  rw [writes, if_pos late]
  rcases self.run header unixTime with ⟨due, after⟩
  cases self.ready <;> cases due <;> rfl

end Call

end SmurfValidCheck

/-- A call of `run`: the header, and the time its clock gives. -/
structure CheckCall where
  header : Bytes
  unixTime : UInt64

/-- The checks, and the frame number of the last jump that got into the log. -/
structure JumpLog where
  check : SmurfValidCheck
  lastLogged : Option UInt32

namespace JumpLog

def create : JumpLog :=
  ⟨.create, none⟩

def step (self : JumpLog) (call : CheckCall) : JumpLog :=
  let result := self.check.run call.header call.unixTime
  {
    check := result.2
    lastLogged :=
      if result.1 then some (SmurfHeader.getFrameCounter call.header) else self.lastLogged
  }

/-- After the start, a jump appends one line unless its frame is that of the last one, and
nothing else does.
-/
def LogsJump (self : JumpLog) (call : CheckCall) : Prop :=
  self.check.started call.header = true
  → ((self.check.writes call.header call.unixTime).map JumpLogText.lines).sum
    = if self.check.jumps call.header call.unixTime = true
        ∧ self.lastLogged ≠ some (SmurfHeader.getFrameCounter call.header)
      then 1
      else 0

instance (self : JumpLog) (call : CheckCall) : Decidable (self.LogsJump call) :=
  inferInstanceAs (Decidable (_ = _ → _ = _))

/-- No jump is at a frame before the last one logged, nor is one at frame 0 the first. -/
def GoesOn (self : JumpLog) (call : CheckCall) : Prop :=
  self.check.started call.header = true
  → self.check.jumps call.header call.unixTime = true
  → match self.lastLogged with
    | some last => last ≤ SmurfHeader.getFrameCounter call.header
    | none => SmurfHeader.getFrameCounter call.header ≠ 0

/-- The frame number remembered is that of the last jump logged, 0 before the first. -/
structure Remembers (log : JumpLog) : Prop where
  frameWait : log.check.frameWait = 0
  lastFrameJump : log.check.lastFrameJump = log.lastLogged.getD 0

theorem remembers_create : Remembers create :=
  ⟨rfl, rfl⟩

/-- What is remembered stays so. -/
theorem Remembers.step {log : JumpLog} (remembers : Remembers log) (call : CheckCall)
    : Remembers (log.step call) := by
  cases late : log.check.started call.header with
  | false =>
      rewrite [JumpLog.step, SmurfValidCheck.run_of_not_started late]
      cases log.check.init with
      | false => exact ⟨remembers.frameWait, remembers.lastFrameJump⟩
      | true => exact ⟨remembers.frameWait, remembers.lastFrameJump⟩
  | true =>
      obtain ⟨_, waits, remembered⟩ := SmurfValidCheck.run_memory call.unixTime late
      rewrite [JumpLog.step]
      generalize log.check.run call.header call.unixTime = result at waits remembered ⊢
      rcases result with ⟨due, check⟩
      refine ⟨waits.trans remembers.frameWait, remembered.trans ?_⟩
      cases due with
      | false => exact remembers.lastFrameJump
      | true => rfl

/-- What is remembered decides: by cases on whether a jump was logged before. -/
theorem Remembers.logsJump_iff {log : JumpLog} (remembers : Remembers log) (call : CheckCall)
    : log.LogsJump call ↔ log.GoesOn call := by
  have counted (p q : Prop) [Decidable p] [Decidable q]
      : (if p then 1 else 0) = (if q then 1 else 0) ↔ (p ↔ q) := by
    by_cases p <;> by_cases q <;> simp_all
  refine imp_congr_right (fun late => ?_)
  obtain ⟨due, _⟩ := SmurfValidCheck.run_memory call.unixTime late
  rw [remembers.frameWait, remembers.lastFrameJump, UInt32.add_zero,
    UInt32.toUInt64_lt] at due
  rw [SmurfValidCheck.lines_writes call.unixTime late, counted, due]
  generalize SmurfHeader.getFrameCounter call.header = frame
  generalize log.check.jumps call.header call.unixTime = jump
  cases jump with
  | false => simp
  | true =>
      simp only [true_and, forall_const]
      cases log.lastLogged with
      | none =>
          simp only [Option.getD_none, ne_eq, reduceCtorEq, not_false_eq_true, iff_true]
          exact UInt32.pos_iff_ne_zero
      | some last =>
          simp only [Option.getD_some, ne_eq, Option.some.injEq]
          rw [← UInt32.toNat_inj, UInt32.lt_iff_toNat_lt, UInt32.le_iff_toNat_le]
          omega

/-- From a new log, whatever the headers and clock readings: every jump gets into the log that is
not at the frame of the last one in it, and nothing else does, exactly when no jump is before
the last one in it. Witness: the frame remembered is that of the last one.
-/
theorem logsJump_iff_goesOn (calls : List CheckCall)
    : EachStep step LogsJump create calls ↔ EachStep step GoesOn create calls :=
  EachStep.congr_of_invariant (fun _ call remembers => remembers.step call)
    (fun _ call remembers => remembers.logsJump_iff call) remembers_create calls

/-- A header with a time in seconds and a frame counter, both below 256. -/
def timedHeader (seconds frame : UInt8) : Bytes :=
  Function.update (Function.update (fun _ => 0) 76 seconds) 84 frame

/-- The first jump is logged at frame 5, behind which the frame counter restarts: another jump,
which is not logged.
-/
theorem not_logsJump_restart
    : ¬ EachStep step LogsJump create
          [⟨timedHeader 0 4, 1000000000⟩, ⟨timedHeader 30 5, 1004000000⟩,
            ⟨timedHeader 30 1, 1008000000⟩] := by
  decide +kernel

end JumpLog

end Smurf
