import Smurf.Packet.Header

/-! The timing checks made for each emitted frame. -/

namespace Smurf

/-- A clock or counter, and how far it moves between frames. -/
structure SmurfTime where
  current : UInt64
  delta : UInt64
  errorCount : UInt32
  maxAllowedDelta : UInt32
  minAllowedDelta : UInt32

namespace SmurfTime

def create : SmurfTime where
  current := 0
  delta := 0
  errorCount := 0
  maxAllowedDelta := 1000000000
  minAllowedDelta := 0

/-- Moves to a new value; returns true if it jumped. -/
def update (self : SmurfTime) (val : UInt64) : Bool × SmurfTime :=
  let self := { self with delta := val - self.current, current := val }
  if self.maxAllowedDelta.toUInt64 < self.delta ∨ self.delta < self.minAllowedDelta.toUInt64
  then
    (true, { self with errorCount := self.errorCount + 1 })
  else
    (false, self)

theorem update_current (self : SmurfTime) (val : UInt64)
    : (self.update val).2.current = val := by
  rw [update]
  split <;> rfl

end SmurfTime

structure SmurfValidCheck where
  syncbox : SmurfTime
  timingsystem : SmurfTime
  counter1hz : SmurfTime
  smurfFrame : SmurfTime
  unixTime : SmurfTime
  smurf2mce : SmurfTime
  init : Bool
  ready : Bool
  lastFrameJump : UInt32
  frameWait : UInt32
  initialTimingSystem : UInt64

namespace SmurfValidCheck

def create : SmurfValidCheck where
  syncbox := { SmurfTime.create with maxAllowedDelta := 1 }
  timingsystem := { SmurfTime.create with maxAllowedDelta := 10000000 }
  counter1hz := { SmurfTime.create with maxAllowedDelta := 1000000000 }
  smurfFrame := { SmurfTime.create with maxAllowedDelta := 100 }
  unixTime := { SmurfTime.create with maxAllowedDelta := 10000000, minAllowedDelta := 2000000 }
  smurf2mce := { SmurfTime.create with maxAllowedDelta := 100000000 }
  init := false
  ready := false
  lastFrameJump := 0
  frameWait := 0
  initialTimingSystem := 0

/-- Notes the frame of a jump, unless it is not past the last one noted. Returns whether a
line is due in the jump log.
-/
def noteJump (self : SmurfValidCheck) (jump : Bool) : Bool × SmurfValidCheck :=
  if jump ∧ (self.lastFrameJump + self.frameWait).toUInt64 < self.smurfFrame.current then
    (true, { self with lastFrameJump := self.smurfFrame.current.toUInt32 })
  else
    (false, self)

/-- Moves all clocks and counters to their new values; a jump of the 1 Hz counter or of the
delay of the packet is not reported.
-/
def updateAll (self : SmurfValidCheck) (header : ByteMemory.Bytes) (unixTime : UInt64)
    : Bool × SmurfValidCheck :=
  let seconds := (SmurfHeader.getEpicsSeconds header).toUInt64
  let nanoseconds := (SmurfHeader.getEpicsNanoseconds header).toUInt64
  let smurf2mce := self.smurf2mce.update unixTime
  let unix := self.unixTime.update unixTime
  let syncbox := self.syncbox.update (SmurfHeader.getSyncword header).toUInt64
  let timingsystem := self.timingsystem.update (1000000000 * seconds + nanoseconds)
  let counter1hz := self.counter1hz.update (SmurfHeader.get1hzCounter header).toUInt64
  let smurfFrame := self.smurfFrame.update (SmurfHeader.getFrameCounter header).toUInt64
  (unix.1 || syncbox.1 || timingsystem.1 || smurfFrame.1,
    { self with
      smurf2mce := smurf2mce.2
      unixTime := unix.2
      syncbox := syncbox.2
      timingsystem := timingsystem.2
      counter1hz := counter1hz.2
      smurfFrame := smurfFrame.2 })

/-- Checks all clocks and counters against those of the last call, once 30 seconds of the
timing system have passed. Returns whether a line is due in the jump log.
-/
def run (self : SmurfValidCheck) (header : ByteMemory.Bytes) (unixTime : UInt64)
    : Bool × SmurfValidCheck :=
  let seconds := (SmurfHeader.getEpicsSeconds header).toUInt64
  let self :=
    if self.init then self else { self with init := true, initialTimingSystem := seconds }
  if seconds - self.initialTimingSystem < 30 then
    (false, self)
  else
    let updated := { self with ready := true }.updateAll header unixTime
    updated.2.noteJump updated.1

/-- Whether the checks have started for a frame with these seconds. The difference is taken
in 64 bits; the first call takes it from its own seconds.
-/
def started (self : SmurfValidCheck) (header : ByteMemory.Bytes) : Bool :=
  let seconds := (SmurfHeader.getEpicsSeconds header).toUInt64
  30 ≤ seconds - (if self.init then self.initialTimingSystem else seconds)

/-- What the clock gave to `run`: it is read once, behind the early return. -/
def clockReadings (self : SmurfValidCheck) (header : ByteMemory.Bytes) (unixTime : UInt64)
    : List UInt64 :=
  if self.started header then [unixTime] else []

/-- The first call is always too early. -/
theorem not_started_of_not_init {self : SmurfValidCheck} (fresh : self.init = false)
    (header : ByteMemory.Bytes)
    : self.started header = false := by
  simp only [started, fresh, Bool.false_eq_true, if_false, UInt64.sub_self]
  rfl

/-- A call that is too early only notes the seconds of the first one. -/
theorem run_of_not_started {self : SmurfValidCheck} {header : ByteMemory.Bytes}
    (early : self.started header = false) (unixTime : UInt64)
    : self.run header unixTime
      = (false,
          if self.init then self
          else
            { self with
              init := true
              initialTimingSystem := (SmurfHeader.getEpicsSeconds header).toUInt64 }) := by
  have less := of_decide_eq_false early
  rw [UInt64.not_le] at less
  rw [run]
  cases noted : self.init with
  | false =>
      simp only [noted, Bool.false_eq_true, if_false] at less ⊢
      rw [if_pos less]
  | true =>
      simp only [noted, if_true] at less ⊢
      rw [if_pos less]

/-- A jump is noted apart from the clocks. -/
theorem noteJump_unixTime (self : SmurfValidCheck) (jump : Bool)
    : (self.noteJump jump).2.unixTime = self.unixTime := by
  rw [noteJump]
  split <;> rfl

/-- The checks as a call that is not too early has them for its updates. -/
def noteStart (self : SmurfValidCheck) (header : ByteMemory.Bytes) : SmurfValidCheck :=
  { self with
    init := true
    ready := true
    initialTimingSystem :=
      if self.init then self.initialTimingSystem
      else (SmurfHeader.getEpicsSeconds header).toUInt64 }

/-- A call that is not too early updates, and notes a jump. -/
theorem run_of_started {self : SmurfValidCheck} {header : ByteMemory.Bytes}
    (late : self.started header = true) (unixTime : UInt64)
    : self.run header unixTime
      = ((self.noteStart header).updateAll header unixTime).2.noteJump
          ((self.noteStart header).updateAll header unixTime).1 := by
  have reached := of_decide_eq_true late
  rw [← UInt64.not_lt] at reached
  rw [run, noteStart]
  cases noted : self.init with
  | false =>
      simp only [noted, Bool.false_eq_true, if_false] at reached ⊢
      rw [if_neg reached]
  | true =>
      simp only [noted, if_true] at reached ⊢
      rw [if_neg reached]

/-- A call that is not too early moves the time to the reading. -/
theorem unixTime_run_of_started {self : SmurfValidCheck} {header : ByteMemory.Bytes}
    (late : self.started header = true) (unixTime : UInt64)
    : (self.run header unixTime).2.unixTime.current = unixTime := by
  rw [run_of_started late, noteJump_unixTime]
  exact SmurfTime.update_current _ _

/-- The checks read nothing but the header. -/
theorem run_congr {header other : ByteMemory.Bytes} (same : SameHeader header other)
    (self : SmurfValidCheck) (unixTime : UInt64)
    : self.run header unixTime = self.run other unixTime := by
  have updates (self : SmurfValidCheck)
      : self.updateAll header unixTime = self.updateAll other unixTime := by
    unfold updateAll
    rw [SmurfHeader.getEpicsSeconds_congr same, SmurfHeader.getEpicsNanoseconds_congr same,
      SmurfHeader.getSyncword_congr same, SmurfHeader.get1hzCounter_congr same,
      SmurfHeader.getFrameCounter_congr same]
  unfold run
  rw [SmurfHeader.getEpicsSeconds_congr same]
  simp only [updates]

end SmurfValidCheck

end Smurf
