import Smurf.Library.Files
import Smurf.Library.Runs
import Smurf.Packet.SmurfPacket
import Smurf.Processor.FrameLoop

/-! The data file: packets are written to a file that is opened when needed and closed after
`data_frames` packets. What the source asks of the system is kept as a list of actions.
-/

namespace Smurf

open Files Runs

/-- What the source asks of the system; `open` comes with what it returned. -/
inductive Action
  | unlink (filename : String)
  | openFile (filename : String) (result : Int32)
  | writeToFile (fd : UInt32) (packet : Packet)
  | close (fd : UInt32)

/-- The number of packets a file is for. -/
def SmurfConfig.perFile (config : SmurfConfig) : Nat :=
  config.dataFrames.toInt.toNat

structure SmurfDataFile where
  part : Int32
  filename : String
  frameCounter : UInt32
  fd : UInt32

namespace SmurfDataFile

/-- No file is open; `filename` is what is left of the last one. -/
def closed (part : Int32) (filename : String) : SmurfDataFile where
  part
  filename
  frameCounter := 0
  fd := 0

def create : SmurfDataFile :=
  closed 0 ""

/-- `".part_%05u"`, which takes the part for unsigned. -/
def partSuffix (part : Int32) : String :=
  ".part_" ++ String.ofList (List.leftpad 5 '0' (Nat.toDigits 10 part.toUInt32.toNat))

/-- The name of the next file. -/
def nextName (config : SmurfConfig) (part : Int32) : String :=
  config.dataFileName ++ if config.fileNameExtend ≠ 0 then partSuffix part else ""

theorem partSuffix_injective {p q : Int32} (same : partSuffix p = partSuffix q) : p = q := by
  have number (n : Nat)
      : Nat.ofDigitChars 10 (List.leftpad 5 '0' (Nat.toDigits 10 n)) 0 = n := by
    rw [List.leftpad, Nat.ofDigitChars_append, Nat.ofDigitChars_replicate_zero, Nat.mul_zero,
      Nat.ofDigitChars_ten_toDigits]
  have digits := String.ofList_injective ((String.append_right_inj _).mp same)
  have equal : p.toUInt32.toNat = q.toUInt32.toNat := by
    rw [← number p.toUInt32.toNat, digits, number]
  rw [← Int32.toInt32_toUInt32 p, UInt32.toNat_inj.mp equal, Int32.toInt32_toUInt32]

/-- With a suffix, the parts have different names. -/
theorem nextName_injective {config : SmurfConfig} (extend : config.fileNameExtend ≠ 0)
    {p q : Int32} (same : nextName config p = nextName config q)
    : p = q := by
  rw [nextName, nextName, if_pos extend, if_pos extend] at same
  exact partSuffix_injective ((String.append_right_inj _).mp same)

/-- Whether another name is configured than that of the last file. -/
def nameChanged (self : SmurfDataFile) (config : SmurfConfig) : Bool :=
  config.fileNameExtend = 0 && config.dataFileName ≠ self.filename

/-- Closes the file if one is open. -/
def closeFile (self : SmurfDataFile) : List Action × SmurfDataFile :=
  (if self.fd ≠ 0 then [.close self.fd] else [], { self with fd := 0 })

/-- Closes a file that has another name than the one configured. -/
def checkName (self : SmurfDataFile) (config : SmurfConfig) : List Action × SmurfDataFile :=
  if self.nameChanged config then self.closeFile else ([], self)

/-- With the next file, for which `open` returned `opened`; it is kept as unsigned. -/
def openNext (self : SmurfDataFile) (config : SmurfConfig) (opened : Int32) : SmurfDataFile :=
  { self with filename := nextName config self.part, fd := opened.toUInt32 }

/-- Opens the next file if none is open. -/
def ensureOpen (self : SmurfDataFile) (config : SmurfConfig) (opened : Int32)
    : List Action × SmurfDataFile :=
  if self.fd = 0 then
    let next := self.openNext config opened
    ([.unlink next.filename, .openFile next.filename opened], next)
  else ([], self)

/-- Counts a packet, and closes the file if it is complete. -/
def countFrame (self : SmurfDataFile) (config : SmurfConfig) : List Action × SmurfDataFile :=
  let self := { self with frameCounter := self.frameCounter + 1 }
  -- the comparison converts `dataFrames` to unsigned
  if config.dataFrames.toUInt32 ≤ self.frameCounter then
    let (closing, self) := self.closeFile
    (closing, { self with frameCounter := 0, part := (self.part + 1) % 99999 })
  else ([], self)

/-- The parts count up to 99998. -/
theorem next_part {k : Nat} (inside : k < 99999)
    : (Int32.ofNat k + 1) % 99999 = Int32.ofNat ((k + 1) % 99999) := by
  have sum : Int32.ofNat k + 1 = Int32.ofNat (k + 1) := by
    rw [Int32.ofNat_add]
    rfl
  rw [sum, ← Int32.toInt_inj, Int32.toInt_mod, Int32.toInt_ofNat_of_lt (by omega),
    Int32.toInt_ofNat_of_lt (by omega)]
  rfl

/-- Writes a packet, unless it says not to; `opened` is what `open` returns if it is called.
Returns the number of packets counted in the file.
-/
def writeFile (self : SmurfDataFile) (packet : Packet) (config : SmurfConfig) (opened : Int32)
    : UInt32 × List Action × SmurfDataFile :=
  if SmurfPacket.getDisableFileWriteBit packet.headerBytes then
    let (closing, self) := { self with part := 0 }.closeFile
    (0, closing, { self with frameCounter := 0 })
  else
    let (leaving, self) := self.checkName config
    let (opening, self) := self.ensureOpen config opened
    if self.fd = 0 then
      (0, leaving ++ opening, self)
    else
      let writing := .writeToFile self.fd packet
      let (completing, self) := self.countFrame config
      (self.frameCounter, leaving ++ opening ++ writing :: completing, self)

/-- Whether an enabled packet needs a file to be opened. -/
def opens (self : SmurfDataFile) (config : SmurfConfig) : Bool :=
  self.fd = 0 || self.nameChanged config

section Cases

variable {self : SmurfDataFile} {packet : Packet} {config : SmurfConfig} {opened : Int32}

theorem writeFile_disabled (self : SmurfDataFile) (config : SmurfConfig) (opened : Int32)
    (disabled : SmurfPacket.getDisableFileWriteBit packet.headerBytes = true)
    : self.writeFile packet config opened
      = (0, self.closeFile.1, { self with part := 0, fd := 0, frameCounter := 0 }) := by
  rw [writeFile, if_pos disabled]
  rfl

/-- Where a file is opened, one that was open is closed before. -/
theorem ensureOpen_checkName (opened : Int32) (opens : self.opens config = true)
    : (self.checkName config).1 = self.closeFile.1
      ∧ (self.checkName config).2.ensureOpen config opened
        = ([.unlink (self.openNext config opened).filename,
              .openFile (self.openNext config opened).filename opened],
            self.openNext config opened) := by
  rw [checkName]
  by_cases changed : self.nameChanged config = true
  · rw [if_pos changed]
    exact ⟨rfl, rfl⟩
  · have none : self.fd = 0 := by simpa [SmurfDataFile.opens, changed] using opens
    rw [if_neg changed, ensureOpen, if_pos none, closeFile, if_neg (not_not.mpr none)]
    exact ⟨rfl, rfl⟩

theorem toUInt32_eq_zero_iff : opened.toUInt32 = 0 ↔ opened = 0 :=
  ⟨fun zero => by rw [← Int32.toInt32_toUInt32 opened, zero]; rfl, fun zero => by rw [zero]; rfl⟩

/-- A descriptor of 0 counts as a failure. -/
theorem writeFile_unopened (packet : Packet)
    (enabled : SmurfPacket.getDisableFileWriteBit packet.headerBytes = false)
    (opens : self.opens config = true) (zero : opened = 0)
    : self.writeFile packet config opened
      = (0,
          self.closeFile.1
            ++ [.unlink (self.openNext config opened).filename,
                .openFile (self.openNext config opened).filename opened],
          self.openNext config opened) := by
  obtain ⟨leaves, reached⟩ := ensureOpen_checkName opened opens
  have fd : (self.openNext config opened).fd = 0 := toUInt32_eq_zero_iff.mpr zero
  simp only [writeFile, enabled, Bool.false_eq_true, if_false, leaves, reached, if_pos fd]

theorem writeFile_opens (packet : Packet)
    (enabled : SmurfPacket.getDisableFileWriteBit packet.headerBytes = false)
    (opens : self.opens config = true) (nonzero : opened ≠ 0)
    : self.writeFile packet config opened
      = (((self.openNext config opened).countFrame config).2.frameCounter,
          self.closeFile.1
            ++ [.unlink (self.openNext config opened).filename,
                .openFile (self.openNext config opened).filename opened]
            ++ .writeToFile opened.toUInt32 packet
              :: ((self.openNext config opened).countFrame config).1,
          ((self.openNext config opened).countFrame config).2) := by
  obtain ⟨leaves, reached⟩ := ensureOpen_checkName opened opens
  have fd : (self.openNext config opened).fd ≠ 0 := mt toUInt32_eq_zero_iff.mp nonzero
  simp only [writeFile, enabled, Bool.false_eq_true, if_false, leaves, reached, if_neg fd]
  rfl

theorem writeFile_appends (packet : Packet) (opened : Int32)
    (enabled : SmurfPacket.getDisableFileWriteBit packet.headerBytes = false)
    (stays : self.opens config = false)
    : self.writeFile packet config opened
      = ((self.countFrame config).2.frameCounter,
          .writeToFile self.fd packet :: (self.countFrame config).1,
          (self.countFrame config).2) := by
  obtain ⟨fd, same⟩ : self.fd ≠ 0 ∧ self.nameChanged config = false := by
    simpa [SmurfDataFile.opens] using stays
  simp only [writeFile, enabled, checkName, same, ensureOpen, Bool.false_eq_true, if_false,
    if_neg fd]
  rfl

theorem perFile_pos (positive : 0 < config.dataFrames.toInt) : 0 < config.perFile := by
  rw [SmurfConfig.perFile]
  omega

theorem perFile_lt (config : SmurfConfig) : config.perFile < 2 ^ 31 := by
  have := config.dataFrames.toInt_lt
  rw [SmurfConfig.perFile]
  omega

/-- A packet counted behind `count` others: by cases on whether the file is complete then.
-/
theorem countFrame_cases (positive : 0 < config.dataFrames.toInt)
    {count : Nat} (counter : self.frameCounter.toNat = count) (small : count < 2 ^ 31)
    : (config.perFile ≤ count + 1
        ∧ self.countFrame config
          = (self.closeFile.1,
              { self with fd := 0, frameCounter := 0, part := (self.part + 1) % 99999 }))
      ∨ (count + 1 < config.perFile
        ∧ (self.frameCounter + 1).toNat = count + 1
        ∧ self.countFrame config
          = ([], { self with frameCounter := self.frameCounter + 1 })) := by
  have frames : config.dataFrames.toUInt32.toNat = config.perFile :=
    toNat_toUInt32_of_pos positive
  have counted : (self.frameCounter + 1).toNat = count + 1 := by
    rw [UInt32.toNat_add, counter, show (1 : UInt32).toNat = 1 from rfl]
    omega
  rw [countFrame]
  by_cases complete : config.dataFrames.toUInt32 ≤ self.frameCounter + 1
  · rw [if_pos complete]
    rw [UInt32.le_iff_toNat_le, frames, counted] at complete
    exact Or.inl ⟨complete, rfl⟩
  · rw [if_neg complete]
    rw [UInt32.le_iff_toNat_le, frames, counted, not_le] at complete
    exact Or.inr ⟨complete, counted, rfl⟩

end Cases

end SmurfDataFile

-----------------------------------------------------------------------------------------
-- Runs
-----------------------------------------------------------------------------------------

/-- A packet of zeros, which has file writing enabled. -/
def blankPacket : Packet where
  header := fun _ => 0
  payload := fun _ => 0

theorem enabled_blankPacket
    : SmurfPacket.getDisableFileWriteBit blankPacket.headerBytes = false := by
  decide +kernel

/-- What a call of `write_file` gets, and what `open` returns if the call comes to it. -/
structure WriteCall where
  packet : Packet
  config : SmurfConfig
  opened : Int32

namespace WriteCall

/-- The packet has file writing enabled. -/
def Enabled (call : WriteCall) : Prop :=
  SmurfPacket.getDisableFileWriteBit call.packet.headerBytes = false

instance (call : WriteCall) : Decidable call.Enabled :=
  inferInstanceAs (Decidable (_ = _))

end WriteCall

/-- The data file with all that it has asked of the system. -/
structure Recorder where
  file : SmurfDataFile
  actions : List Action

namespace Recorder

def start (file : SmurfDataFile) : Recorder where
  file
  actions := []

/-- The actions of a call. -/
def asks (self : Recorder) (call : WriteCall) : List Action :=
  (self.file.writeFile call.packet call.config call.opened).2.1

def step (self : Recorder) (call : WriteCall) : Recorder where
  file := (self.file.writeFile call.packet call.config call.opened).2.2
  actions := self.actions ++ self.asks call

/-- What is made of the actions so far, one by one. -/
def observe {σ : Type*} (self : Recorder) (after : σ → Action → σ) (before : σ) : σ :=
  self.actions.foldl after before

@[simp] theorem observe_start {σ : Type*} (file : SmurfDataFile) (after : σ → Action → σ)
    (before : σ)
    : (start file).observe after before = before :=
  rfl

theorem observe_step {σ : Type*} (self : Recorder) (call : WriteCall) (after : σ → Action → σ)
    (before : σ)
    : (self.step call).observe after before
      = (self.asks call).foldl after (self.observe after before) :=
  List.foldl_append

end Recorder

end Smurf
