import Smurf.DataFile.Parts

/-! Packets that disable file writing end a session of recording: the file is closed, and the next
session begins again with part 0. A part therefore holds what the latest session that came to
it wrote, even where a later and shorter session has written the parts before it anew.
-/

namespace Smurf

open Chunks Files Runs SmurfDataFile

/-- The packet ends a session. -/
def Packet.disables (packet : Packet) : Bool :=
  SmurfPacket.getDisableFileWriteBit packet.headerBytes

namespace Recorder

variable {config : SmurfConfig} {before : Disk} {recorder : Recorder} {call : WriteCall}
  {packets : List Packet} {sessions : Sections Packet}

/-- A packet goes to the file of its part, and leaves those of other names alone. -/
theorem CutAfter.contents_other (cut : CutAfter config before packets recorder)
    (extend : config.fileNameExtend ≠ 0) (enabled : call.Enabled) (same : call.config = config)
    (opened : 0 < call.opened) {other : String}
    (different : other ≠ nextName config recorder.file.part)
    : ((recorder.step call).disk before).contents? other
      = (recorder.disk before).contents? other := by
  obtain ⟨file, reaching, disk, asks, -, reached, -, -, -, appends, others⟩ :=
    cut.reaches extend enabled same opened
  have headed := appends.write (List.ofFn call.packet.header)
  have written
      : (disk.perform (.writeToFile file.fd call.packet)).contents? other
        = (recorder.disk before).contents? other := by
    rw [← others other different]
    exact (headed.contents?_write_of_ne different).trans (appends.contents?_write_of_ne different)
  have closed (file : SmurfDataFile) (disk : Disk)
      : (file.closeFile.1.foldl Disk.perform disk).contents? other = disk.contents? other := by
    rw [closeFile]
    split <;> rfl
  have counted (disk : Disk)
      : ((file.countFrame config).1.foldl Disk.perform disk).contents? other
        = disk.contents? other := by
    rw [countFrame]
    split
    · exact closed _ disk
    · rfl
  rw [Recorder.disk, observe_step, asks, List.foldl_append, List.foldl_cons, counted, ← written,
    ← reached]
  rfl

/-- The state of the file after some sessions, and what is on disk. -/
structure Saved (config : SmurfConfig) (before : Disk) (sessions : Sections Packet)
    (recorder : Recorder) : Prop where
  cut : CutAfter config before sessions.current recorder
  parts
    : ∀ p < 99999,
        (recorder.disk before).contents? (nextName config (Int32.ofNat p))
        = match sessions.reaching? (p * config.perFile) with
          | some session => some (records (chunk config.perFile p session))
          | none => before.contents? (nextName config (Int32.ofNat p))
  others
    : ∀ name,
        (∀ p < 99999, name ≠ nextName config (Int32.ofNat p))
        → (recorder.disk before).contents? name = before.contents? name

/-- A packet that disables writing begins a session, and changes nothing on disk. -/
theorem Saved.disabled (saved : Saved config before sessions recorder)
    (disables : call.packet.disables = true)
    : Saved config before (sessions.after Packet.disables call.packet) (recorder.step call) := by
  have wrote := writeFile_disabled recorder.file call.config call.opened disables
  have file : (recorder.step call).file = closed 0 recorder.file.filename := by
    rw [step, wrote]
    rfl
  have kept (name : String)
      : ((recorder.step call).disk before).contents? name
        = (recorder.disk before).contents? name := by
    rw [Recorder.disk, observe_step, asks, wrote, closeFile]
    split <;> rfl
  constructor
  · rw [Sections.after_of_separates disables]
    refine ⟨?_, ?_, fun _ => congrArg SmurfDataFile.fd file,
      fun inside => absurd (Nat.zero_mod _) inside,
      fun _ begun => absurd begun (Nat.not_lt_zero _)⟩
    · rw [file, List.length_nil, Nat.zero_div]
      rfl
    · rw [file, List.length_nil, Nat.zero_mod]
      rfl
  · intro p inside
    rw [kept, saved.parts p inside, Sections.reaching?_after_of_separates disables]
  · intro name other
    rw [kept, saved.others name other]

/-- Another packet of a session: by cases on whether the session comes to a part. -/
theorem Saved.enabled (saved : Saved config before sessions recorder)
    (positive : 0 < config.dataFrames.toInt) (extend : config.fileNameExtend ≠ 0)
    (room : sessions.current.length + 1 < 99999 * config.perFile) (enabled : call.Enabled)
    (same : call.config = config) (opened : 0 < call.opened)
    : Saved config before (sessions.after Packet.disables call.packet) (recorder.step call) := by
  have nonempty := perFile_pos positive
  have cut := saved.cut.step positive extend room enabled same opened
  have here : sessions.current.length / config.perFile < 99999 := by
    rw [Nat.div_lt_iff_lt_mul nonempty]
    omega
  have length : (sessions.current ++ [call.packet]).length = sessions.current.length + 1 :=
    List.length_append
  have joins : call.packet.disables = false := enabled
  rw [Sections.after_of_not_separates joins]
  refine ⟨cut, fun p inside => ?_, fun name other => ?_⟩
  · by_cases begun : p * config.perFile < sessions.current.length + 1
    · rw [← length] at begun
      rw [Sections.reaching?_of_lt begun]
      exact cut.contents p begun
    · have beyond : sessions.current.length ≤ p * config.perFile := by omega
      have different
          : nextName config (Int32.ofNat p) ≠ nextName config recorder.file.part := by
        intro equal
        have parts := congrArg Int32.toInt (nextName_injective extend equal)
        rw [saved.cut.part, Int32.toInt_ofNat_of_lt (by omega),
          Int32.toInt_ofNat_of_lt (by omega)] at parts
        obtain rfl : p = sessions.current.length / config.perFile := by omega
        have := Nat.div_mul_le_self sessions.current.length config.perFile
        omega
      rw [saved.cut.contents_other extend enabled same opened different, saved.parts p inside,
        Sections.reaching?_of_le beyond,
        Sections.reaching?_of_le (show (sessions.current ++ [call.packet]).length ≤ _ by omega)]
  · rw [saved.cut.contents_other extend enabled same opened, saved.others name other]
    rw [saved.cut.part]
    exact other _ here

/-- One more call of either kind. -/
theorem Saved.step (saved : Saved config before sessions recorder)
    (positive : 0 < config.dataFrames.toInt) (extend : config.fileNameExtend ≠ 0)
    (short
      : (sessions.after Packet.disables call.packet).Short (99999 * config.perFile))
    (same : call.config = config) (opened : 0 < call.opened)
    : Saved config before (sessions.after Packet.disables call.packet) (recorder.step call) := by
  by_cases disables : call.packet.disables = true
  · exact saved.disabled disables
  · have enabled := Bool.eq_false_iff.mpr disables
    rw [Sections.after_of_not_separates enabled] at short
    have room := short _ List.mem_cons_self
    rw [List.length_append, List.length_singleton] at room
    exact saved.enabled positive extend room enabled same opened

end Recorder

end Smurf
