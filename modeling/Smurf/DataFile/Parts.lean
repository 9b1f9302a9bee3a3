import Mathlib.Data.List.Induction
import Smurf.DataFile.Basic
import Smurf.Library.Chunks

/-! The files hold the packets in order, a fixed number of them in each.
-/

namespace Smurf

open ByteMemory Chunks Files Runs SmurfDataFile

/-- The payload as the host keeps it. -/
def Packet.payloadBytes (packet : Packet) : List UInt8 :=
  (List.ofFn packet.payload).flatMap fun value =>
    (List.range 4).map (littleEndian value.toUInt32.toNat)

/-- The header bytes, then the payload. -/
def Packet.record (packet : Packet) : List UInt8 :=
  List.ofFn packet.header ++ packet.payloadBytes

def records (packets : List Packet) : List UInt8 :=
  packets.flatMap Packet.record

/-- The files by name, and those open by descriptor. -/
abbrev Disk := FileSystem String Int32 UInt8

/-- The system does as asked: every write is complete. A failed `open` changes nothing. -/
def Disk.perform (disk : Disk) : Action → Disk
  | .unlink filename => disk.unlink filename
  | .openFile filename result => if 0 ≤ result then disk.openFile filename result else disk
  | .writeToFile fd packet =>
      (disk.write fd.toInt32 (List.ofFn packet.header)).write fd.toInt32 packet.payloadBytes
  | .close fd => disk.close fd.toInt32

namespace Recorder

def disk (self : Recorder) (before : Disk) : Disk :=
  self.observe Disk.perform before

variable {config : SmurfConfig} {before : Disk} {packets : List Packet} {recorder : Recorder}
  {call : WriteCall}

/-- After some packets, the first of which began part 0: the part and the place in it that
the next packet goes to, and what the files hold.
-/
structure CutAfter (config : SmurfConfig) (before : Disk) (packets : List Packet)
    (recorder : Recorder) : Prop where
  part : recorder.file.part = Int32.ofNat (packets.length / config.perFile)
  counter : recorder.file.frameCounter.toNat = packets.length % config.perFile
  closed : packets.length % config.perFile = 0 → recorder.file.fd = 0
  appends
    : packets.length % config.perFile ≠ 0
      → recorder.file.fd ≠ 0
        ∧ (recorder.disk before).Appends recorder.file.fd.toInt32
            (nextName config recorder.file.part)
            (records (chunk config.perFile (packets.length / config.perFile) packets))
  contents
    : ∀ p,
        p * config.perFile < packets.length
        → (recorder.disk before).contents? (nextName config (Int32.ofNat p))
          = some (records (chunk config.perFile p packets))

/-- A packet comes to a file of its own part, to the end of what this holds. -/
theorem CutAfter.reaches (cut : CutAfter config before packets recorder)
    (extend : config.fileNameExtend ≠ 0) (enabled : call.Enabled) (same : call.config = config)
    (opened : 0 < call.opened)
    : ∃ (file : SmurfDataFile) (reaching : List Action) (disk : Disk),
        recorder.asks call
          = reaching ++ .writeToFile file.fd call.packet :: (file.countFrame config).1
        ∧ (recorder.step call).file = (file.countFrame config).2
        ∧ reaching.foldl Disk.perform (recorder.disk before) = disk
        ∧ file.part = recorder.file.part
        ∧ file.frameCounter = recorder.file.frameCounter
        ∧ file.fd ≠ 0
        ∧ disk.Appends file.fd.toInt32 (nextName config recorder.file.part)
            (records (chunk config.perFile (packets.length / config.perFile) packets))
        ∧ ∀ other,
            other ≠ nextName config recorder.file.part
            → disk.contents? other = (recorder.disk before).contents? other := by
  have unchanged : recorder.file.nameChanged config = false := by
    simp [nameChanged, extend]
  by_cases begins : packets.length % config.perFile = 0
  · have fd := cut.closed begins
    have nonzero : call.opened ≠ 0 := fun zero => by simp [zero] at opened
    have opens : recorder.file.opens config = true := by simp [SmurfDataFile.opens, fd]
    have wrote := writeFile_opens call.packet enabled opens nonzero
    rw [closeFile, if_neg (not_not.mpr fd), List.nil_append] at wrote
    refine ⟨recorder.file.openNext config call.opened, _, _,
      by rw [asks, same, wrote]; rfl, by rw [step, same, wrote], rfl, rfl, rfl,
      mt toUInt32_eq_zero_iff.mp nonzero, ?_, fun other different => ?_⟩
    · simp only [List.foldl_cons, List.foldl_nil, Disk.perform, if_pos (Int32.le_of_lt opened),
        chunk_last_of_complete begins]
      exact FileSystem.appends_openFile_unlink ..
    · simp only [List.foldl_cons, List.foldl_nil, Disk.perform, if_pos (Int32.le_of_lt opened)]
      exact FileSystem.contents?_openFile_unlink_of_ne _ _ different
  · obtain ⟨fd, appends⟩ := cut.appends begins
    have stays : recorder.file.opens config = false := by
      simp [SmurfDataFile.opens, fd, unchanged]
    have wrote := writeFile_appends call.packet call.opened enabled stays
    exact ⟨recorder.file, [], _, by rw [asks, same, wrote]; rfl, by rw [step, same, wrote], rfl,
      rfl, rfl, fd, appends, fun _ _ => rfl⟩

theorem records_concat (packets : List Packet) (packet : Packet)
    : records (packets ++ [packet])
      = records packets ++ List.ofFn packet.header ++ packet.payloadBytes := by
  simp only [records, List.flatMap_append, List.flatMap_singleton, Packet.record,
    List.append_assoc]

/-- A packet written to the end of the file of its part: what the files hold then, by cases
on whether a part is the one that is written to.
-/
theorem CutAfter.contents_written (cut : CutAfter config before packets recorder)
    (positive : 0 < config.perFile) (extend : config.fileNameExtend ≠ 0)
    (room : packets.length < 99999 * config.perFile) {disk : Disk} {fd : UInt32}
    (appends
      : disk.Appends fd.toInt32 (nextName config recorder.file.part)
          (records (chunk config.perFile (packets.length / config.perFile) packets)))
    (others
      : ∀ other,
          other ≠ nextName config recorder.file.part
          → disk.contents? other = (recorder.disk before).contents? other)
    (packet : Packet)
    : (disk.perform (.writeToFile fd packet)).Appends fd.toInt32
          (nextName config recorder.file.part)
          (records
            (chunk config.perFile (packets.length / config.perFile) (packets ++ [packet])))
      ∧ ∀ p,
          p * config.perFile < packets.length + 1
          → (disk.perform (.writeToFile fd packet)).contents?
              (nextName config (Int32.ofNat p))
            = some (records (chunk config.perFile p (packets ++ [packet]))) := by
  have headed := appends.write (List.ofFn packet.header)
  have written := headed.write packet.payloadBytes
  rw [← records_concat, ← chunk_concat_last positive] at written
  refine ⟨written, fun p begun => ?_⟩
  have least : packets.length / config.perFile < 99999 := by
    rwa [Nat.div_lt_iff_lt_mul positive]
  by_cases here : p = packets.length / config.perFile
  · rw [here, ← cut.part]
    exact written.contents?_eq
  · have upto : p ≤ packets.length / config.perFile := by
      rw [Nat.le_div_iff_mul_le positive]
      omega
    have complete : (p + 1) * config.perFile ≤ packets.length := by
      rw [← Nat.le_div_iff_mul_le positive]
      omega
    have different
        : nextName config (Int32.ofNat p) ≠ nextName config recorder.file.part := by
      intro same
      have parts := congrArg Int32.toInt (nextName_injective extend same)
      rw [cut.part, Int32.toInt_ofNat_of_lt (by omega), Int32.toInt_ofNat_of_lt (by omega)]
        at parts
      omega
    have short : p * config.perFile < packets.length := by
      rw [Nat.add_mul, Nat.one_mul] at complete
      omega
    rw [chunk_concat_of_complete complete, ← cut.contents p short, ← others _ different]
    exact (headed.contents?_write_of_ne different).trans (appends.contents?_write_of_ne different)

/-- One more packet: by cases on whether it completes its part. -/
theorem CutAfter.step (cut : CutAfter config before packets recorder)
    (positive : 0 < config.dataFrames.toInt) (extend : config.fileNameExtend ≠ 0)
    (room : packets.length + 1 < 99999 * config.perFile) (enabled : call.Enabled)
    (same : call.config = config) (opened : 0 < call.opened)
    : CutAfter config before (packets ++ [call.packet]) (recorder.step call) := by
  obtain ⟨file, reaching, disk, asks, after, reached, part, counter, fd, appends, others⟩ :=
    cut.reaches extend enabled same opened
  have nonempty := perFile_pos positive
  obtain ⟨written, contents⟩ :=
    cut.contents_written nonempty extend (by omega) appends others call.packet
  have ends
      : (recorder.step call).disk before
        = (file.countFrame config).1.foldl Disk.perform
            (disk.perform (.writeToFile file.fd call.packet)) := by
    rw [Recorder.disk, observe_step, asks, List.foldl_append, List.foldl_cons, ← reached]
    rfl
  have length : (packets ++ [call.packet]).length = packets.length + 1 :=
    List.length_append
  have place : file.frameCounter.toNat = packets.length % config.perFile := by
    rw [counter, cut.counter]
  rcases countFrame_cases positive place ((Nat.mod_lt _ nonempty).trans (perFile_lt _)) with
    ⟨last, counts⟩ | ⟨more, counted, counts⟩
  · obtain ⟨next, begins⟩ := succ_div_mod_of_last nonempty last
    have closes : file.closeFile.1 = [.close file.fd] := if_pos fd
    rw [counts] at after ends
    constructor
    · have inside : (packets.length + 1) / config.perFile < 99999 := by
        rwa [Nat.div_lt_iff_lt_mul nonempty]
      rw [next] at inside
      rw [after, length, next]
      show (file.part + 1) % 99999 = _
      rw [part, cut.part, next_part (by omega), Nat.mod_eq_of_lt inside]
    · rw [after, length, begins]
      rfl
    · intro _
      rw [after]
    · rw [length, begins]
      exact fun none => absurd rfl none
    · intro p begun
      rw [ends, closes]
      exact contents p (by omega)
  · obtain ⟨next, further⟩ := succ_div_mod_of_not_last nonempty more
    rw [counts] at after ends
    constructor
    · rw [after, length, next]
      exact part.trans cut.part
    · rw [after, length, further]
      exact counted
    · rw [length, further]
      exact fun none => absurd none (Nat.succ_ne_zero _)
    · intro _
      rw [after, ends, length, next]
      refine ⟨fd, ?_⟩
      rw [part]
      exact written
    · intro p begun
      rw [ends]
      exact contents p (by omega)

end Recorder

end Smurf
