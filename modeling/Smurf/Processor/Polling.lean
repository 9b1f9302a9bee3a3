import Smurf.Processor.Publishing
import Smurf.Processor.Register

/-! When the configuration file and the mask file are read again.
Frames ask for it by a bit of their control field. The first frame that asks is heeded, and
from then on every 5000th, as long as no frame in between fails to ask.
-/

namespace Smurf

open ByteMemory
open Runs

-----------------------------------------------------------------------------------------
-- One frame
-----------------------------------------------------------------------------------------

/-- What an iteration leaves of the configuration, the mask and the count of frames that ask
in a row.
-/
structure Polled (host : Host) (before : SmurfProcessor) (arrival : Arrival)
    (after : SmurfProcessor) : Prop where
  counter
    : after.fastInternalCounter
      = if arrival.frame.readConfigBit then before.fastInternalCounter + 1 else 0
  C
    : after.C
      = if arrival.frame.readConfigBit ∧ before.fastInternalCounter % 5000 = 0 then
          before.C.readConfigFile host.strtof arrival.configFile
        else before.C
  mask
    : after.mask
      = if arrival.frame.readConfigBit ∧ before.fastInternalCounter % 5000 = 0 then
          readMask before.mask arrival.maskFile
        else before.mask

/-- What polling does is seen in three fields. -/
theorem Polled.congr {host : Host} {before before' after after' : SmurfProcessor}
    {arrival : Arrival} (polled : Polled host before arrival after)
    (first
      : before.fastInternalCounter = before'.fastInternalCounter
        ∧ before.C = before'.C
        ∧ before.mask = before'.mask)
    (last
      : after.fastInternalCounter = after'.fastInternalCounter
        ∧ after.C = after'.C
        ∧ after.mask = after'.mask)
    : Polled host before' arrival after' where
  counter := by rw [← last.1, ← first.1, polled.counter]
  C := by rw [← last.2.1, ← first.1, ← first.2.1, polled.C]
  mask := by rw [← last.2.2, ← first.1, ← first.2.2, polled.mask]

namespace SmurfProcessor

variable (host : Host) (self : SmurfProcessor) (arrival : Arrival)

theorem polled_reread (bit : SmurfHeader.readConfigFile self.buffer = arrival.frame.readConfigBit)
    : Polled host self arrival (self.reread host arrival) := by
  simp only [reread, bit]
  cases asks : arrival.frame.readConfigBit with
  | false => constructor <;> simp [asks]
  | true => by_cases due : self.fastInternalCounter % 5000 = 0 <;> constructor <;> simp [asks, due]

/-- No other stage of an accepted frame has a part in it. -/
theorem polled_accept (bit : SmurfHeader.readConfigFile self.buffer = arrival.frame.readConfigBit)
    : Polled host self arrival (self.accept host arrival).2 := by
  have settled : Polled host self arrival (self.settled host arrival) := by
    obtain ⟨b, T, prepared⟩ := prepare_eq host self arrival
    have kept := readConfigFile_prepare host self arrival
    rw [SmurfProcessor.settled]
    generalize readyIs : ((self.prepare host arrival).unwrap.filter).average.2.clear = ready
    have buffer : ready.buffer = (self.prepare host arrival).buffer := by
      rw [← readyIs, clear_eq]
      simp only [average, filter, unwrap, SmurfProcessor.buffer]
    refine (polled_reread host ready arrival (by rw [buffer, kept, bit])).congr ?_ ⟨rfl, rfl, rfl⟩
    rw [← readyIs, clear_eq, prepared]
    exact ⟨rfl, rfl, rfl⟩
  by_cases ends : self.averageEnds host arrival
  · obtain ⟨b, T, V, output, finished⟩ := finish_eq (self.settled host arrival) arrival
    rw [accept_of_averageEnds _ _ _ ends]
    refine settled.congr ⟨rfl, rfl, rfl⟩ ?_
    rw [finished]
    exact ⟨rfl, rfl, rfl⟩
  · rw [accept_of_not_averageEnds _ _ _ ends]
    exact settled

/-- The bit read is the frame's own. -/
theorem readConfigFile_received (control : arrival.frame.HasControl)
    : SmurfHeader.readConfigFile (self.receive arrival.frame).checkOrder.2.buffer
      = arrival.frame.readConfigBit := by
  rw [buffer_received, Frame.readConfigBit, SmurfHeader.readConfigFile,
    SmurfHeader.readConfigFile, SmurfHeader.ctrlBit, SmurfHeader.ctrlBit,
    pullBitField_frame arrival.frame _ control]

end SmurfProcessor

-----------------------------------------------------------------------------------------
-- Runs
-----------------------------------------------------------------------------------------

/-- The number of frames that ask in a row, up to the latest. -/
def streak (earlier : List Entry) : Nat :=
  (earlier.takeWhile fun entry => entry.frame.readConfigBit).length

/-- The accepted frames at which the files are read, the latest first: those that ask after a
multiple of 5000 frames that did so in a row. The counter of the source has 32 bits.
-/
def polls : List Entry → List Entry
  | [] => []
  | entry :: earlier =>
      if entry.frame.readConfigBit ∧ streak earlier % 2 ^ 32 % 5000 = 0 then
        entry :: polls earlier
      else polls earlier

namespace Register

/-- Configuration and mask are what the reads since `created` made of them, and the counter
has counted the frames that ask in a row.
-/
structure Follows (host : Host) (created : SmurfProcessor) (register : Register) : Prop where
  counter : register.1.fastInternalCounter.toNat = streak register.2 % 2 ^ 32
  C
    : register.1.C
      = (polls register.2).foldr
          (fun entry C => C.readConfigFile host.strtof entry.arrival.configFile) created.C
  mask
    : register.1.mask
      = (polls register.2).foldr (fun entry mask => readMask mask entry.arrival.maskFile)
          created.mask

theorem Follows.accepted {host : Host} {created after : SmurfProcessor} {register : Register}
    {entry : Entry} (follows : Follows host created register)
    (polled : Polled host register.1 entry.arrival after)
    : Follows host created (after, entry :: register.2) := by
  have due
      : register.1.fastInternalCounter % 5000 = 0
        ↔ streak register.2 % 2 ^ 32 % 5000 = 0 := by
    rw [← follows.counter, ← UInt32.toNat_inj, UInt32.toNat_mod]
    rfl
  have counter := polled.counter
  have C := polled.C
  have mask := polled.mask
  simp only [due, follows.C, follows.mask] at C mask
  constructor
  · dsimp only
    rw [counter]
    cases asks : entry.arrival.frame.readConfigBit with
    | false => simp [streak, Entry.frame, asks]
    | true =>
        have grown : streak (entry :: register.2) = streak register.2 + 1 := by
          simp [streak, Entry.frame, asks]
        rw [grown, if_pos rfl, UInt32.toNat_add, follows.counter]
        exact Nat.mod_add_mod _ _ _
  · dsimp only
    rw [C, polls, Entry.frame]
    split <;> rfl
  · dsimp only
    rw [mask, polls, Entry.frame]
    split <;> rfl

end Register

end Smurf
