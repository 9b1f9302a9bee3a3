import Smurf.DataFile.Sessions
import Smurf.Packet.DocumentedFormat
import Smurf.Packet.Codecs
import Smurf.Pipeline.Delivery
import Smurf.Processor.InOrderStream
import Smurf.Processor.PublishedHeader

/-! From the frames handed over to the bytes on disk: while the file writer keeps up, the files
hold the packets that the loop would publish alone, cut into sessions and these into parts,
whatever the other threads do in between.
-/

namespace Smurf

open ByteMemory Chunks Runs SmurfDataFile

/-- A full frame that does not disable file writing. -/
structure Frame.Recorded (frame : Frame) : Prop where
  full : frame.Full
  enabled : SmurfHeader.disableFileWrite frame.image = false

namespace SmurfProcessor

variable (host : Host) (self : SmurfProcessor) (arrival : Arrival)

end SmurfProcessor

namespace Pipeline

/-- The configuration file stays as it is, `open` succeeds, and the file writer keeps up. -/
def Saves (configFile : Option (List String)) (pipeline : Pipeline) : Event → Prop
  | .iterate surroundings => surroundings.configFile = configFile
  | .writeFile opened => 0 < opened
  | event => pipeline.KeepsUp pktReaderIndexFile event

/-- What was written so far, of the packets that the loop publishes alone: the sessions between
packets that disable writing.
-/
def sessions (host : Host) (created : SmurfProcessor) (pipeline : Pipeline) : Sections Packet :=
  sections Packet.disables ((pipeline.published host created).take pipeline.writes.length)

/-- What the steps keep: the configuration, and the state of the data file and the disk after the
packets written.
-/
structure Recording (config : SmurfConfig) (before : Disk) (pipeline : Pipeline) : Prop where
  C : pipeline.processor.C = config
  saved
    : let written := sections Packet.disables (pipeline.writes.map WriteCall.packet)
      written.Short (99999 * config.perFile)
      → Recorder.Saved config before written pipeline.D

variable {host : Host} {created : SmurfProcessor} {pipeline : Pipeline} {config : SmurfConfig}
  {configFile : Option (List String)} {before : Disk}

namespace Recording

theorem transport (recording : pipeline.Recording config before) (publishing : Option Packet)
    (txBuffer : TxBuffer)
    : ({ pipeline with publishing, txBuffer }).Recording config before :=
  ⟨recording.C, recording.saved⟩

/-- A packet that the file writer got goes to its part, or ends the session. -/
theorem writeFile (recording : pipeline.Recording config before)
    (positive : 0 < config.dataFrames.toInt) (extend : config.fileNameExtend ≠ 0)
    {opened : Int32} (opens : 0 < opened)
    : (pipeline.writeFile opened).Recording config before := by
  cases phase : pipeline.txBuffer.reader pktReaderIndexFile with
  | idle | processed => simpa only [Pipeline.writeFile, phase] using recording
  | holding slot content =>
      obtain ⟨call, after, same, succeeds⟩
          : ∃ call : WriteCall,
              pipeline.writeFile opened
                = { pipeline with
                    txBuffer := pipeline.txBuffer.step (.process pktReaderIndexFile true)
                    writes := pipeline.writes ++ [call] }
              ∧ call.config = config
              ∧ call.opened = opened := by
        simp only [Pipeline.writeFile, phase]
        exact ⟨_, rfl, recording.C, rfl⟩
      rw [after]
      refine ⟨recording.C, ?_⟩
      simp only [List.map_append, List.map_cons, List.map_nil, sections_concat]
      intro short
      have further :=
        (recording.saved short.of_after).step positive extend short same (succeeds ▸ opens)
      simpa [D] using further

/-- Every step keeps it, by cases on the step. -/
theorem step (recording : pipeline.Recording (SmurfConfig.create host.strtof configFile) before)
    (positive : 0 < (SmurfConfig.create host.strtof configFile).dataFrames.toInt)
    (extend : (SmurfConfig.create host.strtof configFile).fileNameExtend ≠ 0) {event : Event}
    (saves : pipeline.Saves configFile event)
    : (pipeline.step host event).Recording (SmurfConfig.create host.strtof configFile)
        before := by
  cases event with
  | acceptFrame offered busy =>
      simp only [Pipeline.step]
      split <;> exact ⟨recording.C, recording.saved⟩
  | iterate surroundings =>
      simp only [Pipeline.step]
      split
      · refine ⟨?_, recording.saved⟩
        have same : surroundings.configFile = configFile := saves
        refine (SmurfProcessor.C_iterate host _ _ ?_).trans recording.C
        rw [recording.C]
        exact (congrArg _ same).trans (SmurfConfig.readConfigFile_create host.strtof configFile)
      · exact recording
  | writeFile opened => exact recording.writeFile positive extend saves
  | getWritePtr | copyPacket | doneWriting =>
      simp only [Pipeline.step]
      split
      · exact recording.transport _ _
      · exact recording
  | getReadPtr | doneReading | transmit => exact recording.transport _ _
  | clearFrameCnt => exact ⟨recording.C, recording.saved⟩

end Recording

section Run

variable (host : Host) (configFile : Option (List String)) (maskFile : Option (List UInt32))
  (before : Disk) (positive : 0 < (SmurfConfig.create host.strtof configFile).dataFrames.toInt)
  (extend : (SmurfConfig.create host.strtof configFile).fileNameExtend ≠ 0)

/-- What is kept together: the flow of packets, and the state of the data file. -/
structure Kept (pipeline : Pipeline) : Prop where
  flows : pipeline.Flows host (SmurfProcessor.create host configFile maskFile)
  lossless : pipeline.txBuffer.Lossless pktReaderIndexFile
  recording : pipeline.Recording (SmurfConfig.create host.strtof configFile) before

variable {host configFile maskFile before}

include positive extend

theorem Kept.step {pipeline : Pipeline} (kept : Kept host configFile maskFile before pipeline)
    {event : Event} (saves : pipeline.Saves configFile event)
    : Kept host configFile maskFile before (pipeline.step host event) where
  flows := kept.flows.step event
  lossless := by
    refine lossless_step host kept.lossless ?_
    cases event with
    | getWritePtr => exact saves
    | _ => trivial
  recording := kept.recording.step positive extend saves

variable (host configFile maskFile before) (events : List Event)

end Run

end Pipeline

end Smurf
