import Smurf.DataBuffer.ExactlyOnce
import Smurf.DataFile.Basic
import Smurf.Processor.Publishing

/-! The processor as a whole: frames are accepted into a queue, the frame loop works them off
and publishes packets into the buffer, and two threads read the buffer, one to transmit the
packets and one to write them to files.
Each call is one atomic step here, as is an iteration of the loop up to publishing; these steps
interleave in any order. How the statements of `doneWriting` and `doneReading` interleave is in
`DataBuffer/Statements`, the mutex and the waits with their timeouts are in `DataBuffer/WakeUp`.
-/

namespace Smurf

open ByteMemory Runs

-----------------------------------------------------------------------------------------
-- The intake
-----------------------------------------------------------------------------------------

/-- A frame as it is handed over, with the error and the flags it carries. -/
structure Offered where
  frame : Frame
  error : UInt8
  flags : UInt16

/-- `acceptFrame` neither copies nor processes these frames. Whether the queue is busy is for
the queue to say.
-/
def Offered.rejected (self : Offered) (busy : Bool) : Bool :=
  busy || self.error != 0 || self.flags &&& 0x100 != 0

/-- What an iteration reads from outside beside the frame. -/
structure Surroundings where
  tesBias : Bytes
  random : Fin smurfRawSamples → Int16
  configFile : Option (List String)
  maskFile : Option (List UInt32)
  unixTime : UInt64

def Surroundings.arrival (self : Surroundings) (frame : Frame) : Arrival where
  frame
  tesBias := self.tesBias
  random := self.random
  configFile := self.configFile
  maskFile := self.maskFile
  unixTime := self.unixTime

def concreteSurroundings : Surroundings where
  tesBias := fun _ => 0
  random := fun _ => 0
  configFile := none
  maskFile := none
  unixTime := 0

/-- Clears the counters that are reported; the loop's own variables stay. -/
def FrameCounts.clear (self : FrameCounts) : FrameCounts :=
  { self with
    frameLossCnt := 0
    frameRxCnt := 0
    frameOutOrderCnt := 0 }

def SmurfProcessor.clearFrameCnt (self : SmurfProcessor) : SmurfProcessor :=
  { self with counts := self.counts.clear }

-----------------------------------------------------------------------------------------
-- The threads
-----------------------------------------------------------------------------------------

/-- `txBuffer` has ten cells and two readers. -/
abbrev TxBuffer := DataBuffer.System 10 2 Packet

def pktReaderIndexTx : Fin 2 := 0
def pktReaderIndexFile : Fin 2 := 1

/-- The queue of frames, the frame loop with the packet it is publishing, and the buffer with
where each thread is. What happened so far is kept beside them: the frames offered and whether
they were accepted, the arrivals that the loop worked off, how many these were when the
counters were last cleared, and the calls of `write_file`.
-/
structure Pipeline where
  queue : List Frame
  processor : SmurfProcessor
  publishing : Option Packet
  txBuffer : TxBuffer
  offered : List (Frame × Bool)
  handled : List Arrival
  clearedAt : Nat
  writes : List WriteCall

namespace Pipeline

/-- One step of one of the threads: a call as a whole. -/
inductive Event
  /-- A frame is handed over by the stream. -/
  | acceptFrame (offered : Offered) (busy : Bool)
  /-- The loop takes a frame and works on it, up to publishing. -/
  | iterate (surroundings : Surroundings)
  | getWritePtr
  /-- `copyHeader` and `copyData` -/
  | copyPacket
  | doneWriting
  /-- A reader finds the buffer not empty and gets a packet. -/
  | getReadPtr (i : Fin 2)
  /-- `transmit` returns or throws. -/
  | transmit (returns : Bool)
  /-- `opened` is what `open` returns if it is called. -/
  | writeFile (opened : Int32)
  | doneReading (i : Fin 2)
  /-- The control server clears the counters. -/
  | clearFrameCnt

def start (host : Host) (configFile : Option (List String)) (maskFile : Option (List UInt32))
    : Pipeline where
  queue := []
  processor := SmurfProcessor.create host configFile maskFile
  publishing := none
  txBuffer := DataBuffer.System.start 10 2 blankPacket
  offered := []
  handled := []
  clearedAt := 0
  writes := []

/-- The writer thread calls `write_file` for the packet it got, with the configuration in use.
-/
def writeFile (self : Pipeline) (opened : Int32) : Pipeline :=
  match self.txBuffer.reader pktReaderIndexFile with
  | .holding slot _ =>
      { self with
        txBuffer := self.txBuffer.step (.process pktReaderIndexFile true)
        writes :=
          self.writes
            ++ [{
              packet := (self.txBuffer.buffer.data slot).packet
              config := self.processor.C
              opened }] }
  | _ => self

/-- A thread that cannot take the step named leaves everything as it is. The loop takes the
next frame when it has published what there was to publish.
-/
def step (host : Host) (self : Pipeline) : Event → Pipeline
  | .acceptFrame offered busy =>
      if offered.rejected busy then
        { self with offered := self.offered ++ [(offered.frame, false)] }
      else
        { self with
          queue := self.queue ++ [offered.frame]
          offered := self.offered ++ [(offered.frame, true)] }
  | .iterate surroundings =>
      match self.publishing, self.queue with
      | none, frame :: rest =>
          let arrival := surroundings.arrival frame
          let (processor, outcome) := self.processor.iterate host arrival
          { self with
            queue := rest
            processor
            publishing := outcome.packet?
            handled := self.handled ++ [arrival] }
      | _, _ => self
  | .getWritePtr =>
      match self.publishing with
      | some _ => { self with txBuffer := self.txBuffer.step .getWritePtr }
      | none => self
  | .copyPacket =>
      match self.publishing with
      | some packet => { self with txBuffer := self.txBuffer.step (.fill packet) }
      | none => self
  | .doneWriting =>
      match self.txBuffer.writer with
      | .filled _ =>
          { self with
            txBuffer := self.txBuffer.step .doneWriting
            publishing := none }
      | _ => self
  | .getReadPtr i => { self with txBuffer := self.txBuffer.step (.getReadPtr i) }
  | .transmit returns =>
      { self with txBuffer := self.txBuffer.step (.process pktReaderIndexTx returns) }
  | .writeFile opened => self.writeFile opened
  | .doneReading i => { self with txBuffer := self.txBuffer.step (.doneReading i) }
  | .clearFrameCnt =>
      { self with
        processor := self.processor.clearFrameCnt
        clearedAt := self.handled.length }

/-- The frames that were accepted. -/
def accepted (self : Pipeline) : List Frame :=
  (self.offered.filter Prod.snd).map Prod.fst

/-- The data file after the calls of `write_file`. -/
def D (self : Pipeline) : Recorder :=
  self.writes.foldl Recorder.step (Recorder.start SmurfDataFile.create)

end Pipeline

end Smurf
