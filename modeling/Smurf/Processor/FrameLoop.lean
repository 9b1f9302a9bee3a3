import Smurf.Filter.Basic
import Smurf.Processor.Config
import Smurf.Processor.TestData
import Smurf.Processor.ValidCheck

/-! The frame loop: every received frame is copied into one of two buffers, ordered by its
frame counter, unwrapped against the frame before it, filtered and averaged. An average that
ends is published as a packet.
-/

namespace Smurf

open ByteMemory

-----------------------------------------------------------------------------------------
-- Frames and buffers
-----------------------------------------------------------------------------------------

/-- A received frame: the payloads of its segments. -/
structure Frame where
  segments : List (List UInt8)

namespace Frame

def bytes (frame : Frame) : List UInt8 :=
  frame.segments.flatten

/-- The frame has a header and all raw samples, and fits the buffer. -/
structure Full (frame : Frame) : Prop where
  least : smurfDataLength ≤ frame.bytes.length
  most : frame.bytes.length ≤ pyrogueBufferLength

end Frame

/-- Copies a segment to the address the copying has come to, and moves it on. -/
def copySegment (copied : Bytes × Nat) (segment : List UInt8) : Bytes × Nat :=
  (copyTo copied.1 copied.2 segment, copied.2 + segment.length)

/-- Copies one segment behind the other. Memory is not bounded here: what a frame longer
than the buffer would overwrite behind it is not modelled.
-/
def frameToBuffer (frame : Frame) (buffer : Bytes) : Bytes :=
  (frame.segments.foldl copySegment (buffer, 0)).1

/-- Sample `i` of the raw data behind the header. -/
def sample (buffer : Bytes) (i : Nat) : Int16 :=
  (UInt16.ofNat (word buffer (smurfHeaderLength + 2 * i) 2)).toInt16

/-- Overwrite the raw data. -/
def putSamples (buffer : Bytes) (samples : Fin smurfRawSamples → Int16) : Bytes :=
  fun address =>
    if h : smurfHeaderLength ≤ address ∧ address < smurfDataLength then
      let value := samples ⟨(address - smurfHeaderLength) / 2, by
        simp only [smurfDataLength, smurfHeaderLength, smurfRawSamples] at h ⊢
        omega⟩
      littleEndian value.toUInt16.toNat ((address - smurfHeaderLength) % 2)
    else buffer address

-----------------------------------------------------------------------------------------
-- State
-----------------------------------------------------------------------------------------

/-- What the processor computes with but does not define: the conversion to `float` and the
generated sine wave.
-/
structure Host where
  strtof : String → ℚ
  sine : UInt16 → UInt8 → Int16

/-- What an iteration reads from outside: the frame, the TES bias words while they are
locked, the random test samples, the two files, should it read them, and the clock.
-/
structure Arrival where
  frame : Frame
  tesBias : Bytes
  random : Fin smurfRawSamples → Int16
  configFile : Option (List String)
  maskFile : Option (List UInt32)
  unixTime : UInt64

/-- A published packet. -/
structure Packet where
  header : Fin smurfHeaderLength → UInt8
  payload : Fin smurfSamples → Int32

/-- The bytes of a packet's header. -/
def Packet.headerBytes (packet : Packet) : Bytes :=
  fun k => if inside : k < smurfHeaderLength then packet.header ⟨k, inside⟩ else 0

/-- The frame counters, with the loop variables they are kept by. The `size_t` counters are
taken as unbounded.
-/
structure FrameCounts where
  frameLossCnt : Nat
  frameRxCnt : Nat
  frameOutOrderCnt : Nat
  frameNumber : UInt32
  firstFrame : Bool
  deriving DecidableEq

namespace FrameCounts

def create : FrameCounts where
  frameLossCnt := 0
  frameRxCnt := 0
  frameOutOrderCnt := 0
  frameNumber := 0
  firstFrame := true

/-- Whether a frame is not discarded; the first one is never compared. -/
def inOrder (self : FrameCounts) (frameNumber : UInt32) : Bool :=
  self.firstFrame || !decide (frameNumber < self.frameNumber)

/-- Counts a lost, late or received frame. -/
def count (self : FrameCounts) (frameNumber : UInt32) : FrameCounts :=
  let prevFrameNumber := self.frameNumber
  let self := { self with frameNumber }
  if self.firstFrame then
    { self with firstFrame := false, frameRxCnt := self.frameRxCnt + 1 }
  else if frameNumber < prevFrameNumber then
    { self with frameOutOrderCnt := self.frameOutOrderCnt + 1 }
  else
    -- the difference is taken in 32 bits, then added to a `size_t`
    let frameNumberDelta := frameNumber - prevFrameNumber - 1
    { self with
      frameLossCnt := self.frameLossCnt + frameNumberDelta.toNat
      frameRxCnt := self.frameRxCnt + 1 }

end FrameCounts

/-- The processor, with the loop variables of `runThread` that outlive an iteration. -/
structure SmurfProcessor where
  b : Bool → Bytes
  bufn : Bool
  wrapCounter : Fin smurfSamples → Int32
  mask : Mask
  inputData : Fin smurfSamples → Int32
  fastInternalCounter : UInt32
  H : SmurfHeader
  C : SmurfConfig
  V : SmurfValidCheck
  F : SmurfFilter smurfSamples
  T : SmurfTestData
  counts : FrameCounts

/-- What an accepted frame led to: the data and order it was filtered with and the state of
the filter after that, the configuration given to `average_control`, its counter after that
and its result, and the packet published.
-/
structure Record where
  inputData : Fin smurfSamples → Int32
  filterOrder : Int32
  samplesSinceClear : UInt32
  averageSamples : Fin smurfSamples → Int32
  numAverages : Int32
  averageCounter : UInt32
  cnt : UInt32
  clearBit : Bool
  packet : Option Packet

/-- What became of a frame. -/
inductive Outcome where
  | discarded
  | accepted (record : Record)

namespace SmurfProcessor

/-- The constructor; the two files are read during it. -/
def create (host : Host) (configFile : Option (List String)) (maskFile : Option (List UInt32))
    : SmurfProcessor where
  b := fun _ _ => 0
  bufn := false
  wrapCounter := fun _ => 0
  mask := readMask Mask.create maskFile
  inputData := fun _ => 0
  fastInternalCounter := 0
  H := SmurfHeader.create
  C := SmurfConfig.create host.strtof configFile
  V := SmurfValidCheck.create
  F := SmurfFilter.create smurfSamples 16
  T := SmurfTestData.create
  counts := FrameCounts.create

/-- The buffer of the latest frame. -/
def buffer (self : SmurfProcessor) : Bytes :=
  self.b !self.bufn

/-- The other buffer. While a frame is worked on, it holds the frame before. -/
def bufferLast (self : SmurfProcessor) : Bytes :=
  self.b self.bufn

def setBuffer (self : SmurfProcessor) (bytes : Bytes) : SmurfProcessor :=
  { self with b := Function.update self.b (!self.bufn) bytes }

-----------------------------------------------------------------------------------------
-- The stages of an iteration
-----------------------------------------------------------------------------------------

/-- Swaps the buffers and copies the frame. -/
def receive (self : SmurfProcessor) (frame : Frame) : SmurfProcessor :=
  let self := { self with bufn := !self.bufn }
  self.setBuffer (frameToBuffer frame self.buffer)

/-- Counts a frame by the counter in its header; returns false if it is to be discarded. -/
def checkOrder (self : SmurfProcessor) : Bool × SmurfProcessor :=
  let frameNumber := SmurfHeader.getFrameCounter self.buffer
  (self.counts.inOrder frameNumber, { self with counts := self.counts.count frameNumber })

/-- Copies the TES bias words into the header of an accepted frame. -/
def putTesBias (self : SmurfProcessor) (arrival : Arrival) : SmurfProcessor :=
  self.setBuffer (putField self.buffer hTesDac.offset hTesDac.width arrival.tesBias)

/-- The test data for the frame in the buffer, and what is left of its generator. -/
def testSamples (host : Host) (self : SmurfProcessor) (arrival : Arrival)
    : SmurfTestData × (Fin smurfRawSamples → Int16) :=
  self.T.genTestSmurfData arrival.random host.sine (fun i => sample self.buffer i)
    (SmurfHeader.getTestMode self.buffer) (SmurfHeader.getSyncword self.buffer)
    (SmurfHeader.getTestParameter self.buffer).toUInt8

/-- Replaces the samples of the frame in a test mode. -/
def insertTestData (host : Host) (self : SmurfProcessor) (arrival : Arrival) : SmurfProcessor :=
  if SmurfHeader.getTestMode self.buffer ≠ 0 then
    { self with T := (self.testSamples host arrival).1 }.setBuffer
      (putSamples self.buffer (self.testSamples host arrival).2)
  else self

def prepare (host : Host) (self : SmurfProcessor) (arrival : Arrival) : SmurfProcessor :=
  (self.putTesBias arrival).insertTestData host arrival

/-- `upper_unwrap`, above which a sample counts as high -/
def upperUnwrap : Int32 := 0x6000
/-- `lower_unwrap`, below which a sample counts as low -/
def lowerUnwrap : Int32 := -0x6000

/-- The wrap counter of a channel after sample `d`, which follows sample `p`. -/
def unwrapCounter (d p : Int16) (wrapCounter : Int32) : Int32 :=
  if upperUnwrap < d.toInt32 ∧ p.toInt32 < lowerUnwrap then wrapCounter - 0x10000
  else if d.toInt32 < lowerUnwrap ∧ upperUnwrap < p.toInt32 then wrapCounter + 0x10000
  else wrapCounter

/-- Unwraps the masked samples against those of the frame before. -/
def unwrap (self : SmurfProcessor) : SmurfProcessor :=
  let d j := sample self.buffer (self.mask j)
  let p j := sample self.bufferLast (self.mask j)
  let wrapCounter j := unwrapCounter (d j) (p j) (self.wrapCounter j)
  { self with
    wrapCounter
    inputData := fun j => (d j).toInt32 + wrapCounter j }

/-- Filters the unwrapped data. -/
def filter (self : SmurfProcessor) : SmurfProcessor :=
  { self with
    F :=
      self.F.filter self.inputData self.C.filterOrder self.C.filterA self.C.filterB
        self.C.filterG }

/-- Returns the length of the average that ends with this frame, or 0. -/
def average (self : SmurfProcessor) : UInt32 × SmurfProcessor :=
  let (cnt, H) := self.H.averageControl self.buffer self.C.numAverages
  (cnt, { self with H })

/-- Clears wraps, averaging and filter when the frame asks for it. -/
def clear (self : SmurfProcessor) : SmurfProcessor :=
  if SmurfHeader.getClearBit self.buffer then
    { self with
      wrapCounter := fun _ => 0
      H := self.H.clearAverage
      F := self.F.clearFilter }
  else self

/-- Re-reads the files every 5000 frames that ask for it. -/
def reread (host : Host) (self : SmurfProcessor) (arrival : Arrival) : SmurfProcessor :=
  if SmurfHeader.readConfigFile self.buffer then
    let counted := { self with fastInternalCounter := self.fastInternalCounter + 1 }
    if self.fastInternalCounter % 5000 = 0 then
      { counted with
        C := self.C.readConfigFile host.strtof arrival.configFile
        mask := readMask self.mask arrival.maskFile }
    else counted
  else { self with fastInternalCounter := 0 }

/-- Clears a flat average that ends. -/
def endRun (self : SmurfProcessor) : SmurfProcessor :=
  { self with F := self.F.endRun }

/-- The averages that a test mode puts out, and what is left of their generator. -/
def testAverages (self : SmurfProcessor)
    : SmurfTestData × (Fin smurfSamples → Int32) :=
  self.T.genTestMceData self.F.output (SmurfHeader.getTestMode self.buffer)
    (SmurfHeader.getSyncword self.buffer) (SmurfHeader.getTestParameter self.buffer).toUInt8

/-- Replaces the averages in a test mode. -/
def insertTestAverages (self : SmurfProcessor) : SmurfProcessor :=
  if SmurfHeader.getTestMode self.buffer ≠ 0 then
    { self with
      T := self.testAverages.1
      F := { self.F with output := self.testAverages.2 } }
  else self

/-- Checks the clocks. -/
def checkClocks (self : SmurfProcessor) (arrival : Arrival) : SmurfProcessor :=
  { self with V := (self.V.run self.buffer arrival.unixTime).2 }

/-- Puts the time of the last check and the channel count into the header. -/
def stamp (self : SmurfProcessor) : SmurfProcessor :=
  let tm := littleEndian self.V.unixTime.current.toNat
  let timed := putField self.buffer hUnixTime.offset hUnixTime.width tm
  self.setBuffer (SmurfHeader.setNumChannels timed (UInt32.ofNat smurfSamples))

/-- Ends an average. -/
def finish (self : SmurfProcessor) (arrival : Arrival) : SmurfProcessor :=
  (self.endRun.insertTestAverages.checkClocks arrival).stamp

/-- The packet of an average, unless `data_frames` is 0. -/
def publish (self : SmurfProcessor) : Option Packet :=
  if self.C.dataFrames ≠ 0 then
    some {
      header := fun k => self.buffer k.val
      payload := self.F.output
    }
  else none

/-- The iteration from an accepted frame on. -/
def accept (host : Host) (self : SmurfProcessor) (arrival : Arrival)
    : Record × SmurfProcessor :=
  let self := (self.prepare host arrival).unwrap.filter
  let (cnt, averaged) := self.average
  let cleared := averaged.clear.reread host arrival
  let next := if cnt = 0 then cleared else cleared.finish arrival
  let record : Record :=
    { inputData := self.inputData
      filterOrder := self.C.filterOrder
      samplesSinceClear := self.F.samplesSinceClear
      averageSamples := self.F.output
      numAverages := self.C.numAverages
      averageCounter := averaged.H.averageCounter
      cnt
      clearBit := SmurfHeader.getClearBit self.buffer
      packet := if cnt = 0 then none else next.publish }
  (record, next)

/-- One iteration of the loop. -/
def iterate (host : Host) (self : SmurfProcessor) (arrival : Arrival)
    : SmurfProcessor × Outcome :=
  let (inOrder, self) := (self.receive arrival.frame).checkOrder
  if inOrder then
    let (record, next) := self.accept host arrival
    (next, .accepted record)
  else
    (self, .discarded)

end SmurfProcessor

end Smurf
