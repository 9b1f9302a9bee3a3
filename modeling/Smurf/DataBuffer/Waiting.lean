import Smurf.DataBuffer.Threads

/-! Waiting for packets: the readers' loops with the mutex and the condition variable.
`doneWriting` is split where it takes the mutex and where it notifies. A reader tests
`isEmpty` without the mutex, and takes it only to wait. The flag that would stop the
readers' loops is never cleared.
-/

namespace Smurf.DataBuffer

/-- Where the frame loop is in publishing a packet: with pointer and flags updated, holding
the mutex, and having notified.
-/
inductive PublisherPhase
  | idle
  | granted (slot : Nat)
  | filled
  | flagged
  | locked
  | notified
  deriving DecidableEq

/-- Where a reader's loop is. A reader that found its buffer empty carries the number of
packets written at that moment; one that waits, whether it has been notified since.
-/
inductive ListenerPhase
  | testing
  | foundEmpty (writeCnt : Nat)
  | locked (writeCnt : Nat)
  | waiting (notified : Bool)
  | woken
  | fetching
  | processing (slot : Nat)
  | processed (slot : Nat)
  deriving DecidableEq

def ListenerPhase.notify : ListenerPhase → ListenerPhase
  | .waiting _ => .waiting true
  | phase => phase

inductive Owner (numberReaders : Nat)
  | writer
  | reader (i : Fin numberReaders)
  deriving DecidableEq

/-- The buffer, where each thread is and who holds the mutex. -/
structure Listening (size numberReaders : Nat) (Packet : Type*) where
  buffer : DataBuffer size numberReaders Packet
  publisher : PublisherPhase
  listener : Fin numberReaders → ListenerPhase
  mutex : Option (Owner numberReaders)

/-- The thread that takes its next step; `packet` is what the frame loop would write,
`returns` tells whether the processing of a packet would return.
-/
inductive Turn (numberReaders : Nat) (Packet : Type*)
  | writer (packet : Packet)
  | reader (i : Fin numberReaders) (returns : Bool)

namespace Listening

variable {size numberReaders : Nat} {Packet : Type*}

def start (size numberReaders : Nat) (packet : Packet)
    : Listening size numberReaders Packet where
  buffer := DataBuffer.create size numberReaders packet
  publisher := .idle
  listener := fun _ => .testing
  mutex := none

def writerStep (system : Listening size numberReaders Packet) (packet : Packet)
    : Listening size numberReaders Packet :=
  match system.publisher with
  | .idle =>
      let (slot, buffer) := system.buffer.getWritePtr
      { system with buffer, publisher := .granted slot }
  | .granted slot =>
      { system with buffer := system.buffer.fill slot packet, publisher := .filled }
  | .filled => { system with buffer := system.buffer.doneWriting, publisher := .flagged }
  | .flagged =>
      if system.mutex = none then
        { system with mutex := some .writer, publisher := .locked }
      else system
  | .locked =>
      { system with
        listener := fun i => (system.listener i).notify
        publisher := .notified }
  | .notified => { system with mutex := none, publisher := .idle }

/-- Reader `i` goes on to `phase`. -/
def goTo (system : Listening size numberReaders Packet) (i : Fin numberReaders)
    (phase : ListenerPhase)
    : Listening size numberReaders Packet :=
  { system with listener := Function.update system.listener i phase }

def readerStep (system : Listening size numberReaders Packet) (i : Fin numberReaders)
    (returns : Bool)
    : Listening size numberReaders Packet :=
  match system.listener i with
  | .testing =>
      if system.buffer.isEmpty i then system.goTo i (.foundEmpty system.buffer.writeCnt)
      else system.goTo i .fetching
  | .foundEmpty writeCnt =>
      if system.mutex = none then
        { system.goTo i (.locked writeCnt) with mutex := some (.reader i) }
      else system
  | .locked _ => { system.goTo i (.waiting false) with mutex := none }
  -- it wakes up notified, at the timeout, or for no reason
  | .waiting _ =>
      if system.mutex = none then { system.goTo i .woken with mutex := some (.reader i) }
      else system
  | .woken => { system.goTo i .testing with mutex := none }
  | .fetching =>
      match system.buffer.getReadPtr i with
      | (.ok slot, buffer) => { system.goTo i (.processing slot) with buffer }
      | (.error _, buffer) => { system.goTo i .testing with buffer }
  | .processing slot =>
      if returns then system.goTo i (.processed slot) else system.goTo i .testing
  | .processed _ => { system.goTo i .testing with buffer := system.buffer.doneReading i }

def step (system : Listening size numberReaders Packet)
    : Turn numberReaders Packet → Listening size numberReaders Packet
  | .writer packet => system.writerStep packet
  | .reader i returns => system.readerStep i returns

end Listening

end Smurf.DataBuffer
