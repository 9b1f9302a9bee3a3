import Mathlib.Logic.Function.Basic
import Smurf.Library.CyclicSlots

/-! The circular packet buffer between the frame loop and the packet readers.
Iterators are offsets from `data.begin()`, so `size` stands for `data.end()`. The counters
are natural numbers.
-/

namespace Smurf

/-- The state of a buffer of `size` cells with `numberReaders` readers. Offsets from `size`
on denote no cell of the vector; what is found there is left open by `data`.
-/
structure DataBuffer (size numberReaders : Nat) (Packet : Type*) where
  data : Nat → Packet
  readPtr : Fin numberReaders → Nat
  writePtr : Nat
  full : Fin numberReaders → Bool
  empty : Fin numberReaders → Bool
  writeCnt : Nat
  readCnt : Fin numberReaders → Nat
  OWCnt : Fin numberReaders → Nat
  ROFCnt : Fin numberReaders → Nat

namespace DataBuffer

variable {size numberReaders : Nat} {Packet : Type*}

/-- A new buffer, all its cells holding a freshly created packet. -/
def create (size numberReaders : Nat) (packet : Packet)
    : DataBuffer size numberReaders Packet where
  data := fun _ => packet
  readPtr := fun _ => 0
  writePtr := 0
  full := fun _ => false
  empty := fun _ => true
  writeCnt := 0
  readCnt := fun _ => 0
  OWCnt := fun _ => 0
  ROFCnt := fun _ => 0

/-- The cell the next packet goes to. A reader whose buffer is full is first moved past its
oldest packet; its pointer is not compared with `data.end()` here.
-/
def getWritePtr (buffer : DataBuffer size numberReaders Packet)
    : Nat × DataBuffer size numberReaders Packet :=
  (buffer.writePtr,
    { buffer with
      OWCnt := fun i => if buffer.full i then buffer.OWCnt i + 1 else buffer.OWCnt i
      readPtr := fun i => if buffer.full i then buffer.readPtr i + 1 else buffer.readPtr i })

/-- The cell of the next packet for reader `i`. -/
def getReadPtr (buffer : DataBuffer size numberReaders Packet) (i : Fin numberReaders)
    : Except String Nat × DataBuffer size numberReaders Packet :=
  if buffer.empty i then
    (.error "Trying to read when the buffer is empty",
      { buffer with ROFCnt := Function.update buffer.ROFCnt i (buffer.ROFCnt i + 1) })
  else
    (.ok (buffer.readPtr i), buffer)

/-- What the writer does through the pointer it got: `copyHeader` and `copyData`. -/
def fill (buffer : DataBuffer size numberReaders Packet) (slot : Nat) (packet : Packet)
    : DataBuffer size numberReaders Packet :=
  { buffer with data := Function.update buffer.data slot packet }

/-- Called when a packet is fully written. -/
def doneWriting (buffer : DataBuffer size numberReaders Packet)
    : DataBuffer size numberReaders Packet :=
  let writePtr := CyclicSlots.next size buffer.writePtr
  { buffer with
    writePtr
    full := fun i => if writePtr = buffer.readPtr i then true else buffer.full i
    empty := fun _ => false
    writeCnt := buffer.writeCnt + 1 }

/-- Called when reader `i` has processed a packet. -/
def doneReading (buffer : DataBuffer size numberReaders Packet) (i : Fin numberReaders)
    : DataBuffer size numberReaders Packet :=
  let readPtr := CyclicSlots.next size (buffer.readPtr i)
  { buffer with
    readPtr := Function.update buffer.readPtr i readPtr
    empty := if readPtr = buffer.writePtr then Function.update buffer.empty i true
      else buffer.empty
    full := Function.update buffer.full i false
    readCnt := Function.update buffer.readCnt i (buffer.readCnt i + 1) }

def isEmpty (buffer : DataBuffer size numberReaders Packet) (i : Fin numberReaders) : Bool :=
  buffer.empty i

/-- The number of the next packet for reader `i`: those it read and those it lost. -/
def position (buffer : DataBuffer size numberReaders Packet) (i : Fin numberReaders) : Nat :=
  buffer.readCnt i + buffer.OWCnt i

-----------------------------------------------------------------------------------------
-- What each call changes, and what it leaves alone
-----------------------------------------------------------------------------------------

section Fields

variable (buffer : DataBuffer size numberReaders Packet) (i j : Fin numberReaders)
  (slot : Nat) (packet : Packet)

@[simp] theorem getWritePtr_slot : buffer.getWritePtr.1 = buffer.writePtr := rfl

@[simp] theorem getWritePtr_writePtr : buffer.getWritePtr.2.writePtr = buffer.writePtr := rfl

@[simp] theorem getWritePtr_empty : buffer.getWritePtr.2.empty = buffer.empty := rfl

@[simp] theorem getWritePtr_writeCnt : buffer.getWritePtr.2.writeCnt = buffer.writeCnt := rfl

@[simp] theorem getWritePtr_readCnt : buffer.getWritePtr.2.readCnt = buffer.readCnt := rfl

theorem getWritePtr_readPtr
    : buffer.getWritePtr.2.readPtr i
      = if buffer.full i then buffer.readPtr i + 1 else buffer.readPtr i :=
  rfl

theorem getWritePtr_OWCnt
    : buffer.getWritePtr.2.OWCnt i
      = if buffer.full i then buffer.OWCnt i + 1 else buffer.OWCnt i :=
  rfl

theorem getReadPtr_of_empty (empty : buffer.empty i = true)
    : buffer.getReadPtr i
      = (.error "Trying to read when the buffer is empty",
          { buffer with ROFCnt := Function.update buffer.ROFCnt i (buffer.ROFCnt i + 1) }) := by
  simp [getReadPtr, empty]

theorem getReadPtr_of_not_empty (pending : buffer.empty i = false)
    : buffer.getReadPtr i = (.ok (buffer.readPtr i), buffer) := by
  simp [getReadPtr, pending]

@[simp] theorem fill_readPtr : (buffer.fill slot packet).readPtr = buffer.readPtr := rfl

@[simp] theorem fill_writePtr : (buffer.fill slot packet).writePtr = buffer.writePtr := rfl

@[simp] theorem fill_writeCnt : (buffer.fill slot packet).writeCnt = buffer.writeCnt := rfl

@[simp] theorem fill_readCnt : (buffer.fill slot packet).readCnt = buffer.readCnt := rfl

@[simp] theorem fill_OWCnt : (buffer.fill slot packet).OWCnt = buffer.OWCnt := rfl

@[simp] theorem fill_data_self : (buffer.fill slot packet).data slot = packet :=
  Function.update_self ..

theorem fill_data_of_ne {other : Nat} (ne : other ≠ slot)
    : (buffer.fill slot packet).data other = buffer.data other :=
  Function.update_of_ne ne ..

@[simp] theorem doneWriting_data : buffer.doneWriting.data = buffer.data := rfl

@[simp] theorem doneWriting_readPtr : buffer.doneWriting.readPtr = buffer.readPtr := rfl

@[simp] theorem doneWriting_writePtr
    : buffer.doneWriting.writePtr = CyclicSlots.next size buffer.writePtr :=
  rfl

@[simp] theorem doneWriting_empty : buffer.doneWriting.empty i = false := rfl

@[simp] theorem doneWriting_writeCnt : buffer.doneWriting.writeCnt = buffer.writeCnt + 1 := rfl

@[simp] theorem doneWriting_readCnt : buffer.doneWriting.readCnt = buffer.readCnt := rfl

@[simp] theorem doneWriting_OWCnt : buffer.doneWriting.OWCnt = buffer.OWCnt := rfl

theorem doneWriting_full
    : buffer.doneWriting.full i
      = if CyclicSlots.next size buffer.writePtr = buffer.readPtr i then true
        else buffer.full i :=
  rfl

@[simp] theorem doneReading_data : (buffer.doneReading i).data = buffer.data := rfl

@[simp] theorem doneReading_writePtr : (buffer.doneReading i).writePtr = buffer.writePtr := rfl

@[simp] theorem doneReading_ROFCnt : (buffer.doneReading i).ROFCnt = buffer.ROFCnt := rfl

@[simp] theorem doneReading_OWCnt : (buffer.doneReading i).OWCnt = buffer.OWCnt := rfl

@[simp] theorem doneReading_readPtr_self
    : (buffer.doneReading i).readPtr i = CyclicSlots.next size (buffer.readPtr i) :=
  Function.update_self ..

@[simp] theorem doneReading_full_self : (buffer.doneReading i).full i = false :=
  Function.update_self ..

@[simp] theorem doneReading_readCnt_self
    : (buffer.doneReading i).readCnt i = buffer.readCnt i + 1 :=
  Function.update_self ..

theorem doneReading_empty_self
    : (buffer.doneReading i).empty i
      = if CyclicSlots.next size (buffer.readPtr i) = buffer.writePtr then true
        else buffer.empty i := by
  simp only [doneReading]
  split <;> simp

variable {i j}

/-- Another reader's `doneReading` leaves a reader's pointer, flags and counters alone. -/
theorem doneReading_of_ne (ne : j ≠ i)
    : (buffer.doneReading i).readPtr j = buffer.readPtr j
      ∧ (buffer.doneReading i).full j = buffer.full j
      ∧ (buffer.doneReading i).empty j = buffer.empty j
      ∧ (buffer.doneReading i).readCnt j = buffer.readCnt j := by
  refine ⟨Function.update_of_ne ne .., Function.update_of_ne ne .., ?_,
    Function.update_of_ne ne ..⟩
  simp only [doneReading]
  split
  · exact Function.update_of_ne ne ..
  · rfl

end Fields

end DataBuffer

end Smurf
