import Smurf.Library.BitFields

/-! The received header: field offsets, raw field access and averaging control.
`SmurfHeader` reads its fields from the frame buffer it was last pointed at, so every
accessor takes that buffer.
-/

namespace Smurf

open ByteMemory

/-- samples before masking -/
abbrev smurfRawSamples : Nat := 4096
/-- samples in a packet -/
abbrev smurfSamples : Nat := 528
/-- bytes in the header -/
abbrev smurfHeaderLength : Nat := 128
/-- bytes allocated for each frame buffer -/
abbrev pyrogueBufferLength : Nat := 0x8000
/-- bytes of a full frame: the header and `smurfRawSamples` 16-bit samples -/
abbrev smurfDataLength : Nat := smurfRawSamples * 2 + smurfHeaderLength

/-- Byte offset and width of a header field. -/
structure HeaderField where
  offset : Nat
  width : Nat

def hVersion : HeaderField := ⟨0, 1⟩
def hNumChannels : HeaderField := ⟨4, 4⟩
def hTesDac : HeaderField := ⟨8, 40⟩
def hUnixTime : HeaderField := ⟨48, 8⟩
def h1hzCounter : HeaderField := ⟨64, 4⟩
def hExtCounter : HeaderField := ⟨68, 4⟩
def hEpicsNs : HeaderField := ⟨72, 4⟩
def hEpicsS : HeaderField := ⟨76, 4⟩
def hFrameCounter : HeaderField := ⟨84, 4⟩
def hMceSyncword : HeaderField := ⟨96, 5⟩
/-- two bytes, although only the first one is the control field -/
def hUser0aCtrl : HeaderField := ⟨104, 2⟩
def hUser0bCtrl : HeaderField := ⟨105, 1⟩

/-- The value of a header field: the bytes are copied into a 64-bit word whose other bytes
are then masked off.
-/
def pullBitField (header : Bytes) (field : HeaderField) : UInt64 :=
  let r : UInt64 := (1 <<< UInt64.ofNat (field.width * 8)) - 1
  let x : UInt64 := UInt64.ofNat (word header field.offset field.width)
  r &&& (r &&& x)

/-- Overwrite `width` bytes from `offset` on with those of `data`. -/
def putField (header : Bytes) (offset width : Nat) (data : Bytes) : Bytes :=
  fun address =>
    if offset ≤ address ∧ address < offset + width then data (address - offset)
    else header address

/-- The bytes of an unsigned integer as the host keeps it. -/
def littleEndian (value : Nat) : Bytes :=
  fun k => UInt8.ofNat (value / 256 ^ k)

/-- Bit `j` of byte `n` of a number. -/
theorem testBit_littleEndian (value n : Nat) {j : Nat} (inside : j < 8)
    : (littleEndian value n).toNat.testBit j = value.testBit (8 * n + j) := by
  have shifted : value / 256 ^ n = value >>> (8 * n) := by
    rw [Nat.shiftRight_eq_div_pow, Nat.pow_mul]
  rw [littleEndian, UInt8.toNat_ofNat', shifted, Nat.testBit_mod_two_pow, Nat.testBit_shiftRight]
  simp [inside]

/-- An integer overwrites the bits of its bytes. -/
theorem stores_putField (header : Bytes) (offset width value : Nat)
    : Stores header (putField header offset width (littleEndian value))
        (.ofBytes offset width) value := by
  refine .of_inside_outside (fun k here => ?_) (fun k elsewhere => ?_)
  · simp only [Span.Contains, Span.ofBytes] at here ⊢
    rw [bit, putField, if_pos (by omega), testBit_littleEndian _ _ (Nat.mod_lt _ (by decide)),
      show 8 * (k / 8 - offset) + k % 8 = k - 8 * offset by omega]
  · simp only [Span.Contains, Span.ofBytes] at elsewhere
    rw [bit, putField, if_neg (by omega), bit]

/-- The averaging state of the header decoder. -/
structure SmurfHeader where
  averageCounter : UInt32
  lastSyncword : UInt32
  deltaSyncword : UInt32
  deriving DecidableEq

namespace SmurfHeader

def create : SmurfHeader where
  averageCounter := 0
  lastSyncword := 0
  deltaSyncword := 0

/-- A field returned as `uint`. -/
def getField (header : Bytes) (field : HeaderField) : UInt32 :=
  (pullBitField header field).toUInt32

/-- A field of which the low 32 bits are returned. -/
def getLowField (header : Bytes) (field : HeaderField) : UInt32 :=
  (pullBitField header field &&& 0xFFFFFFFF).toUInt32

def getVersion (header : Bytes) : UInt32 :=
  getField header hVersion

def getFrameCounter (header : Bytes) : UInt32 :=
  getField header hFrameCounter

def getExtCounter (header : Bytes) : UInt32 :=
  getField header hExtCounter

def get1hzCounter (header : Bytes) : UInt32 :=
  getField header h1hzCounter

def getSyncword (header : Bytes) : UInt32 :=
  getLowField header hMceSyncword

def getEpicsSeconds (header : Bytes) : UInt32 :=
  getLowField header hEpicsS

def getEpicsNanoseconds (header : Bytes) : UInt32 :=
  getLowField header hEpicsNs

/-- Bit `bit` of the control field. -/
def ctrlBit (header : Bytes) (bit : UInt64) : Bool :=
  pullBitField header hUser0aCtrl &&& (1 <<< bit) != 0

def getClearBit (header : Bytes) : Bool :=
  ctrlBit header 0

def disableStream (header : Bytes) : Bool :=
  ctrlBit header 1

def disableFileWrite (header : Bytes) : Bool :=
  ctrlBit header 2

def readConfigFile (header : Bytes) : Bool :=
  ctrlBit header 3

/-- The nibble of the control field above its four bits. -/
def getTestMode (header : Bytes) : UInt32 :=
  (getField header hUser0aCtrl &&& ((0xF : UInt32) <<< 4)) >>> 4

def getTestParameter (header : Bytes) : UInt32 :=
  getField header hUser0bCtrl

def getNumChannels (header : Bytes) : UInt32 :=
  getField header hNumChannels

/-- The width passed on is the field's offset, which is also its width. -/
def setNumChannels (header : Bytes) (numCh : UInt32) : Bytes :=
  putField header hNumChannels.offset hNumChannels.offset (littleEndian numCh.toNat)

def clearAverage (self : SmurfHeader) : SmurfHeader :=
  { self with averageCounter := 0 }

/-- Counts a frame and returns the number of frames averaged when an average ends, else 0:
after `numAverages` frames, or, when that is 0, when the sync word changes.
-/
def averageControl (self : SmurfHeader) (header : Bytes) (numAverages : Int32)
    : UInt32 × SmurfHeader :=
  let y := getSyncword header
  let self :=
    { self with
      deltaSyncword := y - self.lastSyncword
      lastSyncword := y
      averageCounter := self.averageCounter + 1 }
  if numAverages ≠ 0 then
    -- the comparison converts `numAverages` to unsigned
    if self.averageCounter = numAverages.toUInt32 then
      (numAverages.toUInt32, { self with averageCounter := 0 })
    else
      (0, self)
  else if self.deltaSyncword ≠ 0 then
    (self.averageCounter, { self with averageCounter := 0 })
  else
    (0, self)

/-- `average_control` keeps the sync word of the frame. -/
theorem averageControl_lastSyncword (self : SmurfHeader) (header : Bytes) (numAverages : Int32)
    : (self.averageControl header numAverages).2.lastSyncword = getSyncword header := by
  simp only [averageControl]
  split
  · split <;> rfl
  · split <;> rfl

end SmurfHeader

-----------------------------------------------------------------------------------------
-- What the accessors depend on
-----------------------------------------------------------------------------------------

/-- Two buffers hold the same header. -/
def SameHeader (header other : Bytes) : Prop :=
  ∀ address < smurfHeaderLength, header address = other address

theorem pullBitField_congr {header other : Bytes} (same : SameHeader header other)
    {field : HeaderField} (inside : field.offset + field.width ≤ smurfHeaderLength)
    : pullBitField header field = pullBitField other field := by
  have bytes : word header field.offset field.width = word other field.offset field.width :=
    word_congr (fun k less => same _ (by omega))
  rw [pullBitField, pullBitField, bytes]

/-- Writing a field leaves the fields before and behind it alone. -/
theorem pullBitField_putField_of_disjoint (header data : Bytes) {offset width : Nat}
    {field : HeaderField}
    (apart : offset + width ≤ field.offset ∨ field.offset + field.width ≤ offset)
    : pullBitField (putField header offset width data) field = pullBitField header field := by
  have same
      : word (putField header offset width data) field.offset field.width
        = word header field.offset field.width :=
    word_congr (fun k _ => if_neg (by omega))
  rw [pullBitField, pullBitField, same]

namespace SmurfHeader

variable {header other : Bytes} {field : HeaderField}

theorem getField_congr (same : SameHeader header other)
    (inside : field.offset + field.width ≤ smurfHeaderLength)
    : getField header field = getField other field := by
  rw [getField, getField, pullBitField_congr same inside]

theorem getLowField_congr (same : SameHeader header other)
    (inside : field.offset + field.width ≤ smurfHeaderLength)
    : getLowField header field = getLowField other field := by
  rw [getLowField, getLowField, pullBitField_congr same inside]

theorem ctrlBit_congr (same : SameHeader header other) (bit : UInt64)
    : ctrlBit header bit = ctrlBit other bit := by
  rw [ctrlBit, ctrlBit, pullBitField_congr same (by decide)]

theorem getFrameCounter_congr (same : SameHeader header other)
    : getFrameCounter header = getFrameCounter other :=
  getField_congr same (by decide)

theorem get1hzCounter_congr (same : SameHeader header other)
    : get1hzCounter header = get1hzCounter other :=
  getField_congr same (by decide)

theorem getSyncword_congr (same : SameHeader header other)
    : getSyncword header = getSyncword other :=
  getLowField_congr same (by decide)

theorem getEpicsSeconds_congr (same : SameHeader header other)
    : getEpicsSeconds header = getEpicsSeconds other :=
  getLowField_congr same (by decide)

theorem getEpicsNanoseconds_congr (same : SameHeader header other)
    : getEpicsNanoseconds header = getEpicsNanoseconds other :=
  getLowField_congr same (by decide)

theorem getTestMode_congr (same : SameHeader header other)
    : getTestMode header = getTestMode other := by
  rw [getTestMode, getTestMode, getField_congr same (by decide)]

theorem getTestParameter_congr (same : SameHeader header other)
    : getTestParameter header = getTestParameter other :=
  getField_congr same (by decide)

theorem averageControl_congr (same : SameHeader header other) (self : SmurfHeader)
    (numAverages : Int32)
    : self.averageControl header numAverages = self.averageControl other numAverages := by
  rw [averageControl, averageControl, getSyncword_congr same]

end SmurfHeader

end Smurf
