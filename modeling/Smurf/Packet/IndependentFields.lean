import Smurf.Packet.SmurfPacket

/-! The packet header is a set of independent fields.
Each field is an interval of the header's bits, each setter a store into the interval it
covers. Intervals of different fields are disjoint, and the control field's is made up of
four bits and the test mode.
-/

namespace Smurf.SmurfPacket

open ByteMemory

/-- The fields that no setter writes only a part of, apart from the TES bias words. -/
inductive Field
  | version
  | crateID
  | slotNumber
  | timingConfiguration
  | numberChannels
  | unixTime
  | fluxRampIncrement
  | fluxRampOffset
  | counter0
  | counter1
  | counter2
  | averagingResetBits
  | frameCounter
  | tesRelaySetting
  | externalTimeClock
  | clearAverageBit
  | disableStreamBit
  | disableFileWriteBit
  | readConfigEachCycleBit
  | testMode
  | testParameters
  | numberRows
  | numberRowsReported
  | rowLength
  | dataRate
  deriving DecidableEq

namespace Field

def all : List Field :=
  [version, crateID, slotNumber, timingConfiguration, numberChannels, unixTime,
    fluxRampIncrement, fluxRampOffset, counter0, counter1, counter2, averagingResetBits,
    frameCounter, tesRelaySetting, externalTimeClock, clearAverageBit, disableStreamBit,
    disableFileWriteBit, readConfigEachCycleBit, testMode, testParameters, numberRows,
    numberRowsReported, rowLength, dataRate]

theorem mem_all (field : Field) : field ∈ all := by
  cases field <;> decide

/-- The bits of a field. -/
def span : Field → Span
  | version => .ofBytes headerVersionOffset 1
  | crateID => .ofBytes headerCrateIDOffset 1
  | slotNumber => .ofBytes headerSlotNumberOffset 1
  | timingConfiguration => .ofBytes headerTimingConfigurationOffset 1
  | numberChannels => .ofBytes headerNumberChannelOffset 4
  | unixTime => .ofBytes headerUnixTimeOffset 8
  | fluxRampIncrement => .ofBytes headerFluxRampIncrementOffset 4
  | fluxRampOffset => .ofBytes headerFluxRampOffsetOffset 4
  | counter0 => .ofBytes headerCounter0Offset 4
  | counter1 => .ofBytes headerCounter1Offset 4
  | counter2 => .ofBytes headerCounter2Offset 8
  | averagingResetBits => .ofBytes headerAveragingResetBitsOffset 4
  | frameCounter => .ofBytes headerFrameCounterOffset 4
  | tesRelaySetting => .ofBytes headerTESRelaySettingOffset 4
  | externalTimeClock => .ofBytes headerExternalTimeClockOffset 8
  | clearAverageBit => controlSpan clearAvergaveBitOffset 1
  | disableStreamBit => controlSpan disableStreamBitOffset 1
  | disableFileWriteBit => controlSpan disableFileWriteBitOffset 1
  | readConfigEachCycleBit => controlSpan readConfigEachCycleBitOffset 1
  | testMode => controlSpan 4 4
  | testParameters => .ofBytes headerTestParametersOffset 1
  | numberRows => .ofBytes headerNumberRowsOffset 2
  | numberRowsReported => .ofBytes headerNumberRowsReportedOffset 2
  | rowLength => .ofBytes headerRowLengthOffset 2
  | dataRate => .ofBytes headerDataRateOffset 2

/-- What the field's getter returns, as a number. -/
def get (header : Bytes) : Field → Nat
  | version => (getVersion header).toNat
  | crateID => (getCrateID header).toNat
  | slotNumber => (getSlotNumber header).toNat
  | timingConfiguration => (getTimingConfiguration header).toNat
  | numberChannels => (getNumberChannels header).toNat
  | unixTime => (getUnixTime header).toNat
  | fluxRampIncrement => (getFluxRampIncrement header).toNat
  | fluxRampOffset => (getFluxRampOffset header).toNat
  | counter0 => (getCounter0 header).toNat
  | counter1 => (getCounter1 header).toNat
  | counter2 => (getCounter2 header).toNat
  | averagingResetBits => (getAveragingResetBits header).toNat
  | frameCounter => (getFrameCounter header).toNat
  | tesRelaySetting => (getTESRelaySetting header).toNat
  | externalTimeClock => (getExternalTimeClock header).toNat
  | clearAverageBit => (getClearAverageBit header).toNat
  | disableStreamBit => (getDisableStreamBit header).toNat
  | disableFileWriteBit => (getDisableFileWriteBit header).toNat
  | readConfigEachCycleBit => (getReadConfigEachCycleBit header).toNat
  | testMode => (getTestMode header).toNat
  | testParameters => (getTestParameters header).toNat
  | numberRows => (getNumberRows header).toNat
  | numberRowsReported => (getNumberRowsReported header).toNat
  | rowLength => (getRowLength header).toNat
  | dataRate => (getDataRate header).toNat

end Field

/-- The bits of TES bias word `index`. -/
def tesSpan (index : Nat) : Span :=
  TesBiasArray.wordSpan headerTESDACOffset index

@[simp] theorem tesSpan_start (index : Nat) : (tesSpan index).start = 64 + 20 * index := rfl

@[simp] theorem tesSpan_length (index : Nat) : (tesSpan index).length = 20 := rfl

/-- A call of a setter. -/
inductive Setter
  | setVersion (value : UInt8)
  | setCrateID (value : UInt8)
  | setSlotNumber (value : UInt8)
  | setTimingConfiguration (value : UInt8)
  | setNumberChannels (value : UInt32)
  | setTESBias (index : Nat) (value : Int32)
  | setUnixTime (value : UInt64)
  | setFluxRampIncrement (value : UInt32)
  | setFluxRampOffset (value : UInt32)
  | setCounter0 (value : UInt32)
  | setCounter1 (value : UInt32)
  | setCounter2 (value : UInt64)
  | setAveragingResetBits (value : UInt32)
  | setFrameCounter (value : UInt32)
  | setTESRelaySetting (value : UInt32)
  | setExternalTimeClock (value : UInt64)
  | setControlField (value : UInt8)
  | setClearAverageBit (value : Bool)
  | setDisableStreamBit (value : Bool)
  | setDisableFileWriteBit (value : Bool)
  | setReadConfigEachCycleBit (value : Bool)
  | setTestMode (value : UInt8)
  | setTestParameters (value : UInt8)
  | setNumberRows (value : UInt16)
  | setNumberRowsReported (value : UInt16)
  | setRowLength (value : UInt16)
  | setDataRate (value : UInt16)

namespace Setter

/-- The header after a call. One that throws leaves it as it was. -/
def apply (header : Bytes) : Setter → Bytes
  | setVersion value => SmurfPacket.setVersion header value
  | setCrateID value => SmurfPacket.setCrateID header value
  | setSlotNumber value => SmurfPacket.setSlotNumber header value
  | setTimingConfiguration value => SmurfPacket.setTimingConfiguration header value
  | setNumberChannels value => SmurfPacket.setNumberChannels header value
  | setTESBias index value =>
      match SmurfPacket.setTESBias header index value with
      | .ok after => after
      | .error _ => header
  | setUnixTime value => SmurfPacket.setUnixTime header value
  | setFluxRampIncrement value => SmurfPacket.setFluxRampIncrement header value
  | setFluxRampOffset value => SmurfPacket.setFluxRampOffset header value
  | setCounter0 value => SmurfPacket.setCounter0 header value
  | setCounter1 value => SmurfPacket.setCounter1 header value
  | setCounter2 value => SmurfPacket.setCounter2 header value
  | setAveragingResetBits value => SmurfPacket.setAveragingResetBits header value
  | setFrameCounter value => SmurfPacket.setFrameCounter header value
  | setTESRelaySetting value => SmurfPacket.setTESRelaySetting header value
  | setExternalTimeClock value => SmurfPacket.setExternalTimeClock header value
  | setControlField value => SmurfPacket.setControlField header value
  | setClearAverageBit value => SmurfPacket.setClearAverageBit header value
  | setDisableStreamBit value => SmurfPacket.setDisableStreamBit header value
  | setDisableFileWriteBit value => SmurfPacket.setDisableFileWriteBit header value
  | setReadConfigEachCycleBit value => SmurfPacket.setReadConfigEachCycleBit header value
  | setTestMode value => SmurfPacket.setTestMode header value
  | setTestParameters value => SmurfPacket.setTestParameters header value
  | setNumberRows value => SmurfPacket.setNumberRows header value
  | setNumberRowsReported value => SmurfPacket.setNumberRowsReported header value
  | setRowLength value => SmurfPacket.setRowLength header value
  | setDataRate value => SmurfPacket.setDataRate header value

/-- The bits a call may write and the number written there, of which the bits that fit are
kept. A TES bias word from index 16 on is no part of the header.
-/
def store : Setter → Span × Nat
  | setVersion value => (Field.version.span, value.toNat)
  | setCrateID value => (Field.crateID.span, value.toNat)
  | setSlotNumber value => (Field.slotNumber.span, value.toNat)
  | setTimingConfiguration value => (Field.timingConfiguration.span, value.toNat)
  | setNumberChannels value => (Field.numberChannels.span, value.toNat)
  | setTESBias index value =>
      if index < tesBiasCount then (tesSpan index, value.toUInt32.toNat) else (⟨0, 0⟩, 0)
  | setUnixTime value => (Field.unixTime.span, value.toNat)
  | setFluxRampIncrement value => (Field.fluxRampIncrement.span, value.toNat)
  | setFluxRampOffset value => (Field.fluxRampOffset.span, value.toNat)
  | setCounter0 value => (Field.counter0.span, value.toNat)
  | setCounter1 value => (Field.counter1.span, value.toNat)
  | setCounter2 value => (Field.counter2.span, value.toNat)
  | setAveragingResetBits value => (Field.averagingResetBits.span, value.toNat)
  | setFrameCounter value => (Field.frameCounter.span, value.toNat)
  | setTESRelaySetting value => (Field.tesRelaySetting.span, value.toNat)
  | setExternalTimeClock value => (Field.externalTimeClock.span, value.toNat)
  | setControlField value => (controlSpan 0 8, value.toNat)
  | setClearAverageBit value => (Field.clearAverageBit.span, value.toNat)
  | setDisableStreamBit value => (Field.disableStreamBit.span, value.toNat)
  | setDisableFileWriteBit value => (Field.disableFileWriteBit.span, value.toNat)
  | setReadConfigEachCycleBit value => (Field.readConfigEachCycleBit.span, value.toNat)
  | setTestMode value => (Field.testMode.span, value.toNat)
  | setTestParameters value => (Field.testParameters.span, value.toNat)
  | setNumberRows value => (Field.numberRows.span, value.toNat)
  | setNumberRowsReported value => (Field.numberRowsReported.span, value.toNat)
  | setRowLength value => (Field.rowLength.span, value.toNat)
  | setDataRate value => (Field.dataRate.span, value.toNat)

end Setter

-----------------------------------------------------------------------------------------
-- The layout
-----------------------------------------------------------------------------------------

/-- Different fields have no bit in common. -/
theorem Field.span_disjoint (field other : Field)
    : field = other ∨ field.span.Disjoint other.span := by
  have each : ∀ f ∈ all, ∀ g ∈ all, f = g ∨ f.span.Disjoint g.span := by decide +kernel
  exact each field (mem_all field) other (mem_all other)

/-- The control field's byte covers its bits and the test mode, and misses the others. -/
theorem Field.controlSpan_covers_or_disjoint (field : Field)
    : (controlSpan 0 8).Covers field.span ∨ (controlSpan 0 8).Disjoint field.span := by
  have each
      : ∀ f ∈ all, (controlSpan 0 8).Covers f.span ∨ (controlSpan 0 8).Disjoint f.span := by
    decide +kernel
  exact each field (mem_all field)

/-- The TES bias words have bytes 8 to 47 to themselves. -/
theorem Field.tesSpan_disjoint (field : Field) {index : Nat} (inside : index < tesBiasCount)
    : (tesSpan index).Disjoint field.span := by
  have each
      : ∀ f ∈ all, f.span.start + f.span.length ≤ 64 ∨ 384 ≤ f.span.start := by
    decide +kernel
  have apart := each field (mem_all field)
  simp only [Span.Disjoint, tesSpan_start, tesSpan_length]
  unfold tesBiasCount at inside
  omega

/-- What a call writes: a field of its own, the control field, a TES bias word or nothing.
-/
theorem Setter.store_span (call : Setter)
    : (∃ field : Field, call.store.1 = field.span)
      ∨ call.store.1 = controlSpan 0 8
      ∨ (∃ index < tesBiasCount, call.store.1 = tesSpan index)
      ∨ call.store.1 = ⟨0, 0⟩ := by
  cases call with
  | setControlField value => exact Or.inr (Or.inl rfl)
  | setTESBias index value =>
      right
      right
      by_cases inside : index < tesBiasCount
      · exact Or.inl ⟨index, inside, by rw [store, if_pos inside]⟩
      · exact Or.inr (by rw [store, if_neg inside])
  | _ =>
      left
      simp only [store]
      exact ⟨_, rfl⟩

/-- Every call covers a field or misses it. -/
theorem Setter.covers_or_disjoint (call : Setter) (field : Field)
    : call.store.1.Covers field.span ∨ call.store.1.Disjoint field.span := by
  rcases call.store_span with ⟨own, span⟩ | span | ⟨index, inside, span⟩ | span
  · rw [span]
    rcases own.span_disjoint field with rfl | apart
    · exact Or.inl ⟨Nat.le_refl _, Nat.le_refl _⟩
    · exact Or.inr apart
  · rw [span]
    exact field.controlSpan_covers_or_disjoint
  · rw [span]
    exact Or.inr (field.tesSpan_disjoint inside)
  · rw [span]
    exact Or.inr (Or.inl (Nat.zero_le _))

/-- Every call covers a TES bias word or misses it. -/
theorem Setter.covers_or_disjoint_tesSpan (call : Setter) {index : Nat}
    (inside : index < tesBiasCount)
    : call.store.1.Covers (tesSpan index) ∨ call.store.1.Disjoint (tesSpan index) := by
  rcases call.store_span with ⟨own, span⟩ | span | ⟨other, _, span⟩ | span
  · rw [span]
    exact Or.inr (own.tesSpan_disjoint inside).symm
  · rw [span]
    right
    simp only [Span.Disjoint, tesSpan_start, tesSpan_length, controlSpan_start]
    unfold tesBiasCount at inside
    omega
  · rw [span]
    simp only [Span.Covers, Span.Disjoint, tesSpan_start, tesSpan_length]
    omega
  · rw [span]
    exact Or.inr (Or.inl (Nat.zero_le _))

/-- A bit of the control field is covered by a call or missed. -/
theorem Setter.covers_or_disjoint_controlBit (call : Setter) {j : Nat} (inside : j < 8)
    : call.store.1.Covers (controlSpan j 1) ∨ call.store.1.Disjoint (controlSpan j 1) := by
  have each
      : ∀ f ∈ Field.all, ∀ j < 8,
          f.span.Covers (controlSpan j 1) ∨ f.span.Disjoint (controlSpan j 1) := by
    decide +kernel
  rcases call.store_span with ⟨own, span⟩ | span | ⟨index, low, span⟩ | span
  · rw [span]
    exact each own own.mem_all j inside
  · rw [span]
    left
    simp only [Span.Covers, controlSpan_start, controlSpan_length]
    omega
  · rw [span]
    right
    simp only [Span.Disjoint, tesSpan_start, tesSpan_length, controlSpan_start]
    unfold tesBiasCount at low
    omega
  · rw [span]
    exact Or.inr (Or.inl (Nat.zero_le _))

-----------------------------------------------------------------------------------------
-- Getters read, and setters store into, their own bits
-----------------------------------------------------------------------------------------

theorem Field.get_eq (header : Bytes) (field : Field)
    : field.get header = ByteMemory.field header field.span := by
  cases field with
  | clearAverageBit | disableStreamBit | disableFileWriteBit | readConfigEachCycleBit =>
      rw [span, controlSpan, field_bit]
      exact congrArg Bool.toNat (getWordBit_getControlField header _)
  | testMode => exact toNat_getTestMode header
  | version | crateID | slotNumber | timingConfiguration | testParameters =>
      exact toNat_getHeaderWord (T := UInt8) header _
  | numberRows | numberRowsReported | rowLength | dataRate =>
      exact toNat_getHeaderWord (T := UInt16) header _
  | unixTime | counter2 | externalTimeClock =>
      exact toNat_getHeaderWord (T := UInt64) header _
  | _ => exact toNat_getHeaderWord (T := UInt32) header _

theorem getTESBias_eq (header : Bytes) {index : Nat} (inside : index < tesBiasCount)
    : getTESBias header index
      = .ok (TesBiasArray.signExtend (ByteMemory.field header (tesSpan index))) :=
  TesBiasArray.getWord_eq _ _ inside

/-- A call stores its value into the bits it covers, and nothing else, by cases on the call.
-/
theorem Setter.stores_apply (header : Bytes) (call : Setter)
    : Stores header (call.apply header) call.store.1 call.store.2 := by
  cases call with
  | setTESBias index value =>
      by_cases inside : index < tesBiasCount
      · simp only [apply, store, SmurfPacket.setTESBias, TesBiasArray.setWord, if_pos inside,
          if_neg (Nat.not_le.mpr inside)]
        exact TesBiasArray.stores_putWord _ _ _ _
      · simp only [apply, store, SmurfPacket.setTESBias, TesBiasArray.setWord, if_neg inside,
          if_pos (Nat.not_lt.mp inside)]
        exact Stores.nothing header 0 0
  | setClearAverageBit value => exact stores_setWordBit header _ value
  | setDisableStreamBit value => exact stores_setWordBit header _ value
  | setDisableFileWriteBit value => exact stores_setWordBit header _ value
  | setReadConfigEachCycleBit value => exact stores_setWordBit header _ value
  | setTestMode value => exact stores_setTestMode header value
  | _ => exact stores_setHeaderWord header _ _

-----------------------------------------------------------------------------------------
-- Sequences of setter calls
-----------------------------------------------------------------------------------------

/-- A byte that belongs to no field. -/
def Unused (address : Nat) : Prop :=
  (∀ field : Field, field.span.Disjoint (.ofBytes address 1))
  ∧ ∀ index < tesBiasCount, (tesSpan index).Disjoint (.ofBytes address 1)

/-- The header `after` some setter calls on `header`: every getter returns what the last
call to cover its field wrote there, or the first value if none did. The control field is
covered bit by bit.
-/
structure IndependentFields (header : Bytes) (calls : List Setter) (after : Bytes) : Prop where
  fields
    : ∀ field : Field,
        field.get after
        = (lastWritten field.span (calls.map Setter.store)).getD (field.get header)
  controlField
    : ∀ j < 8,
        (getControlField after).toNat.testBit j
        = ((lastWritten (controlSpan j 1) (calls.map Setter.store)).map (· == 1)).getD
            ((getControlField header).toNat.testBit j)
  tesBias
    : ∀ index < tesBiasCount,
        getTESBias after index
        = ((lastWritten (tesSpan index) (calls.map Setter.store)).map
            (fun word => .ok (TesBiasArray.signExtend word))).getD
            (getTESBias header index)
  outside
    : ∀ k, (∀ call ∈ calls, ¬ call.store.1.Contains k) → bit after k = bit header k
  unused : ∀ address, Unused address → after address = header address

/-- No call has a bit in a byte that belongs to no field. -/
theorem Setter.not_contains_of_unused (call : Setter) {address j : Nat}
    (unused : Unused address) (inside : j < 8)
    : ¬ call.store.1.Contains (8 * address + j) := by
  rintro ⟨from_, upto⟩
  rcases call.store_span with ⟨own, span⟩ | span | ⟨index, low, span⟩ | span
  · rw [span] at from_ upto
    rcases unused.1 own with _ | _ <;> simp only [Span.ofBytes] at * <;> omega
  · rw [span] at from_ upto
    simp only [controlSpan_start, controlSpan_length] at from_ upto
    rcases unused.1 .clearAverageBit with clear | clear <;>
      simp only [Field.span, Span.ofBytes, controlSpan_start, controlSpan_length] at clear <;>
      omega
  · rw [span] at from_ upto
    rcases unused.2 index low with _ | _ <;> simp only [Span.ofBytes] at * <;> omega
  · rw [span] at upto
    simp at upto

/-- Every sequence of setter calls, on every header, leaves the fields independent.
Witness: `field_foldl`, a call covering each field or missing it.
-/
theorem independentFields (header : Bytes) (calls : List Setter)
    : IndependentFields header calls (calls.foldl Setter.apply header) where
  fields field := by
    rw [field.get_eq, field.get_eq]
    exact field_foldl Setter.stores_apply (fun call => call.covers_or_disjoint field) ..
  controlField j inside := by
    have single (memory : Bytes)
        : ByteMemory.field memory (controlSpan j 1)
          = ((getControlField memory).toNat.testBit j).toNat := by
      rw [testBit_getControlField, decide_eq_true inside, Bool.true_and]
      exact field_bit memory _
    have last :=
      field_foldl Setter.stores_apply
        (fun call => call.covers_or_disjoint_controlBit inside) header calls
    rw [single, single] at last
    cases found : lastWritten (controlSpan j 1) (calls.map Setter.store) with
    | none =>
        rw [found] at last
        simp only [Option.map_none, Option.getD_none] at last ⊢
        generalize (getControlField header).toNat.testBit j = before at last ⊢
        revert last
        cases before <;> simp
    | some value =>
        rw [found] at last
        simp only [Option.getD_some, Option.map_some] at last ⊢
        rw [← last]
        cases (getControlField (calls.foldl Setter.apply header)).toNat.testBit j <;> rfl
  tesBias index inside := by
    rw [getTESBias_eq _ inside, getTESBias_eq _ inside,
      field_foldl Setter.stores_apply
        (fun call => call.covers_or_disjoint_tesSpan inside) header calls]
    cases lastWritten (tesSpan index) (calls.map Setter.store) <;> rfl
  outside k none := bit_foldl Setter.stores_apply header none
  unused address unused :=
    eq_of_bit_eq (fun _ inside =>
      bit_foldl Setter.stores_apply header
        (fun call _ => call.not_contains_of_unused unused inside))

end Smurf.SmurfPacket
