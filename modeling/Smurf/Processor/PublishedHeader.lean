import Smurf.Library.Runs
import Smurf.Processor.Publishing

/-! The header of a published packet.
It is the header received, with the TES bias words, the time and the channel count replaced.
An iteration stands where it copies the TES bias words under their mutex: nothing else in it
reads or writes them, so `setTesBias` calls and iterations interleave as whole steps.
-/

namespace Smurf

open ByteMemory Runs

/-- A published packet with the frame it was made from, the `setTesBias` calls before the
copy of the words, the latest first, and the time the clocks were last checked at.
-/
structure Publication where
  packet : Packet
  frame : Frame
  sets : List (Nat × Int32)
  current : UInt64

/-- The processor with its array of TES bias words, the `setTesBias` calls so far that did
not throw, and the packets published, both with the latest first.
-/
structure Session where
  processor : SmurfProcessor
  tesBias : Bytes
  sets : List (Nat × Int32)
  published : List Publication

inductive Event
  | setTesBias (index : Nat) (value : Int32)
  | iterate (arrival : Arrival)

/-- The frame of an iteration has a header and all samples, and fits the buffer. -/
def Event.Full (event : Event) : Prop :=
  ∀ arrival, event = .iterate arrival → arrival.frame.Full

namespace Session

/-- The array is value-initialised. -/
def start (host : Host) (configFile : Option (List String)) (maskFile : Option (List UInt32))
    : Session where
  processor := SmurfProcessor.create host configFile maskFile
  tesBias := fun _ => 0
  sets := []
  published := []

def setTesBias (session : Session) (index : Nat) (value : Int32) : Session :=
  match TesBiasArray.setWord 0 session.tesBias index value with
  | .ok tesBias => { session with tesBias, sets := (index, value) :: session.sets }
  | .error _ => session

/-- One iteration; the words it copies are those of the array at this point. -/
def iterate (host : Host) (session : Session) (arrival : Arrival) : Session :=
  let copied := { arrival with tesBias := session.tesBias }
  let (processor, outcome) := session.processor.iterate host copied
  match outcome.packet? with
  | none => { session with processor }
  | some packet =>
      { session with
        processor
        published :=
          ⟨packet, arrival.frame, session.sets, processor.V.unixTime.current⟩
            :: session.published }

def step (host : Host) (session : Session) : Event → Session
  | .setTesBias index value => session.setTesBias index value
  | .iterate arrival => session.iterate host arrival

/-- The value last set for a word, or 0. -/
def lastSet (index : Nat) : List (Nat × Int32) → Int32
  | [] => 0
  | (k, value) :: earlier => if k = index then value else lastSet index earlier

/-- The array holds the low 20 bits of the values last set. -/
def HoldsLastSet (tesBias : Bytes) (sets : List (Nat × Int32)) : Prop :=
  ∀ index < tesBiasCount,
    field tesBias (TesBiasArray.wordSpan 0 index)
    = (lastSet index sets).toUInt32.toNat % 2 ^ 20

/-- Setting a word changes that word alone. -/
theorem HoldsLastSet.putWord {tesBias : Bytes} {sets : List (Nat × Int32)}
    (holds : HoldsLastSet tesBias sets) (index : Nat) (value : Int32)
    : HoldsLastSet (TesBiasArray.putWord 0 tesBias index value) ((index, value) :: sets) := by
  intro other inside
  have stores := TesBiasArray.stores_putWord 0 tesBias index value
  rw [lastSet]
  by_cases own : index = other
  · subst own
    rw [if_pos rfl]
    exact stores.field_self
  · rw [if_neg own, ← holds other inside]
    refine stores.field_of_disjoint ?_
    simp only [Span.Disjoint, TesBiasArray.wordSpan]
    omega

end Session

/-- The header published is the header received, with three fields replaced. -/
structure Publication.HeaderReplaced (publication : Publication) : Prop where
  numberChannels
    : SmurfPacket.getNumberChannels publication.packet.headerBytes = UInt32.ofNat smurfSamples
  tesBias
    : ∀ index < tesBiasCount,
        SmurfPacket.getTESBias publication.packet.headerBytes index
        = .ok
            (TesBiasArray.signExtend
              (Session.lastSet index publication.sets).toUInt32.toNat)
  unixTime
    : SmurfPacket.getUnixTime publication.packet.headerBytes = publication.current
  others
    : ∀ address < smurfHeaderLength,
        address < 4 ∨ 56 ≤ address
        → publication.frame.bytes[address]?
          = some (publication.packet.headerBytes address)

/-- A stamped header keeps what was received outside the three fields. -/
theorem SmurfProcessor.stampedHeader_received (frame : Frame) (full : frame.Full)
    (buffer words : Bytes) (current : UInt64) {address : Nat}
    (inside : address < smurfHeaderLength) (outside : address < 4 ∨ 56 ≤ address)
    : frame.bytes[address]?
      = some
          (stampedHeader
            (putField (frameToBuffer frame buffer) hTesDac.offset hTesDac.width words)
            current address) := by
  have long : address < frame.bytes.length := by
    have := full.least
    simp only [smurfDataLength] at this
    omega
  rw [stampedHeader_of_outside _ _ (by omega), putField,
    if_neg (by show ¬ (8 ≤ address ∧ address < 8 + 40); omega), frameToBuffer_eq,
    copyTo_of_lt _ (Nat.zero_le _) long, List.getElem?_eq_getElem long]
  rfl

/-- The header of the packet that an iteration publishes. -/
theorem SmurfProcessor.headerReplaced_iterate (host : Host) (processor : SmurfProcessor)
    (arrival : Arrival) {sets : List (Nat × Int32)}
    (holds : Session.HoldsLastSet arrival.tesBias sets) (full : arrival.frame.Full)
    {packet : Packet} (published : (processor.iterate host arrival).2.packet? = some packet)
    : Publication.HeaderReplaced
        ⟨packet, arrival.frame, sets, (processor.iterate host arrival).1.V.unixTime.current⟩ := by
  have same := headerBytes_iterate host processor arrival published
  have time := getUnixTime_published host processor arrival published
  generalize (processor.iterate host arrival).1.V.unixTime.current = current at same time ⊢
  constructor
  · rw [SmurfPacket.getNumberChannels, SmurfPacket.getHeaderWord_congr same (by decide)]
    exact getNumberChannels_stampedHeader _ _
  · intro index inside
    have words
        : field packet.headerBytes (TesBiasArray.wordSpan hTesDac.offset index)
          = (Session.lastSet index sets).toUInt32.toNat % 2 ^ 20 := by
      rw [← holds index inside,
        ← TesBiasArray.field_putField (frameToBuffer arrival.frame processor.bufferLast)
          arrival.tesBias inside,
        ← field_stampedHeader (putField _ _ _ arrival.tesBias) current inside]
      refine field_congr (fun k within => ?_)
      have bounds : 8 * 8 + 20 * index ≤ k ∧ k < 8 * 8 + 20 * index + 20 := within
      unfold tesBiasCount at inside
      rw [bit, bit, same _ (by show _ < 128; omega)]
    refine (TesBiasArray.getWord_eq _ _ inside).trans ?_
    exact congrArg Except.ok
      ((congrArg TesBiasArray.signExtend words).trans (TesBiasArray.signExtend_mod _))
  · exact time
  · intro address inside outside
    rw [same address inside]
    exact stampedHeader_received arrival.frame full _ _ _ inside outside

namespace Session

/-- What holds of the array and of the packets published so far. -/
structure Sound (session : Session) : Prop where
  holds : HoldsLastSet session.tesBias session.sets
  published : ∀ publication ∈ session.published, publication.HeaderReplaced

theorem sound_start (host : Host) (configFile : Option (List String))
    (maskFile : Option (List UInt32))
    : Sound (start host configFile maskFile) where
  holds _ _ := field_zeros _
  published := by simp [start]

theorem Sound.setTesBias {session : Session} (sound : Sound session) (index : Nat)
    (value : Int32)
    : Sound (session.setTesBias index value) := by
  rw [Session.setTesBias, TesBiasArray.setWord]
  by_cases outside : tesBiasCount ≤ index
  · rw [if_pos outside]
    exact sound
  · rw [if_neg outside]
    exact ⟨sound.holds.putWord index value, sound.published⟩

theorem Sound.iterate {session : Session} (sound : Sound session) (host : Host)
    {arrival : Arrival} (full : arrival.frame.Full)
    : Sound (session.iterate host arrival) := by
  have header {packet : Packet}
      (published
        : (session.processor.iterate host
            { arrival with tesBias := session.tesBias }).2.packet? = some packet) :=
    session.processor.headerReplaced_iterate host
      { arrival with tesBias := session.tesBias } sound.holds full published
  rw [Session.iterate]
  generalize session.processor.iterate host { arrival with tesBias := session.tesBias } = after
    at header ⊢
  obtain ⟨processor, outcome⟩ := after
  dsimp only at header ⊢
  cases published : outcome.packet? with
  | none => exact ⟨sound.holds, sound.published⟩
  | some packet =>
      refine ⟨sound.holds, fun publication member => ?_⟩
      rcases List.mem_cons.mp member with rfl | earlier
      · exact header published
      · exact sound.published publication earlier

end Session

end Smurf
