import Smurf.Library.Provenance
import Smurf.Library.Runs
import Smurf.Processor.Stages

/-! Frames of any size in buffers of a fixed one.
The source copies every frame that `acceptFrame` lets pass, whatever its length, and then uses
the header and the masked samples wherever they lie in the buffer. Each byte of the two buffers
is marked with the frame it was copied from.
-/

namespace Smurf

open ByteMemory Provenance Runs

/-- The stores of `std::copy`, which returns the address behind the last one. -/
def copyStores (dst : Nat) (bytes : List UInt8) : List (Nat × UInt8) :=
  (bytes.zipIdx dst).map Prod.swap

/-- The stores of `frameToBuffer`, one segment behind the other. -/
def frameStores (frame : Frame) : List (Nat × UInt8) :=
  (frame.segments.foldl
    (fun (copied : List (Nat × UInt8) × Nat) segment =>
      (copied.1 ++ copyStores copied.2 segment, copied.2 + segment.length))
    ([], 0)).1

theorem copyStores_append (dst : Nat) (first second : List UInt8)
    : copyStores dst (first ++ second)
      = copyStores dst first ++ copyStores (dst + first.length) second := by
  rw [copyStores, List.zipIdx_append, List.map_append, copyStores, copyStores]

/-- The segments are stored like the frame's bytes in one piece, by induction on them. -/
theorem frameStores_eq (frame : Frame) : frameStores frame = copyStores 0 frame.bytes := by
  suffices general
    : ∀ (segments : List (List UInt8)) (stored : List UInt8),
        (segments.foldl
          (fun (copied : List (Nat × UInt8) × Nat) segment =>
            (copied.1 ++ copyStores copied.2 segment, copied.2 + segment.length))
          (copyStores 0 stored, stored.length)).1
        = copyStores 0 (stored ++ segments.flatten) by
    exact general frame.segments []
  intro segments
  induction segments with
  | nil => simp
  | cons segment rest ih =>
      intro stored
      rw [List.foldl_cons, List.flatten_cons, ← List.append_assoc, ← ih, copyStores_append,
        Nat.zero_add, List.length_append]

/-- A frame is stored to the addresses below its length. -/
theorem mem_frameStores_iff {frame : Frame} {address : Nat}
    : address ∈ (frameStores frame).map Prod.fst ↔ address < frame.bytes.length := by
  have addresses
      : (frameStores frame).map Prod.fst = List.range' 0 frame.bytes.length := by
    rw [frameStores_eq, copyStores, List.map_map]
    exact List.zipIdx_map_snd 0 frame.bytes
  rw [addresses, List.mem_range'_1]
  omega

/-- Copying bytes is performing their stores, by induction on the bytes. -/
theorem storeAll_copyStores (bytes : List UInt8) (dst : Nat) (memory : Bytes)
    : storeAll (copyStores dst bytes) memory = copyTo memory dst bytes := by
  induction bytes generalizing dst memory with
  | nil => exact (copyTo_nil memory dst).symm
  | cons byte bytes ih =>
      have first : copyTo memory dst [byte] = Function.update memory dst byte := by
        funext address
        rw [copyTo, Function.update_apply]
        by_cases here : address = dst
        · subst here
          simp
        · rw [if_neg here]
          split
          · rw [List.getElem?_eq_none (by simp; omega), Option.getD_none]
          · rfl
      have rest : copyTo memory dst (byte :: bytes)
          = copyTo (Function.update memory dst byte) (dst + 1) bytes := by
        rw [← first]
        exact (copyTo_append memory dst [byte] bytes).symm
      rw [rest, ← ih]
      rfl

/-- `frameToBuffer` performs its stores. -/
theorem frameToBuffer_eq_storeAll (frame : Frame) (buffer : Bytes)
    : frameToBuffer frame buffer = storeAll (frameStores frame) buffer := by
  rw [frameToBuffer_eq, frameStores_eq, storeAll_copyStores]

/-- A call of `acceptFrame`, with what else the loop reads when it comes to the frame. -/
structure Offer where
  busy : Bool
  error : UInt32
  flags : UInt32
  arrival : Arrival

/-- Whether `acceptFrame` queues the frame. -/
def Offer.accepts (self : Offer) : Bool :=
  !(self.busy || self.error != 0 || self.flags &&& 0x100 != 0)

/-- The processor with the marks of its two buffers, nothing or the number of a frame, and the
number of frames queued so far. The loop takes them off the queue in order, so a step stands
where it does that.
-/
structure Marked where
  processor : SmurfProcessor
  marks : Bool → Nat → Option Nat
  received : Nat

namespace Marked

/-- The buffers are zeroed. -/
def start (host : Host) (configFile : Option (List String)) (maskFile : Option (List UInt32))
    : Marked where
  processor := SmurfProcessor.create host configFile maskFile
  marks := fun _ _ => none
  received := 0

/-- The marks of the target buffer after a frame is copied to it. -/
def copied (self : Marked) (frame : Frame) : Nat → Option Nat :=
  markAll (some self.received) (frameStores frame) (self.marks self.processor.bufn)

def step (host : Host) (self : Marked) (offer : Offer) : Marked :=
  if offer.accepts then
    { processor := (self.processor.iterate host offer.arrival).1
      marks :=
        Function.update self.marks self.processor.bufn (self.copied offer.arrival.frame)
      received := self.received + 1 }
  else self

/-- The copy of a frame stays in the buffer, and leaves the frame's own bytes in the whole
header and, if the loop goes on with the frame, in all masked samples.
-/
structure OwnBytes (marked : Marked) (arrival : Arrival) : Prop where
  inside : ∀ store ∈ frameStores arrival.frame, store.1 < pyrogueBufferLength
  header
    : ∀ address < smurfHeaderLength,
        marked.copied arrival.frame address = some marked.received
  samples
    : marked.processor.counts.inOrder (marked.processor.counterRead arrival) = true
      → ∀ j,
          ∀ k < 2,
            marked.copied arrival.frame (smurfHeaderLength + 2 * marked.processor.mask j + k)
            = some marked.received

/-- A frame that is queued is handled with its own bytes. -/
def HandlesOwnBytes (marked : Marked) (offer : Offer) : Prop :=
  offer.accepts = true → marked.OwnBytes offer.arrival

/-- The frame has a header, fits the buffer and, if it is in order, has all masked samples. -/
structure Fits (processor : SmurfProcessor) (frame : Frame) : Prop where
  least : smurfHeaderLength ≤ frame.bytes.length
  most : frame.bytes.length ≤ pyrogueBufferLength
  samples
    : processor.counts.inOrder frame.counter = true
      → ∀ j, smurfHeaderLength + 2 * processor.mask j + 2 ≤ frame.bytes.length

/-- A frame that is queued fits. -/
def FitsIfQueued (marked : Marked) (offer : Offer) : Prop :=
  offer.accepts = true → Fits marked.processor offer.arrival.frame

/-- No byte is marked with a frame that is still to come. -/
def PastMarks (marked : Marked) : Prop :=
  ∀ side address n, marked.marks side address = some n → n < marked.received

theorem pastMarks_step (host : Host) (marked : Marked) (offer : Offer)
    (past : marked.PastMarks)
    : (marked.step host offer).PastMarks := by
  rw [step]
  split
  · intro side address n mark
    dsimp only at mark ⊢
    rw [Function.update_apply] at mark
    split at mark
    · rw [copied, markAll_apply] at mark
      split at mark
      · rw [← Option.some.inj mark]
        exact Nat.lt_succ_self _
      · exact Nat.lt_succ_of_lt (past _ _ _ mark)
    · exact Nat.lt_succ_of_lt (past _ _ _ mark)
  · exact past

theorem pastMarks_start (host : Host) (configFile : Option (List String))
    (maskFile : Option (List UInt32))
    : (start host configFile maskFile).PastMarks :=
  fun _ _ _ mark => absurd mark (by simp [start])

/-- A byte of the target buffer is the frame's own exactly when it is below its length. -/
theorem copied_iff {marked : Marked} (past : marked.PastMarks) (frame : Frame) (address : Nat)
    : marked.copied frame address = some marked.received ↔ address < frame.bytes.length := by
  have new : marked.marks marked.processor.bufn address ≠ some marked.received :=
    fun mark => Nat.lt_irrefl _ (past _ _ _ mark)
  rw [copied, markAll_eq_tag_iff new, mem_frameStores_iff]

/-- What is marked with a frame is what the frame has there. -/
theorem buffer_of_copied {marked : Marked} (past : marked.PastMarks) {arrival : Arrival}
    {address : Nat} (own : marked.copied arrival.frame address = some marked.received)
    : (marked.processor.receive arrival.frame).buffer address = arrival.frame.image address := by
  have written := mem_frameStores_iff.mpr ((copied_iff past _ _).mp own)
  rw [SmurfProcessor.buffer_receive, Frame.image, frameToBuffer_eq_storeAll,
    frameToBuffer_eq_storeAll]
  exact storeAll_of_mem written _ _

theorem inside_iff (frame : Frame)
    : (∀ store ∈ frameStores frame, store.1 < pyrogueBufferLength)
      ↔ frame.bytes.length ≤ pyrogueBufferLength := by
  constructor
  · intro inside
    by_contra long
    have last : pyrogueBufferLength < frame.bytes.length := Nat.lt_of_not_le long
    obtain ⟨store, member, here⟩ := List.mem_map.mp (mem_frameStores_iff.mpr last)
    exact absurd (inside store member) (by rw [here]; exact Nat.lt_irrefl _)
  · intro most store member
    exact Nat.lt_of_lt_of_le (mem_frameStores_iff.mp (List.mem_map_of_mem member)) most

theorem ownBytes_iff_fits {marked : Marked} (past : marked.PastMarks) (arrival : Arrival)
    : marked.OwnBytes arrival ↔ Fits marked.processor arrival.frame := by
  have counter (least : smurfHeaderLength ≤ arrival.frame.bytes.length)
      : marked.processor.counterRead arrival = arrival.frame.counter :=
    marked.processor.counterRead_eq (Nat.le_trans (by decide) least)
  constructor
  · intro own
    have least : smurfHeaderLength ≤ arrival.frame.bytes.length :=
      (copied_iff past _ _).mp (own.header (smurfHeaderLength - 1) (by decide))
    refine ⟨least, (inside_iff _).mp own.inside, fun inOrder j => ?_⟩
    rw [← counter least] at inOrder
    exact (copied_iff past _ _).mp (own.samples inOrder j 1 (by decide))
  · intro fits
    refine ⟨(inside_iff _).mpr fits.most, fun address below => ?_, fun inOrder j k less => ?_⟩
    · exact (copied_iff past _ _).mpr (Nat.lt_of_lt_of_le below fits.least)
    · rw [counter fits.least] at inOrder
      have room := fits.samples inOrder j
      exact (copied_iff past _ _).mpr (by omega)

/-- Whatever frames are offered, of any segments: all those queued are copied inside the
buffer and handled with their own bytes exactly when they all fit. Witness: no byte is marked
with a later frame, so the bytes marked with a frame are those its copy stored.
-/
theorem handlesOwnBytes_iff_fits (host : Host) (configFile : Option (List String))
    (maskFile : Option (List UInt32)) (offers : List Offer)
    : EachStep (step host) HandlesOwnBytes (start host configFile maskFile) offers
      ↔ EachStep (step host) FitsIfQueued (start host configFile maskFile) offers :=
  EachStep.congr_of_invariant (I := PastMarks) (fun _ _ => pastMarks_step host _ _)
    (fun _ offer past => imp_congr_right fun _ => ownBytes_iff_fits past offer.arrival)
    (pastMarks_start host configFile maskFile) offers

/-- A frame that `acceptFrame` lets pass. -/
def concreteOffer (frame : Frame) : Offer where
  busy := false
  error := 0
  flags := 0
  arrival := concreteArrival frame

/-- A frame of one byte more than the buffer has is copied past its end, and a header alone,
behind two full frames, is worked on with samples that are not its own.
-/
theorem not_handlesOwnBytes_long_or_short
    : ¬ EachStep (step concreteHost) HandlesOwnBytes (start concreteHost none none)
          [concreteOffer (concreteFrame 0 0 [] (pyrogueBufferLength - smurfHeaderLength + 1))]
      ∧ ¬ EachStep (step concreteHost) HandlesOwnBytes (start concreteHost none none)
          [concreteOffer (concreteFrame 0 0 [] 8192), concreteOffer (concreteFrame 1 0 [] 8192),
            concreteOffer (concreteFrame 2 0 [] 0)] := by
  constructor
  · rintro ⟨handles, -⟩
    have own := (handles rfl).inside
    rw [inside_iff] at own
    refine absurd own ?_
    dsimp only [concreteOffer, concreteArrival]
    rw [length_concreteFrame]
    decide
  · rintro ⟨-, -, handles, -⟩
    have past := pastMarks_start concreteHost none none
    have fits :=
      (ownBytes_iff_fits
        (pastMarks_step concreteHost _ _ (pastMarks_step concreteHost _ _ past)) _).mp
        (handles rfl)
    have room := fits.samples (by decide +kernel) 0
    dsimp only [concreteOffer, concreteArrival] at room
    rw [length_concreteFrame, List.length_nil] at room
    omega

end Marked

end Smurf
