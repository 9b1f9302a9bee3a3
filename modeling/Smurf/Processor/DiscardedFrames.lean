import Smurf.Library.Runs
import Smurf.Processor.Alike

/-! What a discarded frame leaves behind.
A late frame is copied into a buffer and its counter is kept before it is discarded, so the
next frame is compared with it. Whatever the next frame becomes, it takes the place of both.
-/

namespace Smurf

open ByteMemory
open Runs
open SmurfProcessor (unwrapCounter upperUnwrap lowerUnwrap)

/-- Behind `p` or behind `q`, sample `d` is taken for the same wrap. -/
def SameWrap (d p q : Int16) : Prop :=
  (upperUnwrap < d.toInt32 → (p.toInt32 < lowerUnwrap ↔ q.toInt32 < lowerUnwrap))
  ∧ (d.toInt32 < lowerUnwrap → (upperUnwrap < p.toInt32 ↔ upperUnwrap < q.toInt32))

theorem SameWrap.unwrapCounter {d p q : Int16} (same : SameWrap d p q) (wrapCounter : Int32)
    : unwrapCounter d p wrapCounter = unwrapCounter d q wrapCounter := by
  obtain ⟨high, low⟩ := same
  have up
      : (upperUnwrap < d.toInt32 ∧ p.toInt32 < lowerUnwrap)
        ↔ (upperUnwrap < d.toInt32 ∧ q.toInt32 < lowerUnwrap) :=
    and_congr_right high
  have down
      : (d.toInt32 < lowerUnwrap ∧ upperUnwrap < p.toInt32)
        ↔ (d.toInt32 < lowerUnwrap ∧ upperUnwrap < q.toInt32) :=
    and_congr_right low
  simp only [SmurfProcessor.unwrapCounter, up, down]

/-- The payload published in an iteration. -/
def Outcome.payload : Outcome → Option (Fin smurfSamples → Int32)
  | .discarded => none
  | .accepted record => record.packet.map Packet.payload

namespace SmurfProcessor

variable (host : Host) {s t : SmurfProcessor} {arrival : Arrival}

/-- The runs with and without a late frame leave the same wrap counters, averaging and
filter, and publish the same payloads.
-/
structure Undisturbed (host : Host) (processor : SmurfProcessor) (late : Arrival)
    (after : List Arrival) : Prop where
  wrapCounter
    : (transduce (iterate host) (processor.iterate host late).1 after).1.wrapCounter
      = (transduce (iterate host) processor after).1.wrapCounter
  H
    : (transduce (iterate host) (processor.iterate host late).1 after).1.H
      = (transduce (iterate host) processor after).1.H
  F
    : (transduce (iterate host) (processor.iterate host late).1 after).1.F
      = (transduce (iterate host) processor after).1.F
  payloads
    : (transduce (iterate host) (processor.iterate host late).1 after).2.map Outcome.payload
      = (transduce (iterate host) processor after).2.map Outcome.payload

end SmurfProcessor

end Smurf
