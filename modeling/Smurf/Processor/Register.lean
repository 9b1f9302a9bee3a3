import Smurf.Processor.Averaging

/-! The processor beside a register of the frames it accepted.
Counters, averages, test data and the files read follow the accepted frames alone, so what
holds of them along a run is stated over the register.
-/

namespace Smurf

open Runs

/-- The frame reaches up to its control field, and so covers frame counter and sync word. -/
theorem Frame.HasControl.covers {frame : Frame} (control : frame.HasControl)
    {field : HeaderField}
    (before
      : field.offset + field.width ≤ hUser0aCtrl.offset + hUser0aCtrl.width := by decide)
    : field.offset + field.width ≤ frame.bytes.length :=
  Nat.le_trans before control

/-- The sync word in the header of a frame. -/
def Frame.syncword (frame : Frame) : UInt32 :=
  SmurfHeader.getSyncword frame.image

/-- The bit of a frame that asks for the files. -/
def Frame.readConfigBit (frame : Frame) : Bool :=
  SmurfHeader.readConfigFile frame.image

/-- An accepted frame: the arrival, the mask it met with, and what it led to. -/
structure Entry where
  arrival : Arrival
  mask : Mask
  record : Record

def Entry.frame (self : Entry) : Frame :=
  self.arrival.frame

/-- The processor beside the frames it accepted, the latest first. -/
abbrev Register := SmurfProcessor × List Entry

namespace Register

def start (host : Host) (configFile : Option (List String)) (maskFile : Option (List UInt32))
    : Register :=
  (SmurfProcessor.create host configFile maskFile, [])

/-- One iteration; a frame that is accepted is entered. -/
def step (host : Host) (register : Register) (arrival : Arrival) : Register :=
  match register.1.iterate host arrival with
  | (next, .accepted record) => (next, ⟨arrival, register.1.mask, record⟩ :: register.2)
  | (next, .discarded) => (next, register.2)

variable (host : Host) (register : Register) (arrival : Arrival)

theorem step_accepted
    (inOrder : register.1.counts.inOrder (register.1.counterRead arrival) = true)
    : let working := (register.1.receive arrival.frame).checkOrder.2
      step host register arrival
      = ((working.accept host arrival).2,
          ⟨arrival, register.1.mask, (working.accept host arrival).1⟩ :: register.2) := by
  intro working
  rw [step, SmurfProcessor.iterate_accepted host register.1 arrival inOrder]

theorem step_discarded
    (late : ¬ register.1.counts.inOrder (register.1.counterRead arrival) = true)
    : step host register arrival
      = ((register.1.receive arrival.frame).checkOrder.2, register.2) := by
  rw [step, SmurfProcessor.iterate_discarded host register.1 arrival late]

/-- An invariant that accepting and discarding a frame keep holds along every run of frames
that are good.
-/
theorem eachState {host : Host} {I : Register → Prop} (good : Arrival → Prop)
    (discarded
      : ∀ (register : Register) (arrival : Arrival),
          I register
          → good arrival
          → I ((register.1.receive arrival.frame).checkOrder.2, register.2))
    (accepted
      : ∀ (register : Register) (arrival : Arrival),
          let working := (register.1.receive arrival.frame).checkOrder.2
          I register
          → good arrival
          → I ((working.accept host arrival).2,
                ⟨arrival, register.1.mask, (working.accept host arrival).1⟩ :: register.2))
    {register : Register} (start : I register) {arrivals : List Arrival}
    (all : ∀ arrival ∈ arrivals, good arrival)
    : EachState (step host) I register arrivals := by
  have guarded : EachStep (step host) (fun _ arrival => good arrival) register arrivals :=
    .of_forall (fun arrival member _ => all arrival member) _
  refine guarded.invariant start (fun register arrival holds covered => ?_)
  by_cases inOrder : register.1.counts.inOrder (register.1.counterRead arrival) = true
  · rw [step_accepted host register arrival inOrder]
    exact accepted register arrival holds covered
  · rw [step_discarded host register arrival inOrder]
    exact discarded register arrival holds covered

end Register

end Smurf
