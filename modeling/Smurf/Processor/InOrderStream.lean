import Mathlib.Data.List.Chain
import Smurf.Processor.ConfigPairs
import Smurf.Processor.Forgetting

/-! A stream of frames whose counters do not fall, under files that stay as they are: every
frame is accepted, and neither configuration nor mask changes.
-/

namespace Smurf

open Runs

/-- Reading the file again that was read by the constructor changes nothing. -/
theorem SmurfConfig.readConfigFile_create (strtof : String → ℚ) (file : Option (List String))
    : (create strtof file).readConfigFile strtof file = create strtof file := by
  cases file with
  | none => rfl
  | some words => exact readConfigFile_again strtof defaults words

/-- So does the mask file. -/
theorem readMask_again (mask : Mask) (file : Option (List UInt32))
    : readMask (readMask mask file) file = readMask mask file := by
  cases file with
  | none => rfl
  | some numbers =>
      funext j
      cases found : numbers[j.val]? <;> simp only [readMask, found]

/-- Full frames outside test modes, with counters that do not fall, while the files are missing
or those that the constructor read.
-/
structure InOrderStream (configFile : Option (List String)) (maskFile : Option (List UInt32))
    (arrivals : List Arrival) : Prop where
  full : ∀ arrival ∈ arrivals, arrival.frame.Full
  normal : ∀ arrival ∈ arrivals, arrival.frame.testMode = 0
  counters : (arrivals.map fun arrival => arrival.frame.counter).IsChain (· ≤ ·)
  config
    : ∀ arrival ∈ arrivals, arrival.configFile = none ∨ arrival.configFile = configFile
  mask : ∀ arrival ∈ arrivals, arrival.maskFile = none ∨ arrival.maskFile = maskFile

/-- A regular frame that is accepted. -/
structure Accepted (host : Host) (processor : SmurfProcessor) (arrival : Arrival) : Prop
    extends Regular host processor arrival where
  accepted : processor.counts.inOrder arrival.frame.counter = true

namespace InOrderStream

variable {configFile : Option (List String)} {maskFile : Option (List UInt32)}
  {arrivals : List Arrival}

/-- The frames behind the first one. -/
theorem rest {arrival : Arrival} (stream : InOrderStream configFile maskFile (arrival :: arrivals))
    : InOrderStream configFile maskFile arrivals where
  full := (List.forall_mem_cons.mp stream.full).2
  normal := (List.forall_mem_cons.mp stream.normal).2
  counters := stream.counters.tail
  config := (List.forall_mem_cons.mp stream.config).2
  mask := (List.forall_mem_cons.mp stream.mask).2

/-- What holds of the processor before a stream: it has read the files, and the first counter
does not fall behind the one before.
-/
structure Ready (host : Host) (configFile : Option (List String))
    (maskFile : Option (List UInt32)) (arrivals : List Arrival) (processor : SmurfProcessor)
    : Prop where
  C : processor.C = SmurfConfig.create host.strtof configFile
  mask : processor.mask = readMask Mask.create maskFile
  counter
    : processor.counts.firstFrame = true
      ∨ ∀ first ∈ arrivals.head?, processor.counts.frameNumber ≤ first.frame.counter

variable {host : Host} {processor : SmurfProcessor}

theorem Ready.accepted {arrival : Arrival}
    (stream : InOrderStream configFile maskFile (arrival :: arrivals))
    (ready : Ready host configFile maskFile (arrival :: arrivals) processor)
    : Accepted host processor arrival where
  full := stream.full arrival List.mem_cons_self
  normal := stream.normal arrival List.mem_cons_self
  C := by
    refine SmurfProcessor.C_iterate host processor arrival ?_
    rw [ready.C]
    rcases stream.config arrival List.mem_cons_self with missing | same
    · rw [missing]
      rfl
    · rw [same]
      exact SmurfConfig.readConfigFile_create host.strtof configFile
  mask := by
    refine SmurfProcessor.mask_iterate host processor arrival ?_
    rw [ready.mask]
    rcases stream.mask arrival List.mem_cons_self with missing | same
    · rw [missing]
      rfl
    · rw [same]
      exact readMask_again Mask.create maskFile
  accepted := by
    rw [FrameCounts.inOrder_iff, ← UInt32.le_iff_toNat_le]
    exact ready.counter.imp_right (fun least => least arrival rfl)

theorem Ready.iterate {arrival : Arrival}
    (stream : InOrderStream configFile maskFile (arrival :: arrivals))
    (ready : Ready host configFile maskFile (arrival :: arrivals) processor)
    : Ready host configFile maskFile arrivals (processor.iterate host arrival).1 where
  C := (ready.accepted stream).C.trans ready.C
  mask := (ready.accepted stream).mask.trans ready.mask
  counter := by
    refine .inr (fun next member => ?_)
    have left := SmurfProcessor.counts_after host processor arrival
      (stream.full arrival List.mem_cons_self)
    rw [left.1]
    refine (List.isChain_cons.mp stream.counters).1 _ ?_
    rw [List.head?_map, Option.mem_def.mp member]
    rfl

/-- Every frame of a stream is accepted, by induction on the frames. -/
theorem each_accepted (stream : InOrderStream configFile maskFile arrivals)
    (ready : Ready host configFile maskFile arrivals processor)
    : EachStep (fun s x => (s.iterate host x).1) (Accepted host) processor arrivals := by
  induction arrivals generalizing processor with
  | nil => trivial
  | cons arrival rest ih =>
      exact ⟨ready.accepted stream, ih stream.rest (ready.iterate stream)⟩

theorem ready_create (host : Host) (configFile : Option (List String))
    (maskFile : Option (List UInt32)) (arrivals : List Arrival)
    : Ready host configFile maskFile arrivals
        (SmurfProcessor.create host configFile maskFile) :=
  ⟨rfl, rfl, .inl rfl⟩

end InOrderStream

end Smurf
