import Smurf.Pipeline.ReadBack
import Smurf.Processor.FilteredPhase

/-! From the phase on the frames to the bytes on disk: what a channel reads in the files is what its
phase was filtered and averaged to.
-/

namespace Smurf

open Runs

namespace Pipeline

variable {host : Host} {configFile : Option (List String)} {maskFile : Option (List UInt32)}
  {pipeline : Pipeline} {j : Fin smurfSamples} {phase : Nat → Int} {n : Nat}

end Pipeline

end Smurf
