import Smurf.Packet.Header

/-! Generated test data.
The samples that the source computes with `rand` and `sin` are taken from outside.
-/

namespace Smurf

def squareWaveAmplitude : UInt32 := 20000
def squareWaveCycles : UInt32 := 1000

structure SmurfTestData where
  counter : UInt32
  toggle : UInt32
  counter16 : UInt16
  initialSync : UInt32
  init : Bool

namespace SmurfTestData

def create : SmurfTestData where
  counter := 0
  toggle := 0
  counter16 := 0
  initialSync := 0
  init := false

/-- The raw samples of a test mode, replacing those of `input`. `random` gives the samples
of mode 4, `sine` the one value of mode 5 for a counter and a parameter.
-/
def genTestSmurfData (random : Fin smurfRawSamples → Int16) (sine : UInt16 → UInt8 → Int16)
    (self : SmurfTestData) (input : Fin smurfRawSamples → Int16) (mode sync : UInt32)
    (param : UInt8)
    : SmurfTestData × (Fin smurfRawSamples → Int16) :=
  match mode.toNat with
  | 1 => (self, fun _ => 0)
  | 2 => (self, fun j => Int16.ofNat j)
  | 3 =>
      let value := 2 * self.toggle * squareWaveAmplitude - squareWaveAmplitude
      let self :=
        if self.counter ≠ sync ∧ sync % squareWaveCycles = 0 then
          { self with
            toggle := if self.toggle ≠ 0 then 0 else 1
            counter := sync }
        else self
      (self, fun _ => value.toUInt16.toInt16)
  | 4 => (self, random)
  | 5 =>
      let counter16 := self.counter16 + 1
      ({ self with counter16 }, fun _ => sine counter16 param)
  | _ => (self, input)

/-- The averages of a test mode, replacing those of `input`. -/
def genTestMceData (self : SmurfTestData) (input : Fin smurfSamples → Int32)
    (mode sync : UInt32) (param : UInt8)
    : SmurfTestData × (Fin smurfSamples → Int32) :=
  let self := if self.init then self else { self with init := true, initialSync := sync }
  let ramp : Int32 := (param.toUInt32 * (sync - self.initialSync)).toInt32
  match mode.toNat with
  | 8 => (self, fun _ => 0)
  | 9 => (self, fun j => Int32.ofNat j)
  | 10 => (self, fun _ => ramp)
  | 14 => (self, fun _ => ramp)
  | 15 => (self, fun _ => 10000000)
  | _ => (self, input)

/-- The sync word of the first frame whose averages were to be replaced stays the start of the
ramp.
-/
def latch (self : SmurfTestData) (sync : UInt32) : SmurfTestData :=
  if self.init then self else { self with init := true, initialSync := sync }

/-- What is left of the generator does not depend on the mode. -/
theorem genTestMceData_fst (self : SmurfTestData) (input : Fin smurfSamples → Int32)
    (mode sync : UInt32) (param : UInt8)
    : (self.genTestMceData input mode sync param).1 = self.latch sync := by
  simp only [genTestMceData]
  split <;> rfl

end SmurfTestData

end Smurf
