import Mathlib.Algebra.Field.Rat
import Mathlib.Logic.Function.Basic
import Smurf.Packet.Header

/-! The configuration and mask files.
A file is given by what `fscanf` reads from it: the words of `smurf.cfg`, each shorter than
the 100 bytes of its buffer, and the numbers of `mask.txt` up to the first word that is not
one. A file that cannot be opened is `none`. Characters are bytes, and a word may have zeros in
it, at the first of which the functions of C take it to end.
-/

namespace Smurf

/-- The value of the decimal digits at the start of a text, after those read so far. -/
def decimal (soFar : Nat) : List Char → Nat
  | [] => soFar
  | c :: rest => if c.isDigit then decimal (soFar * 10 + (c.toNat - 48)) rest else soFar

/-- `strtol` in base 10 on a word, which has no blanks; out of range it gives the nearest
64-bit value.
-/
def strtol (value : String) : Int :=
  match value.toList with
  | '-' :: digits => max (-2 ^ 63) (-(decimal 0 digits : Int))
  | '+' :: digits => min (2 ^ 63 - 1) (decimal 0 digits : Int)
  | digits => min (2 ^ 63 - 1) (decimal 0 digits : Int)

/-- What `strcmp`, `strncpy`, `strtol` and `strtof` see of a word: the characters before its
first zero.
-/
def cString (word : String) : String :=
  String.ofList (word.toList.takeWhile (· ≠ Char.ofNat 0))

/-- A positive number of frames as the unsigned number it is compared as. -/
theorem toNat_toUInt32_of_pos {n : Int32} (positive : 0 < n.toInt)
    : n.toUInt32.toNat = n.toInt.toNat :=
  Int32.toNat_toUInt32_of_le (Int32.le_iff_toInt_le.mpr (by simpa using positive.le))

@[ext]
structure SmurfConfig where
  numAverages : Int32
  dataFileName : String
  fileNameExtend : Int32
  dataFrames : Int32
  filterOrder : Int32
  filterG : ℚ
  filterA : Nat → ℚ
  filterB : Nat → ℚ

namespace SmurfConfig

/-- The values before a file is read. -/
def defaults : SmurfConfig where
  numAverages := 0
  dataFileName := "data"
  fileNameExtend := 1
  dataFrames := 0
  filterOrder := 0
  filterG := 1
  filterA := Function.update (fun _ => 0) 0 1
  filterB := Function.update (fun _ => 0) 0 1

section Reading

-- the conversion of a word to `float`
variable (strtof : String → ℚ)

/-- Sets the field that `key` names; key and value are what the functions of C see of the words.
The source compares the integer fields and the name with the new value first, but only to
report a change.
-/
def assign (self : SmurfConfig) (key value : String) : SmurfConfig :=
  let tmp := Int32.ofInt (strtol value)
  if key = "num_averages" then { self with numAverages := tmp }
  else if key = "data_frames" then { self with dataFrames := tmp }
  else if key = "data_file_name" then { self with dataFileName := value }
  else if key = "file_name_extend" then { self with fileNameExtend := tmp }
  else if key = "filter_order" then { self with filterOrder := tmp }
  else if key = "filter_gain" then { self with filterG := strtof value }
  else
    let named (n : Nat) : Bool :=
      key = "filter_a" ++ toString n || key = "filter_b" ++ toString n
    match (List.range 16).find? named with
    | some n =>
        if key = "filter_a" ++ toString n then
          { self with filterA := Function.update self.filterA n (strtof value) }
        else
          { self with filterB := Function.update self.filterB n (strtof value) }
    | none => self

/-- The words come in pairs; a last word without a value is dropped. -/
def readPairs (self : SmurfConfig) : List String → SmurfConfig
  | key :: value :: rest => readPairs (self.assign strtof (cString key) (cString value)) rest
  | _ => self

/-- Re-reads the file over the values so far. -/
def readConfigFile (self : SmurfConfig) : Option (List String) → SmurfConfig
  | some words => self.readPairs strtof words
  | none => self

/-- The constructor reads the file over the defaults. -/
def create (file : Option (List String)) : SmurfConfig :=
  defaults.readConfigFile strtof file

end Reading

end SmurfConfig

/-- Which raw sample each channel takes. Every entry is the position of a raw sample:
`read_mask` stores no other, so the loop's test for bad ones never fails.
-/
abbrev Mask := Fin smurfSamples → Fin smurfRawSamples

/-- All channels start on sample 0. -/
def Mask.create : Mask :=
  fun _ => 0

/-- Reads the mask file: one number a channel, as far as they go. -/
def readMask (mask : Mask) : Option (List UInt32) → Mask
  | some numbers => fun j =>
      match numbers[j.val]? with
      | some m => if h : m.toNat < smurfRawSamples then ⟨m.toNat, h⟩ else 0
      | none => mask j
  | none => mask

end Smurf
