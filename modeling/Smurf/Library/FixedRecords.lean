import Mathlib.Data.Fin.Tuple.Basic
import Mathlib.Data.List.FinRange
import Mathlib.Logic.Equiv.Defs
import Smurf.Library.Chunks

/-! Codecs of fixed length, and sequences of their records.
Every list of the right length is the encoding of one value, so parts make up a whole, and what
is read from the beginning of a sequence of records is the beginning of what was written.
-/

namespace FixedRecords

open Chunks

variable {α α' β : Type*}

-----------------------------------------------------------------------------------------
-- Pieces of a list
-----------------------------------------------------------------------------------------

/-- The first pieces of a list are its beginning, by induction on their number. -/
theorem flatMap_chunk (n count : Nat) (bytes : List β)
    : (List.range count).flatMap (fun k => chunk n k bytes) = bytes.take (count * n) := by
  induction count with
  | zero => simp
  | succ count ih =>
      rw [List.range_succ, List.flatMap_append, ih, Nat.add_mul, Nat.one_mul, List.take_add]
      simp [chunk]

/-- A bijection between values and lists of one length. -/
structure Codec (α β : Type*) where
  size : Nat
  encode : α → List β
  decode : List β → α
  length_encode : ∀ x, (encode x).length = size
  decode_encode : ∀ x, decode (encode x) = x
  encode_decode : ∀ bytes, bytes.length = size → encode (decode bytes) = bytes

namespace Codec

/-- One after the other. -/
def writeAll (codec : Codec α β) (xs : List α) : List β :=
  xs.flatMap codec.encode

/-- The values of all whole records; what is left at the end is passed over. -/
def readAll (codec : Codec α β) (bytes : List β) : List α :=
  (List.range (bytes.length / codec.size)).map fun k => codec.decode (chunk codec.size k bytes)

section Records

variable (codec : Codec α β) (xs : List α)

@[simp] theorem length_writeAll : (codec.writeAll xs).length = xs.length * codec.size := by
  rw [writeAll, List.length_flatMap]
  simp [codec.length_encode]

/-- A record is the piece at its place, by induction on the place. -/
theorem chunk_writeAll {k : Nat} (inside : k < xs.length)
    : chunk codec.size k (codec.writeAll xs) = codec.encode xs[k] := by
  induction xs generalizing k with
  | nil => exact absurd inside (Nat.not_lt_zero k)
  | cons x rest ih =>
      rw [writeAll, List.flatMap_cons, chunk]
      cases k with
      | zero =>
          rw [Nat.zero_mul, List.drop_zero, List.take_left' (codec.length_encode x)]
          rfl
      | succ k =>
          rw [Nat.add_mul, Nat.one_mul, Nat.add_comm, ← codec.length_encode x,
            List.drop_length_add_append, codec.length_encode x]
          exact ih (Nat.lt_of_succ_lt_succ inside)

/-- The values of the first pieces have these pieces as their records. -/
theorem writeAll_decode_chunk {count : Nat} {bytes : List β}
    (inside : count * codec.size ≤ bytes.length)
    : codec.writeAll
        ((List.range count).map fun k => codec.decode (chunk codec.size k bytes))
      = bytes.take (count * codec.size) := by
  have each
      : ∀ k ∈ List.range count,
          codec.encode (codec.decode (chunk codec.size k bytes)) = chunk codec.size k bytes := by
    intro k member
    have fits : (k + 1) * codec.size ≤ bytes.length :=
      le_trans (Nat.mul_le_mul_right _ (List.mem_range.mp member)) inside
    rw [Nat.add_mul, Nat.one_mul] at fits
    refine codec.encode_decode _ ?_
    rw [chunk, List.length_take, List.length_drop]
    omega
  rw [writeAll, List.flatMap_map, List.flatMap_congr each, flatMap_chunk]

/-- Whole records are those of the values read from them. -/
theorem writeAll_readAll {bytes : List β} (whole : codec.size ∣ bytes.length)
    : codec.writeAll (codec.readAll bytes) = bytes := by
  rw [readAll, codec.writeAll_decode_chunk (Nat.div_mul_le_self _ _), Nat.div_mul_cancel whole,
    List.take_length]

end Records

-----------------------------------------------------------------------------------------
-- Parts and wholes
-----------------------------------------------------------------------------------------

/-- One entry stands for itself. -/
def single [Inhabited β] : Codec β β where
  size := 1
  encode x := [x]
  decode bytes := bytes.headD default
  length_encode _ := rfl
  decode_encode _ := rfl
  encode_decode bytes length := by
    obtain ⟨x, rfl⟩ := List.length_eq_one_iff.mp length
    rfl

theorem writeAll_single [Inhabited β] (bytes : List β) : single.writeAll bytes = bytes :=
  List.flatMap_singleton' bytes

/-- A value behind another one. -/
def pair (first : Codec α β) (second : Codec α' β) : Codec (α × α') β where
  size := first.size + second.size
  encode x := first.encode x.1 ++ second.encode x.2
  decode bytes := (first.decode (bytes.take first.size), second.decode (bytes.drop first.size))
  length_encode x := by rw [List.length_append, first.length_encode, second.length_encode]
  decode_encode x := by
    rw [List.take_left' (first.length_encode _), List.drop_left' (first.length_encode _),
      first.decode_encode, second.decode_encode]
  encode_decode bytes length := by
    rw [first.encode_decode _ (by rw [List.length_take]; omega),
      second.encode_decode _ (by rw [List.length_drop]; omega), List.take_append_drop]

/-- A fixed number of values in order. -/
def vector (n : Nat) (codec : Codec α β) : Codec (Fin n → α) β where
  size := n * codec.size
  encode x := codec.writeAll (List.ofFn x)
  decode bytes i := codec.decode (chunk codec.size i bytes)
  length_encode x := by rw [length_writeAll, List.length_ofFn]
  decode_encode x := by
    funext i
    have inside : i.val < (List.ofFn x).length := by simp
    rw [chunk_writeAll codec _ inside, codec.decode_encode, List.getElem_ofFn]
  encode_decode bytes length := by
    have values
        : List.ofFn (fun i : Fin n => codec.decode (chunk codec.size i bytes))
          = (List.range n).map fun k => codec.decode (chunk codec.size k bytes) := by
      rw [List.ofFn_eq_map, ← List.map_coe_finRange_eq_range, List.map_map]
      rfl
    rw [values, codec.writeAll_decode_chunk (Nat.le_of_eq length.symm), ← length,
      List.take_length]

/-- Another name for the same value. -/
def renamed (codec : Codec α β) (rename : α ≃ α') : Codec α' β where
  size := codec.size
  encode x := codec.encode (rename.symm x)
  decode bytes := rename (codec.decode bytes)
  length_encode x := codec.length_encode _
  decode_encode x := by rw [codec.decode_encode, rename.apply_symm_apply]
  encode_decode bytes length := by
    rw [rename.symm_apply_apply, codec.encode_decode bytes length]

end Codec

end FixedRecords
