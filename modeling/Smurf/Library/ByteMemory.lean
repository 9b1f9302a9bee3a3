import Mathlib.Algebra.Ring.Nat
import Mathlib.Data.List.Basic

/-! Byte memory by address: copying a list of bytes into it, and reading little-endian words.
-/

namespace ByteMemory

/-- A region of memory, by offset from its start. -/
abbrev Bytes := Nat → UInt8

/-- Copy `bytes` to the addresses from `dst` on. -/
def copyTo (memory : Bytes) (dst : Nat) (bytes : List UInt8) : Bytes :=
  fun address =>
    if dst ≤ address then (bytes[address - dst]?).getD (memory address) else memory address

@[simp] theorem copyTo_nil (memory : Bytes) (dst : Nat) : copyTo memory dst [] = memory := by
  funext address
  simp [copyTo]

/-- Copying two lists one behind the other is copying their concatenation. Witness: each
address falls before, into or behind the first list.
-/
theorem copyTo_append (memory : Bytes) (dst : Nat) (first second : List UInt8)
    : copyTo (copyTo memory dst first) (dst + first.length) second
      = copyTo memory dst (first ++ second) := by
  funext address
  simp only [copyTo]
  by_cases after : dst + first.length ≤ address
  · have from_dst : dst ≤ address := by omega
    have outside : first[address - dst]? = none := List.getElem?_eq_none (by omega)
    have shifted : address - dst - first.length = address - (dst + first.length) := by omega
    simp only [after, from_dst, if_true, outside, Option.getD_none, shifted,
      List.getElem?_append_right (show first.length ≤ address - dst by omega)]
  · rw [if_neg after]
    split
    · rw [List.getElem?_append_left (by omega)]
    · rfl

/-- An address the copied bytes cover holds the byte copied there. -/
theorem copyTo_of_lt (memory : Bytes) {dst address : Nat} {bytes : List UInt8}
    (from_dst : dst ≤ address) (inside : address - dst < bytes.length)
    : copyTo memory dst bytes address = bytes[address - dst] := by
  rw [copyTo, if_pos from_dst, List.getElem?_eq_getElem inside, Option.getD_some]

/-- The little-endian value of the `width` bytes from `offset` on. -/
def word (memory : Bytes) (offset : Nat) : Nat → Nat
  | 0 => 0
  | width + 1 => word memory offset width + (memory (offset + width)).toNat * 256 ^ width

/-- A word only depends on its own bytes, by induction on its width. -/
theorem word_congr {memory other : Bytes} {offset width : Nat}
    (same : ∀ k < width, memory (offset + k) = other (offset + k))
    : word memory offset width = word other offset width := by
  induction width with
  | zero => rfl
  | succ width ih =>
      rw [word, word, ih (fun k less => same k (by omega)), same width (by omega)]

/-- A word is zero when all its bytes are, by induction on its width. -/
theorem word_eq_zero_iff (memory : Bytes) (offset width : Nat)
    : word memory offset width = 0 ↔ ∀ k < width, memory (offset + k) = 0 := by
  induction width with
  | zero => exact ⟨fun _ _ less => absurd less (Nat.not_lt_zero _), fun _ => rfl⟩
  | succ width ih =>
      have power : 256 ^ width ≠ 0 := Nat.pos_iff_ne_zero.mp (Nat.pow_pos (by decide))
      have byte : (memory (offset + width)).toNat = 0 ↔ memory (offset + width) = 0 := by
        rw [← UInt8.toNat_inj, UInt8.toNat_zero]
      rw [word, Nat.add_eq_zero_iff, ih, Nat.mul_eq_zero, or_iff_left power, byte]
      constructor
      · rintro ⟨lower, top⟩ k less
        rcases Nat.lt_succ_iff_lt_or_eq.mp less with below | rfl
        · exact lower k below
        · exact top
      · intro all
        exact ⟨fun k less => all k (Nat.lt_succ_of_lt less), all width (Nat.lt_succ_self width)⟩

/-- A word is its low part and, behind it, its high part, by induction on the high part's
width.
-/
theorem word_add (memory : Bytes) (offset low high : Nat)
    : word memory offset (low + high)
      = word memory offset low + word memory (offset + low) high * 256 ^ low := by
  induction high with
  | zero => simp [word]
  | succ high ih =>
      rw [← Nat.add_assoc, word, word, ih, Nat.add_mul, Nat.add_assoc, Nat.add_assoc,
        Nat.pow_add, Nat.mul_comm (256 ^ low), Nat.mul_assoc]

end ByteMemory
