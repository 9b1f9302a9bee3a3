import Mathlib.Logic.Function.Basic
import Smurf.Library.ByteMemory

/-! Programs over byte memory.
A program loads and stores one byte at a time, and returns or throws. A load of several bytes
accesses each of them.
-/

namespace ByteMemory

/-- A program that may throw an `ε`. -/
inductive Program (ε α : Type)
  | done (result : Except ε α)
  | load (address : Nat) (next : UInt8 → Program ε α)
  | store (address : Nat) (byte : UInt8) (next : Program ε α)

namespace Program

variable {ε α β : Type}

def bind : Program ε α → (α → Program ε β) → Program ε β
  | done (.ok result), next => next result
  | done (.error thrown), _ => done (.error thrown)
  | load address rest, next => load address fun byte => (rest byte).bind next
  | store address byte rest, next => store address byte (rest.bind next)

instance : Monad (Program ε) where
  pure result := done (.ok result)
  bind := bind

def throw (thrown : ε) : Program ε α :=
  done (.error thrown)

def loadByte (address : Nat) : Program ε UInt8 :=
  load address pure

def storeByte (address : Nat) (byte : UInt8) : Program ε Unit :=
  store address byte (pure ())

/-- The little-endian value of the `width` bytes from `offset` on. -/
def loadWord (offset : Nat) : Nat → Program ε Nat
  | 0 => pure 0
  | width + 1 => do
      let low ← loadWord offset width
      let byte ← loadByte (offset + width)
      return low + byte.toNat * 256 ^ width

/-- What a program gives, and the memory behind it. -/
def run : Program ε α → Bytes → Except ε α × Bytes
  | done result, memory => (result, memory)
  | load address next, memory => (next (memory address)).run memory
  | store address byte next, memory => next.run (Function.update memory address byte)

/-- The addresses a program accesses, in order. -/
def accesses : Program ε α → Bytes → List Nat
  | done _, _ => []
  | load address next, memory => address :: (next (memory address)).accesses memory
  | store address byte next, memory =>
      address :: next.accesses (Function.update memory address byte)

/-- A program whose first part returns goes on from there, by induction on that part. -/
theorem run_bind {program : Program ε α} {next : α → Program ε β} {memory after : Bytes}
    {result : α} (first : program.run memory = (.ok result, after))
    : (program >>= next).run memory = (next result).run after
      ∧ (program >>= next).accesses memory
        = program.accesses memory ++ (next result).accesses after := by
  show (program.bind next).run memory = _ ∧ (program.bind next).accesses memory = _
  induction program generalizing memory with
  | done _ =>
      cases first
      exact ⟨rfl, rfl⟩
  | load address rest ih =>
      obtain ⟨same, accessed⟩ := ih (memory address) first
      exact ⟨same, congrArg (address :: ·) accessed⟩
  | store address byte rest ih =>
      obtain ⟨same, accessed⟩ := ih first
      exact ⟨same, congrArg (address :: ·) accessed⟩

/-- Changing what is returned changes no access, by induction on the program. -/
theorem run_bind_pure (program : Program ε α) (f : α → β) (memory : Bytes)
    : (program >>= fun result => pure (f result)).run memory
        = ((program.run memory).1.map f, (program.run memory).2)
      ∧ (program >>= fun result => pure (f result)).accesses memory
        = program.accesses memory := by
  show (program.bind _).run memory = _ ∧ (program.bind _).accesses memory = _
  induction program generalizing memory with
  | done result => cases result <;> exact ⟨rfl, rfl⟩
  | load address rest ih =>
      obtain ⟨same, accessed⟩ := ih (memory address) memory
      exact ⟨same, congrArg (address :: ·) accessed⟩
  | store address byte rest ih =>
      obtain ⟨same, accessed⟩ := ih (Function.update memory address byte)
      exact ⟨same, congrArg (address :: ·) accessed⟩

/-- A word is loaded byte by byte, by induction on its width. -/
theorem run_loadWord (memory : Bytes) (offset width : Nat)
    : (loadWord offset width : Program ε Nat).run memory
        = (.ok (word memory offset width), memory)
      ∧ (loadWord offset width : Program ε Nat).accesses memory
        = List.range' offset width := by
  induction width with
  | zero => exact ⟨rfl, rfl⟩
  | succ width ih =>
      obtain ⟨goesOn, accessed⟩ :=
        @run_bind ε Nat Nat _ (fun low => do
          let byte ← loadByte (offset + width)
          return low + byte.toNat * 256 ^ width) _ _ _ ih.1
      refine ⟨goesOn, accessed.trans ?_⟩
      rw [ih.2, List.range'_1_concat]
      rfl

/-- An address that is not accessed keeps its byte, by induction on the program. -/
theorem run_outside {program : Program ε α} {memory : Bytes} {address : Nat}
    (outside : address ∉ program.accesses memory)
    : (program.run memory).2 address = memory address := by
  induction program generalizing memory with
  | done _ => rfl
  | load other next ih =>
      exact ih _ (fun later => outside (List.mem_cons_of_mem other later))
  | store other byte next ih =>
      have apart : address ≠ other := by
        rintro rfl
        exact outside List.mem_cons_self
      exact (ih (fun later => outside (List.mem_cons_of_mem other later))).trans
        (Function.update_of_ne apart _ _)

/-- Memories that agree on a region that a program stays in give the same result, and agree on
the region behind it. By induction on the program.
-/
theorem run_congr {program : Program ε α} {inside : Nat → Prop} {memory other : Bytes}
    (same : ∀ address, inside address → memory address = other address)
    (stays : ∀ address ∈ program.accesses memory, inside address)
    : (program.run memory).1 = (program.run other).1
      ∧ program.accesses memory = program.accesses other
      ∧ ∀ address, inside address
        → (program.run memory).2 address = (program.run other).2 address := by
  induction program generalizing memory other with
  | done _ => exact ⟨rfl, rfl, same⟩
  | load here next ih =>
      obtain ⟨first, later⟩ := List.forall_mem_cons.mp stays
      simp only [run, accesses, ← same here first]
      obtain ⟨result, accessed, agree⟩ := ih (memory here) same later
      exact ⟨result, congrArg (here :: ·) accessed, agree⟩
  | store here byte next ih =>
      obtain ⟨first, later⟩ := List.forall_mem_cons.mp stays
      obtain ⟨result, accessed, agree⟩ :=
        @ih (Function.update memory here byte) (Function.update other here byte)
          (fun address within => by
            simp only [Function.update_apply]
            split
            · rfl
            · exact same address within)
          later
      exact ⟨result, congrArg (here :: ·) accessed, agree⟩

end Program

end ByteMemory
