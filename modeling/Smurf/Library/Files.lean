import Mathlib.Data.List.Basic
import Mathlib.Logic.Function.Basic

/-! Files by name and by descriptor.
A name stands for a file, which keeps its content when the name is removed. A descriptor is
open on a file at a position, where the next write goes.
-/

namespace Files

/-- The files with a number below `count` have been created. -/
structure FileSystem (Name Descriptor Byte : Type*) where
  entry : Name → Option Nat
  content : Nat → List Byte
  position : Descriptor → Option (Nat × Nat)
  count : Nat
  entry_lt : ∀ name file, entry name = some file → file < count

namespace FileSystem

variable {Name Descriptor Byte : Type*}

def empty : FileSystem Name Descriptor Byte where
  entry := fun _ => none
  content := fun _ => []
  position := fun _ => none
  count := 0
  entry_lt _ _ found := absurd found (by simp)

def unlink [DecidableEq Name] (self : FileSystem Name Descriptor Byte) (name : Name)
    : FileSystem Name Descriptor Byte where
  entry := Function.update self.entry name none
  content := self.content
  position := self.position
  count := self.count
  entry_lt other file found := by
    by_cases same : other = name
    · simp [same] at found
    · rw [Function.update_of_ne same] at found
      exact self.entry_lt other file found

/-- Creates a file under a name. -/
def create [DecidableEq Name] (self : FileSystem Name Descriptor Byte) (name : Name)
    : FileSystem Name Descriptor Byte where
  entry := Function.update self.entry name (some self.count)
  content := Function.update self.content self.count []
  position := self.position
  count := self.count + 1
  entry_lt other file found := by
    by_cases same : other = name
    · simp only [same, Function.update_self, Option.some.injEq] at found
      omega
    · rw [Function.update_of_ne same] at found
      exact Nat.lt_succ_of_lt (self.entry_lt other file found)

/-- Opens a file at its start, and creates it if there is none. Its content stays. -/
def openFile [DecidableEq Name] [DecidableEq Descriptor]
    (self : FileSystem Name Descriptor Byte) (name : Name) (fd : Descriptor)
    : FileSystem Name Descriptor Byte :=
  match self.entry name with
  | some file => { self with position := Function.update self.position fd (some (file, 0)) }
  | none =>
      { self.create name with
        position := Function.update self.position fd (some (self.count, 0)) }

/-- Writes over what is at the position. A descriptor that is not open writes nothing. -/
def write [DecidableEq Descriptor] (self : FileSystem Name Descriptor Byte) (fd : Descriptor)
    (bytes : List Byte)
    : FileSystem Name Descriptor Byte :=
  match self.position fd with
  | some (file, position) =>
      let old := self.content file
      { self with
        content :=
          Function.update self.content file
            (old.take position ++ bytes ++ old.drop (position + bytes.length))
        position :=
          Function.update self.position fd (some (file, position + bytes.length)) }
  | none => self

def close [DecidableEq Descriptor] (self : FileSystem Name Descriptor Byte)
    (fd : Descriptor)
    : FileSystem Name Descriptor Byte :=
  { self with position := Function.update self.position fd none }

/-- What the file of a name holds. -/
def contents? (self : FileSystem Name Descriptor Byte) (name : Name) : Option (List Byte) :=
  (self.entry name).map self.content

/-- A descriptor is open at the end of a file of its own: no other name stands for it. -/
def Appends (self : FileSystem Name Descriptor Byte) (fd : Descriptor) (name : Name)
    (bytes : List Byte) : Prop :=
  ∃ file,
    self.entry name = some file
    ∧ self.content file = bytes
    ∧ self.position fd = some (file, bytes.length)
    ∧ ∀ other, self.entry other = some file → other = name

variable {self : FileSystem Name Descriptor Byte} {fd : Descriptor} {name other : Name}
  {bytes more : List Byte}

theorem Appends.contents?_eq (appends : self.Appends fd name bytes)
    : self.contents? name = some bytes := by
  obtain ⟨file, found, content, _⟩ := appends
  rw [contents?, found, Option.map_some, content]

/-- A file opened behind an `unlink` of its name is empty, and its own. -/
theorem appends_openFile_unlink [DecidableEq Name] [DecidableEq Descriptor]
    (self : FileSystem Name Descriptor Byte) (fd : Descriptor) (name : Name)
    : ((self.unlink name).openFile name fd).Appends fd name [] := by
  have gone : (self.unlink name).entry name = none := Function.update_self ..
  rw [openFile, gone]
  refine ⟨self.count, Function.update_self .., Function.update_self ..,
    Function.update_self .., fun other found => ?_⟩
  by_contra different
  have kept : (self.unlink name).entry other = some self.count := by
    simpa only [create, Function.update_of_ne different] using found
  exact Nat.lt_irrefl _ ((self.unlink name).entry_lt other self.count kept)

/-- The files of other names stay as they are. -/
theorem contents?_openFile_unlink_of_ne [DecidableEq Name] [DecidableEq Descriptor]
    (self : FileSystem Name Descriptor Byte)
    (fd : Descriptor) (different : other ≠ name)
    : ((self.unlink name).openFile name fd).contents? other = self.contents? other := by
  have gone : (self.unlink name).entry name = none := Function.update_self ..
  rw [openFile, gone]
  simp only [contents?, create, unlink, Function.update_of_ne different]
  cases found : self.entry other with
  | none => rfl
  | some file =>
      have old := self.entry_lt other file found
      rw [Option.map_some, Option.map_some, Function.update_of_ne (by omega)]

/-- A write at the end makes the file longer. -/
theorem Appends.write [DecidableEq Descriptor] (appends : self.Appends fd name bytes)
    (more : List Byte)
    : (self.write fd more).Appends fd name (bytes ++ more) := by
  obtain ⟨file, found, content, position, own⟩ := appends
  rw [FileSystem.write, position]
  refine ⟨file, found, ?_, ?_, own⟩
  · simp [content]
  · simp

/-- A write at the end leaves the files of other names alone. -/
theorem Appends.contents?_write_of_ne [DecidableEq Descriptor]
    (appends : self.Appends fd name bytes)
    (different : other ≠ name)
    : (self.write fd more).contents? other = self.contents? other := by
  obtain ⟨file, found, content, position, own⟩ := appends
  rw [FileSystem.write, position]
  simp only [contents?]
  cases elsewhere : self.entry other with
  | none => rfl
  | some file' =>
      have apart : file' ≠ file := fun same => different (own other (same ▸ elsewhere))
      rw [Option.map_some, Option.map_some, Function.update_of_ne apart]

@[simp] theorem contents?_close [DecidableEq Descriptor]
    (self : FileSystem Name Descriptor Byte) (fd : Descriptor)
    : (self.close fd).contents? name = self.contents? name :=
  rfl

end FileSystem

end Files
