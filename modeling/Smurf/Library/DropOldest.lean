import Mathlib.Data.List.Range
import Mathlib.Data.List.Nodup
import Mathlib.Data.List.Perm.Subperm

/-! One reader of a bounded queue that drops its oldest entries.
Entries are numbered in the order they are written. The queue keeps the last `capacity` of
them; `seen` lists the numbers the reader has taken, in the order it took them.
-/

namespace DropOldest

/-- The kept entries that the reader has not taken, oldest first. -/
def readable (capacity written : Nat) (seen : List Nat) : List Nat :=
  (List.range' (written - capacity) (written - (written - capacity))).filter (· ∉ seen)

/-- The entries that are no longer kept and that the reader never took. -/
def dropped (capacity written : Nat) (seen : List Nat) : List Nat :=
  (List.range (written - capacity)).filter (· ∉ seen)

/-- The entry a read takes: the oldest kept one that the reader has not taken. -/
def oldest? (capacity written : Nat) (seen : List Nat) : Option Nat :=
  (readable capacity written seen).head?

/-- A reader at `position` took or lost every entry before it and none from it on, and is
at most `capacity` entries behind the writer.
-/
structure Cursor (capacity written : Nat) (seen : List Nat) (position : Nat) : Prop where
  le_written : position ≤ written
  within : written ≤ position + capacity
  below : ∀ entry ∈ seen, entry < position
  passed : ∀ entry < position, entry ∉ seen → entry < written - capacity
  unique : seen.Nodup

/-- The numbers from `start` to `stop`, cut at `middle`. -/
theorem range'_split {start middle stop : Nat} (before : start ≤ middle)
    (after : middle ≤ stop)
    : List.range' start (stop - start)
      = List.range' start (middle - start) ++ List.range' middle (stop - middle) := by
  have joined := @List.range'_append_1 start (middle - start) (stop - middle)
  rw [show start + (middle - start) = middle by omega,
    show middle - start + (stop - middle) = stop - start by omega] at joined
  exact joined.symm

/-- Distinct entries below `position`, together with the other ones below it, are all of
those below it.
-/
theorem perm_range_of_lt {position : Nat} {seen : List Nat} (unique : seen.Nodup)
    (below : ∀ entry ∈ seen, entry < position)
    : (seen ++ (List.range position).filter (· ∉ seen)).Perm (List.range position) := by
  have taken : seen.Perm ((List.range position).filter (· ∈ seen)) := by
    refine (List.perm_ext_iff_of_nodup unique (List.nodup_range.filter _)).mpr ?_
    intro entry
    simp only [List.mem_filter, List.mem_range, decide_eq_true_eq]
    exact ⟨fun member => ⟨below entry member, member⟩, And.right⟩
  have parts := List.filter_append_perm (fun entry => decide (entry ∈ seen))
    (List.range position)
  simp only [decide_not]
  exact (taken.append_right _).trans parts

/-- A reader that has taken nothing yet starts at the first entry. -/
theorem Cursor.start (capacity : Nat) : Cursor capacity 0 [] 0 where
  le_written := Nat.le_refl 0
  within := Nat.zero_le _
  below := by simp
  passed := by omega
  unique := List.nodup_nil

section Cursor

variable {capacity written position : Nat} {seen : List Nat}

/-- What is readable is exactly what lies from the cursor to the last entry. Witness: split
the kept entries at the cursor; those before it are all taken, those from it on are not.
-/
theorem Cursor.readable_eq (cursor : Cursor capacity written seen position)
    : readable capacity written seen = List.range' position (written - position) := by
  have le := cursor.le_written
  have within := cursor.within
  have behind
      : (List.range' (written - capacity) (position - (written - capacity))).filter (· ∉ seen)
        = [] := by
    simp only [List.filter_eq_nil_iff, List.mem_range'_1, decide_eq_true_eq]
    intro entry kept absent
    have := cursor.passed entry (by omega) absent
    omega
  have ahead
      : (List.range' position (written - position)).filter (· ∉ seen)
        = List.range' position (written - position) := by
    simp only [List.filter_eq_self, List.mem_range'_1, decide_eq_true_eq]
    intro entry kept taken
    have := cursor.below entry taken
    omega
  have split :=
    range'_split (show written - capacity ≤ position by omega) cursor.le_written
  rw [readable, split, List.filter_append, behind, ahead, List.nil_append]

/-- The next entry to take is the one at the cursor, if any is left. -/
theorem Cursor.oldest?_eq (cursor : Cursor capacity written seen position)
    : oldest? capacity written seen = if position < written then some position else none := by
  rw [oldest?, cursor.readable_eq, List.head?_range']
  split <;> split <;> first | rfl | omega

theorem Cursor.readable_length (cursor : Cursor capacity written seen position)
    : (readable capacity written seen).length = written - position := by
  rw [cursor.readable_eq, List.length_range']

/-- Every entry behind the cursor is either taken or dropped. Witness: an entry behind the
cursor that is still kept was taken.
-/
theorem Cursor.dropped_length (cursor : Cursor capacity written seen position)
    : (dropped capacity written seen).length + seen.length = position := by
  have within := cursor.within
  have unseen
      : dropped capacity written seen = (List.range position).filter (· ∉ seen) := by
    have split : position = written - capacity + (position - (written - capacity)) := by omega
    have kept
        : ((List.range (position - (written - capacity))).map (written - capacity + ·)).filter
            (· ∉ seen)
          = [] := by
      simp only [List.filter_eq_nil_iff, List.mem_map, List.mem_range, decide_eq_true_eq]
      rintro entry ⟨offset, small, rfl⟩ absent
      have := cursor.passed _ (by omega) absent
      omega
    conv_rhs => rw [split, List.range_add, List.filter_append, kept, List.append_nil]
    rfl
  have parts := (perm_range_of_lt cursor.unique cursor.below).length_eq
  rw [List.length_append, List.length_range] at parts
  rw [unseen]
  omega

/-- A write that leaves room moves the writer only. -/
theorem Cursor.write (cursor : Cursor capacity written seen position)
    (room : written < position + capacity)
    : Cursor capacity (written + 1) seen position where
  le_written := by have := cursor.le_written; omega
  within := by omega
  below := cursor.below
  passed := fun entry before absent => by
    have := cursor.passed entry before absent
    omega
  unique := cursor.unique

/-- A write past the capacity drops the entry at the cursor. -/
theorem Cursor.overwrite (cursor : Cursor capacity written seen position)
    (positive : 0 < capacity) (full : written = position + capacity)
    : Cursor capacity (written + 1) seen (position + 1) where
  le_written := by omega
  within := by omega
  below := fun entry member => by
    have := cursor.below entry member
    omega
  passed := fun entry before absent => by omega
  unique := cursor.unique

/-- A read takes the entry at the cursor. -/
theorem Cursor.read (cursor : Cursor capacity written seen position)
    (left : position < written)
    : Cursor capacity written (seen ++ [position]) (position + 1) where
  le_written := left
  within := by have := cursor.within; omega
  below := by
    intro entry member
    rcases List.mem_append.mp member with earlier | now
    · have := cursor.below entry earlier
      omega
    · rw [List.mem_singleton.mp now]
      omega
  passed := by
    intro entry before absent
    simp only [List.mem_append, List.mem_singleton, not_or] at absent
    exact cursor.passed entry (by omega) absent.1
  unique := by
    refine List.nodup_append.mpr ⟨cursor.unique, List.nodup_singleton _, ?_⟩
    intro entry earlier now member same
    rw [List.mem_singleton.mp member] at same
    have := cursor.below entry earlier
    omega

end Cursor

end DropOldest
