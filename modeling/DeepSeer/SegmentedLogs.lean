import Mathlib.Data.List.Basic

/-!
A log that is cut into segments. Entries go to the current segment, which is
completed when it is full; of the completed segments a window of the latest ones is
kept.
-/
namespace SegmentedLogs

variable {α : Type}

/-- The completed segments, the latest first, and the current one. -/
structure Segments (α : Type) where
  completed : List (List α) := []
  current : List α := []

namespace Segments

/-- The next entry, which can fill the current segment. -/
def add (full : List α → Bool) (j : Segments α) (entry : α) : Segments α :=
  if full (j.current ++ [entry]) then ⟨(j.current ++ [entry]) :: j.completed, []⟩
  else ⟨j.completed, j.current ++ [entry]⟩

/-- The entries of the log in their order. -/
def entries (j : Segments α) : List α := j.completed.reverse.flatten ++ j.current

/-- The entries of the latest `n` completed segments and of the current one. -/
def window (n : Nat) (j : Segments α) : List α :=
  (j.completed.take n).reverse.flatten ++ j.current

variable {full : List α → Bool}

theorem entries_add (j : Segments α) (entry : α) :
    (j.add full entry).entries = j.entries ++ [entry] := by
  unfold add
  split
  · simp [entries]
  · simp [entries]

/-- A log holds the entries that were added to it. -/
theorem entries_foldl (j : Segments α) (items : List α) :
    (items.foldl (add full) j).entries = j.entries ++ items := by
  induction items generalizing j with
  | nil => rw [List.foldl_nil, List.append_nil]
  | cons entry rest ih =>
    rw [List.foldl_cons, ih, entries_add, List.append_assoc, List.singleton_append]

/-- What is not kept was added before what is kept. -/
theorem older_window (n : Nat) (j : Segments α) :
    (j.completed.drop n).reverse.flatten ++ j.window n = j.entries := by
  have hcut : j.completed.reverse =
      (j.completed.drop n).reverse ++ (j.completed.take n).reverse := by
    rw [← List.reverse_append, List.take_append_drop]
  rw [window, entries, hcut, List.flatten_append, List.append_assoc]

theorem window_all {n : Nat} {j : Segments α} (h : j.completed.length ≤ n) :
    j.window n = j.entries := by
  rw [window, entries, List.take_of_length_le h]

/-- The current segment is never full. -/
theorem current_open (hempty : full [] = false) (j : Segments α) (hj : full j.current = false)
    (items : List α) : full (items.foldl (add full) j).current = false := by
  induction items generalizing j with
  | nil => exact hj
  | cons entry rest ih =>
    rw [List.foldl_cons]
    apply ih
    unfold add
    split
    · exact hempty
    · next hfull => simpa using hfull

end Segments

end SegmentedLogs
