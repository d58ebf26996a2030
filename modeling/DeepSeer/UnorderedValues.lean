import Mathlib.Data.List.Basic

/-!
Largest values under a comparison that leaves some values unordered, as the
comparison of floating-point numbers does with the values that are no numbers.
-/
namespace UnorderedValues

variable {α : Type}

/-- A comparison of numbers, false wherever one of the values is no number. Equal
rank among the numbers is transitive. -/
structure Comparison (less : α → α → Bool) (num : α → Prop) : Prop where
  numbers : ∀ a b, less a b = true → num a ∧ num b
  irrefl : ∀ a, less a a = false
  trans : ∀ a b c, less a b = true → less b c = true → less a c = true
  between : ∀ a b c, num b → less a c = true → less a b = true ∨ less b c = true

/-- The largest of `start`, `f 0`, …, `f (n - 1)`, looked for from the left. -/
def largestOf (less : α → α → Bool) (start : α) (f : Nat → α) (n : Nat) : α :=
  (List.range n).foldl (fun o i => if less o (f i) then f i else o) start

variable {less : α → α → Bool} {num : α → Prop} {f : Nat → α}

theorem largestOf_succ (start : α) (n : Nat) : largestOf less start f (n + 1) =
    if less (largestOf less start f n) (f n) then f n else largestOf less start f n := by
  rw [largestOf, List.range_succ, List.foldl_append]
  rfl

namespace Comparison

variable (h : Comparison less num)
include h

theorem number_largestOf {start : α} (hstart : num start) (n : Nat) :
    num (largestOf less start f n) := by
  induction n with
  | zero => exact hstart
  | succ n ih =>
    rw [largestOf_succ]
    split
    · next hless => exact (h.numbers _ _ hless).2
    · exact ih

theorem not_less_largestOf (start : α) (n : Nat) : less (largestOf less start f n) start = false ∧
    ∀ j, j < n → less (largestOf less start f n) (f j) = false := by
  induction n with
  | zero => exact ⟨h.irrefl start, fun j hj => absurd hj (Nat.not_lt_zero j)⟩
  | succ n ih =>
    rw [largestOf_succ]
    by_cases hless : less (largestOf less start f n) (f n) = true
    · rw [if_pos hless]
      -- what is above the new value was above the old one
      have hover : ∀ b, less (largestOf less start f n) b = false → less (f n) b = false := by
        intro b hb
        by_contra hover
        have := h.trans _ _ _ hless (by simpa using hover)
        rw [hb] at this
        exact absurd this (by simp)
      refine ⟨hover _ ih.1, fun j hj => ?_⟩
      rcases Nat.lt_succ_iff_lt_or_eq.mp hj with hj | rfl
      · exact hover _ (ih.2 j hj)
      · exact h.irrefl _
    · rw [if_neg hless]
      refine ⟨ih.1, fun j hj => ?_⟩
      rcases Nat.lt_succ_iff_lt_or_eq.mp hj with hj | rfl
      · exact ih.2 j hj
      · simpa using hless

end Comparison

theorem largestOf_mem (start : α) (n : Nat) :
    largestOf less start f n = start ∨ ∃ j, j < n ∧ largestOf less start f n = f j := by
  induction n with
  | zero => exact .inl rfl
  | succ n ih =>
    rw [largestOf_succ]
    split
    · exact .inr ⟨n, Nat.lt_succ_self n, rfl⟩
    · rcases ih with he | ⟨j, hj, he⟩
      · exact .inl he
      · exact .inr ⟨j, by omega, he⟩

end UnorderedValues
