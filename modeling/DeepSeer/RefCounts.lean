import Mathlib.Data.List.Basic

/-!
Reference counts. The trace of the calls that take and drop references of
objects has the latest first. An object is covered by a trace if at no time
more of its references had been dropped than taken.
-/
namespace RefCounts

/-- A call that takes or drops one reference of an object. -/
inductive Ref (α : Type) where
  | take (x : α)
  | drop (x : α)
  deriving DecidableEq, Repr

variable {α : Type} [DecidableEq α]

def taken (x : α) (refs : List (Ref α)) : Nat := refs.count (.take x)

def dropped (x : α) (refs : List (Ref α)) : Nat := refs.count (.drop x)

def Covered (x : α) : List (Ref α) → Prop
  | [] => True
  | r :: earlier => dropped x (r :: earlier) ≤ taken x (r :: earlier) ∧ Covered x earlier

/-- The object is covered, and `n` of its references are left. -/
structure Holds (x : α) (refs : List (Ref α)) (n : Nat) : Prop where
  covered : Covered x refs
  count : taken x refs = dropped x refs + n

theorem holds_nil (x : α) : Holds x [] 0 := ⟨trivial, rfl⟩

theorem taken_cons (x : α) (r : Ref α) (refs : List (Ref α)) :
    taken x (r :: refs) = taken x refs + if r = .take x then 1 else 0 := by
  simp [taken, List.count_cons]

theorem dropped_cons (x : α) (r : Ref α) (refs : List (Ref α)) :
    dropped x (r :: refs) = dropped x refs + if r = .drop x then 1 else 0 := by
  simp [dropped, List.count_cons]

theorem Holds.cons {x : α} {r : Ref α} {refs : List (Ref α)} {n m : Nat} (h : Holds x refs n)
    (hcount : taken x (r :: refs) = dropped x (r :: refs) + m) : Holds x (r :: refs) m :=
  ⟨⟨by omega, h.covered⟩, hcount⟩

theorem Holds.take {x : α} {refs : List (Ref α)} {n m : Nat} (h : Holds x refs n) (y : α)
    (hm : m = n + if y = x then 1 else 0) : Holds x (.take y :: refs) m := by
  apply h.cons
  have hcount := h.count
  simp only [taken_cons, dropped_cons, Ref.take.injEq, reduceCtorEq, if_false]
  omega

/-- A reference can be dropped that is there. -/
theorem Holds.drop {x : α} {refs : List (Ref α)} {n m : Nat} (h : Holds x refs n) (y : α)
    (hn : n = m + if y = x then 1 else 0) : Holds x (.drop y :: refs) m := by
  apply h.cons
  have hcount := h.count
  simp only [taken_cons, dropped_cons, Ref.drop.injEq, reduceCtorEq, if_false]
  omega

end RefCounts
