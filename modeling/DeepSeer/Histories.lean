import Mathlib.Data.List.Count

/-!
Histories: lists of notes, the latest first, in which every note is right by those
before it. What the notes keep holds from any point of a history to its end, and a note
that shuts itself out comes once at most.
-/
namespace Histories

variable {ν : Type}

/-- Every note is right by the notes before it. -/
def Justified (right : ν → List ν → Prop) : List ν → Prop
  | [] => True
  | n :: earlier => right n earlier ∧ Justified right earlier

variable {right : ν → List ν → Prop}

theorem Justified.at {later earlier : List ν} {n : ν}
    (h : Justified right (later ++ n :: earlier)) : right n earlier := by
  induction later with
  | nil => exact h.1
  | cons m later ih => exact ih h.2

theorem Justified.before {later earlier : List ν} (h : Justified right (later ++ earlier)) :
    Justified right earlier := by
  induction later with
  | nil => exact h
  | cons m later ih => exact ih h.2

/-- What holds at some point of a history and is kept by the later notes holds at its end. -/
theorem Justified.kept {P : List ν → Prop} {later earlier : List ν}
    (h : Justified right (later ++ earlier)) (hp : P earlier)
    (hkeep : ∀ n ∈ later, ∀ before, right n before → P before → P (n :: before)) :
    P (later ++ earlier) := by
  induction later with
  | nil => exact hp
  | cons n later ih =>
    have hlater : P (later ++ earlier) :=
      ih h.2 fun m hm => hkeep m (List.mem_cons_of_mem n hm)
    exact hkeep n List.mem_cons_self _ h.1 hlater

/-- A note that leaves a mark which stays, and which no such note is right with. -/
theorem Justified.once {p : ν → Bool} (mark : List ν → Prop)
    (hset : ∀ n earlier, right n earlier → p n = true → mark (n :: earlier))
    (hkeep : ∀ n earlier, right n earlier → mark earlier → mark (n :: earlier))
    (hbar : ∀ n earlier, right n earlier → mark earlier → p n = false) {log : List ν}
    (h : Justified right log) : log.countP p ≤ 1 := by
  have hmarked : log.countP p ≤ 1 ∧ (log.countP p = 1 → mark log) := by
    induction log with
    | nil => simp
    | cons n earlier ih =>
      obtain ⟨hle, hmark⟩ := ih h.2
      cases hp : p n with
      | false =>
        rw [List.countP_cons_of_neg (by simp [hp])]
        exact ⟨hle, fun hone => hkeep n earlier h.1 (hmark hone)⟩
      | true =>
        have hzero : earlier.countP p = 0 := by
          by_contra hne
          have hone : earlier.countP p = 1 := by omega
          exact absurd (hp.symm.trans (hbar n earlier h.1 (hmark hone))) (by decide)
        rw [List.countP_cons_of_pos hp, hzero]
        exact ⟨Nat.le_refl 1, fun _ => hset n earlier h.1 hp⟩
  exact hmarked.1

end Histories
