import Mathlib.Data.Option.Basic

/-!
Loops with several exits, given by the effect of one pass. A pass either goes
round again with a new state or leaves with a result. The number of passes is
an argument of the iteration, so a loop that never leaves shows as `none`, and
the rules below give the result and the bound on the passes together.
-/
namespace WhileLoop

inductive Pass (σ ρ : Type) where
  | again : σ → Pass σ ρ
  | leave : ρ → Pass σ ρ

variable {σ ρ : Type}

/-- At most `n` passes; `none` means that the loop has not left by then. -/
def iterate (body : σ → Pass σ ρ) : Nat → σ → Option ρ
  | 0, _ => none
  | n + 1, s =>
    match body s with
    | .again s' => iterate body n s'
    | .leave r => some r

/-- The loop with `n` passes allowed, and `stuck` where they do not suffice. -/
def loop (body : σ → Pass σ ρ) (n : Nat) (stuck : ρ) (s : σ) : ρ :=
  (iterate body n s).getD stuck

theorem iterate_again {body : σ → Pass σ ρ} {s s' : σ} (h : body s = .again s') (n : Nat) :
    iterate body (n + 1) s = iterate body n s' := by
  simp [iterate, h]

theorem iterate_leave {body : σ → Pass σ ρ} {s : σ} {r : ρ} (h : body s = .leave r) (n : Nat) :
    iterate body (n + 1) s = some r := by
  simp [iterate, h]

/-- Total correctness: an invariant that every pass keeps, a measure that
every repeated pass lowers, and a postcondition that every exit meets. -/
theorem iterate_correct {body : σ → Pass σ ρ} (I : σ → Prop) (measure : σ → Nat) (Q : ρ → Prop)
    (hagain : ∀ s s', I s → body s = .again s' → I s' ∧ measure s' < measure s)
    (hleave : ∀ s r, I s → body s = .leave r → Q r)
    {n : Nat} {s : σ} (hs : I s) (hn : measure s < n) :
    ∃ r, iterate body n s = some r ∧ Q r := by
  induction n generalizing s with
  | zero => omega
  | succ n ih =>
    cases hb : body s with
    | again s' =>
      obtain ⟨hi, hm⟩ := hagain s s' hs hb
      rw [iterate_again hb]
      exact ih hi (by omega)
    | leave r => exact ⟨r, iterate_leave hb n, hleave s r hs hb⟩

/-- The same rule for the value of the loop, whatever its stuck value. -/
theorem loop_correct {body : σ → Pass σ ρ} (I : σ → Prop) (measure : σ → Nat) (Q : ρ → Prop)
    (hagain : ∀ s s', I s → body s = .again s' → I s' ∧ measure s' < measure s)
    (hleave : ∀ s r, I s → body s = .leave r → Q r)
    {n : Nat} {stuck : ρ} {s : σ} (hs : I s) (hn : measure s < n) :
    Q (loop body n stuck s) := by
  obtain ⟨r, hr, hq⟩ := iterate_correct I measure Q hagain hleave hs hn
  simpa [loop, hr] using hq

/-- Partial correctness: what every pass keeps holds of the value, which is a
result of the loop or its stuck value. -/
theorem loop_kept {body : σ → Pass σ ρ} (I : σ → Prop) (Q : ρ → Prop)
    (hagain : ∀ s s', I s → body s = .again s' → I s')
    (hleave : ∀ s r, I s → body s = .leave r → Q r)
    {n : Nat} {stuck : ρ} (hstuck : Q stuck) {s : σ} (hs : I s) : Q (loop body n stuck s) := by
  induction n generalizing s with
  | zero => exact hstuck
  | succ n ih =>
    cases hb : body s with
    | again s' =>
      have hi := ih (hagain s s' hs hb)
      rwa [loop, iterate_again hb]
    | leave r =>
      rw [loop, iterate_leave hb]
      exact hleave s r hs hb

end WhileLoop
