import Mathlib.Data.List.Basic

/-!
Runs of a system whose step is a function of the state and an event. A guard
says which events may come in which state; an invariant or a simulation that
one allowed step keeps holds at the end of every allowed run.
-/
namespace Runs

variable {σ τ ε : Type}

/-- The state after a list of events. -/
def run (step : σ → ε → σ) (s : σ) (events : List ε) : σ := events.foldl step s

/-- Every event of the list is allowed in the state in which it comes. -/
def Along (step : σ → ε → σ) (allowed : σ → ε → Prop) : σ → List ε → Prop
  | _, [] => True
  | s, e :: rest => allowed s e ∧ Along step allowed (step s e) rest

@[simp] theorem run_nil (step : σ → ε → σ) (s : σ) : run step s [] = s := rfl

@[simp] theorem run_cons (step : σ → ε → σ) (s : σ) (e : ε) (rest : List ε) :
    run step s (e :: rest) = run step (step s e) rest := rfl

theorem run_append (step : σ → ε → σ) (s : σ) (first rest : List ε) :
    run step s (first ++ rest) = run step (run step s first) rest := by
  simp [run]

/-- A relation that every allowed step keeps relates the ends of two runs. -/
theorem run_related {step : σ → ε → σ} {step' : τ → ε → τ} {allowed : σ → ε → Prop}
    (R : σ → τ → Prop)
    (hstep : ∀ s t e, R s t → allowed s e → R (step s e) (step' t e))
    {s : σ} {t : τ} (hst : R s t) {events : List ε} (h : Along step allowed s events) :
    R (run step s events) (run step' t events) := by
  induction events generalizing s t with
  | nil => exact hst
  | cons e rest ih => exact ih (hstep s t e hst h.1) h.2

/-- A property that every allowed step keeps holds at the end of a run. -/
theorem run_invariant {step : σ → ε → σ} {allowed : σ → ε → Prop} (I : σ → Prop)
    (hstep : ∀ s e, I s → allowed s e → I (step s e)) {s : σ} (hs : I s)
    {events : List ε} (h : Along step allowed s events) : I (run step s events) :=
  @run_related σ Unit ε step (fun _ _ => ()) allowed (fun s _ => I s)
    (fun s _ e hi ha => hstep s e hi ha) s () hs events h

/-- A property that every step keeps holds at the end of a run. -/
theorem run_kept {step : σ → ε → σ} (I : σ → Prop) (hstep : ∀ s e, I s → I (step s e)) {s : σ}
    (hs : I s) (events : List ε) : I (run step s events) := by
  induction events generalizing s with
  | nil => exact hs
  | cons e rest ih => exact ih (hstep s e hs)

theorem Along.take {step : σ → ε → σ} {allowed : σ → ε → Prop} {s : σ} {events : List ε}
    (h : Along step allowed s events) (k : Nat) : Along step allowed s (events.take k) := by
  induction events generalizing s k with
  | nil => simpa using h
  | cons e rest ih =>
    cases k with
    | zero => trivial
    | succ k => exact ⟨h.1, ih h.2 k⟩

/-- Whether a run is allowed can depend on a part of the state alone. -/
theorem along_map {step : σ → ε → σ} {step' : τ → ε → τ} {allowed : τ → ε → Prop} (f : σ → τ)
    (hf : ∀ s e, f (step s e) = step' (f s) e) (s : σ) (events : List ε) :
    Along step (fun s e => allowed (f s) e) s events ↔ Along step' allowed (f s) events := by
  induction events generalizing s with
  | nil => rfl
  | cons e rest ih => rw [Along, Along, ih, hf]

/-- A property holds in every state of a run exactly where the run is allowed, when an
invariant of the allowed steps implies it and no other step keeps it. -/
theorem always_iff {step : σ → ε → σ} {allowed : σ → ε → Prop} {I P : σ → Prop}
    (hsound : ∀ s, I s → P s) (hstep : ∀ s e, I s → allowed s e → I (step s e))
    (hbreak : ∀ s e, I s → ¬ allowed s e → ¬ P (step s e)) {s : σ} (hs : I s) (events : List ε) :
    (∀ k, P (run step s (events.take k))) ↔ Along step allowed s events := by
  induction events generalizing s with
  | nil => exact ⟨fun _ => trivial, fun _ k => by simpa using hsound s hs⟩
  | cons e rest ih =>
    constructor
    · intro h
      have hallowed : allowed s e := by
        by_contra hn
        exact hbreak s e hs hn (by simpa using h 1)
      exact ⟨hallowed, (ih (hstep s e hs hallowed)).mp fun k => by simpa using h (k + 1)⟩
    · rintro ⟨hallowed, hrest⟩ k
      cases k with
      | zero => exact hsound s hs
      | succ k => exact (ih (hstep s e hs hallowed)).mpr hrest k

end Runs
