import Mathlib.Algebra.GroupWithZero.Nat
import Mathlib.Data.List.Basic

/-!
Schedules of threads. An action of a thread has no result where the thread
cannot take it, so a schedule is a list of actions that all have one. The
threads of a kind are a list of their states, of which an action changes one.
-/
namespace Schedules

variable {σ α β γ : Type}

/-- The state after a schedule, if all of its actions can be taken. -/
def run (step : σ → α → Option σ) (s : σ) : List α → Option σ
  | [] => some s
  | a :: rest => (step s a).bind fun s' => run step s' rest

/-- Every action of the schedule is allowed in the state in which it comes. -/
def Along (step : σ → α → Option σ) (allowed : σ → α → Prop) (s : σ) : List α → Prop
  | [] => True
  | a :: rest => allowed s a ∧ ∀ s' ∈ step s a, Along step allowed s' rest

instance decidableAlong {step : σ → α → Option σ} {allowed : σ → α → Prop}
    [∀ s a, Decidable (allowed s a)] (s : σ) (actions : List α) :
    Decidable (Along step allowed s actions) :=
  match actions with
  | [] => .isTrue trivial
  | a :: rest =>
    match hs : step s a with
    | none => decidable_of_iff (allowed s a) (by simp [Along, hs])
    | some s' =>
      have : Decidable (Along step allowed s' rest) := decidableAlong s' rest
      decidable_of_iff (allowed s a ∧ Along step allowed s' rest) (by simp [Along, hs])

theorem run_cons {step : σ → α → Option σ} {s t : σ} {a : α} {rest : List α}
    (h : run step s (a :: rest) = some t) : ∃ s', step s a = some s' ∧ run step s' rest = some t :=
  Option.bind_eq_some_iff.mp h

theorem run_append {step : σ → α → Option σ} {s t u : σ} {first rest : List α}
    (h : run step s first = some t) (h' : run step t rest = some u) :
    run step s (first ++ rest) = some u := by
  induction first generalizing s with
  | nil =>
    cases h
    exact h'
  | cons a first ih =>
    obtain ⟨s', hs, hrun⟩ := run_cons h
    simp [run, hs, ih hrun]

/-- What every allowed action keeps holds at the end of an allowed schedule. -/
theorem run_invariant {step : σ → α → Option σ} {allowed : σ → α → Prop} (I : σ → Prop)
    (hstep : ∀ s a s', I s → allowed s a → step s a = some s' → I s') {s t : σ} (hs : I s)
    {actions : List α} (h : Along step allowed s actions) (hrun : run step s actions = some t) :
    I t := by
  induction actions generalizing s with
  | nil =>
    cases hrun
    exact hs
  | cons a rest ih =>
    obtain ⟨s', hs', hrest⟩ := run_cons hrun
    exact ih (hstep s a s' hs h.1 hs') (h.2 s' hs') hrest

/-- A schedule of actions that all lower a measure is no longer than the measure. -/
theorem run_length_le {step : σ → α → Option σ} {allowed : σ → α → Prop} (I : σ → Prop)
    (μ : σ → Nat)
    (hstep : ∀ s a s', I s → allowed s a → step s a = some s' → I s' ∧ μ s' < μ s) {s t : σ}
    (hs : I s) {actions : List α} (h : Along step allowed s actions)
    (hrun : run step s actions = some t) : actions.length ≤ μ s := by
  induction actions generalizing s with
  | nil => exact Nat.zero_le _
  | cons a rest ih =>
    obtain ⟨s', hs', hrest⟩ := run_cons hrun
    obtain ⟨hinv, hlt⟩ := hstep s a s' hs h.1 hs'
    have hle := ih hinv (h.2 s' hs') hrest
    rw [List.length_cons]
    omega

theorem along_of_forall {step : σ → α → Option σ} {allowed : α → Prop} {s : σ}
    {actions : List α} (h : ∀ a ∈ actions, allowed a) :
    Along step (fun _ a => allowed a) s actions := by
  induction actions generalizing s with
  | nil => trivial
  | cons a rest ih =>
    obtain ⟨ha, hrest⟩ := List.forall_mem_cons.mp h
    exact ⟨ha, fun s' _ => ih hrest⟩

/-- What every action keeps holds at the end of a schedule. -/
theorem run_kept {step : σ → α → Option σ} (I : σ → Prop)
    (hstep : ∀ s a s', I s → step s a = some s' → I s') {s t : σ} (hs : I s) {actions : List α}
    (hrun : run step s actions = some t) : I t := by
  have hfree : Along step (fun _ _ => True) s actions := along_of_forall fun _ _ => trivial
  exact run_invariant I (fun s a s' h _ => hstep s a s' h) hs hfree hrun

theorem Along.mono {step : σ → α → Option σ} {allowed allowed' : σ → α → Prop}
    (h : ∀ s a, allowed s a → allowed' s a) {s : σ} {actions : List α}
    (ha : Along step allowed s actions) : Along step allowed' s actions := by
  induction actions generalizing s with
  | nil => trivial
  | cons a rest ih => exact ⟨h s a ha.1, fun s' hs' => ih (ha.2 s' hs')⟩

/-- Where an invariant holds, what it says of an action is allowed along the schedule. -/
theorem Along.strengthen {step : σ → α → Option σ} {allowed allowed' : σ → α → Prop}
    {I : σ → Prop} (hstep : ∀ s a s', I s → allowed s a → step s a = some s' → I s')
    (h : ∀ s a, I s → allowed s a → allowed' s a) {s : σ} (hs : I s) {actions : List α}
    (ha : Along step allowed s actions) : Along step allowed' s actions := by
  induction actions generalizing s with
  | nil => trivial
  | cons a rest ih =>
    exact ⟨h s a hs ha.1, fun s' hs' => ih (hstep s a s' hs ha.1 hs') (ha.2 s' hs')⟩

/-- A property that cannot be had back once it is lost holds at the end of a schedule exactly
where all actions are allowed, when an invariant of the allowed actions implies it and any
other action loses it. -/
theorem run_iff_along {step : σ → α → Option σ} {allowed : σ → α → Prop} {I P : σ → Prop}
    (hsound : ∀ s, I s → P s)
    (hstep : ∀ s a s', I s → allowed s a → step s a = some s' → I s')
    (hbreak : ∀ s a s', I s → ¬ allowed s a → step s a = some s' → ¬ P s')
    (hlost : ∀ s a s', ¬ P s → step s a = some s' → ¬ P s') {s t : σ} (hs : I s)
    {actions : List α} (hrun : run step s actions = some t) :
    P t ↔ Along step allowed s actions := by
  constructor
  · intro hp
    induction actions generalizing s with
    | nil => trivial
    | cons a rest ih =>
      obtain ⟨s', hs', hrest⟩ := run_cons hrun
      have hallowed : allowed s a := by
        by_contra hn
        exact run_kept (fun s => ¬ P s) hlost (hbreak s a s' hs hn hs') hrest hp
      refine ⟨hallowed, fun s'' hs'' => ?_⟩
      obtain rfl : s' = s'' := Option.some.inj (hs'.symm.trans hs'')
      exact ih (hstep s a s' hs hallowed hs') hrest
  · intro halong
    exact hsound t (run_invariant I hstep hs halong hrun)

/-- Another state stays among the states. -/
theorem mem_set_other {l : List β} {k : Nat} {a b x : β} (h : l[k]? = some a) (hx : x ∈ l)
    (hne : x ≠ a) : x ∈ l.set k b := by
  obtain ⟨j, hj⟩ := List.getElem?_of_mem hx
  have hjk : k ≠ j := by
    rintro rfl
    exact hne (Option.some.inj (hj.symm.trans h))
  exact List.mem_of_getElem? (i := j) (by rw [List.getElem?_set_ne hjk, hj])

theorem mem_set_new {l : List β} {k : Nat} {a b : β} (h : l[k]? = some a) : b ∈ l.set k b := by
  have hlt : k < l.length := (List.getElem?_eq_some_iff.mp h).1
  exact List.mem_of_getElem? (i := k) (by simp [hlt])

/-- A state that is left as it is by what is asked of it counts as before. -/
theorem flatMap_set_same {f : β → List γ} {l : List β} {k : Nat} {a b : β} (h : l[k]? = some a)
    (heq : f b = f a) : (l.set k b).flatMap f = l.flatMap f := by
  induction l generalizing k with
  | nil => rfl
  | cons x l ih =>
    cases k with
    | zero =>
      simp only [List.getElem?_cons_zero, Option.some.injEq] at h
      simp [h, heq]
    | succ k => simpa using ih h

/-- Where all other states have none of it, one has all. -/
theorem flatMap_only {f : β → List γ} {l : List β} {k : Nat} {a : β} (h : l[k]? = some a)
    (hothers : ∀ j x, l[j]? = some x → j ≠ k → f x = []) : l.flatMap f = f a := by
  induction l generalizing k with
  | nil => simp at h
  | cons x l ih =>
    cases k with
    | zero =>
      simp only [List.getElem?_cons_zero, Option.some.injEq] at h
      have hrest : l.flatMap f = [] := by
        rw [List.flatMap_eq_nil_iff]
        intro y hy
        obtain ⟨j, hj⟩ := List.getElem?_of_mem hy
        exact hothers (j + 1) y hj (Nat.succ_ne_zero j)
      simp [h, hrest]
    | succ k =>
      have hx : f x = [] := hothers 0 x rfl (Nat.succ_ne_zero k).symm
      have hl := ih h fun j y hj hne => hothers (j + 1) y hj fun he => hne (Nat.succ.inj he)
      simp [hx, hl]

theorem flatMap_set_only {f : β → List γ} {l : List β} {k : Nat} {a : β} (b : β)
    (h : l[k]? = some a) (hothers : ∀ j x, l[j]? = some x → j ≠ k → f x = []) :
    (l.set k b).flatMap f = f b := by
  have hk : k < l.length := (List.getElem?_eq_some_iff.mp h).1
  apply flatMap_only (k := k)
  · simp [hk]
  · intro j x hx hne
    rw [List.getElem?_set_ne hne.symm] at hx
    exact hothers j x hx hne

theorem flatMap_none {f : β → List γ} {l : List β} (h : ∀ (j : Nat) (x : β), l[j]? = some x → f x = []) :
    l.flatMap f = [] := by
  rw [List.flatMap_eq_nil_iff]
  intro y hy
  obtain ⟨j, hj⟩ := List.getElem?_of_mem hy
  exact h j y hj

theorem sum_set {f : β → Nat} {l : List β} {k : Nat} {a : β} (b : β) (h : l[k]? = some a) :
    ((l.set k b).map f).sum + f a = (l.map f).sum + f b := by
  induction l generalizing k with
  | nil => simp at h
  | cons x l ih =>
    cases k with
    | zero =>
      simp only [List.getElem?_cons_zero, Option.some.injEq] at h
      simp [h]
      omega
    | succ k =>
      have hl := ih h
      simp only [List.set_cons_succ, List.map_cons, List.sum_cons]
      omega

theorem sum_only {f : β → Nat} {l : List β} {k : Nat} {a : β} (h : l[k]? = some a)
    (hothers : ∀ j x, l[j]? = some x → j ≠ k → f x = 0) : (l.map f).sum = f a := by
  induction l generalizing k with
  | nil => simp at h
  | cons x l ih =>
    cases k with
    | zero =>
      simp only [List.getElem?_cons_zero, Option.some.injEq] at h
      have hrest : (l.map f).sum = 0 := by
        apply List.sum_eq_zero_iff_forall_eq_nat.mpr
        intro n hn
        obtain ⟨y, hy, rfl⟩ := List.mem_map.mp hn
        obtain ⟨j, hj⟩ := List.getElem?_of_mem hy
        exact hothers (j + 1) y hj (Nat.succ_ne_zero j)
      simp [h, hrest]
    | succ k =>
      have hx : f x = 0 := hothers 0 x rfl (Nat.succ_ne_zero k).symm
      have hl := ih h fun j y hj hne => hothers (j + 1) y hj fun he => hne (Nat.succ.inj he)
      simp [hx, hl]

end Schedules
