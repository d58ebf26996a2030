import Mathlib.Data.List.Basic

/-!
Computations that end in a state or in a failure. `Ends` gives what holds in
either case. `Comes` says that a computation is made of smaller acts, taken one
after another from the state where it starts; what every act keeps then holds
however the computation ends.
-/
namespace FallibleRuns

variable {σ τ α β ε : Type}

/-- `Q` holds of the result, or `E` of the failure. -/
def Ends (x : Except ε τ) (Q : τ → Prop) (E : ε → Prop) : Prop :=
  match x with
  | .ok a => Q a
  | .error e => E e

@[simp] theorem ends_ok {a : τ} {Q : τ → Prop} {E : ε → Prop} :
    Ends (.ok a) Q E ↔ Q a := Iff.rfl

@[simp] theorem ends_error {e : ε} {Q : τ → Prop} {E : ε → Prop} :
    Ends (.error e) Q E ↔ E e := Iff.rfl

theorem ends_trivial (x : Except ε τ) : Ends x (fun _ => True) fun _ => True := by
  cases x <;> trivial

theorem Ends.mono {x : Except ε τ} {Q Q' : τ → Prop} {E E' : ε → Prop} (h : Ends x Q E)
    (hq : ∀ a, Q a → Q' a) (he : ∀ e, E e → E' e) : Ends x Q' E' := by
  cases x with
  | ok a => exact hq a h
  | error e => exact he e h

theorem Ends.and {x : Except ε τ} {P Q : τ → Prop} {E E' : ε → Prop} (h : Ends x P E)
    (h' : Ends x Q E') : Ends x (fun a => P a ∧ Q a) fun e => E e ∧ E' e := by
  cases x with
  | ok a => exact ⟨h, h'⟩
  | error e => exact ⟨h, h'⟩

theorem Ends.bind {x : Except ε τ} {f : τ → Except ε σ} {P : τ → Prop} {Q : σ → Prop}
    {E : ε → Prop} (h : Ends x P E) (hf : ∀ a, P a → Ends (f a) Q E) : Ends (x >>= f) Q E := by
  cases x with
  | ok a => exact hf a h
  | error e => exact h

/-- What every step keeps holds after all of them. -/
theorem Ends.foldlM {f : σ → β → Except ε σ} {I : σ → Prop} {E : ε → Prop}
    (hf : ∀ s b, I s → Ends (f s b) I E) (l : List β) {s : σ} (hs : I s) :
    Ends (l.foldlM f s) I E := by
  induction l generalizing s with
  | nil => exact hs
  | cons b rest ih =>
    rw [List.foldlM_cons]
    exact (hf s b hs).bind fun s' hs' => ih hs'

/-- Every step is permitted in the state in which it comes. -/
def Permitted (f : σ → β → Except ε σ) (permitted : σ → β → Prop) : σ → List β → Prop
  | _, [] => True
  | s, b :: rest => permitted s b ∧ ∀ s', f s b = .ok s' → Permitted f permitted s' rest

instance decidablePermitted {f : σ → β → Except ε σ} {permitted : σ → β → Prop}
    [∀ s b, Decidable (permitted s b)] (s : σ) (l : List β) :
    Decidable (Permitted f permitted s l) :=
  match l with
  | [] => .isTrue trivial
  | b :: rest =>
    match hs : f s b with
    | .error _ => decidable_of_iff (permitted s b) (by simp [Permitted, hs])
    | .ok s' =>
      have : Decidable (Permitted f permitted s' rest) := decidablePermitted s' rest
      decidable_of_iff (permitted s b ∧ Permitted f permitted s' rest) (by simp [Permitted, hs])

/-- What every permitted step keeps holds after all of them. -/
theorem Ends.foldlM_permitted {f : σ → β → Except ε σ} {permitted : σ → β → Prop} {I : σ → Prop}
    {E : ε → Prop} (hf : ∀ s b, I s → permitted s b → Ends (f s b) I E) {l : List β} {s : σ}
    (hs : I s) (hl : Permitted f permitted s l) : Ends (l.foldlM f s) I E := by
  induction l generalizing s with
  | nil => exact hs
  | cons b rest ih =>
    rw [List.foldlM_cons]
    have hstep := hf s b hs hl.1
    cases hb : f s b with
    | ok s' =>
      rw [hb] at hstep
      exact ih hstep (hl.2 s' hb)
    | error e =>
      rw [hb] at hstep
      exact hstep

/-- The computation `r` from `s` is a sequence of acts. -/
inductive Comes (perform : σ → α → Except ε σ) : σ → Except ε σ → Prop
  | done (s : σ) : Comes perform s (.ok s)
  | act {s s' : σ} {r : Except ε σ} (a : α) :
      perform s a = .ok s' → Comes perform s' r → Comes perform s r
  | fails {s : σ} {e : ε} (a : α) : perform s a = .error e → Comes perform s (.error e)

variable {perform : σ → α → Except ε σ}

theorem Comes.single (s : σ) (a : α) : Comes perform s (perform s a) := by
  cases h : perform s a with
  | ok s' => exact .act a h (.done s')
  | error e => exact .fails a h

/-- A second computation that is made of acts wherever the first one can end. -/
theorem Comes.bindWith {G : σ → Prop} {s : σ} {x : Except ε σ} {f : σ → Except ε σ}
    (h : Comes perform s x) (hx : Ends x G fun _ => True)
    (hf : ∀ s', G s' → Comes perform s' (f s')) : Comes perform s (x >>= f) := by
  induction h with
  | done s => exact hf s hx
  | act a ha _ ih => exact .act a ha (ih hx)
  | fails a ha => exact .fails a ha

theorem Comes.bind {s : σ} {x : Except ε σ} {f : σ → Except ε σ} (h : Comes perform s x)
    (hf : ∀ s', Comes perform s' (f s')) : Comes perform s (x >>= f) :=
  h.bindWith (ends_trivial x) fun s' _ => hf s'

/-- Steps that are made of acts where `G` holds, and that keep it. -/
theorem Comes.foldlM {G : σ → Prop} {f : σ → β → Except ε σ}
    (hf : ∀ s b, G s → Comes perform s (f s b))
    (hkeep : ∀ s b, G s → Ends (f s b) G fun _ => True) (l : List β) {s : σ} (hs : G s) :
    Comes perform s (l.foldlM f s) := by
  induction l generalizing s with
  | nil => exact .done s
  | cons b rest ih =>
    rw [List.foldlM_cons]
    exact (hf s b hs).bindWith (hkeep s b hs) fun s' hs' => ih hs'

/-- What every act keeps, the computation keeps. -/
theorem Comes.ends {I : σ → Prop} {E : ε → Prop}
    (hact : ∀ s a, I s → Ends (perform s a) I E) {s : σ} {r : Except ε σ}
    (h : Comes perform s r) (hs : I s) : Ends r I E := by
  induction h with
  | done s => exact hs
  | act a ha _ ih =>
    have := hact _ a hs
    rw [ha] at this
    exact ih this
  | fails a ha =>
    have := hact _ a hs
    rwa [ha] at this

/-- The acts of a computation that succeeds. -/
theorem Comes.acts {s s' : σ} (h : Comes perform s (.ok s')) :
    ∃ l : List α, l.foldlM perform s = .ok s' := by
  generalize hr : (Except.ok s' : Except ε σ) = r at h
  induction h with
  | done s =>
    cases hr
    exact ⟨[], rfl⟩
  | act a ha _ ih =>
    obtain ⟨l, hl⟩ := ih hr
    refine ⟨a :: l, ?_⟩
    rw [List.foldlM_cons, ha]
    exact hl
  | fails a ha => cases hr

section

variable {f : σ → α → Except ε σ} {obs : σ → List β}

/-- A step adds at most one entry to the list that is observed. -/
def Grows (f : σ → α → Except ε σ) (obs : σ → List β) : Prop :=
  ∀ s a, Ends (f s a) (fun s' => obs s' = obs s ∨ ∃ b, obs s' = obs s ++ [b]) fun _ => True

theorem foldlM_cons_ok {a : α} {l : List α} {s s' : σ} (h : (a :: l).foldlM f s = .ok s') :
    ∃ t, f s a = .ok t ∧ l.foldlM f t = .ok s' := by
  rw [List.foldlM_cons] at h
  cases ha : f s a with
  | error e =>
    rw [ha] at h
    cases h
  | ok t =>
    rw [ha] at h
    exact ⟨t, rfl, h⟩

theorem Grows.step {s t : σ} {a : α} (h : Grows f obs) (ha : f s a = .ok t) :
    obs t = obs s ∨ ∃ b, obs t = obs s ++ [b] := by
  have hstep := h s a
  rwa [ha] at hstep

/-- What has been observed stays at the front. -/
theorem Grows.begins (h : Grows f obs) {l : List α} {s s' : σ} (hr : l.foldlM f s = .ok s') :
    obs s <+: obs s' := by
  induction l generalizing s with
  | nil =>
    cases hr
    exact List.prefix_rfl
  | cons a rest ih =>
    obtain ⟨t, ha, hrest⟩ := foldlM_cons_ok hr
    refine List.IsPrefix.trans ?_ (ih hrest)
    rcases h.step ha with he | ⟨b, he⟩
    · exact he ▸ List.prefix_rfl
    · exact he ▸ List.prefix_append _ _

/-- The run passes through every stage of the list. -/
theorem Grows.passes (h : Grows f obs) {l : List α} {s s' : σ} (hr : l.foldlM f s = .ok s')
    {j : Nat} (hlow : (obs s).length ≤ j) :
    ∃ k t, (l.take k).foldlM f s = .ok t ∧ obs t = (obs s').take j := by
  induction l generalizing s with
  | nil =>
    cases hr
    exact ⟨0, s', rfl, (List.take_of_length_le hlow).symm⟩
  | cons a rest ih =>
    by_cases hj : j = (obs s).length
    · refine ⟨0, s, rfl, ?_⟩
      rw [hj]
      exact List.prefix_iff_eq_take.mp (h.begins hr)
    · obtain ⟨t, ha, hrest⟩ := foldlM_cons_ok hr
      have hnext : (obs t).length ≤ j := by
        rcases h.step ha with he | ⟨b, he⟩ <;> rw [he]
        · exact hlow
        · rw [List.length_append, List.length_singleton]
          omega
      obtain ⟨k, u, hu, hobs⟩ := ih hrest hnext
      refine ⟨k + 1, u, ?_, hobs⟩
      rw [List.take_succ_cons, List.foldlM_cons, ha]
      exact hu

/-- A property that depends on what has been observed holds all along a run exactly where
it holds of every part of the list. -/
theorem Grows.always_iff (h : Grows f obs) {P : σ → Prop} {Q : List β → Prop} {l : List α}
    {s s' : σ} (hr : l.foldlM f s = .ok s') (hs : obs s = [])
    (hpq : ∀ k t, (l.take k).foldlM f s = .ok t → (P t ↔ Q (obs t))) :
    (∀ k t, (l.take k).foldlM f s = .ok t → P t) ↔ ∀ j, Q ((obs s').take j) := by
  constructor
  · intro hall j
    have hlow : (obs s).length ≤ j := by simp [hs]
    obtain ⟨k, t, ht, hobs⟩ := h.passes hr hlow
    exact hobs ▸ (hpq k t ht).mp (hall k t ht)
  · intro hall k t ht
    have hrest : (l.drop k).foldlM f t = .ok s' := by
      rw [← List.take_append_drop k l, List.foldlM_append, ht] at hr
      exact hr
    rw [hpq k t ht, List.prefix_iff_eq_take.mp (h.begins hrest)]
    exact hall _

end

end FallibleRuns
