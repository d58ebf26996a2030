import DeepSeer.FallibleRuns

/-!
Two computations side by side. They are alike where both end with related results, or
both with related failures; steps that keep a relation are alike over whole lists.
-/
namespace PairedRuns

open FallibleRuns

variable {σ σ' τ τ' α ε ε' : Type}

/-- Related results, or related failures. -/
def Alike (R : σ → σ' → Prop) (E : ε → ε' → Prop) : Except ε σ → Except ε' σ' → Prop
  | .ok a, .ok b => R a b
  | .error e, .error e' => E e e'
  | _, _ => False

variable {R : σ → σ' → Prop} {S : τ → τ' → Prop} {E : ε → ε' → Prop}

@[simp] theorem alike_ok {a : σ} {b : σ'} : Alike R E (.ok a) (.ok b) ↔ R a b := Iff.rfl

@[simp] theorem alike_error {e : ε} {e' : ε'} : Alike R E (.error e) (.error e') ↔ E e e' :=
  Iff.rfl

theorem Alike.mono {R' : σ → σ' → Prop} {E' : ε → ε' → Prop} {x : Except ε σ} {y : Except ε' σ'}
    (h : Alike R E x y) (hr : ∀ a b, R a b → R' a b) (he : ∀ e e', E e e' → E' e e') :
    Alike R' E' x y := by
  cases x with
  | ok a =>
    cases y with
    | ok b => exact hr a b h
    | error e' => exact h.elim
  | error e =>
    cases y with
    | ok b => exact h.elim
    | error e' => exact he e e' h

theorem Alike.bind {x : Except ε σ} {y : Except ε' σ'} {f : σ → Except ε τ} {g : σ' → Except ε' τ'}
    (h : Alike R E x y) (hf : ∀ a b, R a b → Alike S E (f a) (g b)) :
    Alike S E (x >>= f) (y >>= g) := by
  cases x with
  | ok a =>
    cases y with
    | ok b => exact hf a b h
    | error e' => exact h.elim
  | error e =>
    cases y with
    | ok b => exact h.elim
    | error e' => exact h

/-- The two computations take the same steps. -/
theorem Alike.foldlM {f : σ → α → Except ε σ} {g : σ' → α → Except ε' σ'}
    (hf : ∀ a b i, R a b → Alike R E (f a i) (g b i)) (l : List α) {a : σ} {b : σ'} (h : R a b) :
    Alike R E (l.foldlM f a) (l.foldlM g b) := by
  induction l generalizing a b with
  | nil => exact h
  | cons i rest ih =>
    rw [List.foldlM_cons, List.foldlM_cons]
    exact (hf a b i h).bind fun a' b' h' => ih h'

/-- The first computation takes only permitted steps. -/
theorem Alike.foldlM_permitted {f : σ → α → Except ε σ} {g : σ' → α → Except ε' σ'}
    {permitted : σ → α → Prop}
    (hf : ∀ a b i, R a b → permitted a i → Alike R E (f a i) (g b i)) {l : List α} {a : σ} {b : σ'}
    (h : R a b) (hl : Permitted f permitted a l) : Alike R E (l.foldlM f a) (l.foldlM g b) := by
  induction l generalizing a b with
  | nil => exact h
  | cons i rest ih =>
    have hstep := hf a b i h hl.1
    rw [List.foldlM_cons, List.foldlM_cons]
    cases ha : f a i with
    | ok a' =>
      cases hb : g b i with
      | ok b' =>
        rw [ha, hb] at hstep
        exact ih hstep (hl.2 a' ha)
      | error e' =>
        rw [ha, hb] at hstep
        exact hstep.elim
    | error e =>
      cases hb : g b i with
      | ok b' =>
        rw [ha, hb] at hstep
        exact hstep.elim
      | error e' =>
        rw [ha, hb] at hstep
        exact hstep

end PairedRuns
