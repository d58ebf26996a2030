import DeepSeer.CountedLoops

/-!
Loops that fill an array, one position in each pass. What such a loop leaves is
described by a function from positions to values, and a set of the positions
that have been written.
-/
namespace FilledArrays

open CountedLoops

variable {σ α : Type}

/-- The positions in `P` have been written with `g`, the others still hold `f`. -/
structure Filled (size : Nat) (P : Nat → Prop) (g f : Nat → α) (v : Array α) : Prop where
  sized : v.size = size
  written : ∀ j, j < size → P j → load v j = some (g j)
  kept : ∀ j, j < size → ¬ P j → load v j = some (f j)

/-- An array that holds the first values of a function. -/
def Holds (size : Nat) (f : Nat → α) (v : Array α) : Prop :=
  v.size = size ∧ ∀ j, j < size → load v j = some (f j)

theorem Holds.get {size j : Nat} {f : Nat → α} {v : Array α} (h : Holds size f v) (hj : j < size) :
    load v j = some (f j) := h.2 j hj

/-- The values of a function that agrees at the positions of the array. -/
theorem Holds.congr {size : Nat} {f g : Nat → α} {v : Array α} (h : Holds size f v)
    (he : ∀ j, j < size → f j = g j) : Holds size g v := by
  refine ⟨h.1, ?_⟩
  intro j hj
  rw [h.get hj, he j hj]

theorem holds_replicate (size : Nat) (x : α) :
    Holds size (fun _ => x) (Array.replicate size x) := by
  refine ⟨by simp, ?_⟩
  intro j hj
  simp [load, hj]

/-- An array that is larger than what is asked of it. -/
theorem holds_within {size : Nat} {v : Array α} (x : α) (h : size ≤ v.size) {j : Nat}
    (hj : j < size) : load v j = some (v.getD j x) := by
  have hin : j < v.size := by omega
  simp [load, Array.getD, hin]

theorem Holds.start {size : Nat} {f : Nat → α} {v : Array α} (h : Holds size f v)
    (g : Nat → α) : Filled size (fun _ => False) g f v :=
  ⟨h.1, fun _ _ hp => hp.elim, fun _ hj _ => h.get hj⟩

namespace Filled

variable {size : Nat} {P Q : Nat → Prop} {g f : Nat → α} {v : Array α}

theorem mono (h : Filled size P g f v) (he : ∀ j, j < size → (P j ↔ Q j)) :
    Filled size Q g f v := by
  refine ⟨h.sized, ?_, ?_⟩
  · intro j hj hq
    exact h.written j hj ((he j hj).mpr hq)
  · intro j hj hq
    exact h.kept j hj fun hp => hq ((he j hj).mp hp)

/-- Every position has been written. -/
theorem full (h : Filled size P g f v) (hall : ∀ j, j < size → P j) : Holds size g v :=
  ⟨h.sized, fun j hj => h.written j hj (hall j hj)⟩

/-- A store of the value that belongs at a position. -/
theorem store (h : Filled size P g f v) {p : Nat} (hp : p < size) :
    Gives (store v p (g p)) (Filled size (fun j => P j ∨ j = p) g f) := by
  have hin : p < v.size := h.sized.symm ▸ hp
  refine (gives_store hin (g p)).imp fun w hw => ⟨hw.1, ?_⟩
  obtain ⟨-, rfl⟩ := hw
  refine ⟨by simpa using h.sized, ?_, ?_⟩
  · intro j hj hw
    by_cases he : p = j
    · subst he
      simp [load, hin]
    · have hpj : P j := hw.resolve_right fun e => he e.symm
      rw [load, Array.getElem?_setIfInBounds_ne he]
      exact h.written j hj hpj
  · intro j hj hw
    have he : p ≠ j := fun e => hw (.inr e.symm)
    rw [load, Array.getElem?_setIfInBounds_ne he]
    exact h.kept j hj fun hpj => hw (.inl hpj)

/-- A store at the first position that is not written yet. -/
theorem next {i : Nat} (h : Filled size (· < i) g f v) (hi : i < size) :
    Gives (CountedLoops.store v i (g i)) (Filled size (· < i + 1) g f) := by
  refine (h.store hi).mono fun w hw => hw.mono ?_
  intro j _
  omega

theorem head {i : Nat} (h : Filled size (· < i) g f v) (hi : i < size) : load v i = some (f i) :=
  h.kept i hi (Nat.lt_irrefl i)

end Filled

theorem Holds.begin {size : Nat} {f : Nat → α} {v : Array α} (h : Holds size f v)
    (g : Nat → α) : Filled size (· < 0) g f v :=
  (h.start g).mono fun j _ => ⟨False.elim, Nat.not_lt_zero j⟩

/-- What each pass takes from its index to the next holds after the loop. -/
theorem forLoop_indexed {body : Nat → σ → Option σ} (I : Nat → σ → Prop) {n : Nat}
    (hbody : ∀ i s, i < n → I i s → Gives (body i s) (I (i + 1))) {s : σ} (hs : I 0 s) :
    Gives (forLoop n body s) (I n) := by
  induction n with
  | zero => exact .some hs
  | succ n ih =>
    rw [forLoop_succ]
    apply (ih fun i s hi => hbody i s (by omega)).bind
    intro t ht
    exact hbody n t (by omega) ht

/-- A loop of passes that always succeed is a fold. -/
theorem forLoop_fold {body : Nat → σ → Option σ} (step : σ → Nat → σ) {n : Nat}
    (hbody : ∀ i s, i < n → body i s = some (step s i)) (s : σ) :
    forLoop n body s = some ((List.range n).foldl step s) := by
  induction n with
  | zero => rfl
  | succ n ih =>
    have hfirst := ih fun i s hi => hbody i s (by omega)
    rw [forLoop_succ, hfirst, List.range_succ, List.foldl_append]
    exact hbody n _ (by omega)

/-- A loop that writes the positions `p 0`, `p 1` and so on. -/
theorem forLoop_filled {body : Nat → Array α → Option (Array α)} {size n : Nat} {p : Nat → Nat}
    {P : Nat → Prop} {g f : Nat → α} {v : Array α} (hv : Filled size P g f v)
    (hp : ∀ i, i < n → p i < size)
    (hbody : ∀ i w, i < n → Filled size (fun j => P j ∨ ∃ k, k < i ∧ j = p k) g f w →
      body i w = store w (p i) (g (p i))) :
    Gives (forLoop n body v) (Filled size (fun j => P j ∨ ∃ k, k < n ∧ j = p k) g f) := by
  apply forLoop_indexed (fun i => Filled size (fun j => P j ∨ ∃ k, k < i ∧ j = p k) g f)
  · intro i w hi hw
    rw [hbody i w hi hw]
    refine (hw.store (hp i hi)).mono fun w' hw' => hw'.mono ?_
    intro j _
    constructor
    · rintro ((hj | ⟨k, hk, he⟩) | he)
      · exact .inl hj
      · exact .inr ⟨k, by omega, he⟩
      · exact .inr ⟨i, by omega, he⟩
    · rintro (hj | ⟨k, hk, he⟩)
      · exact .inl (.inl hj)
      · rcases Nat.lt_succ_iff_lt_or_eq.mp hk with hk | hk
        · exact .inl (.inr ⟨k, hk, he⟩)
        · subst hk
          exact .inr he
  · refine hv.mono fun j _ => ⟨.inl, ?_⟩
    rintro (hj | ⟨k, hk, -⟩)
    · exact hj
    · omega

/-- A loop over all of the positions of an array. Each pass may read what stood
at its own position. -/
theorem forLoop_map {body : Nat → Array α → Option (Array α)} {size : Nat}
    {g f : Nat → α} {v : Array α} (hv : Holds size f v)
    (hbody : ∀ i w, i < size → Filled size (· < i) g f w → body i w = store w i (g i)) :
    Gives (forLoop size body v) (Holds size g) := by
  have hloop : Gives (forLoop size body v) (Filled size (· < size) g f) := by
    apply forLoop_indexed (fun i => Filled size (· < i) g f) _ (hv.begin g)
    intro i w hi hw
    rw [hbody i w hi hw]
    exact hw.next hi
  exact hloop.mono fun w hw => hw.full fun j hj => hj

/-- Two loops, one inside of the other, that write the positions `p s d`. -/
theorem forLoop_nested {outer : Nat → Array α → Option (Array α)} {size rows : Nat} (cols : Nat)
    (body : Nat → Nat → Array α → Option (Array α)) (p : Nat → Nat → Nat) (g : Nat → α)
    {f : Nat → α} {v : Array α} (hv : Holds size f v)
    (hp : ∀ s d, s < rows → d < cols → p s d < size)
    (houter : ∀ s w, s < rows → outer s w = forLoop cols (body s) w)
    (hbody : ∀ s d w, s < rows → d < cols →
      Filled size (fun j => (∃ k, k < s ∧ ∃ e, e < cols ∧ j = p k e) ∨ ∃ e, e < d ∧ j = p s e)
        g f w → body s d w = store w (p s d) (g (p s d))) :
    Gives (forLoop rows outer v)
      (Filled size (fun j => ∃ k, k < rows ∧ ∃ e, e < cols ∧ j = p k e) g f) := by
  apply forLoop_indexed
    (fun s => Filled size (fun j => ∃ k, k < s ∧ ∃ e, e < cols ∧ j = p k e) g f)
  · intro s w hs hw
    rw [houter s w hs]
    have hrow := forLoop_filled hw (fun d hd => hp s d hs hd) (fun d w' hd => hbody s d w' hs hd)
    refine hrow.mono fun w' hw' => hw'.mono ?_
    intro j _
    constructor
    · rintro (⟨k, hk, e, he, hj⟩ | ⟨e, he, hj⟩)
      · exact ⟨k, by omega, e, he, hj⟩
      · exact ⟨s, by omega, e, he, hj⟩
    · rintro ⟨k, hk, e, he, hj⟩
      rcases Nat.lt_succ_iff_lt_or_eq.mp hk with hk | hk
      · exact .inl ⟨k, hk, e, he, hj⟩
      · subst hk
        exact .inr ⟨e, he, hj⟩
  · refine hv.start g |>.mono fun j _ => ⟨False.elim, ?_⟩
    rintro ⟨k, hk, -⟩
    omega

end FilledArrays
