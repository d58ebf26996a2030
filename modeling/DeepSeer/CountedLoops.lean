import Mathlib.Data.List.Basic

/-!
Counted loops over arrays whose accesses are checked. A loop fails where a body
fails; an access fails where the index is outside of the array. So a program
made of these has a result exactly where all of its accesses are inside.
-/
namespace CountedLoops

variable {σ α : Type}

/-- `for (i = 0; i < n; ++i)`. -/
def forLoop (n : Nat) (body : Nat → σ → Option σ) (s : σ) : Option σ :=
  (List.range n).foldlM (fun s i => body i s) s

def load (v : Array α) (i : Nat) : Option α := v[i]?

def store (v : Array α) (i : Nat) (x : α) : Option (Array α) :=
  if i < v.size then some (v.setIfInBounds i x) else none

/-- The computation has a result, and `Q` holds of it. -/
def Gives (x : Option α) (Q : α → Prop) : Prop := ∃ a, x = some a ∧ Q a

theorem Gives.some {Q : α → Prop} {a : α} (h : Q a) : Gives (some a) Q := ⟨a, rfl, h⟩

theorem Gives.bind {x : Option α} {f : α → Option σ} {P : α → Prop} {Q : σ → Prop}
    (h : Gives x P) (hf : ∀ a, P a → Gives (f a) Q) : Gives (x >>= f) Q := by
  obtain ⟨a, rfl, ha⟩ := h
  exact hf a ha

theorem Gives.mono {x : Option α} {P Q : α → Prop} (h : Gives x P) (hpq : ∀ a, P a → Q a) :
    Gives x Q := by
  obtain ⟨a, rfl, ha⟩ := h
  exact .some (hpq a ha)

theorem gives_load {v : Array α} {i : Nat} (h : i < v.size) :
    Gives (load v i) fun x => load v i = Option.some x :=
  ⟨v[i], Array.getElem?_eq_getElem h, Array.getElem?_eq_getElem h⟩

theorem load_lt {v : Array α} {i : Nat} {x : α} (h : load v i = some x) : i < v.size :=
  (Array.getElem?_eq_some_iff.mp h).1

theorem gives_store {v : Array α} {i : Nat} (h : i < v.size) (x : α) :
    Gives (store v i x) fun w => w = v.setIfInBounds i x :=
  ⟨_, by simp [store, h], rfl⟩

theorem store_size {v w : Array α} {i : Nat} {x : α} (h : store v i x = some w) :
    w.size = v.size := by
  unfold store at h
  split at h
  · cases h
    simp
  · exact absurd h (by simp)

theorem forLoop_succ (n : Nat) (body : Nat → σ → Option σ) (s : σ) :
    forLoop (n + 1) body s = forLoop n body s >>= body n := by
  simp [forLoop, List.range_succ]

/-- What the bodies keep while they succeed holds after the loop, which ends. -/
theorem forLoop_gives {body : Nat → σ → Option σ} (I : σ → Prop) {n : Nat}
    (hbody : ∀ i s, i < n → I s → Gives (body i s) I) {s : σ} (hs : I s) :
    Gives (forLoop n body s) I := by
  induction n with
  | zero => exact .some hs
  | succ n ih =>
    rw [forLoop_succ]
    apply (ih fun i s hi => hbody i s (by omega)).bind
    intro t ht
    exact hbody n t (by omega) ht

/-- What every successful body keeps holds after a loop that has ended. -/
theorem forLoop_kept {body : Nat → σ → Option σ} (I : σ → Prop) {n : Nat}
    (hbody : ∀ i s s', I s → body i s = some s' → I s') {s s' : σ} (hs : I s)
    (h : forLoop n body s = some s') : I s' := by
  induction n generalizing s' with
  | zero =>
    cases h
    exact hs
  | succ n ih =>
    rw [forLoop_succ] at h
    obtain ⟨t, ht, hb⟩ := Option.bind_eq_some_iff.mp h
    exact hbody n t s' (ih ht) hb

/-- A loop that has ended went through every body. -/
theorem forLoop_reaches {body : Nat → σ → Option σ} {n : Nat} {s s' : σ}
    (h : forLoop n body s = some s') {i : Nat} (hi : i < n) :
    ∃ t t', body i t = some t' := by
  induction n generalizing s' with
  | zero => omega
  | succ n ih =>
    rw [forLoop_succ] at h
    obtain ⟨t, ht, hb⟩ := Option.bind_eq_some_iff.mp h
    by_cases he : i = n
    · subst he
      exact ⟨t, s', hb⟩
    · exact ih ht (by omega)

/-- A loop that copies a part of one array into another. -/
theorem forLoop_copy {β : Type} {source : Array α} (f : α → β) (start target : Nat) {n : Nat}
    (hs : start + n ≤ source.size) {v : Array β} (hv : target + n ≤ v.size) :
    Gives (forLoop n (fun i v => do
      let b ← load source (start + i)
      store v (target + i) (f b)) v) fun w =>
      w.toList = v.toList.take target ++ ((source.toList.drop start).take n).map f ++
        v.toList.drop (target + n) := by
  induction n with
  | zero =>
    refine .some ?_
    rw [List.take_zero, List.map_nil, List.append_nil, Nat.add_zero, List.take_append_drop]
  | succ n ih =>
    rw [forLoop_succ]
    apply (ih (by omega) (by omega)).bind
    intro w hw
    have hsize : target + n < w.size := by
      have hlength := congrArg List.length hw
      simp only [Array.length_toList, List.length_append, List.length_take, List.length_map,
        List.length_drop] at hlength
      omega
    have hfront : (v.toList.take target ++ ((source.toList.drop start).take n).map f).length =
        target + n := by
      simp only [List.length_append, List.length_take, List.length_map, List.length_drop,
        Array.length_toList]
      omega
    have hnext : ((source.toList.drop start).take (n + 1)).map f =
        ((source.toList.drop start).take n).map f ++ [f source[start + n]] := by
      have hin : n < (source.toList.drop start).length := by
        rw [List.length_drop, Array.length_toList]
        omega
      rw [List.take_succ_eq_append_getElem hin, List.map_append, List.getElem_drop]
      rfl
    have htail : v.toList.drop (target + n) =
        v.toList[target + n] :: v.toList.drop (target + n + 1) :=
      (List.getElem_cons_drop (by rw [Array.length_toList]; omega)).symm
    have hin : start + n < source.size := by omega
    apply (gives_load hin).bind
    intro b hb
    have hbyte : b = source[start + n] := by
      rw [load, Array.getElem?_eq_getElem hin] at hb
      exact (Option.some.inj hb).symm
    refine (gives_store hsize (f b)).imp fun w' hw' => ⟨hw'.1, ?_⟩
    change w'.toList = _
    rw [hw'.2, Array.toList_setIfInBounds, hw, htail,
      List.set_append_right _ _ (Nat.le_of_eq hfront), hfront, Nat.sub_self, List.set_cons_zero,
      hnext, hbyte]
    simp only [List.append_assoc, List.singleton_append]
    rfl

end CountedLoops
