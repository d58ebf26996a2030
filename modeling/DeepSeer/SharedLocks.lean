import Mathlib.Data.List.Basic

/-!
A lock that many readers can hold together, or one writer alone. An operation has
no result where its caller has to wait.
-/
namespace SharedLocks

variable {κ : Type}

structure SharedMutex (κ : Type) where
  readers : List κ := []
  writer : Option κ := none

namespace SharedMutex

def lockShared (m : SharedMutex κ) (k : κ) : Option (SharedMutex κ) :=
  if m.writer = none then some { m with readers := k :: m.readers } else none

def unlockShared [DecidableEq κ] (m : SharedMutex κ) (k : κ) : SharedMutex κ :=
  { m with readers := m.readers.filter (· ≠ k) }

def lock (m : SharedMutex κ) (k : κ) : Option (SharedMutex κ) :=
  if m.writer = none ∧ m.readers = [] then some { m with writer := some k } else none

def unlock (m : SharedMutex κ) : SharedMutex κ := { m with writer := none }

/-- The lock is held by just these, and by a writer only alone. -/
structure HeldBy (m : SharedMutex κ) (reads writes : κ → Prop) : Prop where
  readers : ∀ k, k ∈ m.readers ↔ reads k
  writer : ∀ k, m.writer = some k ↔ writes k
  exclusive : m.writer = none ∨ m.readers = []

variable {m : SharedMutex κ} {reads writes reads' writes' : κ → Prop}

theorem HeldBy.congr (h : m.HeldBy reads writes) (hr : ∀ k, reads k ↔ reads' k)
    (hw : ∀ k, writes k ↔ writes' k) : m.HeldBy reads' writes' :=
  ⟨fun k => (h.readers k).trans (hr k), fun k => (h.writer k).trans (hw k), h.exclusive⟩

/-- A writer keeps all others out. -/
theorem HeldBy.alone (h : m.HeldBy reads writes) {k : κ} (hk : writes k) :
    (∀ j, ¬ reads j) ∧ ∀ j, writes j → j = k := by
  have hwriter := (h.writer k).mpr hk
  have hreaders : m.readers = [] := h.exclusive.resolve_left (by simp [hwriter])
  refine ⟨?_, ?_⟩
  · intro j hj
    have := (h.readers j).mpr hj
    simp [hreaders] at this
  · intro j hj
    have := (h.writer j).mpr hj
    rw [hwriter] at this
    exact (Option.some.inj this).symm

theorem HeldBy.lockShared {k : κ} (h : m.HeldBy reads writes) {m' : SharedMutex κ}
    (hm : m.lockShared k = some m') :
    (∀ j, ¬ writes j) ∧ m'.HeldBy (fun j => reads j ∨ j = k) writes := by
  unfold SharedMutex.lockShared at hm
  split at hm
  · next hfree =>
    cases hm
    refine ⟨?_, ?_, h.writer, .inl hfree⟩
    · intro j hj
      have := (h.writer j).mpr hj
      simp [hfree] at this
    · intro j
      rw [List.mem_cons, h.readers j, or_comm]
  · exact absurd hm (by simp)

theorem HeldBy.unlockShared [DecidableEq κ] {k : κ} (h : m.HeldBy reads writes) :
    (m.unlockShared k).HeldBy (fun j => reads j ∧ j ≠ k) writes := by
  refine ⟨?_, h.writer, ?_⟩
  · intro j
    simp [SharedMutex.unlockShared, h.readers j]
  · rcases h.exclusive with hw | hr
    · exact .inl hw
    · exact .inr (by simp [SharedMutex.unlockShared, hr])

theorem HeldBy.lock {k : κ} (h : m.HeldBy reads writes) {m' : SharedMutex κ}
    (hm : m.lock k = some m') :
    (∀ j, ¬ reads j) ∧ (∀ j, ¬ writes j) ∧ m'.HeldBy reads (fun j => j = k) := by
  unfold SharedMutex.lock at hm
  split at hm
  · next hfree =>
    cases hm
    refine ⟨?_, ?_, h.readers, ?_, .inr hfree.2⟩
    · intro j hj
      have := (h.readers j).mpr hj
      simp [hfree.2] at this
    · intro j hj
      have := (h.writer j).mpr hj
      simp [hfree.1] at this
    · intro j
      simp [eq_comm]
  · exact absurd hm (by simp)

theorem HeldBy.unlock (h : m.HeldBy reads writes) : m.unlock.HeldBy reads (fun _ => False) :=
  ⟨h.readers, fun k => by simp [SharedMutex.unlock], .inl rfl⟩

/-- Who has to wait for the lock waits for one who holds it. -/
theorem HeldBy.blocked (h : m.HeldBy reads writes) {k : κ} (hm : m.lock k = none) :
    ∃ j, reads j ∨ writes j := by
  by_contra hnone
  have hfree : ∀ j, ¬ reads j ∧ ¬ writes j := fun j => not_or.mp fun hj => hnone ⟨j, hj⟩
  have hwriter : m.writer = none := by
    cases hw : m.writer with
    | none => rfl
    | some j => exact absurd ((h.writer j).mp hw) (hfree j).2
  have hreaders : m.readers = [] := by
    apply List.eq_nil_iff_forall_not_mem.mpr
    intro j hj
    exact (hfree j).1 ((h.readers j).mp hj)
  simp [SharedMutex.lock, hwriter, hreaders] at hm

theorem HeldBy.blockedShared (h : m.HeldBy reads writes) {k : κ} (hm : m.lockShared k = none) :
    ∃ j, writes j := by
  cases hw : m.writer with
  | none => simp [SharedMutex.lockShared, hw] at hm
  | some j => exact ⟨j, (h.writer j).mp hw⟩

end SharedMutex

end SharedLocks
