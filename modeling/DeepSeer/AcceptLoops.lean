import DeepSeer.Listener

/-!
When the accept loop comes back. It leaves where `accept(2)` would block or has run out
of descriptors; every other error sends it round again, and so does a closed socket.
-/
namespace DeepSeer

open WhileLoop

namespace Listener

/-- A pass of the loop over the answers to the successive calls of `accept(2)`. -/
def loopPass (answers : Nat → Accepted) (p : Listener × Nat) : Pass (Listener × Nat) Listener :=
  match p.1.acceptPass (answers p.2) with
  | .again s => .again (s, p.2 + 1)
  | .leave s => .leave s

/-- `onReadable`, in at most the given number of passes. -/
def onReadable (s : Listener) (answers : Nat → Accepted) (passes : Nat) : Option Listener :=
  iterate (loopPass answers) passes (s, 0)

/-- Control comes back to the event loop. -/
def Returns (s : Listener) (answers : Nat → Accepted) : Prop :=
  ∃ passes, (s.onReadable answers passes).isSome = true

/-- The answer is one that the loop leaves at. -/
def Leaves (answer : Accepted) : Prop := answer = .error .wouldBlock ∨ answer = .error .fdExhausted

/-- The callback gets a connection and stops the listener. -/
def Stopped (s : Listener) (answer : Accepted) : Prop :=
  ∃ client, answer = .ok client ∧ client.nonblocking = true ∧ s.onAccept_ = true ∧
    client.stops = true

/-- The socket is open, and comes to an answer that the loop leaves at before a callback
stops the listener. -/
structure Ends (s : Listener) (answers : Nat → Accepted) (i k : Nat) : Prop where
  open_ : s.socket_ ≠ kInvalidFd
  leaves : Leaves (answers k)
  running : ∀ j, i ≤ j → j < k → ¬ Stopped s (answers j)

variable {s s' : Listener} {answer : Accepted}

theorem stop_closes (s : Listener) : s.stop.socket_ = kInvalidFd := by
  unfold stop
  split
  · assumption
  · rfl

theorem acceptPass_closed (h : s.socket_ = kInvalidFd) : s.acceptPass answer = .again s := by
  unfold acceptPass accept
  rw [if_pos h]

theorem acceptPass_leaves (h : s.socket_ ≠ kInvalidFd) (hl : Leaves answer) :
    ∃ r, s.acceptPass answer = .leave r := by
  unfold acceptPass accept
  rw [if_neg h]
  rcases hl with rfl | rfl
  · exact ⟨s, rfl⟩
  · exact ⟨s.pauseAccepting, rfl⟩

/-- A pass that leaves found the socket open and such an answer. -/
theorem acceptPass_leave (h : s.acceptPass answer = .leave s') :
    s.socket_ ≠ kInvalidFd ∧ Leaves answer := by
  by_cases hs : s.socket_ = kInvalidFd
  · rw [acceptPass_closed hs] at h
    cases h
  · refine ⟨hs, ?_⟩
    unfold acceptPass accept at h
    rw [if_neg hs] at h
    cases answer with
    | ok client =>
      dsimp only at h
      split at h
      · cases h
      · cases h
    | error code =>
      cases code with
      | wouldBlock => exact .inl rfl
      | fdExhausted => exact .inr rfl
      | internalError => cases h

/-- A pass that goes round again leaves the listener as it is, unless the callback stops
it. -/
theorem acceptPass_again (h : s.acceptPass answer = .again s') :
    s' = s ∨ Stopped s answer ∧ s'.socket_ = kInvalidFd := by
  unfold acceptPass at h
  by_cases hs : s.socket_ = kInvalidFd
  · rw [accept, if_pos hs] at h
    cases h
    exact .inl rfl
  · rw [accept, if_neg hs] at h
    cases answer with
    | ok client =>
      dsimp only at h
      split at h
      · next hnonblocking =>
        cases h
        unfold onAccept
        split
        · next hstops =>
          exact .inr ⟨⟨client, rfl, hnonblocking, hstops.1, hstops.2⟩, stop_closes s⟩
        · exact .inl rfl
      · cases h
        exact .inl rfl
    | error code =>
      cases code with
      | wouldBlock => cases h
      | fdExhausted => cases h
      | internalError =>
        cases h
        exact .inl rfl

theorem acceptPass_stopped (h : s.socket_ ≠ kInvalidFd) (hs : Stopped s answer) :
    s.acceptPass answer = .again s.stop := by
  obtain ⟨client, rfl, hnonblocking, hcallback, hstops⟩ := hs
  have hclient : s.onAccept client = s.stop := if_pos ⟨hcallback, hstops⟩
  rw [acceptPass, accept, if_neg h, ← hclient]
  exact if_pos hnonblocking

/-- By induction on the passes that are left until the answer that the loop leaves at. -/
theorem ends_leaves {answers : Nat → Accepted} (d : Nat) {s : Listener} {i : Nat}
    (h : Ends s answers i (i + d)) : (iterate (loopPass answers) (d + 1) (s, i)).isSome = true := by
  induction d generalizing s i with
  | zero =>
    obtain ⟨r, hr⟩ := acceptPass_leaves h.open_ h.leaves
    rw [Nat.add_zero] at hr
    rw [iterate_leave (by rw [loopPass, hr])]
    rfl
  | succ d ih =>
    cases hp : s.acceptPass (answers i) with
    | leave r =>
      rw [iterate_leave (by rw [loopPass, hp])]
      rfl
    | again s' =>
      have hsame : s' = s := by
        rcases acceptPass_again hp with hsame | ⟨hstopped, -⟩
        · exact hsame
        · exact absurd hstopped (h.running i (Nat.le_refl i) (by omega))
      subst hsame
      rw [iterate_again (by rw [loopPass, hp])]
      have hindex : i + 1 + d = i + (d + 1) := by omega
      exact ih ⟨h.open_, hindex ▸ h.leaves, fun j hj hlt => h.running j (by omega) (by omega)⟩

/-- By induction on the passes that the loop took. -/
theorem leaves_ends {answers : Nat → Accepted} (n : Nat) {s : Listener} {i : Nat}
    (h : (iterate (loopPass answers) n (s, i)).isSome = true) :
    ∃ k, i ≤ k ∧ Ends s answers i k := by
  induction n generalizing s i with
  | zero => cases h
  | succ n ih =>
    cases hp : s.acceptPass (answers i) with
    | leave r =>
      obtain ⟨hopen, hleaves⟩ := acceptPass_leave hp
      exact ⟨i, Nat.le_refl i, hopen, hleaves, fun j hj hlt => by omega⟩
    | again s' =>
      rw [iterate_again (by rw [loopPass, hp])] at h
      obtain ⟨k, hk, hends⟩ := ih h
      rcases acceptPass_again hp with rfl | ⟨-, hclosed⟩
      · refine ⟨k, by omega, hends.open_, hends.leaves, fun j hj hlt hstopped => ?_⟩
        by_cases hji : j = i
        · have hstop := acceptPass_stopped hends.open_ (hji ▸ hstopped)
          rw [hp] at hstop
          refine hends.open_ ?_
          rw [Pass.again.inj hstop]
          exact stop_closes s'
        · exact hends.running j (by omega) hlt hstopped
      · exact absurd hclosed hends.open_

/-- The loop comes back exactly where the socket is open and comes to an answer that the
loop leaves at before a callback stops the listener. -/
theorem returns_iff (s : Listener) (answers : Nat → Accepted) :
    Returns s answers ↔ ∃ k, Ends s answers 0 k := by
  constructor
  · rintro ⟨n, hn⟩
    obtain ⟨k, -, hends⟩ := leaves_ends n hn
    exact ⟨k, hends⟩
  · rintro ⟨k, hends⟩
    exact ⟨k + 1, ends_leaves k (by rwa [Nat.zero_add])⟩

/-- An error that does not go away keeps the loop busy for ever, and so does a callback
that stops the listener, although the kernel would then have no more connections. -/
theorem accept_loop_stays :
    ¬ Returns { socket_ := 7, onAccept_ := true } (fun _ => .error .internalError) ∧
      ¬ Returns { socket_ := 7, onAccept_ := true }
        (fun k => if k = 0 then .ok ⟨true, true⟩ else .error .wouldBlock) := by
  constructor
  · rintro ⟨n, hn⟩
    obtain ⟨k, -, hends⟩ := leaves_ends n hn
    rcases hends.leaves with hleaves | hleaves
    · cases hleaves
    · cases hleaves
  · rintro ⟨n, hn⟩
    obtain ⟨k, -, hends⟩ := leaves_ends n hn
    by_cases hk : k = 0
    · rcases hends.leaves with hleaves | hleaves
      · simp [hk] at hleaves
      · simp [hk] at hleaves
    · exact hends.running 0 (Nat.le_refl 0) (by omega) ⟨⟨true, true⟩, rfl, rfl, rfl, rfl⟩

end Listener

end DeepSeer
