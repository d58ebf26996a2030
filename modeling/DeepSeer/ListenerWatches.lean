import DeepSeer.Listener
import DeepSeer.Runs

/-!
When a listener watches its descriptor: not when it is stopped, and not while it is
paused, unless its resume timer fires after it was stopped.
-/
namespace DeepSeer

open Runs WhileLoop

namespace Listener

/-- The listener watches its descriptor when it should, has at most one resume timer,
and watches nothing once it is stopped. -/
structure Sound (fd : Fd) (s : Listener) : Prop where
  watched : s.loop_.fdEntries_ fd ≠ none ↔ s.socket_ ≠ kInvalidFd ∧ s.resumeTimer_ = none
  oneTimer : ∀ i j, s.loop_.timers_ i = some false → s.loop_.timers_ j = some false → i = j
  silent : s.socket_ = kInvalidFd → ∀ other, s.loop_.fdEntries_ other = none

/-- The resume timer fires on a listener that is stopped. -/
def LateResume (s : Listener) (e : ListenerEvent) : Prop :=
  ∃ id, e = .timer id ∧ s.accepting = false ∧ s.loop_.timers_ id = some false ∧
    s.socket_ = kInvalidFd

/-- What holds in every state before a late resume. -/
structure Inv (fd : Fd) (s : Listener) : Prop where
  valid : fd ≠ kInvalidFd
  socket : s.socket_ = fd ∨ s.socket_ = kInvalidFd
  watched : s.socket_ = fd → (s.loop_.fdEntries_ fd ≠ none ↔ s.resumeTimer_ = none)
  others : ∀ other, other ≠ s.socket_ → s.loop_.fdEntries_ other = none
  silent : s.loop_.fdEntries_ kInvalidFd = none
  timers : ∀ i, s.loop_.timers_ i = some false → s.resumeTimer_ = some i

variable {fd : Fd} {s : Listener}

theorem Inv.sound (h : Inv fd s) : Sound fd s := by
  have hsilent : s.socket_ = kInvalidFd → ∀ other, s.loop_.fdEntries_ other = none := by
    intro hs other
    by_cases ho : other = s.socket_
    · rw [ho, hs, h.silent]
    · exact h.others other ho
  refine ⟨?_, fun i j hi hj => ?_, hsilent⟩
  · rcases h.socket with hs | hs
    · rw [h.watched hs, hs]
      exact ⟨fun hr => ⟨h.valid, hr⟩, fun hr => hr.2⟩
    · exact ⟨fun hw => absurd (hsilent hs fd) hw, fun hr => absurd hs hr.1⟩
  · exact Option.some.inj ((h.timers i hi).symm.trans (h.timers j hj))

theorem Inv.stop (h : Inv fd s) : Inv fd s.stop := by
  unfold Listener.stop
  split
  · exact h
  · next hs =>
    have hentries : ∀ other, (s.loop_.remove s.socket_).fdEntries_ other = none := by
      intro other
      by_cases ho : other = s.socket_
      · rw [ho]
        exact Function.update_self _ _ _
      · exact (Function.update_of_ne ho _ _).trans (h.others other ho)
    exact ⟨h.valid, .inr rfl, fun hfd => absurd hfd.symm h.valid, fun other _ => hentries other,
      hentries _, h.timers⟩

theorem dropHandle_entries (l : ListenLoop) (handle : Option Nat) :
    (l.dropHandle handle).fdEntries_ = l.fdEntries_ := by
  cases handle <;> rfl

/-- The timer of a handle that is dropped is cancelled, and no other. -/
theorem dropHandle_timers (l : ListenLoop) (handle : Option Nat) (i : Nat) :
    (l.dropHandle handle).timers_ i = some false ↔ l.timers_ i = some false ∧ handle ≠ some i := by
  cases handle with
  | none => simp [ListenLoop.dropHandle]
  | some id =>
    by_cases hid : i = id
    · subst hid
      simp only [ListenLoop.dropHandle, ListenLoop.cancel, Function.update_self]
      cases l.timers_ i <;> simp
    · simp [ListenLoop.dropHandle, ListenLoop.cancel, Function.update_of_ne hid, Ne.symm hid]

theorem Inv.resumeAccepting (h : Inv fd s) (hs : s.socket_ ≠ kInvalidFd) :
    Inv fd s.resumeAccepting := by
  have hsocket : s.socket_ = fd := h.socket.resolve_right hs
  have hentries : ∀ other, s.resumeAccepting.loop_.fdEntries_ other =
      if other = s.socket_ then some readableMask else s.loop_.fdEntries_ other := by
    intro other
    by_cases ho : other = s.socket_
    · rw [if_pos ho, ho]
      exact Function.update_self _ _ _
    · rw [if_neg ho]
      refine (Function.update_of_ne ho _ _).trans ?_
      refine (Function.update_of_ne ho _ _).trans ?_
      rw [dropHandle_entries]
  refine ⟨h.valid, h.socket, fun _ => ?_, fun other ho => ?_, ?_, fun i hi => ?_⟩
  · rw [hentries, if_pos hsocket.symm]
    simp [Listener.resumeAccepting]
  · exact (hentries other).trans ((if_neg ho).trans (h.others other ho))
  · rw [hentries, if_neg (Ne.symm hs)]
    exact h.silent
  · obtain ⟨hpending, hne⟩ := (dropHandle_timers _ _ i).mp hi
    exact absurd (h.timers i hpending) hne

theorem Inv.pauseAccepting (h : Inv fd s) (hs : s.socket_ ≠ kInvalidFd) :
    Inv fd s.pauseAccepting := by
  have hsocket : s.socket_ = fd := h.socket.resolve_right hs
  have hentries : ∀ other, s.pauseAccepting.loop_.fdEntries_ other = none := by
    intro other
    have hloop : s.pauseAccepting.loop_.fdEntries_ other =
        (s.loop_.remove s.socket_).fdEntries_ other :=
      congrFun (dropHandle_entries _ _) other
    rw [hloop]
    by_cases ho : other = s.socket_
    · rw [ho]
      exact Function.update_self _ _ _
    · exact (Function.update_of_ne ho _ _).trans (h.others other ho)
  refine ⟨h.valid, h.socket, fun _ => ?_, fun other _ => hentries other, hentries _, fun i hi => ?_⟩
  · rw [hentries]
    simp [Listener.pauseAccepting]
  · obtain ⟨hpending, hne⟩ := (dropHandle_timers _ _ i).mp hi
    by_cases hid : i = s.loop_.nextTimerId_
    · rw [hid]
      rfl
    · have hold : s.loop_.timers_ i = some false :=
        (Function.update_of_ne hid _ _).symm.trans hpending
      exact absurd (h.timers i hold) hne

theorem Inv.onAccept (h : Inv fd s) (client : Client) : Inv fd (s.onAccept client) := by
  unfold Listener.onAccept
  split
  · exact h.stop
  · exact h

theorem accept_stopped (hs : s.socket_ = kInvalidFd) (answer : Accepted) :
    s.accept answer = .error .internalError := if_pos hs

theorem accept_open (hs : s.socket_ ≠ kInvalidFd) (answer : Accepted) : s.accept answer = answer :=
  if_neg hs

/-- The listener after a pass of the accept loop. -/
def afterPass : Pass Listener Listener → Listener
  | .again s => s
  | .leave s => { s with accepting := false }

theorem Inv.acceptPass (h : Inv fd s) (answer : Accepted) :
    Inv fd (afterPass (s.acceptPass answer)) := by
  unfold Listener.acceptPass
  by_cases hs : s.socket_ = kInvalidFd
  · rw [accept_stopped hs]
    exact h
  · rw [accept_open hs]
    cases answer with
    | ok client =>
      dsimp only
      split
      · exact h.onAccept client
      · exact h
    | error code =>
      cases code with
      | wouldBlock => exact { h with }
      | fdExhausted => exact { h.pauseAccepting hs with }
      | internalError => exact h

/-- A timer that is not cancelled must find the listener open. -/
theorem Inv.timerFired (h : Inv fd s) {id : Nat}
    (hopen : s.loop_.timers_ id = some false → s.socket_ ≠ kInvalidFd) :
    Inv fd (s.timerFired id) := by
  unfold Listener.timerFired
  cases ht : s.loop_.timers_ id with
  | none => exact h
  | some cancelled =>
    have herased : Inv fd { s with loop_.timers_ := Function.update s.loop_.timers_ id none } := by
      refine { h with timers := fun i hi => ?_ }
      by_cases hid : i = id
      · rw [hid] at hi
        dsimp only at hi
        rw [Function.update_self] at hi
        cases hi
      · exact h.timers i ((Function.update_of_ne hid _ _).symm.trans hi)
    cases cancelled with
    | true => exact herased
    | false => exact herased.resumeAccepting (hopen ht)

theorem Inv.step (h : Inv fd s) {e : ListenerEvent} (hlate : ¬ LateResume s e) :
    Inv fd (s.step e) := by
  cases e with
  | readable other =>
    unfold Listener.step
    dsimp only
    split
    · exact { h with }
    · exact h
  | answered answer =>
    unfold Listener.step
    dsimp only
    split
    · have hpass := h.acceptPass answer
      cases hp : s.acceptPass answer with
      | again s' =>
        rw [hp] at hpass
        exact hpass
      | leave s' =>
        rw [hp] at hpass
        exact hpass
    · exact h
  | timer id =>
    unfold Listener.step
    dsimp only
    split
    · exact h
    · next hidle =>
      exact h.timerFired fun ht hs => hlate ⟨id, rfl, by simpa using hidle, ht, hs⟩
  | stop =>
    unfold Listener.step
    dsimp only
    split
    · exact h
    · exact h.stop

/-- A late resume watches the invalid descriptor. -/
theorem lateResume_unsound {e : ListenerEvent} (h : LateResume s e) : ¬ Sound fd (s.step e) := by
  obtain ⟨id, rfl, hidle, ht, hs⟩ := h
  intro hsound
  have hstep : s.step (.timer id) =
      Listener.resumeAccepting { s with
        loop_.timers_ := Function.update s.loop_.timers_ id none } := by
    simp [Listener.step, hidle, Listener.timerFired, ht]
  have hentry : (s.step (.timer id)).loop_.fdEntries_ s.socket_ = some readableMask := by
    rw [hstep]
    exact Function.update_self _ _ _
  have hnone := hsound.silent (by rw [hstep]; exact hs) s.socket_
  rw [hentry] at hnone
  cases hnone

theorem start_inv {calls : StartCalls} {s₀ : Listener}
    (h : ({} : Listener).start calls = (.ok (), s₀)) : Inv s₀.socket_ s₀ := by
  unfold Listener.start at h
  by_cases hfd : calls.socket = kInvalidFd
  · rw [if_pos hfd] at h
    cases h
  · simp only [hfd, if_false] at h
    split at h
    · cases h
    · split at h
      · cases h
      · split at h
        · cases h
        · cases h
          have hother : ∀ other, other ≠ calls.socket →
              (({} : ListenLoop).watch calls.socket readableMask).fdEntries_ other = none :=
            fun other ho => (Function.update_of_ne ho _ _).trans (Function.update_of_ne ho _ _)
          refine ⟨hfd, .inl rfl, fun _ => ?_, hother, hother _ (Ne.symm hfd), fun i hi => ?_⟩
          · simp [ListenLoop.watch]
          · cases hi

/-- After a start the listener is sound in every state of a run exactly where no resume
timer fires on it after it was stopped. -/
theorem sound_iff_no_lateResume {calls : StartCalls} {s₀ : Listener}
    (h : ({} : Listener).start calls = (.ok (), s₀)) (events : List ListenerEvent) :
    (∀ k, Sound s₀.socket_ (run step s₀ (events.take k))) ↔
      Along step (fun s e => ¬ LateResume s e) s₀ events := by
  refine always_iff (fun s (hs : Inv s₀.socket_ s) => hs.sound) (fun s e hs hlate => hs.step hlate)
    (fun s e _ hlate => lateResume_unsound (by simpa using hlate)) (start_inv h) events

/-- A start in which every call succeeds. -/
def opened : StartCalls where
  socket := 7
  setReuseAddr := .ok ()
  setNonblocking := .ok ()
  bindAndListen := .ok ()

/-- A listener that is stopped while it is paused. -/
def stoppedPaused : List ListenerEvent :=
  [.readable 7, .answered (.error .fdExhausted), .stop, .timer 1]

theorem sound_iff_opened :
    (∀ k, Sound 7 (run step (({} : Listener).start opened).2 (stoppedPaused.take k))) ↔
      Along step (fun s e => ¬ LateResume s e) (({} : Listener).start opened).2 stoppedPaused :=
  sound_iff_no_lateResume (show ({} : Listener).start opened = (.ok (), _) from rfl) stoppedPaused

theorem late_resume_watches :
    let s := run step (({} : Listener).start opened).2 stoppedPaused
    s.socket_ = kInvalidFd ∧ s.loop_.fdEntries_ kInvalidFd = some readableMask ∧ ¬ Sound 7 s := by
  have hsocket :
      (run step (({} : Listener).start opened).2 stoppedPaused).socket_ = kInvalidFd := by
    decide
  have hwatched : (run step (({} : Listener).start opened).2 stoppedPaused).loop_.fdEntries_
      kInvalidFd = some readableMask := by
    decide
  refine ⟨hsocket, hwatched, fun h => ?_⟩
  rw [h.silent hsocket kInvalidFd] at hwatched
  cases hwatched

end Listener

end DeepSeer
