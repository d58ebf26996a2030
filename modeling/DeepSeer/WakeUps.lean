import DeepSeer.LoopThreads

/-!
What `post` and `stop` rely on: a callback that has been pushed is run, or the loop
is going to look for it; a stop that comes behind the start of the loop ends it with
the batch at hand.
-/
namespace DeepSeer.LoopThreads

open Schedules

/-- The posted callbacks that the loop has taken and not run. -/
@[grind =] def Position.taken : Position → List Callback
  | .running cbs _ | .user _ cbs _ => cbs
  | .created | .test | .waiting | .batch _ | .drain _ | .swap _ | .exited => []

/-- The loop is on its way to take the posted callbacks. -/
@[grind =] def Position.takes : Position → Bool
  | .drain _ | .swap _ => true
  | .created | .test | .waiting | .batch _ | .running _ _ | .user _ _ _ | .exited => false

/-- A call of `stop` that has cleared `running_`. -/
@[grind =] def Call.stops : Call → Bool
  | .wakeStop | .stopped => true
  | .push _ | .wakePost | .posted | .store => false

/-- The steps of the threads themselves, without new calls. -/
@[grind =] def Action.internal : Action → Bool
  | .call _ | .start | .loop | .kevent _ | .dispatch _ | .finish => true
  | .post _ _ | .stop _ | .interrupt | .fail => false

/-- A return of `kevent`. -/
@[grind =] def Action.batches : Action → Bool
  | .kevent _ | .interrupt | .fail => true
  | .post _ _ | .stop _ | .call _ | .start | .loop | .dispatch _ | .finish => false

namespace Loop

variable {capacity : Nat} {s s' : Loop} {a : Action}

theorem write_pos (hc : 0 < capacity) (pipe : Nat) : 0 < write capacity pipe := by
  unfold write
  split <;> omega

theorem write_le (pipe : Nat) : pipe ≤ write capacity pipe := by
  unfold write
  split <;> omega

/-- What was pushed was run, has been taken, or stands in the list. -/
def Ordered (s : Loop) : Prop := s.pushed = s.ran ++ (s.position.taken ++ s.postedCallbacks_)

/-- Where callbacks stand in the list, a byte is in the pipe or about to be written, or
the loop is on its way to them. -/
def Awake (s : Loop) : Prop :=
  s.postedCallbacks_ = [] ∨ 0 < s.pipe ∨ .wakePost ∈ s.calls ∨ s.position.takes = true

theorem ordered_step (h : Ordered s) (hmove : Moves capacity s a s') : Ordered s' := by
  unfold Ordered at *
  cases hmove <;> grind

/-- The write comes behind the push, and the swap behind the last read. -/
theorem awake_step (hc : 0 < capacity) (h : Awake s) (hmove : Moves capacity s a s') :
    Awake s' := by
  have hwrite := write_pos hc s.pipe
  unfold Awake at *
  cases hmove with
  | pushes k cb hk => exact .inr (.inr (.inl (mem_set_new hk)))
  | wakesPost k hk => exact .inr (.inl hwrite)
  | stores k hk =>
    have hkept : .wakePost ∈ s.calls → .wakePost ∈ s.calls.set k .wakeStop :=
      fun hmem => mem_set_other hk hmem (by simp)
    exact h.imp_right (Or.imp_right (Or.imp_left hkept))
  | wakesStop k hk => exact .inr (.inl hwrite)
  | _ => grind

/-- Posted callbacks run in the order in which they were pushed, none of them twice; and
when the loop is about to block with an empty pipe and no call of `post` is between its
push and its write, all of them have run. -/
theorem posted_run (capacity : Nat) (hc : 0 < capacity) (actions : List Action) (s : Loop)
    (hrun : run (step capacity) {} actions = some s) :
    s.ran <+: s.pushed ∧
      (s.position = .waiting → s.pipe = 0 → .wakePost ∉ s.calls → s.ran = s.pushed) := by
  have hordered : Ordered s := run_kept Ordered
    (fun _ _ _ h hs => ordered_step h (step_moves hs)) (by rfl) hrun
  have hawake : Awake s := run_kept Awake
    (fun _ _ _ h hs => awake_step hc h (step_moves hs)) (.inl rfl) hrun
  refine ⟨⟨_, hordered.symm⟩, ?_⟩
  intro hwaiting hpipe hcalls
  have hnone : s.postedCallbacks_ = [] := by
    rcases hawake with hnone | hpos | hmem | htakes
    · exact hnone
    · omega
    · exact absurd hmem hcalls
    · rw [hwaiting] at htakes
      cases htakes
  unfold Ordered at hordered
  rw [hwaiting, hnone] at hordered
  simpa [Position.taken] using hordered.symm

/-- A callback that posts another one. -/
def nestedActions : List Action :=
  [.post false 1, .start, .call 0, .call 0, .loop, .kevent [.wake], .loop, .loop, .loop, .loop,
    .loop, .post true 2, .call 1, .call 1, .loop, .finish, .loop, .loop, .loop, .kevent [.wake],
    .loop, .loop, .loop, .loop, .loop, .finish, .loop, .loop, .loop]

theorem posted_run_nested : ∃ s, run (step 1) {} nestedActions = some s ∧ s.ran <+: s.pushed ∧
    (s.position = .waiting → s.pipe = 0 → .wakePost ∉ s.calls → s.ran = s.pushed) :=
  ⟨_, rfl, posted_run 1 Nat.one_pos nestedActions _ rfl⟩

/-- A call of `stop` clears `running_` behind the start of `run`. -/
def StopsLate (s : Loop) : Action → Prop
  | .call k => s.calls[k]? = some .store → s.position ≠ .created
  | _ => True

instance (s : Loop) (a : Action) : Decidable (s.StopsLate a) := by
  unfold StopsLate
  split <;> infer_instance

/-- What a stop leaves behind: the loop does not run on, and where it waits for events,
the byte of the stop is in the pipe. -/
structure Stopped (s : Loop) : Prop where
  stops : ∀ (k : Nat) c, s.calls[k]? = some c → c.stops = true →
    s.position ≠ .created ∧ s.running_ = false
  pipe : ∀ k : Nat, s.calls[k]? = some .stopped → s.position = .waiting → 0 < s.pipe

theorem stopped_step (hc : 0 < capacity) (h : Stopped s) (hlate : s.StopsLate a)
    (hmove : Moves capacity s a s') : Stopped s' := by
  obtain ⟨hstops, hpipe⟩ := h
  have hwrite := write_pos hc s.pipe
  constructor
  · intro k c hk hcstops
    cases hmove <;> grind [StopsLate]
  · intro k hk hwaiting
    cases hmove <;> grind

theorem stopped_empty : Stopped {} := by
  constructor <;> simp

/-- A callback waits for a call that was made. -/
def Calling (s : Loop) : Prop := ∀ (j : Nat) cbs events,
  s.position = .user (some j) cbs events → j < s.calls.length

theorem calling_step (h : Calling s) (hmove : Moves capacity s a s') : Calling s' := by
  intro j cbs events hposition
  unfold Calling at h
  cases hmove <;> grind

/-- A call of `stop` has returned. -/
structure Ending (k : Nat) (s : Loop) : Prop where
  stopped : Stopped s
  calling : Calling s
  call : s.calls[k]? = some .stopped

theorem ending_step {k : Nat} (hc : 0 < capacity) (h : Ending k s)
    (hmove : Moves capacity s a s') : Ending k s' := by
  have hcall := h.call
  have hlate : s.StopsLate a := by
    have hnotcreated := (h.stopped.stops k _ hcall rfl).1
    cases a <;> first | trivial | exact fun _ => hnotcreated
  refine ⟨stopped_step hc h.stopped hlate hmove, calling_step h.calling hmove, ?_⟩
  cases hmove <;> grind

/-- One step of the loop towards its last return of `kevent`. -/
theorem batches_step {k : Nat} (h : Ending k s) (hmove : Moves capacity s a s') :
    (if a.batches = true then 1 else 0) + (if s'.position = .waiting then 1 else 0) ≤
      if s.position = .waiting then 1 else 0 := by
  have hrunning := (h.stopped.stops k _ h.call rfl).2
  cases hmove <;> grind

theorem batches_le {k : Nat} (hc : 0 < capacity) (h : Ending k s) {more : List Action} {t : Loop}
    (hrun : run (step capacity) s more = some t) :
    more.countP Action.batches + (if t.position = .waiting then 1 else 0) ≤
      if s.position = .waiting then 1 else 0 := by
  induction more generalizing s with
  | nil =>
    cases hrun
    simp
  | cons a more ih =>
    obtain ⟨s', hs', hrest⟩ := run_cons hrun
    have hstep := batches_step h (step_moves hs')
    have hle := ih (ending_step hc h (step_moves hs')) hrest
    rw [List.countP_cons]
    omega

/-- A thread that has a stop behind it goes on until the loop has ended. -/
theorem ending_exits {k : Nat} (h : Ending k s)
    (hstuck : ∀ a : Action, a.internal = true → s.step capacity a = none) :
    s.position = .exited := by
  have hrunning := h.stopped.stops k _ h.call rfl
  have hloop := hstuck .loop rfl
  simp only [step, runLoop] at hloop
  cases hposition : s.position with
  | created => exact absurd hposition hrunning.1
  | waiting =>
    have hpipe := h.stopped.pipe k h.call hposition
    have hkevent := hstuck (.kevent [.wake]) rfl
    simp [step, kevent, hposition, hpipe, kMaxEvents] at hkevent
  | batch events =>
    cases events with
    | nil => simp [hposition] at hloop
    | cons event events =>
      cases event with
      | wake => simp [hposition] at hloop
      | other =>
        have hdispatch := hstuck (.dispatch false) rfl
        simp [step, hposition] at hdispatch
  | running cbs events => cases cbs <;> simp [hposition] at hloop
  | user call cbs events =>
    cases call with
    | none =>
      have hfinish := hstuck .finish rfl
      simp [step, hposition] at hfinish
    | some j =>
      obtain ⟨c, hj⟩ : ∃ c, s.calls[j]? = some c :=
        ⟨_, List.getElem?_eq_getElem (h.calling j cbs events hposition)⟩
      have hcall := hstuck (.call j) rfl
      simp only [hposition] at hloop
      simp only [step, advance, hj] at hcall
      cases c <;> simp_all
  | test =>
    simp only [hposition] at hloop
    split at hloop <;> cases hloop
  | drain events =>
    simp only [hposition] at hloop
    split at hloop <;> cases hloop
  | swap events => simp [hposition] at hloop
  | exited => rfl

/-- A stop that comes behind the start of the loop is not lost: when it has returned, the
loop is not blocked with an empty pipe, `kevent` returns once at most, and the loop does
not come to rest before its end. -/
theorem stop_ends (capacity : Nat) (hc : 0 < capacity) (actions : List Action) (s : Loop)
    (hlate : Along (step capacity) StopsLate {} actions)
    (hrun : run (step capacity) {} actions = some s) (hstopped : .stopped ∈ s.calls) :
    ¬ (s.position = .waiting ∧ s.pipe = 0) ∧
      ∀ more t, run (step capacity) s more = some t →
        more.countP Action.batches ≤ 1 ∧
          ((∀ a : Action, a.internal = true → t.step capacity a = none) → t.position = .exited) := by
  obtain ⟨k, hk⟩ := List.getElem?_of_mem hstopped
  have hending : Ending k s :=
    ⟨run_invariant Stopped (fun _ _ _ h ha hs => stopped_step hc h ha (step_moves hs))
        stopped_empty hlate hrun,
      run_invariant Calling (fun _ _ _ h _ hs => calling_step h (step_moves hs))
        (by simp [Calling]) hlate hrun, hk⟩
  constructor
  · rintro ⟨hwaiting, hpipe⟩
    have hpos := hending.stopped.pipe k hk hwaiting
    omega
  · intro more t hmore
    have hle := batches_le hc hending hmore
    have hone : (if s.position = .waiting then 1 else 0) ≤ 1 := by
      split <;> omega
    have ht : Ending k t := run_kept (Ending k)
      (fun _ _ _ h hs => ending_step hc h (step_moves hs)) hending hmore
    exact ⟨by omega, ending_exits ht⟩

/-- A stop from a callback. -/
def stoppingActions : List Action :=
  [.post false 1, .start, .call 0, .call 0, .loop, .kevent [.wake], .loop, .loop, .loop, .loop,
    .loop, .stop true, .call 1, .call 1]

theorem stop_ends_callback : ∃ s, run (step 1) {} stoppingActions = some s ∧
    ¬ (s.position = .waiting ∧ s.pipe = 0) ∧
      ∀ more t, run (step 1) s more = some t →
        more.countP Action.batches ≤ 1 ∧
          ((∀ a : Action, a.internal = true → t.step 1 a = none) → t.position = .exited) :=
  ⟨_, rfl, stop_ends 1 Nat.one_pos stoppingActions _ (by decide) rfl (by decide)⟩

/-- A stop that has returned before `run` starts is lost: the loop comes to wait with an
empty pipe. -/
theorem early_stop_lost : ∃ actions s, run (step 1) {} actions = some s ∧
    .stopped ∈ s.calls ∧ s.position = .waiting ∧ s.pipe = 0 := by
  refine ⟨[.stop false, .call 0, .call 0, .start, .loop, .kevent [.wake], .loop, .loop, .loop,
    .loop, .loop, .loop, .loop], _, rfl, ?_⟩
  decide

end Loop
end DeepSeer.LoopThreads
