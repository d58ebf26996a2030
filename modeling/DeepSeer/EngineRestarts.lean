import DeepSeer.Engine

/-!
The mutex of the engine, and the deadlock of a restart. A call of `submit` that
finds the engine stopped waits, with the mutex, for the thread of the old worker.
-/
namespace Seer

open Schedules

/-- The call has the mutex. -/
@[grind =] def Call.holds : Call → Bool
  | .ensureWorker _ | .assign _ _ _ | .push _ | .stop => true
  | .submit _ | .notifyOne | .shutdown | .notifyAll | .join | .joining _ | .returned => false

@[grind =] def WorkerState.holds : WorkerState → Bool
  | .test => true
  | .start | .waiting | .woken | .taken _ | .classifying _ | .callback | .calling _
  | .finished => false

/-- The worker has to take the mutex before it can finish. -/
@[grind =] def WorkerState.needsMutex : WorkerState → Bool
  | .start | .waiting | .woken | .taken _ | .classifying _ | .callback | .calling _ => true
  | .test | .finished => false

@[simp, grind =] theorem holds_wakeUp (ws : WorkerState) : (Engine.wakeUp ws).holds = ws.holds := by
  cases ws <;> rfl

@[simp, grind =] theorem needsMutex_wakeUp (ws : WorkerState) :
    (Engine.wakeUp ws).needsMutex = ws.needsMutex := by
  cases ws <;> rfl

@[simp, grind =] theorem wakeUp_finished {ws : WorkerState} : Engine.wakeUp ws = .finished ↔ ws = .finished := by
  cases ws <;> simp [Engine.wakeUp]

namespace Engine

/-- The owner of the mutex is the one thread that stands where it is held, and the
threads that are spoken of exist. -/
structure Mutex (s : Engine) : Prop where
  calls : ∀ k c, s.calls[k]? = some c → (c.holds = true ↔ s.owner = some (.call k))
  workers : ∀ w ws, s.workers[w]? = some ws → (ws.holds = true ↔ s.owner = some (.worker w))
  owner_call : ∀ k, s.owner = some (.call k) → k < s.calls.length
  owner_worker : ∀ w, s.owner = some (.worker w) → w < s.workers.length
  worker_ : ∀ w, s.worker_ = some w → w < s.workers.length
  assign : ∀ (k : Nat) item old new, s.calls[k]? = some (.assign item old new) →
    old < s.workers.length ∧ new < s.workers.length

theorem mutex_empty : Mutex {} := by
  constructor <;> simp

/-- The thread stands where the mutex is held. -/
def heldAt (calls : List Call) (workers : List WorkerState) : Thread → Bool
  | .call k => (calls[k]?.map Call.holds).getD false
  | .worker w => (workers[w]?.map WorkerState.holds).getD false

section HeldAt

variable {calls : List Call} {workers : List WorkerState}

theorem heldAt_call {k : Nat} {c : Call} (hk : calls[k]? = some c) :
    heldAt calls workers (.call k) = c.holds := by
  simp [heldAt, hk]

theorem heldAt_worker {w : Nat} {ws : WorkerState} (hw : workers[w]? = some ws) :
    heldAt calls workers (.worker w) = ws.holds := by
  simp [heldAt, hw]

theorem heldAt_setCall {k : Nat} {c : Call} (hk : calls[k]? = some c) (d : Call) :
    heldAt (calls.set k d) workers = Function.update (heldAt calls workers) (.call k) d.holds := by
  obtain ⟨hlt, -⟩ := List.getElem?_eq_some_iff.mp hk
  funext t
  cases t with
  | worker w => simp [heldAt]
  | call j =>
    by_cases hj : j = k
    · subst hj
      simp [heldAt, hlt]
    · simp [heldAt, hj, List.getElem?_set_ne (Ne.symm hj)]

theorem heldAt_setWorker {w : Nat} {ws : WorkerState} (hw : workers[w]? = some ws)
    (ws' : WorkerState) : heldAt calls (workers.set w ws') =
      Function.update (heldAt calls workers) (.worker w) ws'.holds := by
  obtain ⟨hlt, -⟩ := List.getElem?_eq_some_iff.mp hw
  funext t
  cases t with
  | call k => simp [heldAt]
  | worker v =>
    by_cases hv : v = w
    · subst hv
      simp [heldAt, hlt]
    · simp [heldAt, hv, List.getElem?_set_ne (Ne.symm hv)]

/-- A call that goes on without taking or leaving the mutex. -/
theorem heldAt_call_same {k : Nat} {c d : Call} (hk : calls[k]? = some c)
    (hsame : d.holds = c.holds) : heldAt (calls.set k d) workers = heldAt calls workers := by
  have hbefore : heldAt calls workers (.call k) = c.holds := heldAt_call hk
  rw [heldAt_setCall hk, hsame, ← hbefore, Function.update_eq_self]

theorem heldAt_worker_same {w : Nat} {ws ws' : WorkerState} (hw : workers[w]? = some ws)
    (hsame : ws'.holds = ws.holds) :
    heldAt calls (workers.set w ws') = heldAt calls workers := by
  have hbefore : heldAt calls workers (.worker w) = ws.holds := heldAt_worker hw
  rw [heldAt_setWorker hw, hsame, ← hbefore, Function.update_eq_self]

theorem heldAt_enter {c : Call} (hc : c.holds = false) :
    heldAt (calls ++ [c]) workers = heldAt calls workers := by
  funext t
  cases t with
  | worker w => rfl
  | call k =>
    rcases Nat.lt_trichotomy k calls.length with hlt | rfl | hgt
    · simp [heldAt, List.getElem?_append_left hlt]
    · simp [heldAt, hc]
    · have hle := Nat.le_of_lt hgt
      simp [heldAt, List.getElem?_eq_none hle, List.getElem?_append_right hle,
        Nat.sub_ne_zero_of_lt hgt]

theorem heldAt_start : heldAt calls (workers ++ [.start]) = heldAt calls workers := by
  funext t
  cases t with
  | call k => rfl
  | worker w =>
    rcases Nat.lt_trichotomy w workers.length with hlt | rfl | hgt
    · simp [heldAt, List.getElem?_append_left hlt]
    · simp [heldAt, WorkerState.holds]
    · have hle := Nat.le_of_lt hgt
      simp [heldAt, List.getElem?_eq_none hle, List.getElem?_append_right hle,
        Nat.sub_ne_zero_of_lt hgt]

theorem heldAt_wakeUp : heldAt calls (workers.map wakeUp) = heldAt calls workers := by
  funext t
  cases t with
  | call k => rfl
  | worker w => cases hw : workers[w]? <;> simp [heldAt, hw]

end HeldAt

/-- The mutex is held by its owner and by no other thread. -/
def Held (s : Engine) : Prop := ∀ t, heldAt s.calls s.workers t = true ↔ s.owner = some t

section Step

variable {s s' : Engine} {a : Action}

theorem Held.same (h : Held s) (howner : s'.owner = s.owner)
    (hheld : heldAt s'.calls s'.workers = heldAt s.calls s.workers) : Held s' := by
  intro t
  rw [hheld, howner]
  exact h t

theorem Held.takes (h : Held s) (hfree : s.owner = none) {t : Thread} (howner : s'.owner = some t)
    (hheld : heldAt s'.calls s'.workers =
      Function.update (heldAt s.calls s.workers) t true) : Held s' := by
  intro t'
  rw [hheld, howner, Option.some.injEq]
  by_cases ht : t' = t
  · simp [ht]
  · have hnot := h t'
    rw [hfree] at hnot
    simpa [ht, Ne.symm ht] using hnot

theorem Held.frees (h : Held s) {t : Thread} (hheld : heldAt s.calls s.workers t = true)
    (howner : s'.owner = none)
    (hheld' : heldAt s'.calls s'.workers =
      Function.update (heldAt s.calls s.workers) t false) : Held s' := by
  intro t'
  rw [hheld', howner]
  by_cases ht : t' = t
  · simp [ht]
  · have hother := h t'
    rw [(h t).mp hheld, Option.some.injEq] at hother
    simpa [ht, Ne.symm ht] using hother

theorem entered_holds {caller : Option Nat} {c : Call}
    (ha : (∃ item, a = .submit caller item ∧ c = .submit item) ∨
      a = .shutdown caller ∧ c = .shutdown) : c.holds = false := by
  rcases ha with ⟨item, -, rfl⟩ | ⟨-, rfl⟩
  · rfl
  · rfl

theorem held_step (h : Held s) (hmove : Moves s a s') : Held s' := by
  cases hmove with
  | enters c ha => exact h.same rfl (heldAt_enter (entered_holds ha))
  | calls w c ha hw =>
    exact h.same rfl ((heldAt_enter (entered_holds ha)).trans (heldAt_worker_same hw rfl))
  | locksSubmit k item hk hfree => exact h.takes hfree rfl (heldAt_setCall hk _)
  | finds k item hk hr => exact h.same rfl (heldAt_call_same hk rfl)
  | starts k item hk hr hw => exact h.same rfl (heldAt_start.trans (heldAt_call_same hk rfl))
  | restarts k item old hk hr hw =>
    exact h.same rfl (heldAt_start.trans (heldAt_call_same hk rfl))
  | assigns k item old new hk hold => exact h.same rfl (heldAt_call_same hk rfl)
  | pushes k item hk => exact h.frees (heldAt_call hk) rfl (heldAt_setCall hk _)
  | locksShutdown k hk hfree => exact h.takes hfree rfl (heldAt_setCall hk _)
  | stops k hk hr => exact h.frees (heldAt_call hk) rfl (heldAt_setCall hk _)
  | stopped k hk hr => exact h.frees (heldAt_call hk) rfl (heldAt_setCall hk _)
  | notifiesAll k hk => exact h.same rfl (heldAt_wakeUp.trans (heldAt_call_same hk rfl))
  | joinsNone k hk hw => exact h.same rfl (heldAt_call_same hk rfl)
  | joins k w hk hw => exact h.same rfl (heldAt_call_same hk rfl)
  | joined k w hk hf => exact h.same rfl (heldAt_call_same hk rfl)
  | notifiesNone k hk hn => exact h.same rfl (heldAt_call_same hk rfl)
  | notifies k w hk hw =>
    exact h.same rfl ((heldAt_call_same (d := .returned) hk rfl).trans (heldAt_worker_same hw rfl))
  | locks w ws hw hws hfree => exact h.takes hfree rfl (heldAt_setWorker hw _)
  | waits w hw hq hr => exact h.frees (heldAt_worker hw) rfl (heldAt_setWorker hw _)
  | finishes w hw hq hr => exact h.frees (heldAt_worker hw) rfl (heldAt_setWorker hw _)
  | takes w item rest hw hq => exact h.frees (heldAt_worker hw) rfl (heldAt_setWorker hw _)
  | classifies w item hw => exact h.same rfl (heldAt_worker_same hw rfl)
  | returns w hw => exact h.same rfl (heldAt_worker_same hw rfl)
  | goesOn w k hw hk => exact h.same rfl (heldAt_worker_same hw rfl)
  | classifiedSilent w item result inferenceTime hw hn =>
    exact h.same rfl (heldAt_worker_same hw rfl)
  | callsBack w item onResult result inferenceTime hw hs =>
    exact h.same rfl (heldAt_worker_same hw rfl)
  | wakes w hw => exact h.same rfl (heldAt_worker_same hw rfl)

theorem Mutex.held (h : Mutex s) : Held s := by
  intro t
  cases t with
  | call k =>
    cases hk : s.calls[k]? with
    | some c => rw [heldAt_call hk, h.calls k c hk]
    | none =>
      have hlen := List.getElem?_eq_none_iff.mp hk
      have hnot : s.owner ≠ some (.call k) := fun howner =>
        absurd (h.owner_call k howner) (Nat.not_lt.mpr hlen)
      simp [heldAt, hk, hnot]
  | worker w =>
    cases hw : s.workers[w]? with
    | some ws => rw [heldAt_worker hw, h.workers w ws hw]
    | none =>
      have hlen := List.getElem?_eq_none_iff.mp hw
      have hnot : s.owner ≠ some (.worker w) := fun howner =>
        absurd (h.owner_worker w howner) (Nat.not_lt.mpr hlen)
      simp [heldAt, hw, hnot]

theorem Held.owner_call (h : Held s) {k : Nat} (howner : s.owner = some (.call k)) :
    k < s.calls.length := by
  by_contra hlen
  have hheld := (h (.call k)).mpr howner
  simp [heldAt, List.getElem?_eq_none (Nat.not_lt.mp hlen)] at hheld

theorem Held.owner_worker (h : Held s) {w : Nat} (howner : s.owner = some (.worker w)) :
    w < s.workers.length := by
  by_contra hlen
  have hheld := (h (.worker w)).mpr howner
  simp [heldAt, List.getElem?_eq_none (Nat.not_lt.mp hlen)] at hheld

theorem workers_length_le (hmove : Moves s a s') : s.workers.length ≤ s'.workers.length := by
  cases hmove <;> simp

/-- An assignment that waits has been there, or has just started its worker. -/
theorem assign_back (hmove : Moves s a s') {k : Nat} {item : WorkItem} {old new : Nat}
    (hk : s'.calls[k]? = some (.assign item old new)) :
    s.calls[k]? = some (.assign item old new) ∨
      s.calls[k]? = some (.ensureWorker item) ∧ s.running_ = false ∧ s.worker_ = some old ∧
        new < s'.workers.length := by
  cases hmove <;> grind

/-- The worker of the engine has been its worker, or has just started, or been waited for. -/
theorem worker_back (hmove : Moves s a s') {w : Nat} (hw : s'.worker_ = some w) :
    s.worker_ = some w ∨ w < s'.workers.length ∨
      ∃ (k : Nat) (item : WorkItem) (old : Nat), s.calls[k]? = some (.assign item old w) := by
  cases hmove with
  | starts k item hk hr hnone =>
    cases hw
    exact .inr (.inl (by simp))
  | assigns k item old new hk hold =>
    cases hw
    exact .inr (.inr ⟨k, item, old, hk⟩)
  | joined k w' hk hf => cases hw
  | _ => exact .inl hw

theorem mutex_step (h : Mutex s) (hmove : Moves s a s') : Mutex s' := by
  have hheld := held_step h.held hmove
  have hlen := workers_length_le hmove
  refine ⟨?_, ?_, fun k => hheld.owner_call, fun w => hheld.owner_worker, ?_, ?_⟩
  · intro k c hk
    rw [← hheld (.call k), heldAt_call hk]
  · intro w ws hw
    rw [← hheld (.worker w), heldAt_worker hw]
  · intro w hw
    rcases worker_back hmove hw with hbefore | hnew | ⟨k, item, old, hk⟩
    · have hlt := h.worker_ w hbefore
      omega
    · exact hnew
    · have hlt := (h.assign k item old w hk).2
      omega
  · intro k item old new hk
    rcases assign_back hmove hk with hbefore | ⟨-, -, hworker, hnew⟩
    · obtain ⟨hold, hnew⟩ := h.assign k item old new hbefore
      omega
    · have hold := h.worker_ old hworker
      omega

end Step

/-- A call has the mutex while it waits for a worker that needs it to finish. -/
def Deadlock (s : Engine) : Prop :=
  ∃ k item old new ws, s.calls[k]? = some (Call.assign item old new) ∧ s.owner = some (.call k) ∧
    s.workers[old]? = some ws ∧ ws.needsMutex = true

/-- The action is that of a call of `submit` at the mutex. -/
def submits (s : Engine) : Action → Bool
  | .call k =>
    match s.calls[k]? with
    | some (.submit _) => true
    | _ => false
  | _ => false

/-- A worker of an engine that is stopped has finished. -/
def Exited (s : Engine) : Prop :=
  s.running_ = false → ∀ w ∈ s.worker_, s.workers[w]? = some .finished

instance (s : Engine) : Decidable s.Exited := by
  unfold Exited
  infer_instance

/-- The call of `submit` comes to the mutex when the worker of a stopped engine has
finished. -/
def SubmitsLate (s : Engine) (a : Action) : Prop := s.submits a = true → s.Exited

instance (s : Engine) (a : Action) : Decidable (s.SubmitsLate a) := by
  unfold SubmitsLate
  infer_instance

/-- What a call of `submit` relies on while it has the mutex. -/
structure Joinable (s : Engine) : Prop where
  mutex : Mutex s
  ensureWorker : ∀ (k : Nat) item, s.calls[k]? = some (.ensureWorker item) → s.Exited
  assign : ∀ (k : Nat) item old new, s.calls[k]? = some (.assign item old new) →
    s.workers[old]? = some .finished

theorem joinable_empty : Joinable {} := ⟨mutex_empty, by simp, by simp⟩

section Step

variable {s s' : Engine} {a : Action}

theorem finished_stays (hmove : Moves s a s') {w : Nat} (hw : s.workers[w]? = some .finished) :
    s'.workers[w]? = some .finished := by
  cases hmove <;> grind

/-- The action is that of a call that has the mutex. -/
def ByHolder (s : Engine) (a : Action) : Prop :=
  ∃ k c, a = .call k ∧ s.calls[k]? = some c ∧ c.holds = true

theorem Mutex.holder (h : Mutex s) (hholder : s.ByHolder a) {k : Nat} {c : Call}
    (hk : s.calls[k]? = some c) (hc : c.holds = true) : a = .call k := by
  obtain ⟨j, d, rfl, hj, hd⟩ := hholder
  have hown := (h.calls j d hj).mp hd
  rw [(h.calls k c hk).mp hc] at hown
  cases hown
  rfl

/-- A stopped engine gets a worker that has not finished only from a call with the mutex. -/
theorem Exited.kept (h : s.Exited) (hmove : Moves s a s') : s'.Exited ∨ s.ByHolder a := by
  have hsame : s'.running_ = s.running_ → s'.worker_ = s.worker_ → s'.Exited := by
    intro hr hw hrunning w hworker
    rw [hr] at hrunning
    rw [hw] at hworker
    exact finished_stays hmove (h hrunning w hworker)
  cases hmove with
  | starts k item hk => exact .inr ⟨k, _, rfl, hk, rfl⟩
  | restarts k item old hk => exact .inr ⟨k, _, rfl, hk, rfl⟩
  | assigns k item old new hk => exact .inr ⟨k, _, rfl, hk, rfl⟩
  | stops k hk => exact .inr ⟨k, _, rfl, hk, rfl⟩
  | joined k w hk => exact .inl (by simp [Exited])
  | _ => exact .inl (hsame rfl rfl)

theorem submits_call {s : Engine} {a : Action} (h : s.submits a = true) :
    ∃ k item, a = .call k ∧ s.calls[k]? = some (.submit item) := by
  unfold submits at h
  split at h
  · split at h
    · exact ⟨_, _, rfl, ‹_›⟩
    · cases h
  · cases h

theorem ensureWorker_back (hmove : Moves s a s') {k : Nat} {item : WorkItem}
    (hk : s'.calls[k]? = some (.ensureWorker item)) :
    s.calls[k]? = some (.ensureWorker item) ∧ a ≠ .call k ∨ s.submits a = true := by
  cases hmove <;> grind [submits]

theorem joinable_step (h : Joinable s) (hlate : s.SubmitsLate a) (hmove : Moves s a s') :
    Joinable s' := by
  obtain ⟨hmutex, hensure, hassign⟩ := h
  refine ⟨mutex_step hmutex hmove, ?_, ?_⟩
  · intro k item hk
    rcases ensureWorker_back hmove hk with ⟨hbefore, hother⟩ | hsubmits
    · rcases (hensure k item hbefore).kept hmove with hexited | hholder
      · exact hexited
      · exact absurd (hmutex.holder hholder hbefore rfl) hother
    · rcases (hlate hsubmits).kept hmove with hexited | ⟨j, c, rfl, hj, hc⟩
      · exact hexited
      · obtain ⟨i, item', hi, hcall⟩ := submits_call hsubmits
        cases hi
        rw [hj, Option.some.injEq] at hcall
        subst hcall
        cases hc
  · intro k item old new hk
    rcases assign_back hmove hk with hbefore | ⟨hbefore, hrunning, hworker, -⟩
    · exact finished_stays hmove (hassign k item old new hbefore)
    · exact finished_stays hmove (hensure k item hbefore hrunning old hworker)

end Step

/-- Where every call of `submit` that takes the mutex finds the engine running, or its
worker finished, no call waits with the mutex for a worker that needs it. -/
theorem no_deadlock (actions : List Action) (s : Engine)
    (hlate : Along step SubmitsLate {} actions) (hrun : run step {} actions = some s) :
    ¬ Deadlock s := by
  have hjoinable : Joinable s :=
    run_invariant Joinable (fun _ _ _ h ha hs => joinable_step h ha (step_moves hs)) joinable_empty hlate hrun
  rintro ⟨k, item, old, new, ws, hk, -, hws, hneeds⟩
  rw [hjoinable.assign k item old new hk, Option.some.injEq] at hws
  subst hws
  cases hneeds

/-- One call of each kind, the second one of `submit` behind the whole of `shutdown`. -/
def restartActions (item : WorkItem) : List Action :=
  [.submit none item, .call 0, .call 0, .call 0, .notifyOne 0 none, .work 0, .work 0, .work 0,
    .classified 0 ⟨[], 0, [], 0⟩ 0, .work 0, .work 0, .shutdown none, .call 1, .call 1, .call 1,
    .work 0, .work 0, .call 1, .call 1, .submit none item, .call 2, .call 2, .call 2]

theorem no_deadlock_restart : ∃ s, run step {} (restartActions ⟨[], [], none⟩) = some s ∧
    ¬ Deadlock s :=
  ⟨_, rfl, no_deadlock (restartActions ⟨[], [], none⟩) _ (by decide) rfl⟩

/-- A call of `submit` that comes between the stop of the engine and the end of its
worker waits for this worker with the mutex. -/
theorem restart_deadlocks : ∃ actions s, run step {} actions = some s ∧ Deadlock s := by
  refine ⟨[.submit none ⟨[], [], none⟩, .call 0, .call 0, .call 0, .notifyOne 0 none,
    .shutdown none, .call 1, .call 1, .submit none ⟨[], [], none⟩, .call 2, .call 2], _, rfl, ?_⟩
  exact ⟨2, ⟨[], [], none⟩, 0, 1, .start, by decide, by decide, by decide, by decide⟩

/-- The deadlock comes of every call of `submit` that is not late. -/
theorem early_submit_deadlocks {s s' : Engine} {a : Action} (h : Mutex s)
    (hearly : ¬ s.SubmitsLate a) (hstep : s.step a = some s') :
    ∃ s'', s'.step a = some s'' ∧ Deadlock s'' := by
  simp only [SubmitsLate, Exited, Classical.not_imp, not_forall] at hearly
  obtain ⟨hsubmits, hrunning, w, hworker, hunfinished⟩ := hearly
  obtain ⟨k, item, rfl, hk⟩ := submits_call hsubmits
  have hlt : k < s.calls.length := (List.getElem?_eq_some_iff.mp hk).1
  have hbound : w < s.workers.length := h.worker_ w hworker
  simp only [step, advance, hk, Option.ite_none_right_eq_some, Option.some.injEq] at hstep
  obtain ⟨hfree, rfl⟩ := hstep
  obtain ⟨ws, hws⟩ : ∃ ws, s.workers[w]? = some ws := ⟨_, List.getElem?_eq_getElem hbound⟩
  have hneeds : ws.needsMutex = true := by
    have hheld := h.workers w ws hws
    rw [hfree] at hheld
    cases ws <;> simp_all [WorkerState.holds, WorkerState.needsMutex]
  refine ⟨({ s with
    owner := some (.call k)
    calls := s.calls.set k (.ensureWorker item)
    submitted := s.submitted ++ [item] } : Engine).startWorker k item, ?_, ?_⟩
  · simp [step, advance, hlt, hrunning]
  · have hw : s.worker_ = some w := hworker
    refine ⟨k, item, w, s.workers.length, ws, ?_, ?_, ?_, hneeds⟩
    · simp [startWorker, hw, hlt]
    · simp [startWorker, hw]
    · simp [startWorker, hw, List.getElem?_append_left hbound, hws]

/-- It does not end: the owner of the mutex does not go on, and neither does the worker
come to its end. -/
theorem deadlock_step {s s' : Engine} {a : Action} (h : Mutex s) (hdead : Deadlock s)
    (hstep : s.step a = some s') : Deadlock s' := by
  obtain ⟨k, item, old, new, ws, hk, howner, hold, hneeds⟩ := hdead
  have hcalls := h.calls
  have hworkers := h.workers
  have hmove := step_moves hstep
  have hkept : s'.calls[k]? = some (.assign item old new) ∧ s'.owner = some (.call k) := by
    cases hmove <;> grind
  obtain ⟨ws', hws', hneeds'⟩ : ∃ ws', s'.workers[old]? = some ws' ∧ ws'.needsMutex = true := by
    cases hmove <;> grind
  exact ⟨k, item, old, new, ws', hkept.1, hkept.2, hws', hneeds'⟩

end Engine
end Seer
