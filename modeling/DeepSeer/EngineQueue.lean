import DeepSeer.EngineRestarts

/-!
What the engine does with its items, as long as no call of `submit` overlaps one
of `shutdown`. There is one worker at a time then, which takes the items in the
order in which they were submitted, and a shutdown waits for all of them.
-/
namespace Seer

open Schedules

namespace Call

/-- A call of `submit` that has not returned. -/
@[grind =] def submitting : Call → Bool
  | .submit _ | .ensureWorker _ | .assign _ _ _ | .push _ | .notifyOne => true
  | .shutdown | .stop | .notifyAll | .join | .joining _ | .returned => false

@[grind =] def shuttingDown : Call → Bool
  | .shutdown | .stop | .notifyAll | .join | .joining _ => true
  | .submit _ | .ensureWorker _ | .assign _ _ _ | .push _ | .notifyOne | .returned => false

/-- A call of `shutdown` that has found the engine running. -/
@[grind =] def closing : Call → Bool
  | .notifyAll | .join | .joining _ => true
  | .submit _ | .ensureWorker _ | .assign _ _ _ | .push _ | .notifyOne | .shutdown | .stop
  | .returned => false

/-- A call that still has to wake the worker. -/
@[grind =] def notifying : Call → Bool
  | .notifyOne | .notifyAll => true
  | .submit _ | .ensureWorker _ | .assign _ _ _ | .push _ | .shutdown | .stop | .join
  | .joining _ | .returned => false

/-- What the call will put into the queue, once it has the mutex. -/
def pushing : Call → List WorkItem
  | .ensureWorker item | .assign item _ _ | .push item => [item]
  | _ => []

end Call

namespace WorkerState

/-- What the worker has taken out of the queue. -/
def inHand : WorkerState → List WorkItem
  | .taken item => [item]
  | _ => []

/-- The callback that the worker has yet to call. -/
def unanswered : WorkerState → List ResultCallback
  | .classifying item => item.onResult.toList
  | _ => []

@[simp] theorem inHand_wakeUp (ws : WorkerState) : (Engine.wakeUp ws).inHand = ws.inHand := by
  cases ws <;> rfl

@[simp] theorem unanswered_wakeUp (ws : WorkerState) :
    (Engine.wakeUp ws).unanswered = ws.unanswered := by
  cases ws <;> rfl

@[grind =] theorem wakeUp_ne_waiting (ws : WorkerState) : Engine.wakeUp ws = .waiting ↔ False := by
  cases ws <;> simp [Engine.wakeUp]

@[grind =] theorem wakeUp_calling (ws : WorkerState) (k : Nat) :
    Engine.wakeUp ws = .calling k ↔ ws = .calling k := by
  cases ws <;> simp [Engine.wakeUp]

end WorkerState

/-- The steps of the threads themselves, without new calls and spurious wake-ups. -/
@[grind =] def Action.internal : Action → Bool
  | .call _ | .notifyOne _ _ | .work _ | .classified _ _ _ => true
  | .submit _ _ | .shutdown _ | .wake _ => false

/-- How many steps a call can still take, with those of the worker that come of it. -/
@[grind =] def Call.rank : Call → Nat
  | .submit _ => 18
  | .ensureWorker _ => 17
  | .assign _ _ _ => 13
  | .push _ => 12
  | .notifyOne => 3
  | .shutdown => 7
  | .stop => 6
  | .notifyAll => 5
  | .join => 2
  | .joining _ => 1
  | .returned => 0

@[grind =] def WorkerState.rank : WorkerState → Nat
  | .taken _ => 6
  | .classifying _ | .calling _ => 5
  | .callback => 4
  | .start | .woken => 3
  | .test => 2
  | .waiting => 1
  | .finished => 0

namespace Engine

/-- No call of `submit` overlaps one of `shutdown`, and no callback shuts down. -/
def Apart (s : Engine) : Action → Prop
  | .submit _ _ => ∀ c ∈ s.calls, c.shuttingDown = false
  | .shutdown caller => caller = none ∧ ∀ c ∈ s.calls, c.submitting = false
  | _ => True

instance (s : Engine) (a : Action) : Decidable (s.Apart a) := by
  unfold Apart
  split <;> infer_instance

/-- The one worker at a time: it runs while the engine is running, and when it has
finished, the queue is empty and a shutdown is there to join it. -/
structure Orderly (s : Engine) : Prop where
  mutex : Mutex s
  apart : ∀ (j k : Nat) c d, s.calls[j]? = some c → s.calls[k]? = some d →
    c.submitting = true → d.shuttingDown = false
  others : ∀ (w : Nat) ws, s.workers[w]? = some ws → ws ≠ .finished → s.worker_ = some w
  running : s.running_ = true → s.worker_ ≠ none
  unfinished : ∀ (w : Nat), s.running_ = true → s.worker_ = some w →
    s.workers[w]? ≠ some .finished
  stopped : s.running_ = false → s.worker_ ≠ none → ∃ (k : Nat) (c : Call),
    s.calls[k]? = some c ∧ c.closing = true
  closing : ∀ (k : Nat) c, s.calls[k]? = some c → c.closing = true →
    s.running_ = false ∧ s.worker_ ≠ none
  one : ∀ (j k : Nat) c d, s.calls[j]? = some c → s.calls[k]? = some d → c.closing = true →
    d.closing = true → j = k
  joining : ∀ (k : Nat) w, s.calls[k]? = some (.joining w) → s.worker_ = some w
  push : ∀ (k : Nat) item, s.calls[k]? = some (.push item) → s.running_ = true
  assign : ∀ (k : Nat) item old new, s.calls[k]? ≠ some (.assign item old new)
  idle : s.worker_ = none → s.queue_ = []
  finished : ∀ (w : Nat), s.worker_ = some w → s.workers[w]? = some .finished → s.queue_ = []
  wake : ∀ (w : Nat), s.workers[w]? = some .waiting →
    s.queue_ = [] ∧ s.running_ = true ∨ ∃ (k : Nat) (c : Call), s.calls[k]? = some c ∧
      c.notifying = true
  calling : ∀ (w k : Nat), s.workers[w]? = some (.calling k) → k < s.calls.length ∧
    ∀ c, s.calls[k]? = some c → c.shuttingDown = false

theorem orderly_empty : Orderly {} := by
  constructor <;> simp [mutex_empty]

theorem closing_shuttingDown {c : Call} (h : c.closing = true) : c.shuttingDown = true := by
  cases c <;> first | rfl | cases h

/-- A call of `submit` that has to start the worker finds none. -/
theorem Orderly.fresh {s : Engine} (h : Orderly s) (k : Nat) (item : WorkItem)
    (hk : s.calls[k]? = some (.ensureWorker item)) (hr : s.running_ = false) :
    s.worker_ = none := by
  by_contra hw
  obtain ⟨j, c, hj, hc⟩ := h.stopped hr hw
  have hfree := h.apart k j _ c hk hj rfl
  rw [closing_shuttingDown hc] at hfree
  cases hfree

section Step

variable {s s' : Engine} {a : Action}

theorem orderly_apart (h : Orderly s) (hapart : s.Apart a) (hmove : Moves s a s') (j k : Nat)
    (c d : Call) (hj : s'.calls[j]? = some c) (hk : s'.calls[k]? = some d)
    (hc : c.submitting = true) : d.shuttingDown = false := by
  have hbefore := h.apart
  cases hmove <;> grind [Apart, List.mem_of_getElem?]

theorem orderly_others (h : Orderly s) (hmove : Moves s a s') (w : Nat) (ws : WorkerState)
    (hw : s'.workers[w]? = some ws) (hne : ws ≠ .finished) : s'.worker_ = some w := by
  have hothers := h.others
  have hjoining := h.joining
  have hassign := h.assign
  have hfresh := h.fresh
  cases hmove <;> grind

theorem orderly_running (h : Orderly s) (hmove : Moves s a s') (hr : s'.running_ = true) :
    s'.worker_ ≠ none := by
  have hrunning := h.running
  have hclosing := h.closing
  have hassign := h.assign
  have hfresh := h.fresh
  cases hmove <;> grind

theorem orderly_unfinished (h : Orderly s) (hmove : Moves s a s') (w : Nat)
    (hr : s'.running_ = true) (hw : s'.worker_ = some w) : s'.workers[w]? ≠ some .finished := by
  have hbefore := h.unfinished
  have hothers := h.others
  have hbound := h.mutex.worker_
  have hclosing := h.closing
  have hassign := h.assign
  have hfresh := h.fresh
  cases hmove <;> grind

/-- The shutdown that has found the engine running stays until the worker is joined. -/
theorem orderly_stopped (h : Orderly s) (hmove : Moves s a s') (hr : s'.running_ = false)
    (hw : s'.worker_ ≠ none) :
    ∃ (k : Nat) (c : Call), s'.calls[k]? = some c ∧ c.closing = true := by
  have hassign := h.assign
  by_cases hbefore : s.running_ = false ∧ s.worker_ ≠ none
  · obtain ⟨k, c, hk, hc⟩ := h.stopped hbefore.1 hbefore.2
    cases hk' : s'.calls[k]? with
    | none => cases hmove <;> grind
    | some c' =>
      refine ⟨k, c', hk', ?_⟩
      cases hmove <;> grind
  · cases hmove with
    | stops k hk hrunning => exact ⟨k, .notifyAll, by grind, rfl⟩
    | _ => grind

theorem orderly_closing (h : Orderly s) (hmove : Moves s a s') (k : Nat) (c : Call)
    (hk : s'.calls[k]? = some c) (hc : c.closing = true) :
    s'.running_ = false ∧ s'.worker_ ≠ none := by
  have hbefore := h.closing
  have hone := h.one
  have hrunning := h.running
  have hassign := h.assign
  have hfresh := h.fresh
  cases hmove <;> grind

theorem orderly_one (h : Orderly s) (hmove : Moves s a s') (j k : Nat) (c d : Call)
    (hj : s'.calls[j]? = some c) (hk : s'.calls[k]? = some d) (hc : c.closing = true)
    (hd : d.closing = true) : j = k := by
  have hone := h.one
  have hclosing := h.closing
  cases hmove <;> grind

theorem orderly_joining (h : Orderly s) (hmove : Moves s a s') (k w : Nat)
    (hk : s'.calls[k]? = some (.joining w)) : s'.worker_ = some w := by
  have hbefore := h.joining
  have hone := h.one
  have hassign := h.assign
  have hfresh := h.fresh
  have hclosing := h.closing
  cases hmove <;> grind

theorem orderly_push (h : Orderly s) (hmove : Moves s a s') (k : Nat) (item : WorkItem)
    (hk : s'.calls[k]? = some (.push item)) : s'.running_ = true := by
  have hbefore := h.push
  have hcalls := h.mutex.calls
  have hassign := h.assign
  cases hmove <;> grind

theorem orderly_assign (h : Orderly s) (hmove : Moves s a s') (k : Nat) (item : WorkItem)
    (old new : Nat) : s'.calls[k]? ≠ some (.assign item old new) := by
  have hbefore := h.assign
  have hfresh := h.fresh
  cases hmove <;> grind

theorem orderly_idle (h : Orderly s) (hmove : Moves s a s') (hw : s'.worker_ = none) :
    s'.queue_ = [] := by
  have hidle := h.idle
  have hfinished := h.finished
  have hjoining := h.joining
  have hpush := h.push
  have hrunning := h.running
  have hworkers := h.others
  cases hmove <;> grind

theorem orderly_finished (h : Orderly s) (hmove : Moves s a s') (w : Nat)
    (hw : s'.worker_ = some w) (hf : s'.workers[w]? = some .finished) : s'.queue_ = [] := by
  have hbefore := h.finished
  have hpush := h.push
  have hunfinished := h.unfinished
  have hothers := h.others
  have hassign := h.assign
  have hfresh := h.fresh
  cases hmove <;> grind

/-- A worker that waits with something to do is going to be woken. -/
theorem orderly_wake (h : Orderly s) (hmove : Moves s a s') (w : Nat)
    (hw : s'.workers[w]? = some .waiting) :
    s'.queue_ = [] ∧ s'.running_ = true ∨
      ∃ (k : Nat) (c : Call), s'.calls[k]? = some c ∧ c.notifying = true := by
  by_cases hbefore : s.workers[w]? = some .waiting
  · rcases h.wake w hbefore with ⟨hq, hr⟩ | ⟨k, c, hk, hc⟩
    · cases hmove with
      | pushes k item hk => exact .inr ⟨k, .notifyOne, by grind, rfl⟩
      | stops k hk _ => exact .inr ⟨k, .notifyAll, by grind, rfl⟩
      | _ => grind
    · have hothers := h.others
      cases hk' : s'.calls[k]? with
      | none => cases hmove <;> grind
      | some c' =>
        refine .inr ⟨k, c', hk', ?_⟩
        cases hmove <;> grind [List.mem_of_getElem?]
  · cases hmove <;> grind

theorem orderly_calling (h : Orderly s) (hapart : s.Apart a) (hmove : Moves s a s') (w k : Nat)
    (hw : s'.workers[w]? = some (.calling k)) :
    k < s'.calls.length ∧ ∀ c, s'.calls[k]? = some c → c.shuttingDown = false := by
  have hbefore := h.calling
  cases hmove <;> grind [Apart]

theorem orderly_step (h : Orderly s) (hapart : s.Apart a) (hmove : Moves s a s') : Orderly s' where
  mutex := mutex_step h.mutex hmove
  apart := orderly_apart h hapart hmove
  others := orderly_others h hmove
  running := orderly_running h hmove
  unfinished := orderly_unfinished h hmove
  stopped := orderly_stopped h hmove
  closing := orderly_closing h hmove
  one := orderly_one h hmove
  joining := orderly_joining h hmove
  push := orderly_push h hmove
  assign := orderly_assign h hmove
  idle := orderly_idle h hmove
  finished := orderly_finished h hmove
  wake := orderly_wake h hmove
  calling := orderly_calling h hapart hmove

end Step

/-- The items in the order in which their calls took the mutex: those that were
classified, one that the worker has taken, those in the queue, and one that is about
to come into it. The callbacks follow the classified items. -/
structure Ledger (s : Engine) : Prop where
  order : s.submitted = s.classified ++ (s.workers.flatMap WorkerState.inHand ++
    (s.queue_ ++ s.calls.flatMap Call.pushing))
  answers : s.classified.filterMap WorkItem.onResult =
    s.called.map Prod.fst ++ s.workers.flatMap WorkerState.unanswered

theorem ledger_empty : Ledger {} := ⟨rfl, rfl⟩

section Parts

variable {s : Engine} {γ : Type}

/-- What a worker has that has not finished, all workers have. -/
theorem Orderly.part (h : Orderly s) {f : WorkerState → List γ} (hf : f .finished = []) {w : Nat}
    {ws : WorkerState} (hw : s.workers[w]? = some ws) (hne : ws ≠ .finished) :
    s.workers.flatMap f = f ws := by
  apply flatMap_only hw
  intro j x hx hj
  by_cases hfinished : x = .finished
  · rw [hfinished, hf]
  · have hother := h.others j x hx hfinished
    rw [h.others w ws hw hne] at hother
    exact absurd (Option.some.inj hother).symm hj

theorem Orderly.part_set (h : Orderly s) {f : WorkerState → List γ} (hf : f .finished = [])
    {w : Nat} {ws : WorkerState} (hw : s.workers[w]? = some ws) (hne : ws ≠ .finished)
    (ws' : WorkerState) : (s.workers.set w ws').flatMap f = f ws' := by
  apply flatMap_set_only ws' hw
  intro j x hx hj
  by_cases hfinished : x = .finished
  · rw [hfinished, hf]
  · have hother := h.others j x hx hfinished
    rw [h.others w ws hw hne] at hother
    exact absurd (Option.some.inj hother).symm hj

theorem pushing_holds {c : Call} (h : c.holds = false) : c.pushing = [] := by
  cases c <;> first | rfl | cases h

theorem pushing_submitting {c : Call} (h : c.submitting = false) : c.pushing = [] := by
  cases c <;> first | rfl | cases h

/-- Without the mutex nothing is about to come into the queue. -/
theorem Mutex.pushing_none (h : Mutex s) (hfree : ∀ k, s.owner ≠ some (.call k)) :
    s.calls.flatMap Call.pushing = [] := by
  apply flatMap_none
  intro j c hj
  apply pushing_holds
  have hholds := h.calls j c hj
  simpa [hfree j] using hholds

theorem Mutex.pushing_others (h : Mutex s) {k : Nat} (howner : s.owner = some (.call k)) (j : Nat)
    (c : Call) (hj : s.calls[j]? = some c) (hne : j ≠ k) : c.pushing = [] := by
  apply pushing_holds
  have hholds := h.calls j c hj
  rw [howner] at hholds
  simpa [Ne.symm hne] using hholds

end Parts

theorem ledger_order {s s' : Engine} {a : Action} (h : Orderly s) (hledger : Ledger s)
    (hmove : Moves s a s') :
    s'.submitted = s'.classified ++ (s'.workers.flatMap WorkerState.inHand ++
      (s'.queue_ ++ s'.calls.flatMap Call.pushing)) := by
  have horder := hledger.order
  cases hmove with
  | enters c ha =>
    have hc : c.pushing = [] := by
      rcases ha with ⟨item, -, rfl⟩ | ⟨-, rfl⟩ <;> rfl
    simpa [hc] using horder
  | calls w c ha hw =>
    have hc : c.pushing = [] := by
      rcases ha with ⟨item, -, rfl⟩ | ⟨-, rfl⟩ <;> rfl
    simpa [hc, flatMap_set_same hw (show WorkerState.inHand (.calling _) = _ from rfl)] using horder
  | locksSubmit k item hk hfree =>
    have hnone := h.mutex.pushing_none fun j hj => by simp [hfree] at hj
    have hset := flatMap_set_only (f := Call.pushing) (.ensureWorker item) hk fun j c hj _ =>
      pushing_holds (by simpa [hfree] using h.mutex.calls j c hj)
    simp [horder, hnone, hset, Call.pushing]
  | pushes k item hk =>
    have howner := (h.mutex.calls k _ hk).mp rfl
    have honly := flatMap_only hk (h.mutex.pushing_others howner)
    have hset := flatMap_set_only .notifyOne hk (h.mutex.pushing_others howner)
    simp [horder, honly, hset, Call.pushing]
  | takes w item rest hw hqueue =>
    have hhand := h.part (f := WorkerState.inHand) rfl hw (by simp)
    have hset := h.part_set (f := WorkerState.inHand) rfl hw (by simp) (.taken item)
    simp [horder, hhand, hset, WorkerState.inHand, hqueue]
  | classifies w item hw =>
    have hhand := h.part (f := WorkerState.inHand) rfl hw (by simp)
    have hset := h.part_set (f := WorkerState.inHand) rfl hw (by simp) (.classifying item)
    simp [horder, hhand, hset, WorkerState.inHand]
  | notifiesAll k hk =>
    simp [horder, flatMap_set_same hk (show Call.pushing .join = _ from rfl), List.flatMap_map]
  | restarts k item old hk hr hw => simp [h.fresh k item hk hr] at hw
  | assigns k item old new hk _ => exact absurd hk (h.assign k item old new)
  | starts k item hk hr hw =>
    simp [horder, flatMap_set_same hk (show Call.pushing (.push item) = _ from rfl),
      WorkerState.inHand]
  | _ => grind [flatMap_set_same, Call.pushing, WorkerState.inHand]

theorem ledger_answers {s s' : Engine} {a : Action} (h : Orderly s) (hledger : Ledger s)
    (hmove : Moves s a s') :
    s'.classified.filterMap WorkItem.onResult =
      s'.called.map Prod.fst ++ s'.workers.flatMap WorkerState.unanswered := by
  have hanswers := hledger.answers
  cases hmove with
  | classifies w item hw =>
    have hpart := h.part (f := WorkerState.unanswered) rfl hw (by simp)
    have hset := h.part_set (f := WorkerState.unanswered) rfl hw (by simp) (.classifying item)
    have hone : [item].filterMap WorkItem.onResult = item.onResult.toList := by
      cases hresult : item.onResult <;> simp [hresult]
    simp [hanswers, hpart, hset, hone, WorkerState.unanswered]
  | classifiedSilent w item result inferenceTime hw hnone =>
    have hpart := h.part (f := WorkerState.unanswered) rfl hw (by simp)
    have hset := h.part_set (f := WorkerState.unanswered) rfl hw (by simp) .start
    simp [hanswers, hpart, hset, hnone, WorkerState.unanswered]
  | callsBack w item onResult result inferenceTime hw hsome =>
    have hpart := h.part (f := WorkerState.unanswered) rfl hw (by simp)
    have hset := h.part_set (f := WorkerState.unanswered) rfl hw (by simp) .callback
    simp [hanswers, hpart, hset, hsome, WorkerState.unanswered]
  | notifiesAll k hk => simp [hanswers, List.flatMap_map]
  | starts k item hk hr hw => simp [hanswers, WorkerState.unanswered]
  | restarts k item old hk hr hw => simp [h.fresh k item hk hr] at hw
  | _ => grind [flatMap_set_same, WorkerState.unanswered]

theorem ledger_step {s s' : Engine} {a : Action} (h : Orderly s) (hledger : Ledger s)
    (hmove : Moves s a s') : Ledger s' :=
  ⟨ledger_order h hledger hmove, ledger_answers h hledger hmove⟩

/-- How many steps all threads can still take. -/
def effort (s : Engine) : Nat :=
  8 * s.queue_.length + (s.workers.map WorkerState.rank).sum + (s.calls.map Call.rank).sum

/-- `notify_all` wakes no more than one worker. -/
theorem Orderly.wakeUp_rank {s : Engine} (h : Orderly s) (hw : s.worker_ ≠ none) :
    ((s.workers.map wakeUp).map WorkerState.rank).sum ≤ (s.workers.map WorkerState.rank).sum + 2 := by
  obtain ⟨w, hworker⟩ := Option.ne_none_iff_exists'.mp hw
  obtain ⟨ws, hws⟩ : ∃ ws, s.workers[w]? = some ws :=
    ⟨_, List.getElem?_eq_getElem (h.mutex.worker_ w hworker)⟩
  have hothers : ∀ (j : Nat) x, s.workers[j]? = some x → j ≠ w → x = .finished := by
    intro j x hx hj
    by_contra hne
    have hother := h.others j x hx hne
    rw [hworker] at hother
    exact hj (Option.some.inj hother).symm
  have hbefore : (s.workers.map WorkerState.rank).sum = ws.rank :=
    sum_only hws fun j x hx hj => by rw [hothers j x hx hj]; rfl
  have hafter : ((s.workers.map wakeUp).map WorkerState.rank).sum = (wakeUp ws).rank := by
    rw [List.map_map]
    exact sum_only (f := WorkerState.rank ∘ wakeUp) hws fun j x hx hj => by
      rw [hothers j x hx hj]
      rfl
  rw [hbefore, hafter]
  cases ws <;> simp [wakeUp, WorkerState.rank]

theorem effort_step {s s' : Engine} {a : Action} (h : Orderly s) (ha : a.internal = true)
    (hmove : Moves s a s') : s'.effort < s.effort := by
  have hcall := fun (k : Nat) (c c' : Call) (hk : s.calls[k]? = some c) =>
    sum_set (f := Call.rank) c' hk
  have hworker := fun (w : Nat) (ws ws' : WorkerState) (hw : s.workers[w]? = some ws) =>
    sum_set (f := WorkerState.rank) ws' hw
  cases hmove with
  | notifiesAll k hk =>
    have hset := sum_set (f := Call.rank) .join hk
    have hwake := h.wakeUp_rank (h.closing k _ hk rfl).2
    simp only [effort, Call.rank] at hset ⊢
    omega
  | _ => grind [effort]

/-- Everything that was submitted has been classified and called back. -/
structure Processed (s : Engine) : Prop where
  queue : s.queue_ = []
  classified : s.classified = s.submitted
  called : s.called.map Prod.fst = s.submitted.filterMap WorkItem.onResult
  idle : ∀ (w : Nat) ws, s.workers[w]? = some ws → ws = .waiting ∨ ws = .finished

theorem processed_of_empty {s : Engine} (hledger : Ledger s) (hqueue : s.queue_ = [])
    (hpushing : s.calls.flatMap Call.pushing = [])
    (hidle : ∀ (w : Nat) ws, s.workers[w]? = some ws → ws = .waiting ∨ ws = .finished) :
    Processed s := by
  have hhand : s.workers.flatMap WorkerState.inHand = [] := by
    apply flatMap_none
    intro w ws hw
    rcases hidle w ws hw with rfl | rfl <;> rfl
  have hunanswered : s.workers.flatMap WorkerState.unanswered = [] := by
    apply flatMap_none
    intro w ws hw
    rcases hidle w ws hw with rfl | rfl <;> rfl
  have horder := hledger.order
  have hanswers := hledger.answers
  rw [hhand, hqueue, hpushing] at horder
  rw [hunanswered] at hanswers
  simp only [List.append_nil] at horder hanswers
  exact ⟨hqueue, horder.symm, by rw [horder, hanswers], hidle⟩

section Stuck

variable {s : Engine}

/-- No thread can go on. -/
def Stuck (s : Engine) : Prop := ∀ a : Action, a.internal = true → s.step a = none

theorem Stuck.free (hstuck : Stuck s) (h : Orderly s) : s.owner = none := by
  cases howner : s.owner with
  | none => rfl
  | some t =>
    cases t with
    | call k =>
      obtain ⟨c, hk⟩ : ∃ c, s.calls[k]? = some c :=
        ⟨_, List.getElem?_eq_getElem (h.mutex.owner_call k howner)⟩
      have hholds := (h.mutex.calls k c hk).mpr howner
      have hnext := hstuck (.call k) rfl
      cases c with
      | ensureWorker item =>
        simp only [step, advance, hk] at hnext
        split at hnext <;> cases hnext
      | assign item old new => exact absurd hk (h.assign k item old new)
      | push item => simp [step, advance, hk] at hnext
      | stop =>
        simp only [step, advance, hk] at hnext
        split at hnext <;> cases hnext
      | _ => cases hholds
    | worker w =>
      obtain ⟨ws, hw⟩ : ∃ ws, s.workers[w]? = some ws :=
        ⟨_, List.getElem?_eq_getElem (h.mutex.owner_worker w howner)⟩
      have hholds := (h.mutex.workers w ws hw).mpr howner
      have hnext := hstuck (.work w) rfl
      cases ws with
      | test =>
        simp only [step, workerLoop, hw] at hnext
        split at hnext
        · split at hnext <;> cases hnext
        · cases hnext
      | _ => simp_all [WorkerState.holds]

/-- The calls that cannot go on have returned, or they wait for a worker. -/
theorem Stuck.call (hstuck : Stuck s) (h : Orderly s) (k : Nat) (c : Call)
    (hk : s.calls[k]? = some c) :
    c = .returned ∨ ∃ w, c = .joining w ∧ s.workers[w]? ≠ some .finished := by
  have hfree := hstuck.free h
  have howner := h.mutex.calls k c hk
  have hnext := hstuck (.call k) rfl
  simp only [step, advance, hk] at hnext
  cases c with
  | notifyOne =>
    by_cases hwaiting : .waiting ∈ s.workers
    · obtain ⟨w, hw⟩ := List.getElem?_of_mem hwaiting
      have hnotify := hstuck (.notifyOne k (some w)) rfl
      simp [step, notify, hk, hw] at hnotify
    · have hnotify := hstuck (.notifyOne k none) rfl
      simp [step, notify, hk, hwaiting] at hnotify
  | join => cases hw : s.worker_ <;> simp [hw] at hnext
  | joining w => exact .inr ⟨w, rfl, by simpa using hnext⟩
  | returned => exact .inl rfl
  | _ => simp_all [Call.holds]

/-- The workers that cannot go on wait to be woken, or they have finished. -/
theorem Stuck.worker (hstuck : Stuck s) (h : Orderly s) (w : Nat) (ws : WorkerState)
    (hw : s.workers[w]? = some ws) : ws = .waiting ∨ ws = .finished := by
  have hfree := hstuck.free h
  have hnext := hstuck (.work w) rfl
  simp only [step, workerLoop, hw] at hnext
  cases ws with
  | waiting => exact .inl rfl
  | finished => exact .inr rfl
  | test =>
    have howner := (h.mutex.workers w _ hw).mp rfl
    simp [hfree] at howner
  | classifying item =>
    have hclassified := hstuck (.classified w ⟨[], 0, [], 0⟩ 0) rfl
    simp only [step, Engine.classifies, hw] at hclassified
    cases hresult : item.onResult <;> simp [hresult] at hclassified
  | calling k =>
    obtain ⟨hlt, hcalling⟩ := h.calling w k hw
    obtain ⟨c, hk⟩ : ∃ c, s.calls[k]? = some c := ⟨_, List.getElem?_eq_getElem hlt⟩
    rcases hstuck.call h k c hk with rfl | ⟨v, rfl, -⟩
    · simp [hk] at hnext
    · cases hcalling _ hk
  | _ => simp_all

/-- Threads that cannot go on have nothing left to do. -/
theorem Stuck.processed (hstuck : Stuck s) (h : Orderly s) (hledger : Ledger s) :
    Processed s := by
  have hidle := hstuck.worker h
  have hsilent : ¬ ∃ (k : Nat) (c : Call), s.calls[k]? = some c ∧ c.notifying = true := by
    rintro ⟨k, c, hk, hc⟩
    rcases hstuck.call h k c hk with rfl | ⟨w, rfl, -⟩ <;> cases hc
  refine processed_of_empty hledger ?_ ?_ hidle
  · cases hworker : s.worker_ with
    | none => exact h.idle hworker
    | some w =>
      obtain ⟨ws, hw⟩ : ∃ ws, s.workers[w]? = some ws :=
        ⟨_, List.getElem?_eq_getElem (h.mutex.worker_ w hworker)⟩
      rcases hidle w ws hw with rfl | rfl
      · exact ((h.wake w hw).resolve_right hsilent).1
      · exact h.finished w hworker hw
  · exact h.mutex.pushing_none fun k hk => by simp [hstuck.free h] at hk

end Stuck

/-- A shutdown that has found the engine running returns when everything is processed. -/
theorem shutdown_returns {s s' : Engine} (h : Orderly s) (hledger : Ledger s) {k : Nat} {c : Call}
    (hk : s.calls[k]? = some c) (hc : c.closing = true) (hstep : s.step (.call k) = some s')
    (hreturned : s'.calls[k]? = some .returned) : Processed s' := by
  have hmove := step_moves hstep
  have hafter := ledger_step h hledger hmove
  cases hmove with
  | joined _ w hjoining hfinished =>
    have hworker := h.joining k w hjoining
    refine processed_of_empty hafter (h.finished w hworker hfinished) ?_ ?_
    · apply flatMap_none
      intro j d hj
      by_cases hne : k = j
      · subst hne
        rw [hreturned, Option.some.injEq] at hj
        rw [← hj]
        rfl
      · have hj' : s.calls[j]? = some d := by simpa [List.getElem?_set_ne hne] using hj
        apply pushing_submitting
        by_contra hsubmitting
        rw [Bool.not_eq_false] at hsubmitting
        have happart := h.apart j k d c hj' hk hsubmitting
        rw [closing_shuttingDown hc] at happart
        cases happart
    · intro j ws hj
      by_contra hne
      have hother := h.others j ws hj fun hf => hne (.inr hf)
      rw [hworker, Option.some.injEq] at hother
      subst hother
      rw [hfinished, Option.some.injEq] at hj
      exact hne (.inr hj.symm)
  | joinsNone _ hjoin hnone => exact absurd hnone (h.closing k _ hjoin rfl).2
  | _ => grind

/-- What holds of every run in which `submit` and `shutdown` do not overlap. -/
structure Sound (s : Engine) : Prop where
  orderly : Orderly s
  ledger : Ledger s

theorem sound_step {s s' : Engine} {a : Action} (h : Sound s) (hapart : s.Apart a)
    (hstep : s.step a = some s') : Sound s' :=
  ⟨orderly_step h.orderly hapart (step_moves hstep),
    ledger_step h.orderly h.ledger (step_moves hstep)⟩

theorem sound_run {actions : List Action} {s : Engine} (hapart : Along step Apart {} actions)
    (hrun : run step {} actions = some s) : Sound s :=
  run_invariant Sound (fun _ _ _ h ha hs => sound_step h ha hs) ⟨orderly_empty, ledger_empty⟩
    hapart hrun

theorem apart_internal {s : Engine} {a : Action} (h : a.internal = true) : s.Apart a := by
  cases a with
  | submit caller item => cases h
  | shutdown caller => cases h
  | _ => trivial

/-- The threads come to rest. -/
theorem Sound.comes_to_rest {s : Engine} (h : Sound s) : ∃ more t,
    (∀ a ∈ more, a.internal = true) ∧ run step s more = some t ∧ Stuck t := by
  induction heffort : s.effort using Nat.strongRecOn generalizing s with
  | ind n ih =>
    by_cases hstuck : Stuck s
    · exact ⟨[], s, by simp, rfl, hstuck⟩
    · simp only [Stuck, not_forall] at hstuck
      obtain ⟨a, ha, hstep⟩ := hstuck
      obtain ⟨s', hs'⟩ := Option.ne_none_iff_exists'.mp hstep
      have hlt := effort_step h.orderly ha (step_moves hs')
      obtain ⟨more, t, hmore, hrun, ht⟩ :=
        ih s'.effort (by omega) (sound_step h (apart_internal ha) hs') rfl
      refine ⟨a :: more, t, ?_, ?_, ht⟩
      · simpa [ha] using hmore
      · simpa [run, hs'] using hrun

/-- Items are classified and called back in the order in which their calls took the
mutex, none of them twice. The threads come to rest after a number of steps that does
not depend on their order, and all items are processed then; a shutdown that has found
the engine running does not return before. -/
theorem submitted_once (actions : List Action) (s : Engine)
    (hapart : Along step Apart {} actions) (hrun : run step {} actions = some s) :
    s.classified <+: s.submitted ∧
      s.called.map Prod.fst <+: s.submitted.filterMap WorkItem.onResult ∧
      (∀ more t, (∀ a ∈ more, a.internal = true) → run step s more = some t →
        more.length ≤ s.effort ∧ (Stuck t → Processed t)) ∧
      ∀ k c s', s.calls[k]? = some c → c.closing = true → s.step (.call k) = some s' →
        s'.calls[k]? = some .returned → Processed s' := by
  have hsound := sound_run hapart hrun
  have hordered : s.classified <+: s.submitted := ⟨_, hsound.ledger.order.symm⟩
  refine ⟨hordered, ?_, ?_, ?_⟩
  · have hanswered : s.called.map Prod.fst <+: s.classified.filterMap WorkItem.onResult :=
      ⟨_, hsound.ledger.answers.symm⟩
    exact hanswered.trans (hordered.filterMap WorkItem.onResult)
  · intro more t hinternal hmore
    have halong : Along step (fun _ a => a.internal = true) s more := along_of_forall hinternal
    refine ⟨run_length_le Sound effort ?_ hsound halong hmore, ?_⟩
    · intro s a s' h ha hs
      exact ⟨sound_step h (apart_internal ha) hs, effort_step h.orderly ha (step_moves hs)⟩
    · intro hstuck
      have ht : Sound t := run_invariant Sound
        (fun _ _ _ h ha hs => sound_step h (apart_internal ha) hs) hsound halong hmore
      exact hstuck.processed ht.orderly ht.ledger
  · intro k c s' hk hc hstep hreturned
    exact shutdown_returns hsound.orderly hsound.ledger hk hc hstep hreturned

/-- A callback that submits a second item, and a shutdown behind it. -/
def callbackActions : List Action :=
  [.submit none ⟨[1], [], some 7⟩, .call 0, .call 0, .call 0, .notifyOne 0 none, .work 0, .work 0,
    .work 0, .classified 0 ⟨[], 0, [], 0⟩ 5, .submit (some 0) ⟨[2], [], none⟩, .call 1, .call 1,
    .call 1, .notifyOne 1 none, .work 0, .work 0, .work 0, .work 0, .work 0,
    .classified 0 ⟨[], 0, [], 0⟩ 6, .shutdown none, .call 2, .call 2, .call 2, .work 0, .work 0,
    .call 2]

theorem submitted_once_callback : ∃ s, run step {} callbackActions = some s ∧
    s.classified <+: s.submitted ∧
      s.called.map Prod.fst <+: s.submitted.filterMap WorkItem.onResult ∧
      (∀ more t, (∀ a ∈ more, a.internal = true) → run step s more = some t →
        more.length ≤ s.effort ∧ (Stuck t → Processed t)) ∧
      ∀ k c s', s.calls[k]? = some c → c.closing = true → s.step (.call k) = some s' →
        s'.calls[k]? = some .returned → Processed s' :=
  ⟨_, rfl, submitted_once callbackActions _ (by decide) rfl⟩

/-- Where `submit` and `shutdown` do not overlap, no call of `submit` comes early. -/
theorem apart_late {actions : List Action} (hapart : Along step Apart {} actions) :
    Along step SubmitsLate {} actions := by
  refine hapart.strengthen (I := Orderly)
    (fun _ _ _ h ha hs => orderly_step h ha (step_moves hs)) ?_ orderly_empty
  intro s a h _ hsubmits hr w hw
  obtain ⟨k, item, rfl, hk⟩ := submits_call hsubmits
  obtain ⟨j, c, hj, hc⟩ := h.stopped hr (by rw [Option.mem_def.mp hw]; simp)
  have hshut := h.apart k j _ c hk hj rfl
  rw [closing_shuttingDown hc] at hshut
  cases hshut

end Engine
end Seer
