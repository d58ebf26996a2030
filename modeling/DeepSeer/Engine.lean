import DeepSeer.ByteMemory
import DeepSeer.Schedules

/-!
The inference engine as threads over one mutex. A call of `submit` or `shutdown`
is a thread of its own, whether it comes from outside or from a callback; every
`std::jthread` is a worker. An action is what one thread does between two points
where another can come in between. The log of the items that were submitted,
classified and called back is kept beside the members.
-/
namespace Seer

open ByteMemory Schedules

/-- The bits of the numbers stand for a `float` and a `double`. -/
structure InferenceResult where
  label : Bytes
  confidence : UInt32
  modelName : Bytes
  inferenceTime : UInt64
  deriving DecidableEq

/-- A callback is the name that its caller has for it. -/
abbrev ResultCallback := Nat

structure WorkItem where
  payload : Bytes
  url : Bytes
  onResult : Option ResultCallback
  deriving DecidableEq

/-- Where a call is in `submit` or in `shutdown`. From `ensureWorker` to `push` and
at `stop` it has the mutex. -/
inductive Call where
  | submit (item : WorkItem)
  | ensureWorker (item : WorkItem)
  | assign (item : WorkItem) (old new : Nat)
  | push (item : WorkItem)
  | notifyOne
  | shutdown
  | stop
  | notifyAll
  | join
  | joining (w : Nat)
  | returned
  deriving DecidableEq

/-- Where a worker is in `workerLoop`. At `test` it has the mutex. -/
inductive WorkerState where
  | start
  | test
  | waiting
  | woken
  | taken (item : WorkItem)
  | classifying (item : WorkItem)
  | callback
  | calling (k : Nat)
  | finished
  deriving DecidableEq

inductive Thread where
  | call (k : Nat)
  | worker (w : Nat)
  deriving DecidableEq

structure Engine where
  owner : Option Thread := none
  queue_ : List WorkItem := []
  running_ : Bool := false
  worker_ : Option Nat := none
  workers : List WorkerState := []
  calls : List Call := []
  submitted : List WorkItem := []
  classified : List WorkItem := []
  called : List (ResultCallback × InferenceResult) := []
  deriving DecidableEq

/-- What a thread does. `notifyOne` says which worker it wakes, `classified` how
long `classify` took and with what result, and `wake` is a spurious wake-up. -/
inductive Action where
  | submit (caller : Option Nat) (item : WorkItem)
  | shutdown (caller : Option Nat)
  | call (k : Nat)
  | notifyOne (k : Nat) (waiter : Option Nat)
  | work (w : Nat)
  | classified (w : Nat) (result : InferenceResult) (inferenceTime : UInt64)
  | wake (w : Nat)

namespace Engine

/-- A call from outside, or from the callback that a worker runs. -/
def enter (s : Engine) (caller : Option Nat) (c : Call) : Option Engine :=
  match caller with
  | none => some { s with calls := s.calls ++ [c] }
  | some w =>
    if s.workers[w]? = some .callback then
      some { s with
        calls := s.calls ++ [c]
        workers := s.workers.set w (.calling s.calls.length) }
    else none

/-- `startWorker`. The new thread runs before `worker_` takes it over, which waits
for the thread that `worker_` has. -/
def startWorker (s : Engine) (k : Nat) (item : WorkItem) : Engine :=
  let new := s.workers.length
  let s := { s with running_ := true, workers := s.workers ++ [WorkerState.start] }
  match s.worker_ with
  | none => { s with worker_ := some new, calls := s.calls.set k (.push item) }
  | some old => { s with calls := s.calls.set k (.assign item old new) }

/-- `notify_all`. -/
def wakeUp : WorkerState → WorkerState
  | .waiting => .woken
  | ws => ws

/-- What a call does next. -/
def advance (s : Engine) (k : Nat) : Option Engine :=
  match s.calls[k]? with
  | some (.submit item) =>
    if s.owner = none then
      some { s with
        owner := some (.call k)
        calls := s.calls.set k (.ensureWorker item)
        submitted := s.submitted ++ [item] }
    else none
  | some (.ensureWorker item) =>
    if s.running_ then some { s with calls := s.calls.set k (.push item) }
    else some (s.startWorker k item)
  | some (.assign item old new) =>
    if s.workers[old]? = some .finished then
      some { s with worker_ := some new, calls := s.calls.set k (.push item) }
    else none
  | some (.push item) =>
    some { s with
      queue_ := s.queue_ ++ [item]
      owner := none
      calls := s.calls.set k .notifyOne }
  | some .shutdown =>
    if s.owner = none then
      some { s with owner := some (.call k), calls := s.calls.set k .stop }
    else none
  | some .stop =>
    if s.running_ then
      some { s with running_ := false, owner := none, calls := s.calls.set k .notifyAll }
    else some { s with owner := none, calls := s.calls.set k .returned }
  | some .notifyAll =>
    some { s with workers := s.workers.map wakeUp, calls := s.calls.set k .join }
  | some .join =>
    match s.worker_ with
    | none => some { s with calls := s.calls.set k .returned }
    | some w => some { s with calls := s.calls.set k (.joining w) }
  | some (.joining w) =>
    if s.workers[w]? = some .finished then
      some { s with worker_ := none, calls := s.calls.set k .returned }
    else none
  | some .notifyOne | some .returned | none => none

/-- `notify_one`, which wakes a worker if one waits. -/
def notify (s : Engine) (k : Nat) (waiter : Option Nat) : Option Engine :=
  if s.calls[k]? = some .notifyOne then
    match waiter with
    | none =>
      if .waiting ∈ s.workers then none
      else some { s with calls := s.calls.set k .returned }
    | some w =>
      if s.workers[w]? = some .waiting then
        some { s with workers := s.workers.set w .woken, calls := s.calls.set k .returned }
      else none
  else none

/-- What a worker does next in `workerLoop`. -/
def workerLoop (s : Engine) (w : Nat) : Option Engine :=
  match s.workers[w]? with
  | some .start | some .woken =>
    if s.owner = none then
      some { s with owner := some (.worker w), workers := s.workers.set w .test }
    else none
  | some .test =>
    match s.queue_ with
    | [] =>
      if s.running_ then some { s with owner := none, workers := s.workers.set w .waiting }
      else some { s with owner := none, workers := s.workers.set w .finished }
    | item :: rest =>
      some { s with queue_ := rest, owner := none, workers := s.workers.set w (.taken item) }
  | some (.taken item) =>
    some { s with
      classified := s.classified ++ [item]
      workers := s.workers.set w (.classifying item) }
  | some .callback => some { s with workers := s.workers.set w .start }
  | some (.calling k) =>
    if s.calls[k]? = some .returned then some { s with workers := s.workers.set w .callback }
    else none
  | some .waiting | some (.classifying _) | some .finished | none => none

/-- The return of `classify`, behind which the result gets its time and `onResult`
is called. -/
def classifies (s : Engine) (w : Nat) (result : InferenceResult) (inferenceTime : UInt64) :
    Option Engine :=
  match s.workers[w]? with
  | some (.classifying item) =>
    match item.onResult with
    | none => some { s with workers := s.workers.set w .start }
    | some onResult =>
      some { s with
        called := s.called ++ [(onResult, { result with inferenceTime := inferenceTime })]
        workers := s.workers.set w .callback }
  | _ => none

def step (s : Engine) : Action → Option Engine
  | .submit caller item => s.enter caller (.submit item)
  | .shutdown caller => s.enter caller .shutdown
  | .call k => s.advance k
  | .notifyOne k waiter => s.notify k waiter
  | .work w => s.workerLoop w
  | .classified w result inferenceTime => s.classifies w result inferenceTime
  | .wake w =>
    if s.workers[w]? = some .waiting then some { s with workers := s.workers.set w .woken }
    else none

/-- The steps one by one, with what they need and what they leave behind. -/
inductive Moves (s : Engine) : Action → Engine → Prop
  | enters (c : Call) {a : Action}
      (ha : (∃ item, a = .submit none item ∧ c = .submit item) ∨ a = .shutdown none ∧ c = .shutdown) :
      Moves s a { s with calls := s.calls ++ [c] }
  | calls (w : Nat) (c : Call) {a : Action}
      (ha : (∃ item, a = .submit (some w) item ∧ c = .submit item) ∨
        a = .shutdown (some w) ∧ c = .shutdown)
      (h : s.workers[w]? = some .callback) :
      Moves s a { s with
        calls := s.calls ++ [c]
        workers := s.workers.set w (.calling s.calls.length) }
  | locksSubmit (k : Nat) (item : WorkItem) (h : s.calls[k]? = some (.submit item))
      (hfree : s.owner = none) :
      Moves s (.call k) { s with
        owner := some (.call k)
        calls := s.calls.set k (.ensureWorker item)
        submitted := s.submitted ++ [item] }
  | finds (k : Nat) (item : WorkItem) (h : s.calls[k]? = some (.ensureWorker item))
      (hrunning : s.running_ = true) :
      Moves s (.call k) { s with calls := s.calls.set k (.push item) }
  | starts (k : Nat) (item : WorkItem) (h : s.calls[k]? = some (.ensureWorker item))
      (hrunning : s.running_ = false) (hworker : s.worker_ = none) :
      Moves s (.call k) { s with
        running_ := true
        worker_ := some s.workers.length
        workers := s.workers ++ [.start]
        calls := s.calls.set k (.push item) }
  | restarts (k : Nat) (item : WorkItem) (old : Nat)
      (h : s.calls[k]? = some (.ensureWorker item)) (hrunning : s.running_ = false)
      (hworker : s.worker_ = some old) :
      Moves s (.call k) { s with
        running_ := true
        workers := s.workers ++ [.start]
        calls := s.calls.set k (.assign item old s.workers.length) }
  | assigns (k : Nat) (item : WorkItem) (old new : Nat)
      (h : s.calls[k]? = some (.assign item old new))
      (hold : s.workers[old]? = some .finished) :
      Moves s (.call k) { s with worker_ := some new, calls := s.calls.set k (.push item) }
  | pushes (k : Nat) (item : WorkItem) (h : s.calls[k]? = some (.push item)) :
      Moves s (.call k) { s with
        queue_ := s.queue_ ++ [item]
        owner := none
        calls := s.calls.set k .notifyOne }
  | locksShutdown (k : Nat) (h : s.calls[k]? = some .shutdown) (hfree : s.owner = none) :
      Moves s (.call k) { s with owner := some (.call k), calls := s.calls.set k .stop }
  | stops (k : Nat) (h : s.calls[k]? = some .stop) (hrunning : s.running_ = true) :
      Moves s (.call k) { s with
        running_ := false
        owner := none
        calls := s.calls.set k .notifyAll }
  | stopped (k : Nat) (h : s.calls[k]? = some .stop) (hrunning : s.running_ = false) :
      Moves s (.call k) { s with owner := none, calls := s.calls.set k .returned }
  | notifiesAll (k : Nat) (h : s.calls[k]? = some .notifyAll) :
      Moves s (.call k) { s with
        workers := s.workers.map wakeUp
        calls := s.calls.set k .join }
  | joinsNone (k : Nat) (h : s.calls[k]? = some .join) (hworker : s.worker_ = none) :
      Moves s (.call k) { s with calls := s.calls.set k .returned }
  | joins (k w : Nat) (h : s.calls[k]? = some .join) (hworker : s.worker_ = some w) :
      Moves s (.call k) { s with calls := s.calls.set k (.joining w) }
  | joined (k w : Nat) (h : s.calls[k]? = some (.joining w))
      (hfinished : s.workers[w]? = some .finished) :
      Moves s (.call k) { s with worker_ := none, calls := s.calls.set k .returned }
  | notifiesNone (k : Nat) (h : s.calls[k]? = some .notifyOne) (hnone : .waiting ∉ s.workers) :
      Moves s (.notifyOne k none) { s with calls := s.calls.set k .returned }
  | notifies (k w : Nat) (h : s.calls[k]? = some .notifyOne)
      (hw : s.workers[w]? = some .waiting) :
      Moves s (.notifyOne k (some w)) { s with
        workers := s.workers.set w .woken
        calls := s.calls.set k .returned }
  | locks (w : Nat) (ws : WorkerState) (h : s.workers[w]? = some ws)
      (hws : ws = .start ∨ ws = .woken) (hfree : s.owner = none) :
      Moves s (.work w) { s with
        owner := some (.worker w)
        workers := s.workers.set w .test }
  | waits (w : Nat) (h : s.workers[w]? = some .test) (hqueue : s.queue_ = [])
      (hrunning : s.running_ = true) :
      Moves s (.work w) { s with owner := none, workers := s.workers.set w .waiting }
  | finishes (w : Nat) (h : s.workers[w]? = some .test) (hqueue : s.queue_ = [])
      (hrunning : s.running_ = false) :
      Moves s (.work w) { s with owner := none, workers := s.workers.set w .finished }
  | takes (w : Nat) (item : WorkItem) (rest : List WorkItem)
      (h : s.workers[w]? = some .test) (hqueue : s.queue_ = item :: rest) :
      Moves s (.work w) { s with
        queue_ := rest
        owner := none
        workers := s.workers.set w (.taken item) }
  | classifies (w : Nat) (item : WorkItem) (h : s.workers[w]? = some (.taken item)) :
      Moves s (.work w) { s with
        classified := s.classified ++ [item]
        workers := s.workers.set w (.classifying item) }
  | returns (w : Nat) (h : s.workers[w]? = some .callback) :
      Moves s (.work w) { s with workers := s.workers.set w .start }
  | goesOn (w k : Nat) (h : s.workers[w]? = some (.calling k))
      (hk : s.calls[k]? = some .returned) :
      Moves s (.work w) { s with workers := s.workers.set w .callback }
  | classifiedSilent (w : Nat) (item : WorkItem) (result : InferenceResult)
      (inferenceTime : UInt64) (h : s.workers[w]? = some (.classifying item))
      (hnone : item.onResult = none) :
      Moves s (.classified w result inferenceTime) { s with workers := s.workers.set w .start }
  | callsBack (w : Nat) (item : WorkItem) (onResult : ResultCallback) (result : InferenceResult)
      (inferenceTime : UInt64) (h : s.workers[w]? = some (.classifying item))
      (hsome : item.onResult = some onResult) :
      Moves s (.classified w result inferenceTime) { s with
        called := s.called ++ [(onResult, { result with inferenceTime := inferenceTime })]
        workers := s.workers.set w .callback }
  | wakes (w : Nat) (h : s.workers[w]? = some .waiting) :
      Moves s (.wake w) { s with workers := s.workers.set w .woken }

theorem moves_enter {s s' : Engine} {caller : Option Nat} {c : Call} {a : Action}
    (ha : (∃ item, a = .submit caller item ∧ c = .submit item) ∨
      a = .shutdown caller ∧ c = .shutdown)
    (h : s.enter caller c = some s') : Moves s a s' := by
  cases caller with
  | none =>
    cases h
    exact .enters c ha
  | some w =>
    simp only [enter] at h
    split at h
    · cases h
      exact .calls w c ha ‹_›
    · cases h

theorem moves_advance {s s' : Engine} {k : Nat} (h : s.advance k = some s') :
    Moves s (.call k) s' := by
  unfold advance at h
  split at h
  · split at h
    · cases h
      exact .locksSubmit k _ ‹_› ‹_›
    · cases h
  · split at h
    · cases h
      exact .finds k _ ‹_› ‹_›
    · rename_i hrunning
      rw [Bool.not_eq_true] at hrunning
      cases hworker : s.worker_ with
      | none =>
        simp only [startWorker, hworker, Option.some.injEq] at h
        subst h
        exact .starts k _ ‹_› hrunning hworker
      | some old =>
        simp only [startWorker, hworker, Option.some.injEq] at h
        subst h
        have hmove := Moves.restarts k _ old ‹_› hrunning hworker
        rwa [hworker] at hmove
  · split at h
    · cases h
      exact .assigns k _ _ _ ‹_› ‹_›
    · cases h
  · cases h
    exact .pushes k _ ‹_›
  · split at h
    · cases h
      exact .locksShutdown k ‹_› ‹_›
    · cases h
  · split at h
    · cases h
      exact .stops k ‹_› ‹_›
    · cases h
      exact .stopped k ‹_› (by simpa using ‹¬ s.running_ = true›)
  · cases h
    exact .notifiesAll k ‹_›
  · split at h
    · cases h
      exact .joinsNone k ‹_› ‹_›
    · cases h
      exact .joins k _ ‹_› ‹_›
  · split at h
    · cases h
      exact .joined k _ ‹_› ‹_›
    · cases h
  all_goals cases h

theorem moves_notify {s s' : Engine} {k : Nat} {waiter : Option Nat}
    (h : s.notify k waiter = some s') : Moves s (.notifyOne k waiter) s' := by
  unfold notify at h
  split at h
  · cases waiter with
    | none =>
      dsimp only at h
      split at h
      · cases h
      · cases h
        exact .notifiesNone k ‹_› ‹_›
    | some w =>
      dsimp only at h
      split at h
      · cases h
        exact .notifies k w ‹_› ‹_›
      · cases h
  · cases h

theorem moves_workerLoop {s s' : Engine} {w : Nat} (h : s.workerLoop w = some s') :
    Moves s (.work w) s' := by
  unfold workerLoop at h
  split at h
  · split at h
    · cases h
      exact .locks w _ ‹_› (.inl rfl) ‹_›
    · cases h
  · split at h
    · cases h
      exact .locks w _ ‹_› (.inr rfl) ‹_›
    · cases h
  · split at h
    · split at h
      · cases h
        exact .waits w ‹_› ‹_› ‹_›
      · cases h
        exact .finishes w ‹_› ‹_› (by simpa using ‹¬ s.running_ = true›)
    · cases h
      exact .takes w _ _ ‹_› ‹_›
  · cases h
    exact .classifies w _ ‹_›
  · cases h
    exact .returns w ‹_›
  · split at h
    · cases h
      exact .goesOn w _ ‹_› ‹_›
    · cases h
  all_goals cases h

theorem step_moves {s s' : Engine} {a : Action} (h : s.step a = some s') : Moves s a s' := by
  cases a with
  | submit caller item => exact moves_enter (.inl ⟨item, rfl, rfl⟩) h
  | shutdown caller => exact moves_enter (.inr ⟨rfl, rfl⟩) h
  | call k => exact moves_advance h
  | notifyOne k waiter => exact moves_notify h
  | work w => exact moves_workerLoop h
  | classified w result inferenceTime =>
    simp only [step, Engine.classifies] at h
    split at h
    · split at h
      · cases h
        exact .classifiedSilent w _ result inferenceTime ‹_› ‹_›
      · cases h
        exact .callsBack w _ _ result inferenceTime ‹_› ‹_›
    · cases h
  | wake w =>
    simp only [step] at h
    split at h
    · cases h
      exact .wakes w ‹_›
    · cases h

end Engine

end Seer
