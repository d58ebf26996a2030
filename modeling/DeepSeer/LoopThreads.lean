import DeepSeer.Schedules

/-!
The event loop between threads: `run` on its own thread, and calls of `post` and
`stop` from other threads, from signal handlers and from the callbacks that the
loop runs. A step of `post` or `stop` is the access to the shared state or the
write to the wake pipe; `run` is followed through its loops. What was pushed and
what was run is logged beside the members.
-/
namespace DeepSeer.LoopThreads

open Schedules

/-- A posted callback by the name that its poster has for it. -/
abbrev Callback := Nat

/-- Where a call of `post` or `stop` is. -/
inductive Call where
  | push (cb : Callback)
  | wakePost
  | posted
  | store
  | wakeStop
  | stopped
  deriving DecidableEq

/-- An event of `kevent`: that of the wake pipe, or one of a timer or a descriptor. -/
inductive Ready where
  | wake
  | other
  deriving DecidableEq

/-- Where `run` is. `drain` and `swap` belong to the event of the wake pipe, `running`
to `processPosted`. In `user` a callback runs, which may wait for a call of its own;
the lists are the posted callbacks and the events that come behind it. -/
inductive Position where
  | created
  | test
  | waiting
  | batch (events : List Ready)
  | drain (events : List Ready)
  | swap (events : List Ready)
  | running (cbs : List Callback) (events : List Ready)
  | user (call : Option Nat) (cbs : List Callback) (events : List Ready)
  | exited
  deriving DecidableEq

structure Loop where
  running_ : Bool := false
  postedCallbacks_ : List Callback := []
  pipe : Nat := 0
  position : Position := .created
  calls : List Call := []
  pushed : List Callback := []
  ran : List Callback := []
  deriving DecidableEq

/-- What a thread does. A call is made by the callback that the loop runs, or by
another thread. `kevent` returns events, is interrupted or fails; `dispatch` says
whether an event of a timer or descriptor has a callback to run. -/
inductive Action where
  | post (fromLoop : Bool) (cb : Callback)
  | stop (fromLoop : Bool)
  | call (k : Nat)
  | start
  | loop
  | kevent (events : List Ready)
  | interrupt
  | fail
  | dispatch (runs : Bool)
  | finish
  deriving DecidableEq

namespace Loop

def enter (s : Loop) (fromLoop : Bool) (c : Call) : Option Loop :=
  if fromLoop then
    match s.position with
    | .user none cbs events =>
      some { s with
        calls := s.calls ++ [c]
        position := .user (some s.calls.length) cbs events }
    | _ => none
  else some { s with calls := s.calls ++ [c] }

/-- `write` of one byte to the pipe, which a full pipe does not take. -/
def write (capacity pipe : Nat) : Nat := if pipe < capacity then pipe + 1 else pipe

def advance (capacity : Nat) (s : Loop) (k : Nat) : Option Loop :=
  match s.calls[k]? with
  | some (.push cb) =>
    some { s with
      postedCallbacks_ := s.postedCallbacks_ ++ [cb]
      pushed := s.pushed ++ [cb]
      calls := s.calls.set k .wakePost }
  | some .wakePost =>
    some { s with pipe := write capacity s.pipe, calls := s.calls.set k .posted }
  | some .store => some { s with running_ := false, calls := s.calls.set k .wakeStop }
  | some .wakeStop =>
    some { s with pipe := write capacity s.pipe, calls := s.calls.set k .stopped }
  | some .posted | some .stopped | none => none

def kMaxEvents : Nat := 64

/-- What `run` does by itself. One read of the drain takes up to 64 bytes. -/
def runLoop (s : Loop) : Option Loop :=
  match s.position with
  | .test =>
    if s.running_ then some { s with position := .waiting }
    else some { s with position := .exited }
  | .batch [] => some { s with position := .test }
  | .batch (.wake :: events) => some { s with position := .drain events }
  | .drain events =>
    if 0 < s.pipe then some { s with pipe := s.pipe - 64 }
    else some { s with position := .swap events }
  | .swap events =>
    some { s with postedCallbacks_ := [], position := .running s.postedCallbacks_ events }
  | .running [] events => some { s with position := .batch events }
  | .running (cb :: cbs) events =>
    some { s with ran := s.ran ++ [cb], position := .user none cbs events }
  | .user (some k) cbs events =>
    if s.calls[k]? = some .posted ∨ s.calls[k]? = some .stopped then
      some { s with position := .user none cbs events }
    else none
  | .batch (.other :: _) | .user none _ _ | .created | .waiting | .exited => none

/-- `kevent` does not return without an event, and not with one of the wake pipe when
the pipe is empty. -/
def kevent (s : Loop) (events : List Ready) : Option Loop :=
  if s.position = .waiting ∧ events ≠ [] ∧ events.length ≤ kMaxEvents ∧
      (.wake ∈ events → 0 < s.pipe) then
    some { s with position := .batch events }
  else none

def step (capacity : Nat) (s : Loop) : Action → Option Loop
  | .post fromLoop cb => s.enter fromLoop (.push cb)
  | .stop fromLoop => s.enter fromLoop .store
  | .call k => s.advance capacity k
  | .start =>
    if s.position = .created then some { s with running_ := true, position := .test } else none
  | .loop => s.runLoop
  | .kevent events => s.kevent events
  | .interrupt => if s.position = .waiting then some { s with position := .test } else none
  | .fail => if s.position = .waiting then some { s with position := .exited } else none
  | .dispatch runs =>
    match s.position with
    | .batch (.other :: events) =>
      if runs then some { s with position := .user none [] events }
      else some { s with position := .batch events }
    | _ => none
  | .finish =>
    match s.position with
    | .user none cbs events => some { s with position := .running cbs events }
    | _ => none

/-- The steps one by one, with what they need and what they leave behind. -/
inductive Moves (capacity : Nat) (s : Loop) : Action → Loop → Prop
  | enters (c : Call) {a : Action} (ha : (∃ cb, a = .post false cb ∧ c = .push cb) ∨
      a = .stop false ∧ c = .store) : Moves capacity s a { s with calls := s.calls ++ [c] }
  | calls (c : Call) (cbs : List Callback) (events : List Ready) {a : Action}
      (ha : (∃ cb, a = .post true cb ∧ c = .push cb) ∨ a = .stop true ∧ c = .store)
      (h : s.position = .user none cbs events) :
      Moves capacity s a { s with
        calls := s.calls ++ [c]
        position := .user (some s.calls.length) cbs events }
  | pushes (k : Nat) (cb : Callback) (h : s.calls[k]? = some (.push cb)) :
      Moves capacity s (.call k) { s with
        postedCallbacks_ := s.postedCallbacks_ ++ [cb]
        pushed := s.pushed ++ [cb]
        calls := s.calls.set k .wakePost }
  | wakesPost (k : Nat) (h : s.calls[k]? = some .wakePost) :
      Moves capacity s (.call k) { s with
        pipe := write capacity s.pipe
        calls := s.calls.set k .posted }
  | stores (k : Nat) (h : s.calls[k]? = some .store) :
      Moves capacity s (.call k) { s with running_ := false, calls := s.calls.set k .wakeStop }
  | wakesStop (k : Nat) (h : s.calls[k]? = some .wakeStop) :
      Moves capacity s (.call k) { s with
        pipe := write capacity s.pipe
        calls := s.calls.set k .stopped }
  | starts (h : s.position = .created) :
      Moves capacity s .start { s with running_ := true, position := .test }
  | waits (h : s.position = .test) (hr : s.running_ = true) :
      Moves capacity s .loop { s with position := .waiting }
  | exits (h : s.position = .test) (hr : s.running_ = false) :
      Moves capacity s .loop { s with position := .exited }
  | batchEnds (h : s.position = .batch []) : Moves capacity s .loop { s with position := .test }
  | drains (events : List Ready) (h : s.position = .batch (.wake :: events)) :
      Moves capacity s .loop { s with position := .drain events }
  | reads (events : List Ready) (h : s.position = .drain events) (hp : 0 < s.pipe) :
      Moves capacity s .loop { s with pipe := s.pipe - 64 }
  | drained (events : List Ready) (h : s.position = .drain events) (hp : s.pipe = 0) :
      Moves capacity s .loop { s with position := .swap events }
  | swaps (events : List Ready) (h : s.position = .swap events) :
      Moves capacity s .loop { s with
        postedCallbacks_ := []
        position := .running s.postedCallbacks_ events }
  | processed (events : List Ready) (h : s.position = .running [] events) :
      Moves capacity s .loop { s with position := .batch events }
  | runs (cb : Callback) (cbs : List Callback) (events : List Ready)
      (h : s.position = .running (cb :: cbs) events) :
      Moves capacity s .loop { s with ran := s.ran ++ [cb], position := .user none cbs events }
  | resumes (k : Nat) (cbs : List Callback) (events : List Ready)
      (h : s.position = .user (some k) cbs events)
      (hk : s.calls[k]? = some .posted ∨ s.calls[k]? = some .stopped) :
      Moves capacity s .loop { s with position := .user none cbs events }
  | returnsEvents (events : List Ready) (h : s.position = .waiting) (hne : events ≠ [])
      (hlen : events.length ≤ kMaxEvents) (hwake : .wake ∈ events → 0 < s.pipe) :
      Moves capacity s (.kevent events) { s with position := .batch events }
  | interrupted (h : s.position = .waiting) :
      Moves capacity s .interrupt { s with position := .test }
  | fails (h : s.position = .waiting) : Moves capacity s .fail { s with position := .exited }
  | dispatches (events : List Ready) (h : s.position = .batch (.other :: events)) :
      Moves capacity s (.dispatch true) { s with position := .user none [] events }
  | skips (events : List Ready) (h : s.position = .batch (.other :: events)) :
      Moves capacity s (.dispatch false) { s with position := .batch events }
  | returns (cbs : List Callback) (events : List Ready)
      (h : s.position = .user none cbs events) :
      Moves capacity s .finish { s with position := .running cbs events }

variable {capacity : Nat} {s s' : Loop}

theorem moves_enter {fromLoop : Bool} {c : Call} {a : Action}
    (ha : (∃ cb, a = .post fromLoop cb ∧ c = .push cb) ∨ a = .stop fromLoop ∧ c = .store)
    (h : s.enter fromLoop c = some s') : Moves capacity s a s' := by
  cases fromLoop with
  | false =>
    cases h
    exact .enters c ha
  | true =>
    simp only [enter, if_true] at h
    split at h
    · cases h
      exact .calls c _ _ ha ‹_›
    · cases h

theorem moves_advance {k : Nat} (h : s.advance capacity k = some s') :
    Moves capacity s (.call k) s' := by
  unfold advance at h
  split at h
  · cases h
    exact .pushes k _ ‹_›
  · cases h
    exact .wakesPost k ‹_›
  · cases h
    exact .stores k ‹_›
  · cases h
    exact .wakesStop k ‹_›
  all_goals cases h

theorem moves_runLoop (h : s.runLoop = some s') : Moves capacity s .loop s' := by
  unfold runLoop at h
  split at h
  · split at h
    · cases h
      exact .waits ‹_› ‹_›
    · cases h
      exact .exits ‹_› (by simpa using ‹¬ s.running_ = true›)
  · cases h
    exact .batchEnds ‹_›
  · cases h
    exact .drains _ ‹_›
  · split at h
    · cases h
      exact .reads _ ‹_› ‹_›
    · cases h
      exact .drained _ ‹_› (by omega)
  · cases h
    exact .swaps _ ‹_›
  · cases h
    exact .processed _ ‹_›
  · cases h
    exact .runs _ _ _ ‹_›
  · split at h
    · cases h
      exact .resumes _ _ _ ‹_› ‹_›
    · cases h
  all_goals cases h

theorem step_moves {a : Action} (h : s.step capacity a = some s') : Moves capacity s a s' := by
  cases a with
  | post fromLoop cb => exact moves_enter (.inl ⟨cb, rfl, rfl⟩) h
  | stop fromLoop => exact moves_enter (.inr ⟨rfl, rfl⟩) h
  | call k => exact moves_advance h
  | loop => exact moves_runLoop h
  | start =>
    simp only [step, Option.ite_none_right_eq_some, Option.some.injEq] at h
    obtain ⟨hposition, rfl⟩ := h
    exact .starts hposition
  | kevent events =>
    simp only [step, kevent, Option.ite_none_right_eq_some, Option.some.injEq] at h
    obtain ⟨⟨hposition, hne, hlen, hwake⟩, rfl⟩ := h
    exact .returnsEvents events hposition hne hlen hwake
  | interrupt =>
    simp only [step, Option.ite_none_right_eq_some, Option.some.injEq] at h
    obtain ⟨hposition, rfl⟩ := h
    exact .interrupted hposition
  | fail =>
    simp only [step, Option.ite_none_right_eq_some, Option.some.injEq] at h
    obtain ⟨hposition, rfl⟩ := h
    exact .fails hposition
  | dispatch runs =>
    simp only [step] at h
    split at h
    · split at h
      · subst runs
        cases h
        exact .dispatches _ ‹_›
      · rw [Bool.not_eq_true] at *
        subst runs
        cases h
        exact .skips _ ‹_›
    · cases h
  | finish =>
    simp only [step] at h
    split at h
    · cases h
      exact .returns _ _ ‹_›
    · cases h

end Loop

end DeepSeer.LoopThreads
