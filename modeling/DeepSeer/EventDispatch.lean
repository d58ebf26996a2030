import DeepSeer.EventLoop
import DeepSeer.Schedules

/-!
How `run` dispatches the events of one `kevent` call. The events are captured before
the callbacks run, and a callback is looked up by the descriptor of its event. The
calls of `watch` and `remove` are logged, the latest first; what the log says of a
descriptor is what the table should hold for it.
-/
namespace DeepSeer

open Schedules

/-- `EVFILT_READ` and `EVFILT_WRITE`. -/
inductive Filter where
  | read
  | write
  deriving DecidableEq, Repr

/-- An event of a monitored descriptor; `eof` is the flag `EV_EOF`. -/
structure KernelEvent where
  ident : Fd
  filter : Filter
  eof : Bool := false
  deriving DecidableEq, Repr

/-- What `run` passes to the callback. -/
def KernelEvent.fired (ev : KernelEvent) : IoMask :=
  ⟨ev.filter = .read || ev.eof, ev.filter = .write⟩

def IoMask.le (a b : IoMask) : Prop :=
  (a.readable = true → b.readable = true) ∧ (a.writable = true → b.writable = true)

instance (a b : IoMask) : Decidable (a.le b) := by
  unfold IoMask.le
  infer_instance

def Filter.mask : Filter → IoMask
  | .read => ⟨true, false⟩
  | .write => ⟨false, true⟩

inductive LoopCall where
  | watch (fd : Fd) (events : IoMask) (cb : IoCallback)
  | remove (fd : Fd)
  deriving DecidableEq, Repr

def LoopCall.perform (l : KqueueLoop) : LoopCall → KqueueLoop
  | .watch fd events cb => l.watch fd events cb
  | .remove fd => l.remove fd

/-- The loop after the calls of a log. -/
def replay : List LoopCall → KqueueLoop
  | [] => {}
  | call :: earlier => call.perform (replay earlier)

/-- The latest registration of a descriptor, with the number of its call. -/
def registration (fd : Fd) : List LoopCall → Option (Nat × FdEntry)
  | [] => none
  | .watch fd' events cb :: earlier =>
    if fd' = fd then some (earlier.length, ⟨events, cb⟩) else registration fd earlier
  | .remove fd' :: earlier => if fd' = fd then none else registration fd earlier

/-- A callback that `run` has invoked, with the calls that had been made before. -/
structure Invocation where
  event : KernelEvent
  entry : FdEntry
  log : List LoopCall

/-- `run` in the middle of a batch. -/
structure Dispatching where
  loop : KqueueLoop
  log : List LoopCall
  events : List KernelEvent
  invoked : List Invocation := []

/-- The loop goes on to the next event, or the callback at hand makes a call. -/
inductive Dispatched where
  | next
  | call (c : LoopCall)

namespace Dispatching

def step (s : Dispatching) : Dispatched → Option Dispatching
  | .next =>
    match s.events with
    | [] => none
    | ev :: rest =>
      match s.loop.fdEntries_ ev.ident with
      | none => some { s with events := rest }
      | some entry =>
        some { s with events := rest, invoked := s.invoked ++ [⟨ev, entry, s.log⟩] }
  | .call c => some { s with loop := c.perform s.loop, log := c :: s.log }

end Dispatching

theorem registration_lt {fd : Fd} {log : List LoopCall} {n : Nat} {entry : FdEntry}
    (h : registration fd log = some (n, entry)) : n < log.length := by
  induction log with
  | nil => cases h
  | cons call earlier ih =>
    rw [List.length_cons]
    cases call with
    | watch fd' events cb =>
      simp only [registration] at h
      split at h
      · cases h
        omega
      · have hlt := ih h
        omega
    | remove fd' =>
      simp only [registration] at h
      split at h
      · cases h
      · have hlt := ih h
        omega

/-- The table holds the latest registrations. -/
theorem replay_entry (fd : Fd) (log : List LoopCall) :
    (replay log).fdEntries_ fd = (registration fd log).map Prod.snd := by
  induction log with
  | nil => rfl
  | cons call earlier ih =>
    cases call with
    | watch fd' events cb =>
      by_cases hfd : fd' = fd
      · subst hfd
        simp [replay, LoopCall.perform, registration]
      · simp [replay, LoopCall.perform, registration, hfd, ih,
          KqueueLoop.watch_other _ _ _ (Ne.symm hfd)]
    | remove fd' =>
      by_cases hfd : fd' = fd
      · subst hfd
        simp [replay, LoopCall.perform, registration]
      · simp [replay, LoopCall.perform, registration, hfd, ih,
          KqueueLoop.remove_other _ (Ne.symm hfd)]

/-- No filter is installed that the entry of its descriptor does not ask for. -/
def Matches (l : KqueueLoop) : Prop :=
  ∀ fd, (l.filters fd).le ((l.fdEntries_ fd).elim {} FdEntry.events)

theorem minus_le {a b : IoMask} (h : a.le b) : (a.minus b).le {} := by
  obtain ⟨hreadable, hwritable⟩ := h
  constructor
  · intro ha
    simp_all [IoMask.minus]
  · intro ha
    simp_all [IoMask.minus]

theorem union_le {a b : IoMask} (h : a.le {}) : (a.union b).le b := by
  obtain ⟨hreadable, hwritable⟩ := h
  constructor
  · intro ha
    simp_all [IoMask.union]
  · intro ha
    simp_all [IoMask.union]

theorem matches_remove {l : KqueueLoop} (h : Matches l) (fd : Fd) : Matches (l.remove fd) := by
  intro other
  have hbefore := h other
  cases hentry : l.fdEntries_ fd with
  | none => simpa [KqueueLoop.remove, hentry] using hbefore
  | some entry =>
    by_cases hfd : other = fd
    · subst hfd
      rw [hentry] at hbefore
      simpa [KqueueLoop.remove, hentry] using minus_le hbefore
    · simpa [KqueueLoop.remove, hentry, hfd] using hbefore

theorem matches_watch {l : KqueueLoop} (h : Matches l) (fd : Fd) (events : IoMask)
    (cb : IoCallback) : Matches (l.watch fd events cb) := by
  intro other
  have hremoved := matches_remove h fd other
  by_cases hfd : other = fd
  · subst hfd
    simp only [KqueueLoop.remove_entry, Option.elim_none] at hremoved
    by_cases hinvalid : other = kInvalidFd
    · have hle : ((l.remove other).filters other).le events :=
        ⟨fun hr => absurd (hremoved.1 hr) (by simp), fun hw => absurd (hremoved.2 hw) (by simp)⟩
      simpa [KqueueLoop.watch, hinvalid] using hle
    · simpa [KqueueLoop.watch, hinvalid] using union_le hremoved
  · by_cases hinvalid : fd = kInvalidFd
    · subst hinvalid
      simpa [KqueueLoop.watch, hfd] using hremoved
    · simpa [KqueueLoop.watch, hinvalid, hfd] using hremoved

theorem matches_replay (log : List LoopCall) : Matches (replay log) := by
  induction log with
  | nil =>
    intro fd
    simp [replay, IoMask.le]
  | cons call earlier ih =>
    cases call with
    | watch fd events cb => exact matches_watch ih fd events cb
    | remove fd => exact matches_remove ih fd

/-- A registration that was not made since is older, and stood before. -/
theorem registration_unwatched {fd : Fd} {log since : List LoopCall} {r : Nat × FdEntry}
    (hsince : ∀ events cb, .watch fd events cb ∉ since)
    (h : registration fd (since ++ log) = some r) : registration fd log = some r := by
  induction since with
  | nil => exact h
  | cons call since ih =>
    have hrest : ∀ events cb, .watch fd events cb ∉ since := fun events cb hmem =>
      hsince events cb (List.mem_cons_of_mem _ hmem)
    cases call with
    | watch fd' events cb =>
      have hfd : fd' ≠ fd := by
        rintro rfl
        exact hsince events cb List.mem_cons_self
      simp only [List.cons_append, registration, if_neg hfd] at h
      exact ih hrest h
    | remove fd' =>
      simp only [List.cons_append, registration] at h
      split at h
      · cases h
      · exact ih hrest h

theorem registration_watched {fd : Fd} {log since : List LoopCall} {n : Nat} {entry : FdEntry}
    {events : IoMask} {cb : IoCallback} (hsince : .watch fd events cb ∈ since)
    (h : registration fd (since ++ log) = some (n, entry)) : log.length ≤ n := by
  induction since with
  | nil => cases hsince
  | cons call since ih =>
    cases call with
    | watch fd' events' cb' =>
      simp only [List.cons_append, registration] at h
      split at h
      · cases h
        simp
      · rename_i hfd
        refine ih ((List.mem_cons.mp hsince).resolve_left ?_) h
        rintro ⟨⟩
        exact hfd rfl
    | remove fd' =>
      simp only [List.cons_append, registration] at h
      split at h
      · cases h
      · exact ih ((List.mem_cons.mp hsince).resolve_left (by simp)) h

namespace Dispatching

/-- The invoked callback is that of the latest registration, this stood when the event was
captured, and it is passed nothing that it did not ask for but the end of file. -/
structure Right (log : List LoopCall) (i : Invocation) : Prop where
  registered : ∃ n, registration i.event.ident i.log = some (n, i.entry) ∧
    registration i.event.ident log = some (n, i.entry)
  asked : i.event.fired.le (i.entry.events.union ⟨i.event.eof, false⟩)

/-- The calls behind the capture. -/
def since (log : List LoopCall) (i : Invocation) : List LoopCall :=
  i.log.take (i.log.length - log.length)

/-- The descriptor of the event has been watched anew. -/
def Rewatched (log : List LoopCall) (i : Invocation) : Prop :=
  ∃ events cb, .watch i.event.ident events cb ∈ since log i

/-- What an invocation looks like in a batch that was captured after the calls of `log`. -/
structure InBatch (log : List LoopCall) (captured : List KernelEvent) (i : Invocation) : Prop where
  event : i.event ∈ captured
  log : i.log = since log i ++ log
  entry : (replay i.log).fdEntries_ i.event.ident = some i.entry

structure BatchState (log : List LoopCall) (captured : List KernelEvent) (s : Dispatching) :
    Prop where
  replayed : s.loop = replay s.log
  behind : ∃ calls, s.log = calls ++ log
  rest : s.events ⊆ captured
  inBatch : ∀ i ∈ s.invoked, InBatch log captured i

theorem batchState_step {log : List LoopCall} {captured : List KernelEvent} {s s' : Dispatching}
    {a : Dispatched} (h : BatchState log captured s) (hstep : s.step a = some s') :
    BatchState log captured s' := by
  obtain ⟨hloop, ⟨calls, hlog⟩, hevents, hinvoked⟩ := h
  cases a with
  | call c =>
    cases hstep
    exact ⟨by rw [hloop]; rfl, ⟨c :: calls, by simp [hlog]⟩, hevents, hinvoked⟩
  | next =>
    simp only [step] at hstep
    cases hs : s.events with
    | nil => simp [hs] at hstep
    | cons ev rest =>
      rw [hs] at hevents
      obtain ⟨hev, hrest⟩ := List.cons_subset.mp hevents
      cases hentry : s.loop.fdEntries_ ev.ident with
      | none =>
        simp only [hs, hentry, Option.some.injEq] at hstep
        subst hstep
        exact ⟨hloop, ⟨calls, hlog⟩, hrest, hinvoked⟩
      | some entry =>
        simp only [hs, hentry, Option.some.injEq] at hstep
        subst hstep
        refine ⟨hloop, ⟨calls, hlog⟩, hrest, ?_⟩
        intro i hi
        rcases List.mem_append.mp hi with hold | hnew
        · exact hinvoked i hold
        · rw [List.mem_singleton.mp hnew]
          exact ⟨hev, by simp [since, hlog], by rw [← hloop]; exact hentry⟩

theorem right_iff {log : List LoopCall} {captured : List KernelEvent} {i : Invocation}
    (hcaptured : ∀ ev ∈ captured, ev.filter.mask.le ((replay log).filters ev.ident))
    (h : InBatch log captured i) : Right log i ↔ ¬ Rewatched log i := by
  obtain ⟨hevent, hlog, hentry⟩ := h
  rw [replay_entry] at hentry
  obtain ⟨⟨n, entry⟩, hregistered, rfl⟩ := Option.map_eq_some_iff.mp hentry
  constructor
  · rintro ⟨⟨m, hnow, hbefore⟩, -⟩ ⟨events, cb, hmem⟩
    rw [hlog] at hnow
    have hle := registration_watched hmem hnow
    have hlt := registration_lt hbefore
    omega
  · intro hfresh
    have hbefore : registration i.event.ident log = some (n, i.entry) := by
      rw [hlog] at hregistered
      exact registration_unwatched (fun events cb hmem => hfresh ⟨events, cb, hmem⟩) hregistered
    refine ⟨⟨n, hregistered, hbefore⟩, ?_⟩
    have hmask := hcaptured i.event hevent
    have hmatch := matches_replay log i.event.ident
    rw [replay_entry, hbefore] at hmatch
    simp only [Option.map_some, Option.elim_some] at hmatch
    cases hfilter : i.event.filter <;>
      simp_all [Filter.mask, IoMask.le, KernelEvent.fired, IoMask.union]

/-- A callback that `run` invokes is the one that its descriptor had when the kernel
reported the event, with no more readiness than this one asked for, exactly when the
descriptor was not watched anew behind the report. -/
theorem dispatched_right_iff (log : List LoopCall) (captured : List KernelEvent)
    (hcaptured : ∀ ev ∈ captured, ev.filter.mask.le ((replay log).filters ev.ident))
    (actions : List Dispatched) (s : Dispatching)
    (hrun : run step { loop := replay log, log := log, events := captured } actions = some s) :
    ∀ i ∈ s.invoked, Right log i ↔ ¬ Rewatched log i := by
  have hstate : BatchState log captured s := run_kept (BatchState log captured)
    (fun _ _ _ h hs => batchState_step h hs)
    ⟨rfl, ⟨[], rfl⟩, List.Subset.refl _, by simp⟩ hrun
  intro i hi
  exact right_iff hcaptured (hstate.inBatch i hi)

/-- Two descriptors that are watched for readability. -/
def twoWatches : List LoopCall :=
  [.watch 5 ⟨true, false⟩ (.connection 1), .watch 3 ⟨true, false⟩ (.connection 0)]

def twoReads : List KernelEvent := [⟨3, .read, false⟩, ⟨5, .read, false⟩]

theorem twoReads_captured :
    ∀ ev ∈ twoReads, ev.filter.mask.le ((replay twoWatches).filters ev.ident) := by
  intro ev hev
  simp only [twoReads, List.mem_cons, List.not_mem_nil, or_false] at hev
  rcases hev with rfl | rfl <;> decide

theorem dispatched_right_reads : ∃ s, run step
    { loop := replay twoWatches, log := twoWatches, events := twoReads }
    [.next, .call (.remove 3), .next] = some s ∧
    ∀ i ∈ s.invoked, Right twoWatches i ↔ ¬ Rewatched twoWatches i :=
  ⟨_, rfl, dispatched_right_iff twoWatches twoReads twoReads_captured
    [.next, .call (.remove 3), .next] _ rfl⟩

/-- The first callback watches the other descriptor anew, for writability; the event that
was captured for the old registration goes to the new one. -/
theorem stale_event_dispatched : ∃ s i, run step
    { loop := replay twoWatches, log := twoWatches, events := twoReads }
    [.next, .call (.watch 5 ⟨false, true⟩ (.connection 2)), .next] = some s ∧
    i ∈ s.invoked ∧ i.entry.callback = .connection 2 ∧ ¬ Right twoWatches i := by
  refine ⟨_, ⟨⟨5, .read, false⟩, ⟨⟨false, true⟩, .connection 2⟩,
    .watch 5 ⟨false, true⟩ (.connection 2) :: twoWatches⟩, rfl, ?_, rfl, ?_⟩
  · exact List.mem_cons_of_mem _ List.mem_cons_self
  · intro hright
    exact absurd (hright.asked.1 rfl) (by decide)

end Dispatching

end DeepSeer
