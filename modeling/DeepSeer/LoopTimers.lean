import DeepSeer.EventDispatch
import DeepSeer.Histories
import DeepSeer.Runs

/-!
The timers of the event loop. A timer lives in three places: the table of the loop, the
entry that the table shares with the handle, and the handle itself. `run` dispatches its
batches here with all kinds of events, and what a callback does are the actions that
follow it. Timers are numbered in the order in which they are made.
-/
namespace DeepSeer

open Histories Runs

structure TimerEntry where
  id : Nat
  cancelled : Bool := false
  deriving DecidableEq, Repr

/-- What `kevent` reports. -/
inductive QueueEvent where
  | io (ev : KernelEvent)
  | timer (ident : Nat)
  deriving DecidableEq, Repr

/-- What happens to the timers, and the callbacks that the loop runs; a timer event comes
with the timer whose callback it has run. -/
inductive LoopNote where
  | added (timer id : Nat)
  | cancelled (timer : Nat)
  | destroyed (timer : Nat)
  | fired (ident : Nat) (ran : Option Nat)
  | io (ev : KernelEvent) (entry : FdEntry)
  | posted (cb : Nat)
  deriving DecidableEq, Repr

/-- `entries` are the shared entries of all timers, `handles` says which handles there are
still, `armed` what the kernel has been asked for in microseconds, `events` the rest of
the batch and `posted` the rest of the callbacks that `processPosted` has taken. -/
structure TimedLoop where
  wakeReadFd_ : Fd
  watches : KqueueLoop := {}
  timers_ : Nat → Option Nat := fun _ => none
  nextTimerId_ : Nat := 1
  postedCallbacks_ : List Nat := []
  entries : List TimerEntry := []
  handles : List Bool := []
  armed : List (Nat × Int) := []
  events : List QueueEvent := []
  posted : List Nat := []
  log : List LoopNote := []

/-- The most events that one call of `kevent` reports. -/
def kMaxEvents : Nat := 64

/-- Somebody makes, cancels or drops a timer, watches a descriptor or posts a callback, in
a callback or elsewhere; the loop asks for events, or goes on with those that it has. -/
inductive LoopAct where
  | addTimer (delay : Int)
  | cancel (timer : Nat)
  | destroy (timer : Nat)
  | call (c : LoopCall)
  | post (cb : Nat)
  | capture (events : List QueueEvent)
  | next

namespace TimedLoop

def note (s : TimedLoop) (n : LoopNote) : TimedLoop := { s with log := n :: s.log }

/-- The delay is a number of nanoseconds, which is cut to milliseconds. -/
def addTimer (s : TimedLoop) (delay : Int) : TimedLoop :=
  let id := s.nextTimerId_
  let timer := s.entries.length
  let ms := delay.tdiv 1000000
  let ms := if ms ≤ 0 then 1 else ms
  let s := { s with
    nextTimerId_ := id + 1
    entries := s.entries ++ [TimerEntry.mk id false]
    timers_ := Function.update s.timers_ id (some timer)
    armed := (id, ms * 1000) :: s.armed
    handles := s.handles ++ [true] }
  s.note (.added timer id)

/-- `entry_->cancelled = true`. -/
def mark (s : TimedLoop) (timer : Nat) : TimedLoop :=
  { s with entries := s.entries.modify timer fun e => { e with cancelled := true } }

/-- `cancel` of a handle that there is. -/
def cancel (s : TimedLoop) (timer : Nat) : TimedLoop :=
  if s.handles[timer]? = some true then (s.mark timer).note (.cancelled timer) else s

/-- The destructor of a handle cancels the timer. -/
def destroy (s : TimedLoop) (timer : Nat) : TimedLoop :=
  if s.handles[timer]? = some true then
    let s := { s.mark timer with handles := s.handles.set timer false }
    s.note (.destroyed timer)
  else s

/-- A timer event. The timer leaves the table before its callback runs. -/
def timerEvent (s : TimedLoop) (ident : Nat) : TimedLoop :=
  match s.timers_ ident with
  | none => s.note (.fired ident none)
  | some timer =>
    let s := { s with timers_ := Function.update s.timers_ ident none }
    if s.entries[timer]?.any (!·.cancelled) then s.note (.fired ident (some timer))
    else s.note (.fired ident none)

/-- `processPosted` takes all callbacks before it runs the first one. -/
def processPosted (s : TimedLoop) : TimedLoop :=
  { s with posted := s.postedCallbacks_, postedCallbacks_ := [] }

def ioEvent (s : TimedLoop) (ev : KernelEvent) : TimedLoop :=
  if ev.filter = .read ∧ ev.ident = s.wakeReadFd_ then s.processPosted
  else
    match s.watches.fdEntries_ ev.ident with
    | none => s
    | some entry => s.note (.io ev entry)

/-- The loop goes on with the next posted callback or the next event. -/
def next (s : TimedLoop) : TimedLoop :=
  match s.posted, s.events with
  | cb :: rest, _ => note { s with posted := rest } (.posted cb)
  | [], .io ev :: rest => ioEvent { s with events := rest } ev
  | [], .timer ident :: rest => timerEvent { s with events := rest } ident
  | [], [] => s

def step (s : TimedLoop) : LoopAct → TimedLoop
  | .addTimer delay => s.addTimer delay
  | .cancel timer => s.cancel timer
  | .destroy timer => s.destroy timer
  | .call c => { s with watches := c.perform s.watches }
  | .post cb => { s with postedCallbacks_ := s.postedCallbacks_ ++ [cb] }
  | .capture events =>
    if s.posted = [] ∧ s.events = [] ∧ events.length ≤ kMaxEvents then { s with events := events }
    else s
  | .next => s.next

end TimedLoop

/-- What there is of one timer. -/
structure TimerView where
  id : Nat
  waiting : Bool := true
  cancelled : Bool := false
  deriving DecidableEq, Repr

namespace TimerView

def cancel (v : TimerView) : TimerView := { v with cancelled := true }

/-- A timer event takes the timer of its number out of the table. -/
def fire (ident : Nat) (v : TimerView) : TimerView :=
  if v.id = ident then { v with waiting := false } else v

@[simp] theorem fire_id (ident : Nat) (v : TimerView) : (v.fire ident).id = v.id := by
  unfold fire
  split <;> rfl

@[simp] theorem fire_cancelled (ident : Nat) (v : TimerView) :
    (v.fire ident).cancelled = v.cancelled := by
  unfold fire
  split <;> rfl

end TimerView

/-- What a note makes of one timer. -/
def LoopNote.look (timer : Nat) : LoopNote → Option TimerView → Option TimerView
  | .added other id, v => if other = timer then some { id := id } else v
  | .cancelled other, v | .destroyed other, v => if other = timer then v.map .cancel else v
  | .fired ident _, v => v.map (.fire ident)
  | .io _ _, v | .posted _, v => v

/-- What a history has left of one timer. -/
def viewOf (timer : Nat) (log : List LoopNote) : Option TimerView :=
  log.foldr (LoopNote.look timer) none

@[simp] theorem viewOf_cons (timer : Nat) (n : LoopNote) (log : List LoopNote) :
    viewOf timer (n :: log) = n.look timer (viewOf timer log) := rfl

/-- A timer is made once and used through its handle, and an event runs the callback of the
timer that has its number, waits and is not cancelled. -/
def LoopNote.Right : LoopNote → List LoopNote → Prop
  | .added timer _, earlier => viewOf timer earlier = none
  | .cancelled timer, earlier | .destroyed timer, earlier => viewOf timer earlier ≠ none
  | .fired ident ran, earlier =>
    ∀ timer, ran = some timer ↔ viewOf timer earlier = some { id := ident }
  | .io _ _, _ | .posted _, _ => True

/-- The note says that the callback of the timer has run. -/
def LoopNote.runs (timer : Nat) : LoopNote → Bool
  | .fired _ ran => ran == some timer
  | _ => false

namespace TimedLoop

/-- What there is of a timer in the entries and the table. -/
def timer (s : TimedLoop) (k : Nat) : Option TimerView :=
  s.entries[k]?.map fun e : TimerEntry => ⟨e.id, s.timers_ e.id = some k, e.cancelled⟩

/-- The three places of all timers are as the history says, which is right. -/
structure Sound (s : TimedLoop) : Prop where
  seen : ∀ k, s.timer k = viewOf k s.log
  justified : Justified LoopNote.Right s.log
  table : ∀ id k, s.timers_ id = some k → ∃ e, s.entries[k]? = some e ∧ e.id = id
  fresh : ∀ (k : Nat) (e : TimerEntry), s.entries[k]? = some e → e.id < s.nextTimerId_
  handles : s.handles.length = s.entries.length
  armed : ∀ (k : Nat) (e : TimerEntry), s.entries[k]? = some e →
    ∃ time, (e.id, time) ∈ s.armed ∧ 1000 ≤ time

theorem sound_new (w : Fd) : Sound { wakeReadFd_ := w } where
  seen k := rfl
  justified := trivial
  table := by simp
  fresh := by simp
  handles := rfl
  armed := by simp

/-- A change that is not about timers. -/
theorem Sound.same {s s' : TimedLoop} (h : Sound s) (htimers : s'.timers_ = s.timers_)
    (hnext : s'.nextTimerId_ = s.nextTimerId_) (hentries : s'.entries = s.entries)
    (hhandles : s'.handles = s.handles) (harmed : s'.armed = s.armed) (hlog : s'.log = s.log) :
    Sound s' where
  seen k := by
    rw [timer, hentries, htimers, hlog]
    exact h.seen k
  justified := hlog ▸ h.justified
  table := by
    rw [htimers, hentries]
    exact h.table
  fresh := by
    rw [hentries, hnext]
    exact h.fresh
  handles := by rw [hhandles, hentries, h.handles]
  armed := by
    rw [hentries, harmed]
    exact h.armed

/-- A note that is not about timers. -/
theorem Sound.aside {s : TimedLoop} (h : Sound s) {n : LoopNote} (hn : n.Right s.log)
    (hlook : ∀ k v, n.look k v = v) : Sound (s.note n) where
  seen k := by
    rw [note, viewOf_cons, hlook]
    exact h.seen k
  justified := ⟨hn, h.justified⟩
  table := h.table
  fresh := h.fresh
  handles := h.handles
  armed := h.armed

theorem Sound.addTimer {s : TimedLoop} (h : Sound s) (delay : Int) : Sound (s.addTimer delay) := by
  have hunmade : viewOf s.entries.length s.log = none := by
    rw [← h.seen, timer, List.getElem?_eq_none (Nat.le_refl _)]
    rfl
  constructor
  · intro k
    rw [TimedLoop.addTimer, note, viewOf_cons, ← h.seen k]
    by_cases hk : s.entries.length = k
    · subst hk
      simp [timer, LoopNote.look]
    · simp only [timer, LoopNote.look, if_neg hk]
      by_cases hlt : k < s.entries.length
      · rw [List.getElem?_append_left hlt]
        cases he : s.entries[k]? with
        | none => rfl
        | some e =>
          have hid : e.id ≠ s.nextTimerId_ := Nat.ne_of_lt (h.fresh k e he)
          simp [Function.update_of_ne hid]
      · rw [List.getElem?_eq_none (by simp; omega), List.getElem?_eq_none (by omega)]
        rfl
  · exact ⟨hunmade, h.justified⟩
  · intro id k hk
    by_cases hid : id = s.nextTimerId_
    · subst hid
      have hnew : s.entries.length = k := by simpa [TimedLoop.addTimer, note] using hk
      subst hnew
      exact ⟨⟨s.nextTimerId_, false⟩, by simp [TimedLoop.addTimer, note], rfl⟩
    · have hold : s.timers_ id = some k := by
        simpa [TimedLoop.addTimer, note, Function.update_of_ne hid] using hk
      obtain ⟨e, he, heid⟩ := h.table id k hold
      have hlt := (List.getElem?_eq_some_iff.mp he).1
      exact ⟨e, (List.getElem?_append_left hlt).trans he, heid⟩
  · intro k e he
    change e.id < s.nextTimerId_ + 1
    rcases List.mem_append.mp (List.mem_of_getElem? he) with hmem | hmem
    · obtain ⟨j, hj⟩ := List.getElem?_of_mem hmem
      have hlt := h.fresh j e hj
      omega
    · rw [List.mem_singleton.mp hmem]
      exact Nat.lt_succ_self _
  · simp [TimedLoop.addTimer, note, h.handles]
  · intro k e he
    simp only [TimedLoop.addTimer, note, List.mem_cons]
    rcases List.mem_append.mp (List.mem_of_getElem? he) with hmem | hmem
    · obtain ⟨j, hj⟩ := List.getElem?_of_mem hmem
      obtain ⟨time, htime, hle⟩ := h.armed j e hj
      exact ⟨time, .inr htime, hle⟩
    · rw [List.mem_singleton.mp hmem]
      refine ⟨_, .inl rfl, ?_⟩
      -- a delay that is not positive in milliseconds counts as one
      split <;> omega

/-- Marking the entry of one timer. -/
theorem mark_timer (s : TimedLoop) (k other : Nat) :
    (s.mark k).timer other = if k = other then (s.timer other).map .cancel else s.timer other := by
  by_cases hk : k = other
  · subst hk
    simp only [timer, mark, List.getElem?_modify, if_true]
    cases s.entries[k]? <;> rfl
  · simp only [timer, mark, List.getElem?_modify, if_neg hk]
    cases s.entries[other]? <;> rfl

/-- A handle that there is belongs to a timer. -/
theorem Sound.made {s : TimedLoop} (h : Sound s) {k : Nat} (hk : s.handles[k]? = some true) :
    viewOf k s.log ≠ none := by
  have hlt : k < s.entries.length := h.handles ▸ (List.getElem?_eq_some_iff.mp hk).1
  rw [← h.seen, timer, List.getElem?_eq_getElem hlt]
  simp

theorem Sound.mark {s : TimedLoop} (h : Sound s) {k : Nat} {n : LoopNote}
    (hn : n.Right s.log)
    (hlook : ∀ other v, n.look other v = if k = other then v.map .cancel else v)
    (handles : List Bool) (hlen : handles.length = s.handles.length) :
    Sound (note { s.mark k with handles := handles } n) where
  seen other := by
    change (s.mark k).timer other = viewOf other (n :: s.log)
    rw [viewOf_cons, hlook, ← h.seen other, mark_timer]
  justified := ⟨hn, h.justified⟩
  table id j hj := by
    obtain ⟨e, he, hid⟩ := h.table id j hj
    by_cases hk : k = j
    · subst hk
      exact ⟨{ e with cancelled := true }, by simp [note, TimedLoop.mark, he], hid⟩
    · exact ⟨e, by simp [note, TimedLoop.mark, hk, he], hid⟩
  fresh j e he := by
    simp only [note, TimedLoop.mark, List.getElem?_modify] at he
    obtain ⟨e', he', rfl⟩ := Option.map_eq_some_iff.mp he
    have hlt := h.fresh j e' he'
    by_cases hk : k = j <;> simpa [note, TimedLoop.mark, hk] using hlt
  handles := by simp [note, TimedLoop.mark, hlen, h.handles]
  armed j e he := by
    simp only [note, TimedLoop.mark, List.getElem?_modify] at he
    obtain ⟨e', he', rfl⟩ := Option.map_eq_some_iff.mp he
    have harmed := h.armed j e' he'
    by_cases hk : k = j <;> simpa [note, TimedLoop.mark, hk] using harmed

theorem Sound.cancel {s : TimedLoop} (h : Sound s) (k : Nat) : Sound (s.cancel k) := by
  unfold TimedLoop.cancel
  split
  · next hk => exact h.mark (n := .cancelled k) (h.made hk) (fun _ _ => rfl) s.handles rfl
  · exact h

theorem Sound.destroy {s : TimedLoop} (h : Sound s) (k : Nat) : Sound (s.destroy k) := by
  unfold TimedLoop.destroy
  split
  · next hk =>
    exact h.mark (n := .destroyed k) (h.made hk) (fun _ _ => rfl) _ (List.length_set ..)
  · exact h

/-- The timer whose callback an event runs. -/
def due (s : TimedLoop) (ident : Nat) : Option Nat :=
  (s.timers_ ident).filter fun k => s.entries[k]?.any (!·.cancelled)

theorem timerEvent_eq (s : TimedLoop) (ident : Nat) :
    s.timerEvent ident = note { s with timers_ := Function.update s.timers_ ident none }
      (.fired ident (s.due ident)) := by
  unfold timerEvent due
  cases ht : s.timers_ ident with
  | none =>
    have hsame : Function.update s.timers_ ident none = s.timers_ := by
      rw [← ht, Function.update_eq_self]
    simp [note, hsame]
  | some k =>
    by_cases hk : s.entries[k]?.any (!·.cancelled) = true <;> simp [note, hk, Option.filter]

/-- A timer is due where its number is the event's, it waits and it is not cancelled. -/
theorem Sound.due_iff {s : TimedLoop} (h : Sound s) (ident k : Nat) :
    s.due ident = some k ↔ s.timer k = some { id := ident } := by
  simp only [due, timer, Option.filter_eq_some_iff, Option.map_eq_some_iff]
  constructor
  · rintro ⟨ht, hk⟩
    obtain ⟨e, he, rfl⟩ := h.table ident k ht
    have hcancelled : e.cancelled = false := by simpa [he] using hk
    exact ⟨e, he, by simp [ht, hcancelled]⟩
  · rintro ⟨e, he, hview⟩
    obtain ⟨rfl, hwaiting, hcancelled⟩ := TimerView.mk.inj hview
    exact ⟨by simpa using hwaiting, by simp [he, hcancelled]⟩

theorem Sound.timerEvent {s : TimedLoop} (h : Sound s) (ident : Nat) :
    Sound (s.timerEvent ident) := by
  rw [timerEvent_eq]
  constructor
  · intro k
    rw [note, viewOf_cons, LoopNote.look, ← h.seen k]
    simp only [timer]
    cases he : s.entries[k]? with
    | none => rfl
    | some e =>
      by_cases hid : e.id = ident
      · simp [TimerView.fire, hid]
      · simp [TimerView.fire, hid, Function.update_of_ne]
  · refine ⟨fun k => ?_, h.justified⟩
    rw [h.due_iff, h.seen]
  · intro id k hk
    by_cases hid : id = ident
    · simp [note, hid] at hk
    · exact h.table id k (by simpa [note, Function.update_of_ne hid] using hk)
  · exact h.fresh
  · exact h.handles
  · exact h.armed

theorem Sound.next {s : TimedLoop} (h : Sound s) : Sound s.next := by
  unfold TimedLoop.next
  split
  · next cb rest _ =>
    have hsame : Sound { s with posted := rest } := h.same rfl rfl rfl rfl rfl rfl
    exact hsame.aside (n := .posted cb) trivial fun _ _ => rfl
  · next ev rest _ _ =>
    have hsame : Sound { s with events := rest } := h.same rfl rfl rfl rfl rfl rfl
    unfold ioEvent
    split
    · exact hsame.same rfl rfl rfl rfl rfl rfl
    · split
      · exact hsame
      · next entry _ => exact hsame.aside (n := .io ev entry) trivial fun _ _ => rfl
  · next ident rest _ _ =>
    have hsame : Sound { s with events := rest } := h.same rfl rfl rfl rfl rfl rfl
    exact hsame.timerEvent ident
  · exact h

theorem Sound.step {s : TimedLoop} (h : Sound s) (a : LoopAct) : Sound (s.step a) := by
  cases a with
  | addTimer delay => exact h.addTimer delay
  | cancel k => exact h.cancel k
  | destroy k => exact h.destroy k
  | call c => exact h.same rfl rfl rfl rfl rfl rfl
  | post cb => exact h.same rfl rfl rfl rfl rfl rfl
  | capture events =>
    unfold TimedLoop.step
    dsimp only
    split
    · exact h.same rfl rfl rfl rfl rfl rfl
    · exact h
  | next => exact h.next

/-- The invariant holds in every run. -/
theorem sound_run (w : Fd) (acts : List LoopAct) :
    Sound (run TimedLoop.step { wakeReadFd_ := w } acts) :=
  run_kept Sound (fun _ a h => h.step a) (sound_new w) acts

end TimedLoop

/-- A timer that has been made is still there after a note that is right, and what has
happened to it is not undone. -/
theorem LoopNote.Right.keeps {n : LoopNote} {earlier : List LoopNote} (h : n.Right earlier)
    {k : Nat} {v : TimerView} (hv : viewOf k earlier = some v) :
    ∃ v', viewOf k (n :: earlier) = some v' ∧ (v.waiting = false → v'.waiting = false) ∧
      (v.cancelled = true → v'.cancelled = true) := by
  rw [viewOf_cons, hv]
  cases n with
  | added other id =>
    by_cases hk : other = k
    · subst hk
      exact absurd (hv.symm.trans h) (by simp)
    · exact ⟨v, if_neg hk, fun hw => hw, fun hc => hc⟩
  | cancelled other =>
    by_cases hk : other = k
    · exact ⟨v.cancel, if_pos hk, fun hw => hw, fun _ => rfl⟩
    · exact ⟨v, if_neg hk, fun hw => hw, fun hc => hc⟩
  | destroyed other =>
    by_cases hk : other = k
    · exact ⟨v.cancel, if_pos hk, fun hw => hw, fun _ => rfl⟩
    · exact ⟨v, if_neg hk, fun hw => hw, fun hc => hc⟩
  | fired ident ran =>
    refine ⟨v.fire ident, rfl, fun hw => ?_, fun hc => by rwa [TimerView.fire_cancelled]⟩
    unfold TimerView.fire
    split
    · rfl
    · exact hw
  | io ev entry => exact ⟨v, rfl, fun hw => hw, fun hc => hc⟩
  | posted cb => exact ⟨v, rfl, fun hw => hw, fun hc => hc⟩

/-- A timer that is in a history has been made in it. -/
theorem added_of_view {k : Nat} {log : List LoopNote} {v : TimerView}
    (h : viewOf k log = some v) : .added k v.id ∈ log := by
  induction log generalizing v with
  | nil => cases h
  | cons n earlier ih =>
    rw [viewOf_cons] at h
    have hmem : ∀ {v' : TimerView}, viewOf k earlier = some v' → v'.id = v.id →
        .added k v.id ∈ n :: earlier := by
      intro v' hv hid
      exact List.mem_cons_of_mem n (hid ▸ ih hv)
    have hcancel : ∀ other, (if other = k then (viewOf k earlier).map .cancel
        else viewOf k earlier) = some v → .added k v.id ∈ n :: earlier := by
      intro other hother
      split at hother
      · obtain ⟨v', hv, rfl⟩ := Option.map_eq_some_iff.mp hother
        exact hmem hv rfl
      · exact hmem hother rfl
    cases n with
    | added other id =>
      simp only [LoopNote.look] at h
      split at h
      · next hk =>
        subst hk
        cases h
        exact List.mem_cons_self
      · exact hmem h rfl
    | cancelled other => exact hcancel other h
    | destroyed other => exact hcancel other h
    | fired ident ran =>
      obtain ⟨v', hv, rfl⟩ := Option.map_eq_some_iff.mp h
      exact hmem hv (TimerView.fire_id ident v').symm
    | io ev entry => exact hmem h rfl
    | posted cb => exact hmem h rfl

section RightHistory

variable {log : List LoopNote} {k : Nat}

/-- The callback of a timer runs at most once. -/
theorem runs_once (h : Justified LoopNote.Right log) : log.countP (LoopNote.runs k) ≤ 1 := by
  have hruns : ∀ {n : LoopNote} {earlier : List LoopNote}, n.Right earlier → n.runs k = true →
      ∃ ident, n = .fired ident (some k) ∧ viewOf k earlier = some { id := ident } := by
    intro n earlier hn hr
    cases n with
    | fired ident ran =>
      obtain rfl : ran = some k := by simpa [LoopNote.runs] using hr
      exact ⟨ident, rfl, (hn k).mp rfl⟩
    | _ => cases hr
  apply h.once fun log => ∃ v, viewOf k log = some v ∧ v.waiting = false
  · intro n earlier hn hr
    obtain ⟨ident, rfl, hv⟩ := hruns hn hr
    exact ⟨_, by rw [viewOf_cons, hv]; rfl, by simp [TimerView.fire]⟩
  · rintro n earlier hn ⟨v, hv, hw⟩
    obtain ⟨v', hv', hw', -⟩ := hn.keeps hv
    exact ⟨v', hv', hw' hw⟩
  · rintro n earlier hn ⟨v, hv, hw⟩
    cases hr : n.runs k with
    | false => rfl
    | true =>
      obtain ⟨ident, -, hv'⟩ := hruns hn hr
      cases hv.symm.trans hv'
      cases hw

/-- A timer whose handle has been cancelled or dropped is cancelled from then on. -/
theorem cancelled_kept {n : LoopNote} (hn : n = .cancelled k ∨ n = .destroyed k)
    (h : Justified LoopNote.Right log) (hmem : n ∈ log) :
    ∃ v, viewOf k log = some v ∧ v.cancelled = true := by
  obtain ⟨later, earlier, rfl⟩ := List.append_of_mem hmem
  apply h.kept (P := fun log => ∃ v, viewOf k log = some v ∧ v.cancelled = true)
  · have hmade : viewOf k earlier ≠ none := by
      rcases hn with rfl | rfl <;> exact h.at
    obtain ⟨v, hv⟩ := Option.ne_none_iff_exists'.mp hmade
    refine ⟨v.cancel, ?_, rfl⟩
    rw [viewOf_cons, hv]
    rcases hn with rfl | rfl <;> simp [LoopNote.look]
  · rintro m - before hm ⟨v, hv, hc⟩
    obtain ⟨v', hv', -, hc'⟩ := hm.keeps hv
    exact ⟨v', hv', hc' hc⟩

/-- A callback runs at an event of its own timer, which is not cancelled. -/
theorem runs_uncancelled {later earlier : List LoopNote} {ident : Nat}
    (h : Justified LoopNote.Right (later ++ .fired ident (some k) :: earlier)) :
    .added k ident ∈ earlier ∧ .cancelled k ∉ earlier ∧ .destroyed k ∉ earlier := by
  have hview : viewOf k earlier = some { id := ident } := (h.at k).mp rfl
  have hbefore : Justified LoopNote.Right earlier := h.before.2
  have hnot : ∀ n : LoopNote, n = .cancelled k ∨ n = .destroyed k → n ∉ earlier := by
    intro n hn hmem
    obtain ⟨v, hv, hc⟩ := cancelled_kept hn hbefore hmem
    cases hview.symm.trans hv
    cases hc
  exact ⟨added_of_view hview, hnot _ (.inl rfl), hnot _ (.inr rfl)⟩

/-- The first event of a timer runs its callback unless it has been cancelled. -/
theorem runs_when_fired {later mid earlier : List LoopNote} {ident : Nat} {ran : Option Nat}
    (h : Justified LoopNote.Right
      (later ++ .fired ident ran :: (mid ++ .added k ident :: earlier)))
    (hfirst : ∀ ran', .fired ident ran' ∉ mid) (hcancelled : .cancelled k ∉ mid)
    (hdestroyed : .destroyed k ∉ mid) : ran = some k := by
  have hbefore : Justified LoopNote.Right (mid ++ .added k ident :: earlier) := h.before.2
  have hadded : viewOf k (.added k ident :: earlier) = some { id := ident } := by
    simp [LoopNote.look]
  have hview : viewOf k (mid ++ .added k ident :: earlier) = some { id := ident } := by
    apply hbefore.kept (P := fun log => viewOf k log = some { id := ident }) hadded
    intro n hn before hright hv
    rw [viewOf_cons, hv]
    cases n with
    | added other id =>
      by_cases hk : other = k
      · subst hk
        exact absurd (hv.symm.trans hright) (by simp)
      · exact if_neg hk
    | cancelled other =>
      have hk : other ≠ k := by
        rintro rfl
        exact hcancelled hn
      exact if_neg hk
    | destroyed other =>
      have hk : other ≠ k := by
        rintro rfl
        exact hdestroyed hn
      exact if_neg hk
    | fired other ran' =>
      have hid : ident ≠ other := fun hk => hfirst ran' (hk ▸ hn)
      simp [LoopNote.look, TimerView.fire, hid]
    | io ev entry => rfl
    | posted cb => rfl
  exact (h.at k).mpr hview

end RightHistory

namespace TimedLoop

/-- The action makes this timer, uses its handle or dispatches its event. -/
def Concerns (s : TimedLoop) (k : Nat) : LoopAct → Prop
  | .addTimer _ => k = s.entries.length
  | .cancel other | .destroy other => other = k
  | .next => s.posted = [] ∧ ∃ v rest, s.timer k = some v ∧ s.events = .timer v.id :: rest
  | .call _ | .post _ | .capture _ => False

/-- Nothing becomes of one timer: not of its entry, its handle or its callback. -/
structure Leaves (k : Nat) (s s' : TimedLoop) : Prop where
  timer : s'.timer k = s.timer k
  handle : s'.handles[k]? = s.handles[k]?
  runs : s'.log.countP (LoopNote.runs k) = s.log.countP (LoopNote.runs k)

theorem Sound.leaves_addTimer {s : TimedLoop} (h : Sound s) {k : Nat} (hk : k ≠ s.entries.length)
    (delay : Int) : Leaves k s (s.addTimer delay) where
  timer := by
    rw [(h.addTimer delay).seen, h.seen]
    exact if_neg (Ne.symm hk)
  handle := by
    simp only [TimedLoop.addTimer, note]
    by_cases hlt : k < s.handles.length
    · rw [List.getElem?_append_left hlt]
    · have hlen := h.handles
      rw [List.getElem?_eq_none (by simp; omega), List.getElem?_eq_none (by omega)]
  runs := List.countP_cons_of_neg (by simp [LoopNote.runs])

theorem leaves_note {k : Nat} {s s' : TimedLoop} {n : LoopNote} (htimer : s'.timer k = s.timer k)
    (hhandle : s'.handles[k]? = s.handles[k]?) (hlog : s'.log = s.log) (hn : n.runs k = false) :
    Leaves k s (s'.note n) := by
  refine ⟨htimer, hhandle, ?_⟩
  rw [note, hlog]
  exact List.countP_cons_of_neg (by simp [hn])

theorem leaves_cancel (s : TimedLoop) {k other : Nat} (hk : other ≠ k) :
    Leaves k s (s.cancel other) := by
  unfold TimedLoop.cancel
  split
  · exact leaves_note ((mark_timer s other k).trans (if_neg hk)) rfl rfl rfl
  · exact ⟨rfl, rfl, rfl⟩

theorem leaves_destroy (s : TimedLoop) {k other : Nat} (hk : other ≠ k) :
    Leaves k s (s.destroy other) := by
  unfold TimedLoop.destroy
  split
  · exact leaves_note ((mark_timer s other k).trans (if_neg hk)) (List.getElem?_set_ne hk) rfl rfl
  · exact ⟨rfl, rfl, rfl⟩

theorem Sound.leaves_timerEvent {s : TimedLoop} (h : Sound s) {k ident : Nat}
    (hk : ∀ v, s.timer k = some v → v.id ≠ ident) : Leaves k s (s.timerEvent ident) := by
  have hview : (s.timerEvent ident).timer k = s.timer k := by
    rw [(h.timerEvent ident).seen, timerEvent_eq, note, viewOf_cons, LoopNote.look, ← h.seen]
    cases hv : s.timer k with
    | none => rfl
    | some v => simp [TimerView.fire, hk v hv]
  have hdue : s.due ident ≠ some k := fun hd => hk _ ((h.due_iff ident k).mp hd) rfl
  refine ⟨hview, ?_, ?_⟩
  · rw [timerEvent_eq]
    rfl
  · rw [timerEvent_eq]
    exact List.countP_cons_of_neg (by simp [LoopNote.runs, hdue])

theorem Sound.leaves_next {s : TimedLoop} (h : Sound s) {k : Nat} (hk : ¬ s.Concerns k .next) :
    Leaves k s s.next := by
  unfold TimedLoop.next
  split
  · exact leaves_note rfl rfl rfl rfl
  · unfold ioEvent
    split
    · exact ⟨rfl, rfl, rfl⟩
    · split
      · exact ⟨rfl, rfl, rfl⟩
      · exact leaves_note rfl rfl rfl rfl
  · next ident rest hposted hevents =>
    have hsame : Sound { s with events := rest } := h.same rfl rfl rfl rfl rfl rfl
    have hother : ∀ v, s.timer k = some v → v.id ≠ ident := by
      intro v hv hid
      exact hk ⟨hposted, v, rest, hv, by rw [hevents, hid]⟩
    have hleaves := hsame.leaves_timerEvent hother
    exact ⟨hleaves.timer, hleaves.handle, hleaves.runs⟩
  · exact ⟨rfl, rfl, rfl⟩

theorem Sound.leaves_step {s : TimedLoop} (h : Sound s) {k : Nat} {a : LoopAct}
    (ha : ¬ s.Concerns k a) : Leaves k s (s.step a) := by
  cases a with
  | addTimer delay => exact h.leaves_addTimer ha delay
  | cancel other => exact leaves_cancel s ha
  | destroy other => exact leaves_destroy s ha
  | call c => exact ⟨rfl, rfl, rfl⟩
  | post cb => exact ⟨rfl, rfl, rfl⟩
  | capture events =>
    unfold TimedLoop.step
    dsimp only
    split <;> exact ⟨rfl, rfl, rfl⟩
  | next => exact h.leaves_next ha

end TimedLoop

/-- In every run of the event loop the callback of a timer runs at most once, at an event of
its own and not after its handle has been cancelled or dropped; the first event of a timer
that is not cancelled runs it; and what is done to other timers leaves it alone. -/
theorem timers_run_once (w : Fd) (acts : List LoopAct) (k : Nat) :
    let s := run TimedLoop.step { wakeReadFd_ := w } acts
    s.log.countP (LoopNote.runs k) ≤ 1 ∧
    (∀ later earlier ident, s.log = later ++ .fired ident (some k) :: earlier →
      .added k ident ∈ earlier ∧ .cancelled k ∉ earlier ∧ .destroyed k ∉ earlier) ∧
    (∀ later mid earlier ident ran,
      s.log = later ++ .fired ident ran :: (mid ++ .added k ident :: earlier) →
      (∀ ran', .fired ident ran' ∉ mid) → .cancelled k ∉ mid → .destroyed k ∉ mid →
      ran = some k) ∧
    ∀ a, ¬ s.Concerns k a → TimedLoop.Leaves k s (s.step a) := by
  intro s
  have hsound : TimedLoop.Sound s := TimedLoop.sound_run w acts
  have hright := hsound.justified
  refine ⟨runs_once hright, ?_, ?_, fun a ha => hsound.leaves_step ha⟩
  · intro later earlier ident hlog
    rw [hlog] at hright
    exact runs_uncancelled hright
  · intro later mid earlier ident ran hlog hfirst hcancelled hdestroyed
    rw [hlog] at hright
    exact runs_when_fired hright hfirst hcancelled hdestroyed

/-- A timer callback drops the handle of another timer, whose event waits in the batch. -/
example : (run TimedLoop.step { wakeReadFd_ := 4 } [.addTimer 0, .addTimer 0,
    .capture [.timer 1, .timer 2], .next, .destroy 1, .next]).log =
    [.fired 2 none, .destroyed 1, .fired 1 (some 0), .added 1 2, .added 0 1] := by decide

end DeepSeer
