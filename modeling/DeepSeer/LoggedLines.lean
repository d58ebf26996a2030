import DeepSeer.Logger

/-!
What the log of a run says of each call: a message is dropped for its level, or goes
as one line to every sink of one configuration in turn; a shutdown flushes every
sink of its configuration and nothing is written in between. The invariant tells the
story of each call up to where it is.
-/
namespace DeepSeer

open ByteMemory Schedules SharedLocks

namespace LogEvent

/-- The call that an event is of. -/
def call : LogEvent → Nat
  | checked k _ | leveled k _ | took k | wrote k _ _ | left k | configured k _ | locked k
  | flushed k _ | cleared k => k

/-- The event changes which sinks there are. -/
def configures : LogEvent → Bool
  | configured _ _ | cleared _ => true
  | _ => false

/-- The event needs the lock. -/
def guarded : LogEvent → Bool
  | checked _ _ | leveled _ _ => false
  | _ => true

end LogEvent

namespace LogCall

/-- The call holds the lock with other readers. -/
def reads : LogCall → Bool
  | writing _ _ => true
  | _ => false

/-- The call holds the lock alone. -/
def flushes : LogCall → Bool
  | flushing _ => true
  | _ => false

end LogCall

/-- The events of a call. -/
def own (k : Nat) (log : List LogEvent) : List LogEvent := log.filter fun e => e.call = k

/-- The sinks behind a log. -/
def configuration : List LogEvent → List Nat
  | [] => []
  | .configured _ sinks :: _ => sinks
  | .cleared _ :: _ => []
  | _ :: earlier => configuration earlier

/-- The lowest level that is not dropped behind a log. -/
def levelAfter : List LogEvent → LogLevel
  | [] => .Info
  | .leveled _ level :: _ => level
  | _ :: earlier => levelAfter earlier

/-- The events that needed the lock. -/
def guardedEvents (log : List LogEvent) : List LogEvent := log.filter LogEvent.guarded

variable {k : Nat} {log : List LogEvent} {e : LogEvent}

theorem own_cons_same (h : e.call = k) : own k (e :: log) = e :: own k log := by
  simp [own, h]

theorem own_cons_other (h : e.call ≠ k) : own k (e :: log) = own k log := by
  simp [own, h]

theorem guardedEvents_cons (h : e.guarded = false) :
    guardedEvents (e :: log) = guardedEvents log := by
  simp [guardedEvents, h]

/-- The level of the message is that of the moment, or above, when it is checked. -/
def Passed (k : Nat) (level : LogLevel) (log : List LogEvent) : Prop :=
  ∃ later earlier, log = later ++ .checked k true :: earlier ∧ own k earlier = [] ∧
    own k later = [] ∧ (levelAfter earlier).value ≤ level.value

def Dropped (k : Nat) (level : LogLevel) (log : List LogEvent) : Prop :=
  ∃ later earlier, log = later ++ .checked k false :: earlier ∧ own k earlier = [] ∧
    own k later = [] ∧ level.value < (levelAfter earlier).value

/-- The line went to the sinks `done` and still has to go to `rest`: these are the
sinks of the moment at which the lock was taken, and they stay. -/
def Writing (k : Nat) (level : LogLevel) (line : Bytes) (done rest : List Nat)
    (log : List LogEvent) : Prop :=
  ∃ later earlier, log = later ++ .took k :: earlier ∧ Passed k level earlier ∧
    configuration earlier = done ++ rest ∧
    own k later = (done.map fun sink => .wrote k sink line).reverse ∧
    ∀ e ∈ later, e.configures = false

/-- The line went to every sink of one configuration, in turn. -/
def Written (k : Nat) (level : LogLevel) (line : Bytes) (log : List LogEvent) : Prop :=
  ∃ after later earlier, log = after ++ .left k :: (later ++ .took k :: earlier) ∧
    Passed k level earlier ∧ own k after = [] ∧
    own k later = ((configuration earlier).map fun sink => .wrote k sink line).reverse ∧
    ∀ e ∈ later, e.configures = false

def Flushing (k : Nat) (done rest : List Nat) (log : List LogEvent) : Prop :=
  ∃ later earlier, log = later ++ .locked k :: earlier ∧ own k earlier = [] ∧
    configuration earlier = done ++ rest ∧
    guardedEvents later = (done.map fun sink => .flushed k sink).reverse

/-- Every sink of the configuration was flushed, while nothing else needed the lock, and
then there was none. -/
def ShutDown (k : Nat) (log : List LogEvent) : Prop :=
  ∃ after later earlier, log = after ++ .cleared k :: (later ++ .locked k :: earlier) ∧
    own k after = [] ∧ own k earlier = [] ∧
    guardedEvents later = ((configuration earlier).map fun sink => .flushed k sink).reverse

/-- The level was set and then the sinks. -/
def Initialized (k : Nat) (level : LogLevel) (sinks : List Nat) (log : List LogEvent) : Prop :=
  own k log = [.configured k sinks, .leveled k level]

/-- The story of a call that began as `asked` and is now at `now`. -/
inductive Story (k : Nat) (log : List LogEvent) : LogCall → LogCall → Prop
  | fresh (c : LogCall) (hc : c.begins = true) (h : own k log = []) : Story k log c c
  | dispatch {level message} (h : Passed k level log) :
      Story k log (.log level message) (.dispatch level message)
  | formatted {level message line} (stamp) (hline : line = logLine stamp level message)
      (h : Passed k level log) : Story k log (.log level message) (.formatted line)
  | writing {level message line} (stamp) (hline : line = logLine stamp level message) (done rest)
      (h : Writing k level line done rest log) :
      Story k log (.log level message) (.writing line rest)
  | dropped {level message} (h : Dropped k level log) : Story k log (.log level message) .returned
  | written {level message line} (stamp) (hline : line = logLine stamp level message)
      (h : Written k level line log) : Story k log (.log level message) .returned
  | configure {level sinks} (h : own k log = [.leveled k level]) :
      Story k log (.init level sinks) (.configure sinks)
  | initialized {level sinks} (h : Initialized k level sinks log) :
      Story k log (.init level sinks) .returned
  | flushing (done rest) (h : Flushing k done rest log) : Story k log .shutdown (.flushing rest)
  | shutDown (h : ShutDown k log) : Story k log .shutdown .returned
  | leveled {level} (h : own k log = [.leveled k level]) : Story k log (.setLevel level) .returned

/-- What is told of a call stays told when another one does something, if that neither
changes the sinks under a writing call nor needs the lock of a flushing one. -/
theorem Story.other {asked now : LogCall} (h : Story k log asked now) (he : e.call ≠ k)
    (hwriting : now.reads = true → e.configures = false)
    (hflushing : now.flushes = true → e.guarded = false) :
    Story k (e :: log) asked now := by
  have hpassed : ∀ level, Passed k level log → Passed k level (e :: log) := by
    rintro level ⟨later, earlier, rfl, hown, hlater, hlevel⟩
    exact ⟨e :: later, earlier, rfl, hown, (own_cons_other he).trans hlater, hlevel⟩
  cases h with
  | fresh _ hc h => exact .fresh _ hc ((own_cons_other he).trans h)
  | dispatch h => exact .dispatch (hpassed _ h)
  | formatted stamp hline h => exact .formatted stamp hline (hpassed _ h)
  | writing stamp hline done rest h =>
    obtain ⟨later, earlier, rfl, hpass, hsinks, hown, hquiet⟩ := h
    refine .writing stamp hline done rest
      ⟨e :: later, earlier, rfl, hpass, hsinks, (own_cons_other he).trans hown, ?_⟩
    exact List.forall_mem_cons.mpr ⟨hwriting rfl, hquiet⟩
  | dropped h =>
    obtain ⟨later, earlier, rfl, hown, hlater, hlevel⟩ := h
    exact .dropped ⟨e :: later, earlier, rfl, hown, (own_cons_other he).trans hlater, hlevel⟩
  | written stamp hline h =>
    obtain ⟨after, later, earlier, rfl, hpass, hafter, hrest⟩ := h
    exact .written stamp hline
      ⟨e :: after, later, earlier, rfl, hpass, (own_cons_other he).trans hafter, hrest⟩
  | configure h => exact .configure ((own_cons_other he).trans h)
  | initialized h => exact .initialized ((own_cons_other he).trans h)
  | flushing done rest h =>
    obtain ⟨later, earlier, rfl, hown, hsinks, hflushed⟩ := h
    exact .flushing done rest ⟨e :: later, earlier, rfl, hown, hsinks,
      (guardedEvents_cons (hflushing rfl)).trans hflushed⟩
  | shutDown h =>
    obtain ⟨after, later, earlier, rfl, hafter, hrest⟩ := h
    exact .shutDown ⟨e :: after, later, earlier, rfl, (own_cons_other he).trans hafter, hrest⟩
  | leveled h => exact .leveled ((own_cons_other he).trans h)

namespace Logger

/-- Some call at `k` of which `p` holds. -/
def At (s : Logger) (p : LogCall → Bool) (k : Nat) : Prop := ∃ c, s.calls[k]? = some c ∧ p c = true

/-- The members agree with the log, the lock with where the calls are, and each call
has its story. -/
structure Inv (s : Logger) : Prop where
  length : s.asked.length = s.calls.length
  level : s.gMinLevel = levelAfter s.log
  sinks : s.gSinks = configuration s.log
  held : s.gSinksMu.HeldBy (s.At LogCall.reads) (s.At LogCall.flushes)
  story : ∀ k asked now, s.asked[k]? = some asked → s.calls[k]? = some now →
    Story k s.log asked now
  bounded : ∀ e ∈ s.log, e.call < s.calls.length

theorem inv_initial : Inv {} := by
  refine ⟨rfl, rfl, rfl, ⟨?_, ?_, .inl rfl⟩, ?_, ?_⟩
  · intro k
    simp [At]
  · intro k
    simp [At]
  · intro k asked now _ hnow
    exact absurd hnow (by simp)
  · intro e he
    exact absurd he (by simp)

variable {s : Logger} {c₀ c : LogCall} {mu : SharedMutex Nat} {level : LogLevel} {sinks : List Nat}

theorem at_set {p : LogCall → Bool} (hk : s.calls[k]? = some c₀) (j : Nat) :
    (∃ c', (s.calls.set k c)[j]? = some c' ∧ p c' = true) ↔
      (j = k ∧ p c = true) ∨ (j ≠ k ∧ s.At p j) := by
  have hlt : k < s.calls.length := (List.getElem?_eq_some_iff.mp hk).1
  by_cases he : j = k
  · subst he
    simp [hlt]
  · have hne : k ≠ j := fun h => he h.symm
    simp [At, he, List.getElem?_set_ne hne]

/-- A call that goes on keeps the invariant, where its own story goes on, the members and
the lock follow, and it does nothing that the others rely on being left undone. -/
theorem Inv.goesOn (h : s.Inv) (hk : s.calls[k]? = some c₀) (he : e.call = k)
    (hlevel : level = levelAfter (e :: s.log)) (hsinks : sinks = configuration (e :: s.log))
    (hheld : mu.HeldBy (fun j => (j = k ∧ c.reads = true) ∨ (j ≠ k ∧ s.At LogCall.reads j))
      (fun j => (j = k ∧ c.flushes = true) ∨ (j ≠ k ∧ s.At LogCall.flushes j)))
    (hstory : ∀ asked, Story k s.log asked c₀ → Story k (e :: s.log) asked c)
    (hwriting : ∀ j, j ≠ k → s.At LogCall.reads j → e.configures = false)
    (hflushing : ∀ j, j ≠ k → s.At LogCall.flushes j → e.guarded = false) :
    Inv ({ s with gMinLevel := level, gSinks := sinks, gSinksMu := mu }.goesOn k c e) := by
  have hlt : k < s.calls.length := (List.getElem?_eq_some_iff.mp hk).1
  refine ⟨by simp [Logger.goesOn, h.length], hlevel, hsinks, ?_, ?_, ?_⟩
  · exact hheld.congr (fun j => (at_set hk j).symm) (fun j => (at_set hk j).symm)
  · intro j asked now hasked hnow
    by_cases hj : j = k
    · subst hj
      obtain rfl : c = now := by simpa [Logger.goesOn, hlt] using hnow
      exact hstory asked (h.story j asked c₀ hasked hk)
    · have hne : k ≠ j := fun h => hj h.symm
      have hold : s.calls[j]? = some now := by
        simpa [Logger.goesOn, List.getElem?_set_ne hne] using hnow
      exact (h.story j asked now hasked hold).other (by rw [he]; exact hne)
        (fun hr => hwriting j hj ⟨now, hold, hr⟩) (fun hf => hflushing j hj ⟨now, hold, hf⟩)
  · intro e' he'
    have hlength : (s.calls.set k c).length = s.calls.length := List.length_set
    rcases List.mem_cons.mp he' with rfl | hmem
    · exact lt_of_eq_of_lt he (hlength.symm ▸ hlt)
    · exact hlength.symm ▸ h.bounded e' hmem

/-- The lock stays as it is where the call neither takes nor gives it. -/
theorem Inv.held_same (h : s.Inv) (hk : s.calls[k]? = some c₀) (hr : c.reads = c₀.reads)
    (hf : c.flushes = c₀.flushes) :
    s.gSinksMu.HeldBy (fun j => (j = k ∧ c.reads = true) ∨ (j ≠ k ∧ s.At LogCall.reads j))
      (fun j => (j = k ∧ c.flushes = true) ∨ (j ≠ k ∧ s.At LogCall.flushes j)) := by
  have hat : ∀ (p : LogCall → Bool), p c = p c₀ → ∀ j,
      s.At p j ↔ (j = k ∧ p c = true) ∨ (j ≠ k ∧ s.At p j) := by
    intro p hp j
    by_cases hj : j = k
    · subst hj
      simp [At, hk, hp]
    · simp [hj]
  exact h.held.congr (hat _ hr) (hat _ hf)

theorem begins_free (hc : c.begins = true) : c.reads = false ∧ c.flushes = false := by
  cases c with
  | writing line sinks => exact absurd hc (by simp [LogCall.begins])
  | flushing sinks => exact absurd hc (by simp [LogCall.begins])
  | _ => exact ⟨rfl, rfl⟩

/-- A new call has nothing in the log. -/
theorem Inv.enter (h : s.Inv) (hc : c.begins = true) : (s.enter c).Inv := by
  obtain ⟨hr, hf⟩ := begins_free hc
  have hlength := h.length
  have hat : ∀ (p : LogCall → Bool), p c = false → ∀ j, s.At p j ↔ (s.enter c).At p j := by
    intro p hp j
    rcases Nat.lt_trichotomy j s.calls.length with hj | rfl | hj
    · simp [At, Logger.enter, List.getElem?_append_left hj]
    · simp [At, Logger.enter, hp]
    · simp [At, Logger.enter, List.getElem?_eq_none (Nat.le_of_lt hj),
        List.getElem?_eq_none (show (s.calls ++ [c]).length ≤ j by simp; omega)]
  refine ⟨by simp [Logger.enter, hlength], h.level, h.sinks, h.held.congr (hat _ hr) (hat _ hf),
    ?_, ?_⟩
  · intro k asked now hasked hnow
    by_cases hk : k < s.calls.length
    · have hold : s.calls[k]? = some now := by
        simpa [Logger.enter, List.getElem?_append_left hk] using hnow
      have hask : s.asked[k]? = some asked := by
        simpa [Logger.enter, List.getElem?_append_left (hlength ▸ hk)] using hasked
      exact h.story k asked now hask hold
    · have hlt := (List.getElem?_eq_some_iff.mp hnow).1
      simp only [Logger.enter, List.length_append, List.length_singleton] at hlt
      obtain rfl : k = s.calls.length := by omega
      obtain rfl : c = now := by simpa [Logger.enter] using hnow
      obtain rfl : c = asked := by simpa [Logger.enter, ← hlength] using hasked
      refine .fresh c hc (List.filter_eq_nil_iff.mpr ?_)
      intro e he
      have := h.bounded e he
      simp only [decide_eq_true_eq]
      omega
  · intro e he
    have := h.bounded e he
    simp only [Logger.enter, List.length_append, List.length_singleton]
    omega

/-- Call `k` alone has the lock. -/
theorem Inv.alone (h : s.Inv) (hk : s.calls[k]? = some c₀) (hf : c₀.flushes = true) :
    (∀ j, ¬ s.At LogCall.reads j) ∧ ∀ j, j ≠ k → ¬ s.At LogCall.flushes j := by
  obtain ⟨hreads, hflushes⟩ := h.held.alone ⟨c₀, hk, hf⟩
  exact ⟨hreads, fun j hj hat => hj (hflushes j hat)⟩

/-- Call `k` reads, so none has the lock alone. -/
theorem Inv.shared (h : s.Inv) (hk : s.calls[k]? = some c₀) (hr : c₀.reads = true) (j : Nat) :
    ¬ s.At LogCall.flushes j := by
  intro hj
  exact (h.held.alone hj).1 k ⟨c₀, hk, hr⟩

/-- The call formats its line, which no event tells. -/
theorem Inv.formats (h : s.Inv) {message : Bytes} (stamp : Stamp)
    (hk : s.calls[k]? = some (.dispatch level message)) :
    Inv { s with calls := s.calls.set k (.formatted (logLine stamp level message)) } := by
  have hlt : k < s.calls.length := (List.getElem?_eq_some_iff.mp hk).1
  have hheld := h.held_same (c := .formatted (logLine stamp level message)) hk rfl rfl
  refine ⟨by simp [h.length], h.level, h.sinks,
    hheld.congr (fun j => (at_set hk j).symm) (fun j => (at_set hk j).symm), ?_,
    by simpa using h.bounded⟩
  intro j asked now hasked hnow
  by_cases hj : j = k
  · subst hj
    obtain rfl : LogCall.formatted (logLine stamp level message) = now := by simpa [hlt] using hnow
    have hstory := h.story j asked _ hasked hk
    cases hstory with
    | fresh _ hc => exact absurd hc (by simp [LogCall.begins])
    | dispatch hpass => exact .formatted stamp rfl hpass
  · have hne : k ≠ j := fun h => hj h.symm
    exact h.story j asked now hasked (by simpa [List.getElem?_set_ne hne] using hnow)

theorem Inv.checks (h : s.Inv) {message : Bytes} (hk : s.calls[k]? = some (.log level message)) :
    (s.shouldLog level = true → (s.goesOn k (.dispatch level message) (.checked k true)).Inv) ∧
      (s.shouldLog level = false → (s.goesOn k .returned (.checked k false)).Inv) := by
  refine ⟨fun hl => ?_, fun hl => ?_⟩
  · refine h.goesOn hk rfl h.level h.sinks (h.held_same hk rfl rfl) ?_ (fun _ _ _ => rfl)
      (fun _ _ _ => rfl)
    intro asked hstory
    cases hstory with
    | fresh _ _ hown =>
      refine .dispatch ⟨[], s.log, rfl, hown, rfl, ?_⟩
      rw [← h.level]
      simpa [shouldLog] using hl
  · refine h.goesOn hk rfl h.level h.sinks (h.held_same hk rfl rfl) ?_ (fun _ _ _ => rfl)
      (fun _ _ _ => rfl)
    intro asked hstory
    cases hstory with
    | fresh _ _ hown =>
      refine .dropped ⟨[], s.log, rfl, hown, rfl, ?_⟩
      rw [← h.level]
      simpa [shouldLog] using hl

theorem Inv.locksShared (h : s.Inv) {line : Bytes} (hk : s.calls[k]? = some (.formatted line))
    (hm : s.gSinksMu.lockShared k = some mu) :
    Inv ({ s with gSinksMu := mu }.goesOn k (.writing line s.gSinks) (.took k)) := by
  obtain ⟨hnone, hheld⟩ := h.held.lockShared hm
  refine h.goesOn hk rfl h.level h.sinks (hheld.congr ?_ ?_) ?_ (fun _ _ _ => rfl)
    (fun j _ hj => absurd hj (hnone j))
  · intro j
    by_cases hj : j = k
    · simp [hj, LogCall.reads]
    · simp [hj]
  · intro j
    have hno := hnone j
    simp [hno, LogCall.flushes]
  · intro asked hstory
    cases hstory with
    | fresh _ hc => exact absurd hc (by simp [LogCall.begins])
    | formatted stamp hline hpass =>
      refine .writing stamp hline [] s.gSinks ⟨[], s.log, rfl, hpass, h.sinks.symm, rfl, ?_⟩
      intro e he
      exact absurd he (by simp)

theorem Inv.writes (h : s.Inv) {line : Bytes} {sink : Nat} {rest : List Nat}
    (hk : s.calls[k]? = some (.writing line (sink :: rest))) :
    Inv (s.goesOn k (.writing line rest) (.wrote k sink line)) := by
  refine h.goesOn hk rfl h.level h.sinks (h.held_same hk rfl rfl) ?_ (fun _ _ _ => rfl)
    (fun j _ hj => absurd hj (h.shared hk rfl j))
  intro asked hstory
  cases hstory with
  | fresh _ hc => exact absurd hc (by simp [LogCall.begins])
  | writing stamp hline done _ htold =>
    obtain ⟨later, earlier, hlog, hpass, hsinks, hown, hquiet⟩ := htold
    refine .writing stamp hline (done ++ [sink]) rest
      ⟨.wrote k sink line :: later, earlier, by rw [hlog]; rfl, hpass, by simpa using hsinks,
        ?_, ?_⟩
    · rw [own_cons_same (k := k) (e := .wrote k sink line) rfl, hown]
      simp
    · exact List.forall_mem_cons.mpr ⟨rfl, hquiet⟩

theorem Inv.unlocksShared (h : s.Inv) {line : Bytes}
    (hk : s.calls[k]? = some (.writing line [])) :
    Inv ({ s with gSinksMu := s.gSinksMu.unlockShared k }.goesOn k .returned (.left k)) := by
  refine h.goesOn hk rfl h.level h.sinks (h.held.unlockShared.congr ?_ ?_) ?_
    (fun _ _ _ => rfl) (fun j _ hj => absurd hj (h.shared hk rfl j))
  · intro j
    by_cases hj : j = k
    · simp [hj, LogCall.reads]
    · simp [hj]
  · intro j
    have hno := h.shared hk rfl j
    simp [hno, LogCall.flushes]
  · intro asked hstory
    cases hstory with
    | fresh _ hc => exact absurd hc (by simp [LogCall.begins])
    | writing stamp hline done _ htold =>
      obtain ⟨later, earlier, hlog, hpass, hsinks, hown, hquiet⟩ := htold
      rw [List.append_nil] at hsinks
      exact .written stamp hline
        ⟨[], later, earlier, by rw [hlog]; rfl, hpass, rfl, by rw [hown, hsinks], hquiet⟩

theorem Inv.initializes (h : s.Inv) (hk : s.calls[k]? = some (.init level sinks)) :
    Inv ({ s with gMinLevel := level }.goesOn k (.configure sinks) (.leveled k level)) := by
  refine h.goesOn hk rfl rfl h.sinks (h.held_same hk rfl rfl) ?_ (fun _ _ _ => rfl)
    (fun _ _ _ => rfl)
  intro asked hstory
  cases hstory with
  | fresh _ _ hown =>
    refine .configure ?_
    rw [own_cons_same (k := k) (e := .leveled k level) rfl, hown]

/-- Alone with the lock for the time of one action. -/
theorem Inv.held_between (h : s.Inv) (hc : c.reads = false ∧ c.flushes = false)
    (hm : s.gSinksMu.lock k = some mu) :
    mu.unlock.HeldBy (fun j => (j = k ∧ c.reads = true) ∨ (j ≠ k ∧ s.At LogCall.reads j))
      (fun j => (j = k ∧ c.flushes = true) ∨ (j ≠ k ∧ s.At LogCall.flushes j)) := by
  obtain ⟨hreads, hflushes, hheld⟩ := h.held.lock hm
  refine hheld.unlock.congr ?_ ?_
  · intro j
    have hno := hreads j
    simp [hno, hc.1]
  · intro j
    have hno := hflushes j
    simp [hno, hc.2]

theorem Inv.configures (h : s.Inv) (hk : s.calls[k]? = some (.configure sinks))
    (hm : s.gSinksMu.lock k = some mu) :
    Inv ({ s with gSinks := sinks, gSinksMu := mu.unlock }.goesOn k .returned
      (.configured k sinks)) := by
  obtain ⟨hreads, hflushes, -⟩ := h.held.lock hm
  refine h.goesOn hk rfl h.level rfl (h.held_between ⟨rfl, rfl⟩ hm) ?_
    (fun j _ hj => absurd hj (hreads j)) (fun j _ hj => absurd hj (hflushes j))
  intro asked hstory
  cases hstory with
  | fresh _ hc => exact absurd hc (by simp [LogCall.begins])
  | configure hown =>
    refine .initialized ?_
    rw [Initialized, own_cons_same (k := k) (e := .configured k sinks) rfl, hown]

theorem Inv.locks (h : s.Inv) (hk : s.calls[k]? = some .shutdown)
    (hm : s.gSinksMu.lock k = some mu) :
    Inv ({ s with gSinksMu := mu }.goesOn k (.flushing s.gSinks) (.locked k)) := by
  obtain ⟨hreads, hflushes, hheld⟩ := h.held.lock hm
  refine h.goesOn hk rfl h.level h.sinks (hheld.congr ?_ ?_) ?_
    (fun j _ hj => absurd hj (hreads j)) (fun j _ hj => absurd hj (hflushes j))
  · intro j
    have hno := hreads j
    simp [hno, LogCall.reads]
  · intro j
    have hno := hflushes j
    simp [hno, LogCall.flushes]
  · intro asked hstory
    cases hstory with
    | fresh _ _ hown =>
      exact .flushing [] s.gSinks ⟨[], s.log, rfl, hown, h.sinks.symm, rfl⟩

theorem Inv.flushes (h : s.Inv) {sink : Nat} {rest : List Nat}
    (hk : s.calls[k]? = some (.flushing (sink :: rest))) :
    Inv (s.goesOn k (.flushing rest) (.flushed k sink)) := by
  obtain ⟨hreads, hflushes⟩ := h.alone hk rfl
  refine h.goesOn hk rfl h.level h.sinks (h.held_same hk rfl rfl) ?_ (fun _ _ _ => rfl)
    (fun j hj hat => absurd hat (hflushes j hj))
  intro asked hstory
  cases hstory with
  | fresh _ hc => exact absurd hc (by simp [LogCall.begins])
  | flushing done _ htold =>
    obtain ⟨later, earlier, hlog, hown, hsinks, hflushed⟩ := htold
    refine .flushing (done ++ [sink]) rest
      ⟨.flushed k sink :: later, earlier, by rw [hlog]; rfl, hown, by simpa using hsinks, ?_⟩
    rw [guardedEvents, List.filter_cons_of_pos rfl, ← guardedEvents, hflushed]
    simp

theorem Inv.clears (h : s.Inv) (hk : s.calls[k]? = some (.flushing [])) :
    Inv ({ s with gSinks := [], gSinksMu := s.gSinksMu.unlock }.goesOn k .returned
      (.cleared k)) := by
  obtain ⟨hreads, hflushes⟩ := h.alone hk rfl
  refine h.goesOn hk rfl h.level rfl (h.held.unlock.congr ?_ ?_) ?_
    (fun j _ hj => absurd hj (hreads j)) (fun j hj hat => absurd hat (hflushes j hj))
  · intro j
    have hno := hreads j
    simp [hno, LogCall.reads]
  · intro j
    by_cases hj : j = k
    · simp [hj, LogCall.flushes]
    · simp [hj, hflushes j hj]
  · intro asked hstory
    cases hstory with
    | fresh _ hc => exact absurd hc (by simp [LogCall.begins])
    | flushing done _ htold =>
      obtain ⟨later, earlier, hlog, hown, hsinks, hflushed⟩ := htold
      rw [List.append_nil] at hsinks
      exact .shutDown ⟨[], later, earlier, by rw [hlog]; rfl, rfl, hown, by rw [hflushed, hsinks]⟩

theorem Inv.sets (h : s.Inv) (hk : s.calls[k]? = some (.setLevel level)) :
    Inv ({ s with gMinLevel := level }.goesOn k .returned (.leveled k level)) := by
  refine h.goesOn hk rfl rfl h.sinks (h.held_same hk rfl rfl) ?_ (fun _ _ _ => rfl)
    (fun _ _ _ => rfl)
  intro asked hstory
  cases hstory with
  | fresh _ _ hown =>
    refine .leveled ?_
    rw [own_cons_same (k := k) (e := .leveled k level) rfl, hown]

theorem Inv.moves {s' : Logger} {a : LogAction} (h : s.Inv) (hmoves : Moves s a s') : s'.Inv := by
  cases hmoves with
  | enters c hc _ => exact h.enter hc
  | passes k level message hk hl => exact (h.checks hk).1 hl
  | filters k level message hk hl => exact (h.checks hk).2 hl
  | formats k level message stamp hk => exact h.formats stamp hk
  | locksShared k line mu hk hm => exact h.locksShared hk hm
  | writes k line sink sinks hk => exact h.writes hk
  | unlocksShared k line hk => exact h.unlocksShared hk
  | initializes k level sinks hk => exact h.initializes hk
  | configures k sinks mu hk hm => exact h.configures hk hm
  | locks k mu hk hm => exact h.locks hk hm
  | flushes k sink sinks hk => exact h.flushes hk
  | clears k hk => exact h.clears hk
  | sets k level hk => exact h.sets hk

theorem inv_run {s : Logger} {actions : List LogAction} (h : run step {} actions = some s) :
    s.Inv :=
  run_kept Inv (fun _ _ _ hinv hstep => hinv.moves (step_moves hstep)) inv_initial h

/-- In every run, a message whose call has returned was dropped for its level, or went as
one line to every sink of one configuration, once and in turn. -/
theorem message_logged (actions : List LogAction) (s : Logger)
    (hrun : run step {} actions = some s) (k : Nat) (level : LogLevel) (message : Bytes)
    (hasked : s.asked[k]? = some (.log level message)) (hnow : s.calls[k]? = some .returned) :
    Dropped k level s.log ∨ ∃ stamp, Written k level (logLine stamp level message) s.log := by
  have hstory := (inv_run hrun).story k _ _ hasked hnow
  cases hstory with
  | dropped h => exact .inl h
  | written stamp hline h => exact .inr ⟨stamp, hline ▸ h⟩

/-- Two sinks, one message and a shutdown. -/
def shortRun : List LogAction :=
  [.init .Info [0, 1], .log .Warn [0x68], .advance 0, .advance 0, .advance 1,
    .format 1 ⟨126, 5, 16, 14, 23, 5, 123, 0xa3f2⟩, .advance 1, .advance 1, .advance 1, .advance 1,
    .shutdown, .advance 2, .advance 2, .advance 2, .advance 2]

theorem message_logged_short : ∃ s, run step {} shortRun = some s ∧
    (Dropped 1 .Warn s.log ∨ ∃ stamp, Written 1 .Warn (logLine stamp .Warn [0x68]) s.log) :=
  ⟨_, rfl, message_logged shortRun _ rfl 1 .Warn [0x68] rfl rfl⟩

/-- In every run, a shutdown that has returned flushed every sink that there was when it
got the lock, and nothing was written or configured before it let the sinks go. -/
theorem sinks_flushed (actions : List LogAction) (s : Logger)
    (hrun : run step {} actions = some s) (k : Nat) (hasked : s.asked[k]? = some .shutdown)
    (hnow : s.calls[k]? = some .returned) : ShutDown k s.log := by
  have hstory := (inv_run hrun).story k _ _ hasked hnow
  cases hstory with
  | shutDown h => exact h

theorem sinks_flushed_short : ∃ s, run step {} shortRun = some s ∧ ShutDown 2 s.log :=
  ⟨_, rfl, sinks_flushed shortRun _ rfl 2 rfl rfl⟩

end Logger

end DeepSeer
