import DeepSeer.ByteText
import DeepSeer.Schedules
import DeepSeer.SharedLocks

/-!
The logger as calls from any threads over its lock. A sink has a number; a write or
a flush of it is one action, as its own mutex makes it one. What the calls do to the
level, the configuration and the sinks is kept in a log, the latest event first.
-/
namespace DeepSeer

open ByteMemory ByteText Schedules SharedLocks

inductive LogLevel where
  | Trace
  | Debug
  | Info
  | Warn
  | Error
  deriving DecidableEq, Repr

namespace LogLevel

/-- `static_cast<uint8_t>`. -/
def value : LogLevel → Nat
  | Trace => 0
  | Debug => 1
  | Info => 2
  | Warn => 3
  | Error => 4

end LogLevel

def logLevelTag : LogLevel → Bytes
  | .Trace => text "TRC"
  | .Debug => text "DBG"
  | .Info => text "INF"
  | .Warn => text "WRN"
  | .Error => text "ERR"

/-- The local time and the thread of a message. -/
structure Stamp where
  tm_year : Nat
  tm_mon : Nat
  tm_mday : Nat
  tm_hour : Nat
  tm_min : Nat
  tm_sec : Nat
  ms : Nat
  tid : Nat

/-- A number with zeros in front up to a width. -/
def zeroPadded (width n : Nat) : Bytes :=
  List.replicate (width - (decimal n).length) 48 ++ decimal n

def hexadecimal (n : Nat) : Bytes := (Nat.toDigits 16 n).map fun c => UInt8.ofNat c.toNat

/-- The line that `dispatch` makes of a message. -/
def logLine (stamp : Stamp) (level : LogLevel) (message : Bytes) : Bytes :=
  zeroPadded 4 (stamp.tm_year + 1900) ++ text "-" ++ zeroPadded 2 (stamp.tm_mon + 1) ++
    text "-" ++ zeroPadded 2 stamp.tm_mday ++ text " " ++ zeroPadded 2 stamp.tm_hour ++
    text ":" ++ zeroPadded 2 stamp.tm_min ++ text ":" ++ zeroPadded 2 stamp.tm_sec ++
    text "." ++ zeroPadded 3 stamp.ms ++ text " [" ++ logLevelTag level ++ text "] [tid:" ++
    hexadecimal (stamp.tid % 2 ^ 16) ++ text "] " ++ message ++ [10]

/-- Where a call is. It holds the lock shared at `writing` and alone at `flushing`. -/
inductive LogCall where
  | log (level : LogLevel) (message : Bytes)
  | dispatch (level : LogLevel) (message : Bytes)
  | formatted (line : Bytes)
  | writing (line : Bytes) (sinks : List Nat)
  | init (minLevel : LogLevel) (sinks : List Nat)
  | configure (sinks : List Nat)
  | shutdown
  | flushing (sinks : List Nat)
  | setLevel (level : LogLevel)
  | returned
  deriving DecidableEq

/-- A call begins so. -/
def LogCall.begins : LogCall → Bool
  | log _ _ | init _ _ | shutdown | setLevel _ => true
  | _ => false

/-- What call `k` has done. -/
inductive LogEvent where
  | checked (k : Nat) (passes : Bool)
  | leveled (k : Nat) (level : LogLevel)
  | took (k : Nat)
  | wrote (k : Nat) (sink : Nat) (line : Bytes)
  | left (k : Nat)
  | configured (k : Nat) (sinks : List Nat)
  | locked (k : Nat)
  | flushed (k : Nat) (sink : Nat)
  | cleared (k : Nat)
  deriving DecidableEq

/-- The members, the calls as they are and as they began, and the log. -/
structure Logger where
  gMinLevel : LogLevel := .Info
  gSinksMu : SharedMutex Nat := {}
  gSinks : List Nat := []
  calls : List LogCall := []
  asked : List LogCall := []
  log : List LogEvent := []

inductive LogAction where
  | log (level : LogLevel) (message : Bytes)
  | init (minLevel : LogLevel) (sinks : List Nat)
  | shutdown
  | setLevel (level : LogLevel)
  | format (k : Nat) (stamp : Stamp)
  | advance (k : Nat)

/-- The action is of a call that there is already. -/
def LogAction.continues : LogAction → Bool
  | format _ _ | advance _ => true
  | _ => false

namespace Logger

/-- A new call. -/
def enter (s : Logger) (c : LogCall) : Logger :=
  { s with calls := s.calls ++ [c], asked := s.asked ++ [c] }

def shouldLog (s : Logger) (level : LogLevel) : Bool := decide (s.gMinLevel.value ≤ level.value)

/-- Call `k` goes on with `c`, and has done `e`. -/
def goesOn (s : Logger) (k : Nat) (c : LogCall) (e : LogEvent) : Logger :=
  { s with calls := s.calls.set k c, log := e :: s.log }

/-- What a call does next. It has no result where the call waits for the lock. -/
def advance (s : Logger) (k : Nat) : Option Logger :=
  match s.calls[k]? with
  | some (.log level message) =>
    if s.shouldLog level then some (s.goesOn k (.dispatch level message) (.checked k true))
    else some (s.goesOn k .returned (.checked k false))
  | some (.formatted line) => do
    let mu ← s.gSinksMu.lockShared k
    some ({ s with gSinksMu := mu }.goesOn k (.writing line s.gSinks) (.took k))
  | some (.writing line (sink :: sinks)) =>
    some (s.goesOn k (.writing line sinks) (.wrote k sink line))
  | some (.writing _ []) =>
    some ({ s with gSinksMu := s.gSinksMu.unlockShared k }.goesOn k .returned (.left k))
  | some (.init minLevel sinks) =>
    some ({ s with gMinLevel := minLevel }.goesOn k (.configure sinks) (.leveled k minLevel))
  | some (.configure sinks) => do
    let mu ← s.gSinksMu.lock k
    some ({ s with gSinks := sinks, gSinksMu := mu.unlock }.goesOn k .returned
      (.configured k sinks))
  | some .shutdown => do
    let mu ← s.gSinksMu.lock k
    some ({ s with gSinksMu := mu }.goesOn k (.flushing s.gSinks) (.locked k))
  | some (.flushing (sink :: sinks)) => some (s.goesOn k (.flushing sinks) (.flushed k sink))
  | some (.flushing []) =>
    some ({ s with gSinks := [], gSinksMu := s.gSinksMu.unlock }.goesOn k .returned (.cleared k))
  | some (.setLevel level) =>
    some ({ s with gMinLevel := level }.goesOn k .returned (.leveled k level))
  | some (.dispatch _ _) | some .returned | none => none

/-- The call looks at the clock and formats its line. -/
def format (s : Logger) (k : Nat) (stamp : Stamp) : Option Logger :=
  match s.calls[k]? with
  | some (.dispatch level message) =>
    some { s with calls := s.calls.set k (.formatted (logLine stamp level message)) }
  | _ => none

def step (s : Logger) : LogAction → Option Logger
  | .log level message => some (s.enter (.log level message))
  | .init minLevel sinks => some (s.enter (.init minLevel sinks))
  | .shutdown => some (s.enter .shutdown)
  | .setLevel level => some (s.enter (.setLevel level))
  | .format k stamp => s.format k stamp
  | .advance k => s.advance k

/-- The steps one by one, with what they need and what they leave behind. -/
inductive Moves (s : Logger) : LogAction → Logger → Prop
  | enters (c : LogCall) (hc : c.begins = true) {a : LogAction} (ha : a.continues = false) :
      Moves s a (s.enter c)
  | passes (k : Nat) (level : LogLevel) (message : Bytes)
      (h : s.calls[k]? = some (.log level message)) (hl : s.shouldLog level = true) :
      Moves s (.advance k) (s.goesOn k (.dispatch level message) (.checked k true))
  | filters (k : Nat) (level : LogLevel) (message : Bytes)
      (h : s.calls[k]? = some (.log level message)) (hl : s.shouldLog level = false) :
      Moves s (.advance k) (s.goesOn k .returned (.checked k false))
  | formats (k : Nat) (level : LogLevel) (message : Bytes) (stamp : Stamp)
      (h : s.calls[k]? = some (.dispatch level message)) :
      Moves s (.format k stamp)
        { s with calls := s.calls.set k (.formatted (logLine stamp level message)) }
  | locksShared (k : Nat) (line : Bytes) (mu : SharedMutex Nat)
      (h : s.calls[k]? = some (.formatted line)) (hm : s.gSinksMu.lockShared k = some mu) :
      Moves s (.advance k) ({ s with gSinksMu := mu }.goesOn k (.writing line s.gSinks) (.took k))
  | writes (k : Nat) (line : Bytes) (sink : Nat) (sinks : List Nat)
      (h : s.calls[k]? = some (.writing line (sink :: sinks))) :
      Moves s (.advance k) (s.goesOn k (.writing line sinks) (.wrote k sink line))
  | unlocksShared (k : Nat) (line : Bytes) (h : s.calls[k]? = some (.writing line [])) :
      Moves s (.advance k)
        ({ s with gSinksMu := s.gSinksMu.unlockShared k }.goesOn k .returned (.left k))
  | initializes (k : Nat) (level : LogLevel) (sinks : List Nat)
      (h : s.calls[k]? = some (.init level sinks)) :
      Moves s (.advance k)
        ({ s with gMinLevel := level }.goesOn k (.configure sinks) (.leveled k level))
  | configures (k : Nat) (sinks : List Nat) (mu : SharedMutex Nat)
      (h : s.calls[k]? = some (.configure sinks)) (hm : s.gSinksMu.lock k = some mu) :
      Moves s (.advance k) ({ s with gSinks := sinks, gSinksMu := mu.unlock }.goesOn k .returned
        (.configured k sinks))
  | locks (k : Nat) (mu : SharedMutex Nat) (h : s.calls[k]? = some .shutdown)
      (hm : s.gSinksMu.lock k = some mu) :
      Moves s (.advance k) ({ s with gSinksMu := mu }.goesOn k (.flushing s.gSinks) (.locked k))
  | flushes (k : Nat) (sink : Nat) (sinks : List Nat)
      (h : s.calls[k]? = some (.flushing (sink :: sinks))) :
      Moves s (.advance k) (s.goesOn k (.flushing sinks) (.flushed k sink))
  | clears (k : Nat) (h : s.calls[k]? = some (.flushing [])) :
      Moves s (.advance k)
        ({ s with gSinks := [], gSinksMu := s.gSinksMu.unlock }.goesOn k .returned (.cleared k))
  | sets (k : Nat) (level : LogLevel) (h : s.calls[k]? = some (.setLevel level)) :
      Moves s (.advance k) ({ s with gMinLevel := level }.goesOn k .returned (.leveled k level))

theorem step_moves {s s' : Logger} {a : LogAction} (h : s.step a = some s') : Moves s a s' := by
  cases a with
  | log level message =>
    cases h
    exact .enters _ rfl rfl
  | init level sinks =>
    cases h
    exact .enters _ rfl rfl
  | shutdown =>
    cases h
    exact .enters _ rfl rfl
  | setLevel level =>
    cases h
    exact .enters _ rfl rfl
  | format k stamp =>
    simp only [step, format] at h
    split at h
    · next level message hk =>
      cases h
      exact .formats k level message stamp hk
    · exact absurd h (by simp)
  | advance k =>
    simp only [step, advance] at h
    split at h
    · next level message hk =>
      split at h
      · next hl =>
        cases h
        exact .passes k level message hk hl
      · next hl =>
        cases h
        exact .filters k level message hk (by simpa using hl)
    · next line hk =>
      obtain ⟨mu, hm, h⟩ := Option.bind_eq_some_iff.mp h
      cases h
      exact .locksShared k line mu hk hm
    · next line sink sinks hk =>
      cases h
      exact .writes k line sink sinks hk
    · next line hk =>
      cases h
      exact .unlocksShared k line hk
    · next level sinks hk =>
      cases h
      exact .initializes k level sinks hk
    · next sinks hk =>
      obtain ⟨mu, hm, h⟩ := Option.bind_eq_some_iff.mp h
      cases h
      exact .configures k sinks mu hk hm
    · next hk =>
      obtain ⟨mu, hm, h⟩ := Option.bind_eq_some_iff.mp h
      cases h
      exact .locks k mu hk hm
    · next sink sinks hk =>
      cases h
      exact .flushes k sink sinks hk
    · next hk =>
      cases h
      exact .clears k hk
    · next level hk =>
      cases h
      exact .sets k level hk
    · exact absurd h (by simp)
    · exact absurd h (by simp)
    · exact absurd h (by simp)

end Logger

end DeepSeer
