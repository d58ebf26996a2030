import DeepSeer.Addresses
import DeepSeer.EventLoop
import DeepSeer.WhileLoop

/-!
The listener. Three triggers act on it: its descriptor becomes readable, its resume
timer fires, and somebody stops it, in the callback of a new connection or at any other
time. The accept loop is given by its passes.
-/
namespace DeepSeer

open ByteMemory ByteText WhileLoop

/-- What the event loop keeps for a listener: its watches, whose callback is
`onReadable`, and its timers that have not fired, whose callback is `resumeAccepting`.
A timer says whether it is cancelled. -/
structure ListenLoop where
  fdEntries_ : Fd → Option IoMask := fun _ => none
  timers_ : Nat → Option Bool := fun _ => none
  nextTimerId_ : Nat := 1

namespace ListenLoop

def remove (l : ListenLoop) (fd : Fd) : ListenLoop :=
  { l with fdEntries_ := Function.update l.fdEntries_ fd none }

/-- Registering an invalid descriptor fails in the kernel only, where it is logged. -/
def watch (l : ListenLoop) (fd : Fd) (events : IoMask) : ListenLoop :=
  let l := l.remove fd
  { l with fdEntries_ := Function.update l.fdEntries_ fd (some events) }

/-- The timer and its handle. -/
def addTimer (l : ListenLoop) : Nat × ListenLoop :=
  let id := l.nextTimerId_
  (id, { l with
    nextTimerId_ := id + 1
    timers_ := Function.update l.timers_ id (some false) })

/-- `cancel` of a handle marks the timer, which stays until it fires. -/
def cancel (l : ListenLoop) (id : Nat) : ListenLoop :=
  { l with timers_ := Function.update l.timers_ id ((l.timers_ id).map fun _ => true) }

/-- A handle cancels its timer when it is dropped. -/
def dropHandle (l : ListenLoop) : Option Nat → ListenLoop
  | none => l
  | some id => l.cancel id

end ListenLoop

/-- An accepted connection: whether it can be made non-blocking, and whether the
callback that gets it stops the listener. -/
structure Client where
  nonblocking : Bool
  stops : Bool
  deriving DecidableEq, Repr

/-- What `accept(2)` answers. -/
abbrev Accepted := Except ErrorCode Client

/-- `onAccept_` is whether there is a callback, and `accepting` whether the loop of
`onReadable` runs. -/
structure Listener where
  loop_ : ListenLoop := {}
  socket_ : Fd := kInvalidFd
  onAccept_ : Bool := false
  resumeTimer_ : Option Nat := none
  accepting : Bool := false

def readableMask : IoMask := ⟨true, false⟩

/-- The answers to the calls of a start. -/
structure StartCalls where
  socket : Fd
  setReuseAddr : Except Error Unit
  setNonblocking : Except Error Unit
  bindAndListen : Except Error Unit

namespace Listener

/-- The result of a start, and the listener that it leaves. -/
def start (s : Listener) (calls : StartCalls) : Except Error Unit × Listener :=
  let s := { s with onAccept_ := true }
  if calls.socket = kInvalidFd then (.error ⟨.internalError, text "socket() failed"⟩, s)
  else
    let s := { s with socket_ := calls.socket }
    match calls.setReuseAddr with
    | .error e => (.error e, s)
    | .ok () =>
      match calls.setNonblocking with
      | .error e => (.error e, s)
      | .ok () =>
        match calls.bindAndListen with
        | .error e => (.error e, s)
        | .ok () => (.ok (), { s with loop_ := s.loop_.watch s.socket_ readableMask })

def stop (s : Listener) : Listener :=
  if s.socket_ = kInvalidFd then s
  else { s with loop_ := s.loop_.remove s.socket_, socket_ := kInvalidFd }

/-- `Socket::accept`; a closed socket has no descriptor to accept on. -/
def accept (s : Listener) (answer : Accepted) : Accepted :=
  if s.socket_ = kInvalidFd then .error .internalError else answer

/-- The new handle replaces an older one, which cancels its timer. -/
def pauseAccepting (s : Listener) : Listener :=
  let (id, l) := (s.loop_.remove s.socket_).addTimer
  { s with loop_ := l.dropHandle s.resumeTimer_, resumeTimer_ := some id }

def resumeAccepting (s : Listener) : Listener :=
  { s with
    loop_ := (s.loop_.dropHandle s.resumeTimer_).watch s.socket_ readableMask
    resumeTimer_ := none }

/-- The callback of a new connection. -/
def onAccept (s : Listener) (client : Client) : Listener :=
  if s.onAccept_ = true ∧ client.stops = true then s.stop else s

/-- One pass of the loop of `onReadable`, with the answer that `accept(2)` has for it. -/
def acceptPass (s : Listener) (answer : Accepted) : Pass Listener Listener :=
  match s.accept answer with
  | .error .wouldBlock => .leave s
  | .error .fdExhausted => .leave s.pauseAccepting
  | .error .internalError => .again s
  | .ok client => if client.nonblocking then .again (s.onAccept client) else .again s

/-- A timer event. The timer is erased, and its callback runs unless it is cancelled. -/
def timerFired (s : Listener) (id : Nat) : Listener :=
  match s.loop_.timers_ id with
  | none => s
  | some cancelled =>
    let s := { s with loop_.timers_ := Function.update s.loop_.timers_ id none }
    if cancelled then s else s.resumeAccepting

end Listener

/-- What can happen next. While the accept loop runs, only its passes can. -/
inductive ListenerEvent where
  | readable (fd : Fd)
  | answered (answer : Accepted)
  | timer (id : Nat)
  | stop

namespace Listener

def step (s : Listener) : ListenerEvent → Listener
  | .readable fd =>
    if s.accepting = false ∧ s.loop_.fdEntries_ fd ≠ none then { s with accepting := true } else s
  | .answered answer =>
    if s.accepting then
      match s.acceptPass answer with
      | .again s' => s'
      | .leave s' => { s' with accepting := false }
    else s
  | .timer id => if s.accepting then s else s.timerFired id
  | .stop => if s.accepting then s else s.stop

end Listener

end DeepSeer
