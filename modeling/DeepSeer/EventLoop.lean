import Mathlib.Logic.Function.Basic

/-!
The watch table of the event loop. `fdEntries_` is the table of the loop,
`filters` the read and write filters that the kernel queue holds for a
descriptor, and `sockets` says which descriptors of sockets are open. A
descriptor number names one socket for its whole life.
-/
namespace DeepSeer

abbrev Fd := Int

def kInvalidFd : Fd := -1

/-- A mask over `IoEvent`. -/
structure IoMask where
  readable : Bool := false
  writable : Bool := false
  deriving DecidableEq, Repr

def IoMask.union (a b : IoMask) : IoMask := ⟨a.readable || b.readable, a.writable || b.writable⟩
def IoMask.minus (a b : IoMask) : IoMask := ⟨a.readable && !b.readable, a.writable && !b.writable⟩

/-- The object that a registered callback captures: a `Connection`, the session
that waits for a connect, or a `TlsConnection`. -/
inductive IoCallback where
  | connection (id : Nat)
  | connect
  | tls (id : Nat)
  deriving DecidableEq, Repr

structure FdEntry where
  events : IoMask
  callback : IoCallback
  deriving DecidableEq, Repr

structure KqueueLoop where
  fdEntries_ : Fd → Option FdEntry := fun _ => none
  filters : Fd → IoMask := fun _ => {}
  sockets : Fd → Bool := fun _ => false

namespace KqueueLoop

def remove (l : KqueueLoop) (fd : Fd) : KqueueLoop :=
  match l.fdEntries_ fd with
  | none => l
  | some entry =>
    { l with
      fdEntries_ := Function.update l.fdEntries_ fd none
      filters := Function.update l.filters fd ((l.filters fd).minus entry.events) }

/-- Registering a filter on an invalid descriptor fails and is only logged. -/
def watch (l : KqueueLoop) (fd : Fd) (events : IoMask) (cb : IoCallback) : KqueueLoop :=
  let l := l.remove fd
  { l with
    fdEntries_ := Function.update l.fdEntries_ fd (some ⟨events, cb⟩)
    filters := if fd = kInvalidFd then l.filters
      else Function.update l.filters fd ((l.filters fd).union events) }

/-- A new socket. -/
def openFd (l : KqueueLoop) (fd : Fd) : KqueueLoop :=
  { l with sockets := Function.update l.sockets fd true }

/-- Closing a descriptor drops its filters from the kernel queue, but leaves
the table of the loop alone. -/
def closeFd (l : KqueueLoop) (fd : Fd) : KqueueLoop :=
  { l with
    filters := Function.update l.filters fd {}
    sockets := Function.update l.sockets fd false }

@[simp] theorem remove_entry (l : KqueueLoop) (fd : Fd) : (l.remove fd).fdEntries_ fd = none := by
  unfold remove
  split
  · assumption
  · simp

theorem remove_other (l : KqueueLoop) {fd other : Fd} (h : other ≠ fd) :
    (l.remove fd).fdEntries_ other = l.fdEntries_ other := by
  unfold remove
  split <;> simp [h]

@[simp] theorem watch_entry (l : KqueueLoop) (fd : Fd) (events : IoMask) (cb : IoCallback) :
    (l.watch fd events cb).fdEntries_ fd = some ⟨events, cb⟩ := by
  simp [watch]

theorem watch_other (l : KqueueLoop) {fd other : Fd} (events : IoMask) (cb : IoCallback)
    (h : other ≠ fd) : (l.watch fd events cb).fdEntries_ other = l.fdEntries_ other := by
  simp [watch, h, remove_other]

@[simp] theorem openFd_entries (l : KqueueLoop) (fd : Fd) :
    (l.openFd fd).fdEntries_ = l.fdEntries_ := rfl

@[simp] theorem closeFd_entries (l : KqueueLoop) (fd : Fd) :
    (l.closeFd fd).fdEntries_ = l.fdEntries_ := rfl

end KqueueLoop

end DeepSeer
