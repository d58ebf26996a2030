import DeepSeer.EventLoop
import DeepSeer.Runs
import DeepSeer.UniqueOwners

/-!
Sockets as owners of descriptors. A descriptor is an index into the table of the kernel,
which uses it again after it was closed; it leads to a file, which is never made twice.
The objects are moved, swapped, released, closed and destroyed in any order.
-/
namespace DeepSeer

open UniqueOwners

/-- What keeps a descriptor: a `Socket` object with a name, one without, or a plain
variable of other code, which got it from `release` or opened it. -/
inductive Place where
  | socket (n : Nat)
  | temporary
  | plain (n : Nat)
  deriving DecidableEq, Repr

/-- The descriptors that are kept, with the objects that exist, and the table of the
kernel. Files are numbered as they are made, and `badCloses` counts the closes of
descriptors that were not open. -/
structure SocketRun where
  fd_ : Place → Fd := fun _ => kInvalidFd
  exists_ : Place → Bool := fun _ => false
  table : Fd → Option Nat := fun _ => none
  files : Nat := 0
  closed : List Nat := []
  badCloses : Nat := 0

namespace SocketRun

def setFd (s : SocketRun) (p : Place) (fd : Fd) : SocketRun :=
  { s with fd_ := Function.update s.fd_ p fd }

def valid (s : SocketRun) (p : Place) : Prop := s.fd_ p ≠ kInvalidFd

instance (s : SocketRun) (p : Place) : Decidable (s.valid p) :=
  inferInstanceAs (Decidable (_ ≠ _))

def platformClose (s : SocketRun) (fd : Fd) : SocketRun :=
  match s.table fd with
  | none => { s with badCloses := s.badCloses + 1 }
  | some file => { s with table := Function.update s.table fd none, closed := file :: s.closed }

/-- The kernel makes a file and has the descriptor lead to it. -/
def openFd (s : SocketRun) (fd : Fd) : SocketRun :=
  { s with table := Function.update s.table fd (some s.files), files := s.files + 1 }

/-- The constructor from a descriptor. -/
def construct (s : SocketRun) (p : Place) (fd : Fd) : SocketRun :=
  { s.setFd p fd with exists_ := Function.update s.exists_ p true }

def moveConstruct (s : SocketRun) (p other : Place) : SocketRun :=
  (s.setFd other kInvalidFd).construct p (s.fd_ other)

def swap (s : SocketRun) (p other : Place) : SocketRun :=
  (s.setFd p (s.fd_ other)).setFd other (s.fd_ p)

def close (s : SocketRun) (p : Place) : SocketRun :=
  if s.valid p then (s.platformClose (s.fd_ p)).setFd p kInvalidFd else s

/-- The destructor. -/
def destroy (s : SocketRun) (p : Place) : SocketRun :=
  { s.close p with exists_ := Function.update s.exists_ p false }

/-- `operator=(Socket&&)`, with its temporary object. -/
def moveAssign (s : SocketRun) (p other : Place) : SocketRun :=
  ((s.moveConstruct .temporary other).swap .temporary p).destroy .temporary

/-- The plain variable gets the result. -/
def release (s : SocketRun) (p holder : Place) : SocketRun :=
  (s.setFd p kInvalidFd).setFd holder (s.fd_ p)

/-- The object that `createSocket` or `accept` makes of the descriptor that the kernel
answers is moved into the result; there is none where the kernel fails. -/
def receive (s : SocketRun) (p : Place) : Option Fd → SocketRun
  | none => s
  | some fd =>
    (((s.openFd fd).construct .temporary fd).moveConstruct p .temporary).destroy .temporary

end SocketRun

/-- The calls on sockets, with the answers of the kernel, and what other code does. -/
inductive SocketAct where
  | construct (p : Nat)
  | moveConstruct (p other : Nat)
  | moveAssign (p other : Nat)
  | swap (p other : Nat)
  | createSocket (p : Nat) (answer : Option Fd)
  | accept (listening p : Nat) (answer : Option Fd)
  | release (p holder : Nat)
  | close (p : Nat)
  | destroy (p : Nat)
  | openPlain (holder : Nat) (fd : Fd)
  | closePlain (holder : Nat)

namespace SocketRun

def step (s : SocketRun) : SocketAct → SocketRun
  | .construct p => s.construct (.socket p) kInvalidFd
  | .moveConstruct p other => s.moveConstruct (.socket p) (.socket other)
  | .moveAssign p other => s.moveAssign (.socket p) (.socket other)
  | .swap p other => s.swap (.socket p) (.socket other)
  | .createSocket p answer => s.receive (.socket p) answer
  | .accept _ p answer => s.receive (.socket p) answer
  | .release p holder => s.release (.socket p) (.plain holder)
  | .close p => s.close (.socket p)
  | .destroy p => s.destroy (.socket p)
  | .openPlain holder fd => (s.openFd fd).setFd (.plain holder) fd
  | .closePlain holder => s.close (.plain holder)

/-- The kernel answers with a descriptor that is not open. -/
def Answers (s : SocketRun) (fd : Fd) : Prop := fd ≠ kInvalidFd ∧ s.table fd = none

/-- An object is constructed where there is none and used where there is one, and a plain
variable that has a descriptor is not overwritten. The kernel accepts on open ones only. -/
def Allowed (s : SocketRun) : SocketAct → Prop
  | .construct p => s.exists_ (.socket p) = false
  | .moveConstruct p other => s.exists_ (.socket p) = false ∧ s.exists_ (.socket other) = true
  | .moveAssign p other => s.exists_ (.socket p) = true ∧ s.exists_ (.socket other) = true
  | .swap p other => s.exists_ (.socket p) = true ∧ s.exists_ (.socket other) = true
  | .createSocket p answer => s.exists_ (.socket p) = false ∧ ∀ fd ∈ answer, s.Answers fd
  | .accept listening p answer =>
    s.exists_ (.socket p) = false ∧ s.exists_ (.socket listening) = true ∧
      ∀ fd ∈ answer, s.Answers fd ∧ (s.table (s.fd_ (.socket listening))).isSome
  | .release p holder => s.exists_ (.socket p) = true ∧ ¬ s.valid (.plain holder)
  | .close p => s.exists_ (.socket p) = true
  | .destroy p => s.exists_ (.socket p) = true
  | .openPlain holder fd => ¬ s.valid (.plain holder) ∧ s.Answers fd
  | .closePlain _ => True

instance (s : SocketRun) (fd : Fd) : Decidable (s.Answers fd) :=
  inferInstanceAs (Decidable (_ ∧ _))

instance (s : SocketRun) (a : SocketAct) : Decidable (s.Allowed a) := by
  cases a <;> unfold Allowed <;> infer_instance

/-- The file that the descriptor of a place leads to. -/
def file (s : SocketRun) (p : Place) : Option Nat := s.table (s.fd_ p)

end SocketRun

/-- What the calls mean for the files, which have owners and no descriptors: the next
file is made in a place, changes places, is dropped where one is closed. -/
structure FileOwners where
  owners : Owners Place Nat := {}
  files : Nat := 0

namespace FileOwners

def put (o : FileOwners) (p : Place) : FileOwners where
  owners := o.owners.put p o.files
  files := o.files + 1

def step (o : FileOwners) : SocketAct → FileOwners
  | .construct _ | .createSocket _ none | .accept _ _ none => o
  | .moveConstruct p other | .swap p other =>
    { o with owners := o.owners.swap (.socket p) (.socket other) }
  | .moveAssign p other => { o with owners := o.owners.assign (.socket p) (.socket other) }
  | .createSocket p (some _) | .accept _ p (some _) => o.put (.socket p)
  | .release p holder => { o with owners := o.owners.swap (.socket p) (.plain holder) }
  | .close p | .destroy p => { o with owners := o.owners.drop (.socket p) }
  | .openPlain holder _ => o.put (.plain holder)
  | .closePlain holder => { o with owners := o.owners.drop (.plain holder) }

end FileOwners

end DeepSeer
