import DeepSeer.ByteMemory
import DeepSeer.WhileLoop

/-!
The slice-based buffer of the proxy. A slice is a block of storage with a read
and a write position; a buffer is a vector of slices with the number of drained
slices at its front and a cached length. Everything here is what the code
computes; that a buffer behaves as a byte string is proved over it.
-/
namespace DeepSeer

open ByteMemory WhileLoop

def kDefaultCapacity : Nat := 16384

structure Slice where
  storage_ : Memory
  capacity_ : Nat
  readPos_ : Nat := 0
  writePos_ : Nat := 0

/-- A slice of the given capacity; `make_unique` clears the storage. -/
def Slice.ofCapacity (capacity : Nat) : Slice := { storage_ := fun _ => 0, capacity_ := capacity }

namespace Slice

def length (s : Slice) : Nat := s.writePos_ - s.readPos_
def available (s : Slice) : Nat := s.capacity_ - s.writePos_
def data (s : Slice) : Bytes := read s.storage_ s.readPos_ (s.writePos_ - s.readPos_)
def reservation (s : Slice) : Bytes := read s.storage_ s.writePos_ (s.capacity_ - s.writePos_)

/-- Bytes that the holder of the reservation copies to its start. -/
def fill (s : Slice) (bytes : Bytes) : Slice :=
  { s with storage_ := write s.storage_ s.writePos_ bytes }

def commit (s : Slice) (n : Nat) : Slice := { s with writePos_ := s.writePos_ + n }
def drain (s : Slice) (n : Nat) : Slice := { s with readPos_ := s.readPos_ + n }

end Slice

structure Buffer where
  slices_ : List Slice := []
  totalLength_ : Nat := 0
  frontSlice_ : Nat := 0

/-- Replace `slices_.back()`. -/
def onBack (f : Slice → Slice) : List Slice → List Slice
  | [] => []
  | [s] => [f s]
  | s :: t :: rest => s :: onBack f (t :: rest)

namespace Buffer

/-- `slices_.back().available()`, and zero when there is no slice. -/
def backAvailable (b : Buffer) : Nat := (b.slices_.getLast?.map Slice.available).getD 0

/-- Append a slice of at least the wanted size when the last one is full. -/
def ensureBack (b : Buffer) (wanted : Nat) : Buffer :=
  if b.backAvailable = 0 then
    { b with slices_ := b.slices_ ++ [Slice.ofCapacity (max wanted kDefaultCapacity)] }
  else b

/-- One pass of the copy loop of `add`. -/
def addPass : Buffer × Bytes → Pass (Buffer × Bytes) Buffer
  | (b, []) => .leave b
  | (b, byte :: rest) =>
    let data := byte :: rest
    let b := b.ensureBack data.length
    let n := min b.backAvailable data.length
    .again ({ b with slices_ := onBack (fun s => (s.fill (data.take n)).commit n) b.slices_ },
      data.drop n)

def add (b : Buffer) (data : Bytes) : Buffer :=
  loop addPass (data.length + 1) b ({ b with totalLength_ := b.totalLength_ + data.length }, data)

def reserve (b : Buffer) (hint : Nat) : Buffer := b.ensureBack hint

/-- The writable region that `reserve` returns. -/
def region (b : Buffer) : Bytes := (b.slices_.getLast?.map Slice.reservation).getD []

/-- The caller of `reserve` copies bytes to the start of the region. -/
def fill (b : Buffer) (bytes : Bytes) : Buffer :=
  { b with slices_ := onBack (fun s => s.fill bytes) b.slices_ }

def commit (b : Buffer) (n : Nat) : Buffer :=
  { b with slices_ := onBack (fun s => s.commit n) b.slices_, totalLength_ := b.totalLength_ + n }

def compactSlices (b : Buffer) : Buffer :=
  { b with slices_ := b.slices_.drop b.frontSlice_, frontSlice_ := 0 }

/-- One pass of the loop of `drain`, over the buffer and the bytes still to go. -/
def drainPass : Buffer × Nat → Pass (Buffer × Nat) (Buffer × Nat)
  | (b, remaining) =>
    match b.slices_[b.frontSlice_]? with
    | none => .leave (b, remaining)
    | some slice =>
      if remaining = 0 then .leave (b, remaining)
      else
        let toDrain := min remaining slice.length
        let slice := slice.drain toDrain
        .again ({ b with
            slices_ := b.slices_.set b.frontSlice_ slice
            frontSlice_ := if slice.length = 0 then b.frontSlice_ + 1 else b.frontSlice_ },
          remaining - toDrain)

def drainLoop (b : Buffer) (n : Nat) : Buffer × Nat :=
  loop drainPass (n + b.slices_.length + 1) (b, n) (b, n)

def drain (b : Buffer) (n : Nat) : Buffer :=
  let (b', remaining) := drainLoop b n
  let b' := { b' with totalLength_ := b'.totalLength_ - (n - remaining) }
  if b'.frontSlice_ = b'.slices_.length then { b' with slices_ := [], frontSlice_ := 0 }
  else if b'.frontSlice_ * 2 ≥ b'.slices_.length then b'.compactSlices
  else b'

def length (b : Buffer) : Nat := b.totalLength_
def empty (b : Buffer) : Bool := b.totalLength_ == 0

/-- The active slices. -/
def slices (b : Buffer) : List Slice := b.slices_.drop b.frontSlice_

def linearize (b : Buffer) : Bytes := (b.slices_.drop b.frontSlice_).flatMap Slice.data

def toString (b : Buffer) : Bytes := b.linearize

/-- Both buffers after `b.move(other)`. -/
def move (b other : Buffer) : Buffer × Buffer :=
  let b := if b.frontSlice_ > 0 then b.compactSlices else b
  ({ b with
      slices_ := b.slices_ ++ other.slices_.drop other.frontSlice_
      totalLength_ := b.totalLength_ + other.totalLength_ },
    { slices_ := [], totalLength_ := 0, frontSlice_ := 0 })

end Buffer

end DeepSeer
