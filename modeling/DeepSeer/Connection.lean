import DeepSeer.Buffer
import DeepSeer.EventLoop

/-!
The event-driven connection with buffered writes. The answers of the kernel to
`send` are a function of the number of sends made so far on the socket, so one
such function is one behaviour of the peer and the kernel over a whole run.
-/
namespace DeepSeer

open ByteMemory WhileLoop

/-- The answer to `send` on a non-empty block: `more + 1` bytes, but never more
than were offered, or nothing because it would block, or a failure. -/
inductive SendAnswer where
  | accepts (more : Nat)
  | wouldBlock
  | fails
  deriving DecidableEq, Repr

/-- The answer to `recv`: the bytes that are there, none at the end of file,
or nothing yet, or a failure. -/
inductive ReadAnswer where
  | bytes (data : Bytes)
  | wouldBlock
  | fails
  deriving DecidableEq, Repr

/-- The members of a connection, with its identity as an object, the data that
was passed to it while it was open, and what the kernel has seen of it: the
number of sends and the bytes it accepted. `wired` says whether the owner has
set the callbacks. -/
structure Connection where
  id : Nat := 0
  socket_ : Fd
  closed_ : Bool := false
  reading_ : Bool := false
  writeBuf_ : Buffer := {}
  wired : Bool := false
  written : Bytes := []
  sends : Nat := 0
  accepted : Bytes := []

namespace Connection

def connected (c : Connection) : Bool := !c.closed_

/-- `updateEvents`, which changes only the watch table. -/
def updateEvents (c : Connection) (loop : KqueueLoop) : KqueueLoop :=
  if c.closed_ then loop
  else
    let events : IoMask := ⟨c.reading_, !c.writeBuf_.empty⟩
    if events = {} then loop.remove c.socket_ else loop.watch c.socket_ events (.connection c.id)

def startRead (c : Connection) (loop : KqueueLoop) : Connection × KqueueLoop :=
  if c.closed_ then (c, loop)
  else
    let c := { c with reading_ := true }
    (c, c.updateEvents loop)

def stopRead (c : Connection) (loop : KqueueLoop) : Connection × KqueueLoop :=
  if c.closed_ then (c, loop)
  else
    let c := { c with reading_ := false }
    (c, c.updateEvents loop)

def close (c : Connection) (loop : KqueueLoop) : Connection × KqueueLoop :=
  if c.closed_ then (c, loop)
  else ({ c with socket_ := kInvalidFd, closed_ := true },
    (loop.remove c.socket_).closeFd c.socket_)

/-- The socket that leaves the connection, and the connection it leaves. -/
def releaseSocket (c : Connection) (loop : KqueueLoop) : Fd × Connection × KqueueLoop :=
  (c.socket_, { c with socket_ := kInvalidFd, closed_ := true }, loop.remove c.socket_)

/-- How the flush loop leaves: with the buffer as far flushed as it goes, or
because the socket failed. -/
inductive Flushed where
  | settled
  | failed
  deriving DecidableEq, Repr

/-- One pass of the flush loop of `handleWrite`. -/
def flushPass (answer : Nat → SendAnswer) (c : Connection) : Pass Connection (Connection × Flushed) :=
  if c.writeBuf_.empty then .leave (c, .settled)
  else
    match c.writeBuf_.slices with
    | [] => .leave (c, .settled)
    | slice :: _ =>
      let data := slice.data
      if data = [] then .leave ({ c with writeBuf_ := c.writeBuf_.drain 0 }, .settled)
      else
        match answer c.sends with
        | .fails => .leave ({ c with sends := c.sends + 1 }, .failed)
        | .wouldBlock => .leave ({ c with sends := c.sends + 1 }, .settled)
        | .accepts more =>
          let n := min (more + 1) data.length
          .again { c with
            sends := c.sends + 1
            accepted := c.accepted ++ data.take n
            writeBuf_ := c.writeBuf_.drain n }

def flush (answer : Nat → SendAnswer) (c : Connection) : Connection × Flushed :=
  WhileLoop.loop (flushPass answer) (c.writeBuf_.length + 1) (c, .settled) c

/-- `handleWrite` up to its error branch. The caller runs `onError_` and then
`close` when the flag comes back as `failed`. -/
def handleWrite (answer : Nat → SendAnswer) (c : Connection) (loop : KqueueLoop) :
    Connection × KqueueLoop × Flushed :=
  if c.closed_ then (c, loop, .settled)
  else
    match c.flush answer with
    | (c, .failed) => (c, loop, .failed)
    | (c, .settled) => (c, c.updateEvents loop, .settled)

/-- The two `write`s after the data is in the write buffer. -/
def flushNow (answer : Nat → SendAnswer) (c : Connection) (loop : KqueueLoop) :
    Connection × KqueueLoop × Flushed :=
  let loop := c.updateEvents loop
  if c.writeBuf_.empty then (c, loop, .settled) else c.handleWrite answer loop

/-- `write(Buffer&)`; the second component is the caller's buffer afterwards. -/
def write (answer : Nat → SendAnswer) (c : Connection) (data : Buffer) (loop : KqueueLoop) :
    Connection × Buffer × KqueueLoop × Flushed :=
  if c.closed_ then (c, data, loop, .settled)
  else
    let given := data.linearize
    let (writeBuf, data) := c.writeBuf_.move data
    let c := { c with writeBuf_ := writeBuf, written := c.written ++ given }
    let (c, loop, flushed) := c.flushNow answer loop
    (c, data, loop, flushed)

/-- `write(std::string_view)`. -/
def writeText (answer : Nat → SendAnswer) (c : Connection) (data : Bytes) (loop : KqueueLoop) :
    Connection × KqueueLoop × Flushed :=
  if c.closed_ then (c, loop, .settled)
  else
    let c := { c with writeBuf_ := c.writeBuf_.add data, written := c.written ++ data }
    c.flushNow answer loop

/-- What `handleRead` tells the owner: nothing, data for `onData_`, the end of
file for `onClose_` after the close, or a failure for `onError_` before it. -/
inductive ReadOutcome where
  | nothing
  | data (buf : Buffer)
  | closed
  | failed

/-- `handleRead` up to its callback. The caller runs `onError_` and then
`close` when the outcome is `failed`. -/
def handleRead (c : Connection) (answer : ReadAnswer) (loop : KqueueLoop) :
    Connection × KqueueLoop × ReadOutcome :=
  if c.closed_ then (c, loop, .nothing)
  else
    let buf := ({} : Buffer).reserve kDefaultCapacity
    match answer with
    | .fails => (c, loop, .failed)
    | .wouldBlock => (c, loop, .nothing)
    | .bytes data =>
      let data := data.take buf.backAvailable
      if data = [] then
        let (c, loop) := c.close loop
        (c, loop, .closed)
      else (c, loop, .data ((buf.fill data).commit data.length))

end Connection

end DeepSeer
