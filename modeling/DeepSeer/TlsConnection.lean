import DeepSeer.Buffer
import DeepSeer.EventLoop

/-!
The TLS connection over OpenSSL, whose answers are functions of how often each
call was made on the object. The loop of `doRead` calls its owner back for
every block, so it is the owner's; everything else of the class is here.
-/
namespace DeepSeer

open ByteMemory WhileLoop

/-- `SSL_get_error` after a call that did not succeed. -/
inductive SslError where
  | wantRead | wantWrite | zeroReturn | syscall | ssl
  deriving DecidableEq, Repr

/-- The answer to `SSL_do_handshake`. -/
inductive HandshakeAnswer where
  | done
  | stops (err : SslError)
  deriving DecidableEq, Repr

/-- The answer to `SSL_write` on a non-empty block: `more + 1` bytes, but never
more than were offered, or an error. -/
inductive SslWriteAnswer where
  | accepts (more : Nat)
  | stops (err : SslError)
  deriving DecidableEq, Repr

/-- The callbacks that the session passes to `startHandshake`. -/
inductive HandshakeCallback where
  | upstream (hostname : Bytes)
  | client
  deriving DecidableEq, Repr

/-- The members of a TLS connection, with the data that was passed to it while
it was open and the calls that OpenSSL has seen. `wired` says whether the owner
has set `onData_` and `onClose_`; nobody sets `onErrorCb_`. -/
structure TlsConnection where
  socket_ : Fd
  isServer_ : Bool
  callback : HandshakeCallback
  closed_ : Bool := false
  handshakeDone_ : Bool := false
  reading_ : Bool := false
  writeBuf_ : Buffer := {}
  wired : Bool := false
  written : Bytes := []
  accepted : Bytes := []
  handshakes : Nat := 0
  sslWrites : Nat := 0

namespace TlsConnection

def close (t : TlsConnection) (loop : KqueueLoop) : TlsConnection × KqueueLoop :=
  if t.closed_ then (t, loop)
  else ({ t with closed_ := true, socket_ := kInvalidFd },
    (loop.remove t.socket_).closeFd t.socket_)

def watchForSsl (t : TlsConnection) (id : Nat) (err : SslError) (loop : KqueueLoop) : KqueueLoop :=
  loop.watch t.socket_ ⟨err == .wantRead || t.reading_, err == .wantWrite⟩ (.tls id)

/-- How a handshake step leaves the connection: waiting or closed already, done,
or failed and closed. -/
inductive HandshakeOutcome where
  | nothing | complete | failed
  deriving DecidableEq, Repr

/-- `continueHandshake` up to its callbacks. No handshake gets anywhere on a
descriptor that is not valid. -/
def continueHandshake (answer : Nat → HandshakeAnswer) (t : TlsConnection) (id : Nat)
    (loop : KqueueLoop) : TlsConnection × KqueueLoop × HandshakeOutcome :=
  if t.closed_ then (t, loop, .nothing)
  else
    let rc := if t.socket_ = kInvalidFd then .stops .syscall else answer t.handshakes
    let t := { t with handshakes := t.handshakes + 1 }
    match rc with
    | .done => ({ t with handshakeDone_ := true }, loop, .complete)
    | .stops err =>
      if err = .wantRead ∨ err = .wantWrite then (t, t.watchForSsl id err loop, .nothing)
      else
        let (t, loop) := t.close loop
        (t, loop, .failed)

def startRead (t : TlsConnection) (id : Nat) (loop : KqueueLoop) : TlsConnection × KqueueLoop :=
  if t.closed_ ∨ t.handshakeDone_ = false then (t, loop)
  else ({ t with reading_ := true }, loop.watch t.socket_ ⟨true, false⟩ (.tls id))

/-- How the loop of `doWrite` leaves: at its end, waiting, or failed. -/
inductive WriteEnd where
  | done | waits (err : SslError) | failed

/-- One pass of the loop of `doWrite`. -/
def writePass (answer : Nat → SslWriteAnswer) (t : TlsConnection) :
    Pass TlsConnection (TlsConnection × WriteEnd) :=
  if t.writeBuf_.empty then .leave (t, .done)
  else
    match t.writeBuf_.slices with
    | [] => .leave (t, .done)
    | slice :: _ =>
      let data := slice.data
      if data = [] then .leave (t, .done)
      else
        let rc := answer t.sslWrites
        let t := { t with sslWrites := t.sslWrites + 1 }
        match rc with
        | .accepts more =>
          let n := min (more + 1) data.length
          .again { t with writeBuf_ := t.writeBuf_.drain n, accepted := t.accepted ++ data.take n }
        | .stops err =>
          if err = .wantRead ∨ err = .wantWrite then .leave (t, .waits err)
          else .leave (t, .failed)

def doWrite (answer : Nat → SslWriteAnswer) (t : TlsConnection) (id : Nat) (loop : KqueueLoop) :
    TlsConnection × KqueueLoop :=
  if t.closed_ then (t, loop)
  else
    match WhileLoop.loop (writePass answer) (t.writeBuf_.length + 1) (t, .done) t with
    | (t, .waits err) => (t, t.watchForSsl id err loop)
    | (t, .failed) => t.close loop
    | (t, .done) =>
      if t.reading_ then (t, loop.watch t.socket_ ⟨true, false⟩ (.tls id)) else (t, loop)

/-- `write(Buffer&)`; the second component is the caller's buffer afterwards. -/
def write (answer : Nat → SslWriteAnswer) (t : TlsConnection) (id : Nat) (data : Buffer)
    (loop : KqueueLoop) : TlsConnection × Buffer × KqueueLoop :=
  if t.closed_ then (t, data, loop)
  else
    let given := data.linearize
    let (writeBuf, data) := t.writeBuf_.move data
    let t := { t with writeBuf_ := writeBuf, written := t.written ++ given }
    let (t, loop) := t.doWrite answer id loop
    (t, data, loop)

end TlsConnection

end DeepSeer
