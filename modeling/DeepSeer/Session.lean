import DeepSeer.Codec
import DeepSeer.Connection
import DeepSeer.TlsConnection

/-!
The state of a proxy session and the handlers that only move data or close. A
pointer member is an option; TLS connections are shared by their watches, so
they live in a table and a pointer is an index into it. The log is what an
observer of the session notes, the latest first; no handler reads it.
-/
namespace DeepSeer

open ByteMemory ByteText

def kMaxInspectBytes : Nat := 16 * 1024 * 1024

/-- The answer to a non-blocking `connect`. -/
inductive ConnectAnswer where
  | connected | inProgress | fails
  deriving DecidableEq, Repr

/-- Everything outside the session, as functions of how often it was asked. -/
structure World where
  resolves : Bytes → Nat → Bool
  createSocket : Nat → Option Fd
  connect : Nat → ConnectAnswer
  clientSend : Nat → SendAnswer
  upstreamSend : Nat → Nat → SendAnswer
  handshake : Nat → Nat → HandshakeAnswer
  sslWrite : Nat → Nat → SslWriteAnswer
  generate : Bytes → Bool

/-- Why a session closes. -/
inductive CloseCause where
  | clientEnd | clientError | clientParseError
  | upstreamEnd | upstreamError | upstreamParseError
  | responseComplete | certificate | handshake | tlsEnd | external
  deriving DecidableEq, Repr

/-- An upstream as the observer names it. -/
inductive Link where
  | plain (id : Nat)
  | tls (id : Nat)
  deriving DecidableEq, Repr

inductive Note where
  | clientData (data : Bytes)
  | upstreamData (data : Bytes)
  | clientParsed (ev : ParserEvent)
  | upstreamParsed (ev : ParserEvent)
  | request (req : HttpRequest)
  | forwarded (req : HttpRequest) (link : Link)
  | response (resp : HttpResponse) (link : Link)
  | error (status : Nat)
  | opened (fd : Fd) (stray : Bool)
  | connected (isTlsMitm : Bool)
  | inspected (payload url : Bytes)
  | closed (cause : CloseCause)
  deriving DecidableEq

structure Session where
  loop_ : KqueueLoop := {}
  client_ : Option Connection := none
  upstream_ : Option Connection := none
  tlsClient_ : Option Nat := none
  tlsUpstream_ : Option Nat := none
  connectingSocket_ : Fd := kInvalidFd
  certGen_ : Bool := false
  clientCodec_ : Http1Codec := { type := .request }
  upstreamCodec_ : Http1Codec := { type := .response }
  currentRequest_ : HttpRequest := {}
  connectHostname_ : Bytes := []
  pendingBody_ : Buffer := {}
  responseBody_ : Buffer := {}
  payloadInspector_ : Bool := false
  isTunnel_ : Bool := false
  isConnect_ : Bool := false
  isTlsMitm_ : Bool := false
  closed_ : Bool := false
  tls : List TlsConnection := []
  upstreams : Nat := 0
  sockets : Nat := 0
  log : List Note := []

namespace Session

def note (s : Session) (n : Note) : Session := { s with log := n :: s.log }

def setTls (s : Session) (id : Nat) (t : TlsConnection) (loop : KqueueLoop) : Session :=
  { s with tls := s.tls.set id t, loop_ := loop }

def closeClient (s : Session) : Session :=
  match s.client_ with
  | none => s
  | some c =>
    let (c, loop) := c.close s.loop_
    { s with client_ := some c, loop_ := loop }

def closeUpstream (s : Session) : Session :=
  match s.upstream_ with
  | none => s
  | some c =>
    let (c, loop) := c.close s.loop_
    { s with upstream_ := some c, loop_ := loop }

def closeTls (s : Session) (id : Nat) : Session :=
  match s.tls[id]? with
  | none => s
  | some t =>
    let (t, loop) := t.close s.loop_
    s.setTls id t loop

/-- `tlsClient_->close()` or `tlsUpstream_->close()` where the pointer is set. -/
def closeTlsAt (s : Session) : Option Nat → Session
  | none => s
  | some id => s.closeTls id

/-- The socket that waits for its connect is closed and no longer watched. -/
def closeConnecting (s : Session) : Session :=
  if s.connectingSocket_ = kInvalidFd then s
  else { s with
    loop_ := (s.loop_.remove s.connectingSocket_).closeFd s.connectingSocket_
    connectingSocket_ := kInvalidFd }

def close (s : Session) (cause : CloseCause) : Session :=
  if s.closed_ then s
  else
    let s := { s with closed_ := true }.note (.closed cause)
    let s := s.closeConnecting.closeClient.closeUpstream
    (s.closeTlsAt s.tlsClient_).closeTlsAt s.tlsUpstream_

/-- What follows a flush of the client connection: where it failed, the error
callback and the close of the connection. -/
def afterClientFlush (s : Session) : Connection × KqueueLoop × Connection.Flushed → Session
  | (c, loop, .settled) => { s with client_ := some c, loop_ := loop }
  | (c, loop, .failed) =>
    let s := { s with client_ := some c, loop_ := loop }
    (if c.wired then s.close .clientError else s).closeClient

def afterUpstreamFlush (s : Session) : Connection × KqueueLoop × Connection.Flushed → Session
  | (c, loop, .settled) => { s with upstream_ := some c, loop_ := loop }
  | (c, loop, .failed) =>
    let s := { s with upstream_ := some c, loop_ := loop }
    (if c.wired then s.close .upstreamError else s).closeUpstream

/-- `client_->write(data)` on a connection that is there. The second component
is the caller's buffer afterwards, as for the other writes. -/
def writeClient (w : World) (s : Session) (c : Connection) (data : Buffer) : Session × Buffer :=
  let (c, data, loop, flushed) := c.write w.clientSend data s.loop_
  (s.afterClientFlush (c, loop, flushed), data)

def writeUpstream (w : World) (s : Session) (c : Connection) (data : Buffer) : Session × Buffer :=
  let (c, data, loop, flushed) := c.write (w.upstreamSend c.id) data s.loop_
  (s.afterUpstreamFlush (c, loop, flushed), data)

def writeTls (w : World) (s : Session) (id : Nat) (data : Buffer) : Session × Buffer :=
  match s.tls[id]? with
  | none => (s, data)
  | some t =>
    let (t, data, loop) := t.write (w.sslWrite id) id data s.loop_
    (s.setTls id t loop, data)

/-- The client as `writeToClient` chooses it: the TLS connection of an
intercepted session once it is there, else the plain one while it is open. -/
def writeToClient (w : World) (s : Session) (data : Buffer) : Session × Buffer :=
  match s.isTlsMitm_, s.tlsClient_ with
  | true, some id => s.writeTls w id data
  | _, _ =>
    match s.client_ with
    | some c => if c.connected then s.writeClient w c data else (s, data)
    | none => (s, data)

def writeToUpstream (w : World) (s : Session) (data : Buffer) : Session × Buffer :=
  match s.isTlsMitm_, s.tlsUpstream_ with
  | true, some id => s.writeTls w id data
  | _, _ =>
    match s.upstream_ with
    | some c => if c.connected then s.writeUpstream w c data else (s, data)
    | none => (s, data)

/-- Whether data handed to `writeToClient` goes to an open connection. -/
def reachesClient (s : Session) : Bool :=
  match s.isTlsMitm_, s.tlsClient_ with
  | true, some id => (s.tls[id]?.map fun t => !t.closed_).getD false
  | _, _ => (s.client_.map Connection.connected).getD false

/-- The upstream that the session talks to. -/
def link (s : Session) : Link :=
  match s.isTlsMitm_, s.tlsUpstream_ with
  | true, some id => .tls id
  | _, _ => .plain s.upstreams

/-- An answer head that goes to the client, with the note of it. -/
def answer (w : World) (s : Session) (resp : HttpResponse) (n : Note) : Session :=
  let s := if s.reachesClient then s.note n else s
  (s.writeToClient w (Http1Codec.encodeResponse resp {})).1

def errorResponse (status : Nat) (reason : Bytes) : HttpResponse :=
  { statusCode := status, reason := reason
    headers := HeaderMap.set (HeaderMap.set {} (text "Content-Length") (text "0"))
      (text "Connection") (text "close") }

def sendError (w : World) (s : Session) (status : Nat) (reason : Bytes) : Session :=
  s.answer w (errorResponse status reason) (.error status)

/-- `writeToUpstream(pendingBody_)`. -/
def sendPending (w : World) (s : Session) : Session :=
  let (s, pending) := s.writeToUpstream w s.pendingBody_
  { s with pendingBody_ := pending }

def onRequestBody (w : World) (s : Session) (body : Buffer) : Session :=
  if body.empty then s
  else { s with pendingBody_ := (s.pendingBody_.move body).1 }.sendPending w

/-- The framing headers that `onResponse` takes out. -/
def stripFraming (isTlsMitm : Bool) (resp : HttpResponse) : HttpResponse :=
  if isTlsMitm then { resp with headers := HeaderMap.remove resp.headers (text "Transfer-Encoding") }
  else { resp with
    headers := HeaderMap.remove (HeaderMap.remove resp.headers (text "Transfer-Encoding"))
      (text "Content-Length") }

def onResponse (w : World) (s : Session) (resp : HttpResponse) : Session :=
  s.answer w (stripFraming s.isTlsMitm_ resp) (.response resp s.link)

def onResponseBody (w : World) (s : Session) (body : Buffer) : Session :=
  let s :=
    if s.payloadInspector_ ∧ s.responseBody_.length < kMaxInspectBytes then
      { s with responseBody_ := body.slices.foldl (fun b slice => b.add slice.data) s.responseBody_ }
    else s
  if body.empty then s else (s.writeToClient w body).1

def onResponseComplete (s : Session) : Session :=
  let s :=
    if s.payloadInspector_ ∧ s.responseBody_.empty = false then
      s.note (.inspected s.responseBody_.linearize s.currentRequest_.url)
    else s
  let s := { s with pendingBody_ := {}, responseBody_ := {} }
  if s.isTlsMitm_ then s else s.close .responseComplete

end Session

end DeepSeer
