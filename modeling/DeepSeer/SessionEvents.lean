import DeepSeer.Session

/-!
The handlers of a session that can end the process, and the events of the loop
that reach them. A crash keeps the state in which it happened. Handshake
callbacks are taken in the order in which they nest: the client handshake runs
inside the completion of the upstream handshake.
-/
namespace DeepSeer

open ByteMemory ByteText

/-- How the process can end inside a handler: a null pointer is dereferenced, an
exception leaves a callback of the parser, the value of a failed `Expected` is
used, or a destroyed connection is called. -/
inductive Fault where
  | nullPointer | exception | badExpected | destroyed
  deriving DecidableEq, Repr

structure Crash where
  fault : Fault
  state : Session

abbrev Outcome := Except Crash Session

/-- The session as it is, or as it was when the process ended. -/
def Outcome.session : Outcome → Session
  | .ok s => s
  | .error crash => crash.state

def Outcome.fault : Outcome → Option Fault
  | .ok _ => none
  | .error crash => some crash.fault

namespace Session

def crash (s : Session) (fault : Fault) : Outcome := .error ⟨fault, s⟩

/-- The 200 line that starts a tunnel. -/
def established : Bytes := text "HTTP/1.1 200 Connection Established\r\n\r\n"

/-- `client_->write` of the 200 line. -/
def writeEstablished (w : World) (s : Session) : Outcome :=
  match s.client_ with
  | none => s.crash .nullPointer
  | some c => .ok (s.afterClientFlush (c.writeText w.clientSend established s.loop_))

def stopClientRead (s : Session) : Outcome :=
  match s.client_ with
  | none => s.crash .nullPointer
  | some c =>
    let (c, loop) := c.stopRead s.loop_
    .ok { s with client_ := some c, loop_ := loop }

def setupUpstreamCallbacks (s : Session) : Outcome :=
  match s.upstream_ with
  | none => s.crash .nullPointer
  | some c => .ok { s with upstream_ := some { c with wired := true } }

def startUpstreamRead (s : Session) : Outcome :=
  match s.upstream_ with
  | none => s.crash .nullPointer
  | some c =>
    let (c, loop) := c.startRead s.loop_
    .ok { s with upstream_ := some c, loop_ := loop }

/-- The origin-form target of a request that may have come with an absolute one. -/
def originForm (url : Bytes) : Bytes :=
  match findText (text "://") url with
  | none => url
  | some schemeEnd =>
    match findFrom 47 (schemeEnd + 3) url with
    | some pathStart => url.drop pathStart
    | none => text "/"

/-- An intercepted session has its callbacks already. -/
def prepareUpstream (s : Session) : Outcome :=
  if s.isTlsMitm_ then .ok s else do
    let s ← s.setupUpstreamCallbacks
    s.startUpstreamRead

/-- The request head with its target in origin form, and the body that has
arrived so far. -/
def sendRequest (w : World) (s : Session) : Session :=
  let s := s.note (.forwarded s.currentRequest_ s.link)
  let s := { s with currentRequest_.url := originForm s.currentRequest_.url }
  let s := (s.writeToUpstream w (Http1Codec.encodeRequest s.currentRequest_ {})).1
  if s.pendingBody_.empty then s else s.sendPending w

def forwardRequest (w : World) (s : Session) : Outcome := do
  let s ← s.prepareUpstream
  .ok (s.sendRequest w)

/-- `tlsClient_->onData`, `onClose` and later `startRead`, and the same of
`tlsUpstream_`. -/
def wireTls (s : Session) (pointer : Option Nat) : Outcome :=
  match pointer with
  | none => s.crash .nullPointer
  | some id =>
    match s.tls[id]? with
    | none => s.crash .nullPointer
    | some t => .ok (s.setTls id { t with wired := true } s.loop_)

def startTlsRead (s : Session) (pointer : Option Nat) : Outcome :=
  match pointer with
  | none => s.crash .nullPointer
  | some id =>
    match s.tls[id]? with
    | none => s.crash .nullPointer
    | some t =>
      let (t, loop) := t.startRead id s.loop_
      .ok (s.setTls id t loop)

/-- The completion callback of the client handshake. -/
def onClientHandshake (s : Session) : Outcome := do
  let s := { s with clientCodec_ := { type := .request }, upstreamCodec_ := { type := .response } }
  let s ← s.wireTls s.tlsClient_
  let s ← s.wireTls s.tlsUpstream_
  let s ← s.startTlsRead s.tlsClient_
  s.startTlsRead s.tlsUpstream_

/-- `SSL_do_handshake` on a connection and the watch or close that follows. -/
def handshakeStep (w : World) (s : Session) (id : Nat) :
    Session × TlsConnection.HandshakeOutcome :=
  match s.tls[id]? with
  | none => (s, .nothing)
  | some t =>
    let (t, loop, outcome) := t.continueHandshake (w.handshake id) id s.loop_
    (s.setTls id t loop, outcome)

/-- `continueHandshake` of a connection with the callbacks of the client side. -/
def clientHandshake (w : World) (s : Session) (id : Nat) : Outcome :=
  match s.handshakeStep w id with
  | (s, .nothing) => .ok s
  | (s, .complete) => s.onClientHandshake
  | (s, .failed) => .ok (s.close .handshake)

/-- A new TLS connection over a socket, at the end of the table. -/
def makeTls (s : Session) (fd : Fd) (isServer : Bool) (callback : HandshakeCallback) : Session :=
  { s with tls := s.tls ++ [{ socket_ := fd, isServer_ := isServer, callback := callback }] }

/-- The completion callback of the upstream handshake. -/
def onUpstreamHandshake (w : World) (s : Session) (hostname : Bytes) : Outcome :=
  if w.generate hostname then
    match s.client_ with
    | none => s.crash .nullPointer
    | some c =>
      let (fd, _, loop) := c.releaseSocket s.loop_
      let id := s.tls.length
      let s := { s with client_ := none, loop_ := loop, tlsClient_ := some id }
      (s.makeTls fd true .client).clientHandshake w id
  else .ok (s.close .certificate)

/-- `continueHandshake` of a connection with the callbacks of the upstream side. -/
def upstreamHandshake (w : World) (s : Session) (id : Nat) (hostname : Bytes) : Outcome :=
  match s.handshakeStep w id with
  | (s, .nothing) => .ok s
  | (s, .complete) => s.onUpstreamHandshake w hostname
  | (s, .failed) => .ok (s.close .handshake)

def continueHandshake (w : World) (s : Session) (id : Nat) : Outcome :=
  match s.tls[id]?.map TlsConnection.callback with
  | none => .ok s
  | some (.upstream hostname) => s.upstreamHandshake w id hostname
  | some .client => s.clientHandshake w id

/-- A replaced TLS connection that no watch holds is destroyed. -/
def dropTls (s : Session) : Option Nat → Session
  | none => s
  | some id =>
    match s.tls[id]? with
    | none => s
    | some t =>
      if (s.loop_.fdEntries_ t.socket_).map FdEntry.callback = some (.tls id) then s
      else s.closeTls id

def startTlsMitm (w : World) (s : Session) (hostname : Bytes) : Outcome := do
  let s ← { s with isTlsMitm_ := true }.writeEstablished w
  let s ← s.stopClientRead
  match s.upstream_ with
  | none => s.crash .nullPointer
  | some c =>
    let (fd, _, loop) := c.releaseSocket s.loop_
    let id := s.tls.length
    let replaced := s.tlsUpstream_
    let s := { s with upstream_ := none, loop_ := loop, tlsUpstream_ := some id }
    ((s.makeTls fd false (.upstream hostname)).dropTls replaced).upstreamHandshake w id hostname

def startTunnel (w : World) (s : Session) : Outcome :=
  if s.certGen_ then s.startTlsMitm w s.connectHostname_
  else do
    let s ← { s with isTunnel_ := true }.writeEstablished w
    let s ← s.setupUpstreamCallbacks
    s.startUpstreamRead

/-- The connecting socket becomes the upstream connection; a connection that
was there is destroyed, which closes it. -/
def wrapUpstream (s : Session) : Session :=
  let id := s.upstreams + 1
  { s.closeUpstream with
    upstream_ := some { id := id, socket_ := s.connectingSocket_ }
    connectingSocket_ := kInvalidFd
    upstreams := id }

def onUpstreamConnected (w : World) (s : Session) : Outcome :=
  if s.closed_ then .ok s
  else
    let s := (s.note (.connected s.isTlsMitm_)).wrapUpstream
    if s.isConnect_ then s.startTunnel w else s.forwardRequest w

/-- Whether a socket that is opened now finds the session closed or the last
connect still awaited. -/
def stray (s : Session) : Bool :=
  s.closed_ || decide ((s.loop_.fdEntries_ s.connectingSocket_).map FdEntry.callback = some .connect)

/-- The new socket replaces the connecting one, which is closed. -/
def replaceConnecting (s : Session) (fd : Fd) : Session :=
  { s.note (.opened fd s.stray) with
    loop_ := (if s.connectingSocket_ = kInvalidFd then s.loop_
      else s.loop_.closeFd s.connectingSocket_).openFd fd
    connectingSocket_ := fd }

def connectUpstream (w : World) (s : Session) (host : Bytes) (port : Nat) : Outcome :=
  if w.resolves host port = false then s.crash .badExpected
  else
    let k := s.sockets
    let s := { s with sockets := k + 1 }
    match w.createSocket k with
    | none => .ok (s.sendError w 502 (text "Bad Gateway"))
    | some fd =>
      let s := s.replaceConnecting fd
      match w.connect k with
      | .fails => .ok (s.sendError w 502 (text "Bad Gateway"))
      | .connected => s.onUpstreamConnected w
      | .inProgress => .ok { s with loop_ := s.loop_.watch fd ⟨false, true⟩ .connect }

/-- The split of a CONNECT target at its last colon; `none` where `std::stoi`
throws. -/
def connectTarget (url : Bytes) : Option (Bytes × Nat) :=
  match rfind 58 url with
  | some colon => (stoi (url.drop (colon + 1))).map fun port =>
      (url.take colon, (port % 65536).toNat)
  | none => some (url, 443)

def handleConnect (w : World) (s : Session) (req : HttpRequest) : Outcome :=
  match connectTarget req.url with
  | none => s.crash .exception
  | some (host, port) => { s with connectHostname_ := host }.connectUpstream w host port

def onRequest (w : World) (s : Session) (req : HttpRequest) : Outcome :=
  let s := { s.note (.request req) with currentRequest_ := req }
  if req.method = .CONNECT then { s with isConnect_ := true }.handleConnect w req
  else if s.isTlsMitm_ then s.forwardRequest w
  else s.connectUpstream w req.host (if req.port = 0 then 80 else req.port)

/-- The callbacks that are set on the client codec. -/
def clientEmission (w : World) (s : Session) : Emission → Outcome
  | .request req => s.onRequest w req
  | .body data _ => .ok (s.onRequestBody w data)
  | .response _ | .messageComplete => .ok s

/-- The callbacks that are set on the upstream codec. -/
def upstreamEmission (w : World) (s : Session) : Emission → Outcome
  | .response resp => .ok (s.onResponse w resp)
  | .body data _ => .ok (s.onResponseBody w data)
  | .messageComplete => .ok s.onResponseComplete
  | .request _ => .ok s

/-- One callback of the parser of the client codec. -/
def clientEvent (w : World) (s : Session) (ev : ParserEvent) : Outcome :=
  match s.clientCodec_.handle ev with
  | none => s.crash .exception
  | some (codec, emissions) =>
    emissions.foldlM (clientEmission w) ({ s with clientCodec_ := codec }.note (.clientParsed ev))

def upstreamEvent (w : World) (s : Session) (ev : ParserEvent) : Outcome :=
  match s.upstreamCodec_.handle ev with
  | none => s.crash .exception
  | some (codec, emissions) =>
    emissions.foldlM (upstreamEmission w)
      ({ s with upstreamCodec_ := codec }.note (.upstreamParsed ev))

/-- `clientCodec_.decode`. The error number that the parser is left with is the
result of the call. -/
def decodeClient (w : World) (s : Session) (report : ParserReport) : Outcome :=
  if s.clientCodec_.errno ≠ .ok then .ok s
  else do
    let s ← report.events.foldlM (clientEvent w) s
    .ok { s with clientCodec_.errno := report.errno }

def decodeUpstream (w : World) (s : Session) (report : ParserReport) : Outcome :=
  if s.upstreamCodec_.errno ≠ .ok then .ok s
  else do
    let s ← report.events.foldlM (upstreamEvent w) s
    .ok { s with upstreamCodec_.errno := report.errno }

def onClientData (w : World) (s : Session) (data : Buffer) (report : ParserReport) : Outcome :=
  let s := s.note (.clientData data.linearize)
  match s.isTunnel_, s.upstream_ with
  | true, some c => .ok (s.writeUpstream w c data).1
  | _, _ => do
    let s ← s.decodeClient w report
    if s.clientCodec_.errno = .failed then
      .ok ((s.sendError w 400 (text "Bad Request")).close .clientParseError)
    else .ok s

def onUpstreamData (w : World) (s : Session) (data : Buffer) (report : ParserReport) : Outcome :=
  let s := s.note (.upstreamData data.linearize)
  if s.isTunnel_ then .ok (s.writeToClient w data).1
  else do
    let s ← s.decodeUpstream w report
    if s.upstreamCodec_.errno = .failed then .ok (s.close .upstreamParseError) else .ok s

/-- What arrives with a readiness report: the answer to `recv` and what the
parser makes of its bytes, or for a TLS connection what it makes of each block
of `SSL_read` up to the error that ends the reading. -/
structure Arrival where
  fired : IoMask := {}
  answer : ReadAnswer := .wouldBlock
  report : ParserReport := {}
  reads : List ParserReport := []
  readEnd : SslError := .wantRead
  deriving DecidableEq, Repr

/-- `handleRead` of the client connection with its callbacks. -/
def clientRead (w : World) (s : Session) (a : Arrival) : Outcome :=
  match s.client_ with
  | none => s.crash .destroyed
  | some c =>
    match c.handleRead a.answer s.loop_ with
    | (c, loop, outcome) =>
      let s := { s with client_ := some c, loop_ := loop }
      match outcome with
      | .nothing => .ok s
      | .data buf => if c.wired then s.onClientData w buf a.report else .ok s
      | .closed => .ok (if c.wired then s.close .clientEnd else s)
      | .failed => .ok (if c.wired then s.close .clientError else s).closeClient

def upstreamRead (w : World) (s : Session) (id : Nat) (a : Arrival) : Outcome :=
  match s.upstream_ with
  | none => s.crash .destroyed
  | some c =>
    if c.id ≠ id then s.crash .destroyed
    else
      match c.handleRead a.answer s.loop_ with
      | (c, loop, outcome) =>
        let s := { s with upstream_ := some c, loop_ := loop }
        match outcome with
        | .nothing => .ok s
        | .data buf => if c.wired then s.onUpstreamData w buf a.report else .ok s
        | .closed => .ok (if c.wired then s.close .upstreamEnd else s)
        | .failed => .ok (if c.wired then s.close .upstreamError else s).closeUpstream

def clientFlush (w : World) (s : Session) : Outcome :=
  match s.client_ with
  | none => s.crash .destroyed
  | some c => .ok (s.afterClientFlush (c.handleWrite w.clientSend s.loop_))

def upstreamFlush (w : World) (s : Session) (id : Nat) : Outcome :=
  match s.upstream_ with
  | none => s.crash .destroyed
  | some c =>
    if c.id ≠ id then s.crash .destroyed
    else .ok (s.afterUpstreamFlush (c.handleWrite (w.upstreamSend c.id) s.loop_))

def connectionReadable (w : World) (s : Session) (id : Nat) (a : Arrival) : Outcome :=
  if a.fired.readable then (if id = 0 then s.clientRead w a else s.upstreamRead w id a) else .ok s

/-- The callback that `Connection::updateEvents` registers. The client
connection has identity zero, the upstream ones are counted from one. -/
def connectionReady (w : World) (s : Session) (id : Nat) (a : Arrival) : Outcome := do
  let s ← s.connectionReadable w id a
  if a.fired.writable then (if id = 0 then s.clientFlush w else s.upstreamFlush w id) else .ok s

/-- `onData_` of a TLS connection as `startTlsMitm` sets it. -/
def onTlsData (w : World) (s : Session) (t : TlsConnection) (report : ParserReport) : Outcome :=
  if t.wired = false then .ok s
  else if t.isServer_ then do
    let s ← s.decodeClient w report
    if s.clientCodec_.errno = .failed then .ok (s.close .clientParseError) else .ok s
  else do
    let s ← s.decodeUpstream w report
    if s.upstreamCodec_.errno = .failed then .ok (s.close .upstreamParseError) else .ok s

/-- The end of the loop of `doRead`. -/
def endTlsRead (s : Session) (id : Nat) (wired : Bool) : SslError → Session
  | .wantRead => s
  | .zeroReturn | .syscall =>
    let s := s.closeTls id
    if wired then s.close .tlsEnd else s
  | .wantWrite | .ssl => s.closeTls id

/-- `doRead` of a TLS connection that reads. -/
def tlsRead (w : World) (s : Session) (id : Nat) (t : TlsConnection) (a : Arrival) : Outcome :=
  if t.reading_ then do
    let s ← a.reads.foldlM (fun s report => s.onTlsData w t report) s
    .ok (s.endTlsRead id t.wired a.readEnd)
  else .ok s

/-- `handleIo` of a TLS connection. -/
def tlsReady (w : World) (s : Session) (id : Nat) (a : Arrival) : Outcome :=
  match s.tls[id]? with
  | none => s.crash .destroyed
  | some t =>
    if t.closed_ then .ok s
    else if t.handshakeDone_ = false then s.continueHandshake w id
    else do
      let s ← s.tlsRead w id t a
      match s.tls[id]? with
      | none => s.crash .destroyed
      | some t =>
        if t.writeBuf_.empty then .ok s
        else
          let (t, loop) := t.doWrite (w.sslWrite id) id s.loop_
          .ok (s.setTls id t loop)

/-- A report of the kernel for a descriptor, as `KqueueLoop::run` takes it. -/
def ready (w : World) (s : Session) (fd : Fd) (a : Arrival) : Outcome :=
  match s.loop_.fdEntries_ fd with
  | none => .ok s
  | some entry =>
    match entry.callback with
    | .connection id => s.connectionReady w id a
    | .connect => { s with loop_ := s.loop_.remove fd }.onUpstreamConnected w
    | .tls id => s.tlsReady w id a

/-- The session after its constructor and `start`. -/
def start (fd : Fd) (certGen payloadInspector : Bool) : Session :=
  let c : Connection := { socket_ := fd, wired := true }
  let (c, loop) := c.startRead (({} : KqueueLoop).openFd fd)
  { loop_ := loop, client_ := some c, certGen_ := certGen, payloadInspector_ := payloadInspector }

end Session

/-- What can happen to a session between two waits of the loop. -/
inductive SessionEvent where
  | ready (fd : Fd) (arrival : Session.Arrival)
  | close
  deriving DecidableEq, Repr

/-- One event; a process that has crashed does nothing more. -/
def sessionStep (w : World) (r : Outcome) (e : SessionEvent) : Outcome := do
  let s ← r
  match e with
  | .ready fd arrival => s.ready w fd arrival
  | .close => .ok (s.close .external)

end DeepSeer
