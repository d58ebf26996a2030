import DeepSeer.Buffer
import DeepSeer.Message

/-!
The HTTP/1.1 codec around llhttp. The parser is the environment: one decode
call receives the callbacks that the parser makes for the bytes it was given,
in their order, and the error number it ends with. A callback changes the
parse state first and then calls the owner back, so it yields the new codec and
what the owner is told.
-/
namespace DeepSeer

open ByteMemory ByteText

/-- `llhttp_type_t`. -/
inductive ParserType where
  | request | response | both
  deriving DecidableEq, Repr

/-- The error numbers that `decode` tells apart. -/
inductive Errno where
  | ok | paused | pausedUpgrade | failed
  deriving DecidableEq, Repr

/-- What the parser has found out about a head when it is complete. -/
structure HeadInfo where
  method : Bytes := []
  http_major : UInt8 := 1
  http_minor : UInt8 := 1
  status_code : UInt16 := 0
  content_length : Nat := 0
  chunked : Bool := false
  deriving DecidableEq, Repr

/-- The callbacks of llhttp. -/
inductive ParserEvent where
  | messageBegin
  | url (piece : Bytes)
  | status (piece : Bytes)
  | headerField (piece : Bytes)
  | headerValue (piece : Bytes)
  | headersComplete (info : HeadInfo)
  | body (piece : Bytes)
  | messageComplete
  deriving DecidableEq, Repr

/-- What one call of `llhttp_execute` does. -/
structure ParserReport where
  events : List ParserEvent := []
  errno : Errno := .ok
  deriving DecidableEq, Repr

/-- The calls of `callbacks_`. -/
inductive Emission where
  | request (req : HttpRequest)
  | response (resp : HttpResponse)
  | body (data : Buffer) (endStream : Bool)
  | messageComplete

/-- The codec. Of the parser it keeps the type and the error it is stuck in:
llhttp makes no more callbacks once it has paused or failed. -/
structure Http1Codec where
  type : ParserType
  errno : Errno := .ok
  currentRequest_ : HttpRequest := {}
  currentResponse_ : HttpResponse := {}
  currentHeaderField_ : Bytes := []
  currentHeaderValue_ : Bytes := []
  buildingRequest_ : Bool := true
  inHeaderValue_ : Bool := false

namespace Http1Codec

def finishHeader (c : Http1Codec) : Http1Codec :=
  if c.currentHeaderField_ = [] then c
  else
    let c :=
      if c.type = .request ∨ (c.type = .both ∧ c.buildingRequest_ = true) then
        { c with currentRequest_.headers :=
            c.currentRequest_.headers.set c.currentHeaderField_ c.currentHeaderValue_ }
      else
        { c with currentResponse_.headers :=
            c.currentResponse_.headers.set c.currentHeaderField_ c.currentHeaderValue_ }
    { c with currentHeaderField_ := [], currentHeaderValue_ := [] }

/-- The text of `scheme://host:port/path` that names the host. -/
def hostPart (url : Bytes) (schemeEnd : Nat) : Bytes :=
  let hostStart := schemeEnd + 3
  match findFrom 47 hostStart url with
  | some pathStart => (url.drop hostStart).take (pathStart - hostStart)
  | none => url.drop hostStart

/-- The split of an authority at its first colon, as for a `Host` header and
for an absolute URL. There is no result where `std::stoi` throws. -/
def splitHost (req : HttpRequest) (h : Bytes) : Option HttpRequest :=
  match find 58 h with
  | some colon => (stoi (h.drop (colon + 1))).map fun port =>
      { req with host := h.take colon, port := (port % 65536).toNat }
  | none => some { req with host := h }

def parseHostFromUrl (req : HttpRequest) (url : Bytes) : Option HttpRequest :=
  match findText (text "://") url with
  | none => some req
  | some schemeEnd => splitHost req (hostPart url schemeEnd)

def onMessageBegin (c : Http1Codec) : Http1Codec :=
  { c with
    currentRequest_ := {}, currentResponse_ := {}, currentHeaderField_ := []
    currentHeaderValue_ := [], inHeaderValue_ := false }

def onUrl (c : Http1Codec) (piece : Bytes) : Http1Codec :=
  { c with currentRequest_.url := c.currentRequest_.url ++ piece }

def onStatus (c : Http1Codec) (piece : Bytes) : Http1Codec :=
  { c with currentResponse_.reason := c.currentResponse_.reason ++ piece }

def onHeaderField (c : Http1Codec) (piece : Bytes) : Http1Codec :=
  let c := if c.inHeaderValue_ then c.finishHeader else c
  { c with currentHeaderField_ := c.currentHeaderField_ ++ piece, inHeaderValue_ := false }

def onHeaderValue (c : Http1Codec) (piece : Bytes) : Http1Codec :=
  { c with currentHeaderValue_ := c.currentHeaderValue_ ++ piece, inHeaderValue_ := true }

/-- The request head before the host is looked for. -/
def requestHead (req : HttpRequest) (info : HeadInfo) : HttpRequest :=
  { req with
    method := stringToMethod info.method
    versionMajor := info.http_major.toNat
    versionMinor := info.http_minor.toNat
    hasBody := decide (0 < info.content_length) || info.chunked }

def responseHead (resp : HttpResponse) (info : HeadInfo) : HttpResponse :=
  { resp with
    statusCode := info.status_code.toNat
    versionMajor := info.http_major.toNat
    versionMinor := info.http_minor.toNat
    hasBody := true }

/-- The host of a request head: from the `Host` header, else from the URL. -/
def findHost (req : HttpRequest) : Option HttpRequest := do
  let req ← match req.headers.get (text "Host") with
    | some h => splitHost req h
    | none => some req
  if req.host = [] then parseHostFromUrl req req.url else some req

/-- There is no result where an exception leaves the callback. -/
def onHeadersComplete (c : Http1Codec) (info : HeadInfo) : Option (Http1Codec × Emission) :=
  let c := c.finishHeader
  if c.type = .request then do
    let req ← findHost (requestHead c.currentRequest_ info)
    some ({ c with buildingRequest_ := true, currentRequest_ := req }, .request req)
  else
    let resp := responseHead c.currentResponse_ info
    some ({ c with buildingRequest_ := false, currentResponse_ := resp }, .response resp)

/-- One callback of the parser. -/
def handle (c : Http1Codec) : ParserEvent → Option (Http1Codec × List Emission)
  | .messageBegin => some (c.onMessageBegin, [])
  | .url piece => some (c.onUrl piece, [])
  | .status piece => some (c.onStatus piece, [])
  | .headerField piece => some (c.onHeaderField piece, [])
  | .headerValue piece => some (c.onHeaderValue piece, [])
  | .headersComplete info => (c.onHeadersComplete info).map fun (c, emission) => (c, [emission])
  | .body piece => some (c, [.body (({} : Buffer).add piece) false])
  | .messageComplete => some (c, [.body {} true, .messageComplete])

def versionText (versionMajor versionMinor : Nat) : Bytes :=
  text "HTTP/" ++ decimal versionMajor ++ text "." ++ decimal versionMinor

def requestLine (req : HttpRequest) : Bytes :=
  methodToString req.method ++ text " " ++ req.url ++ text " " ++
    versionText req.versionMajor req.versionMinor ++ crlf

def statusLine (resp : HttpResponse) : Bytes :=
  versionText resp.versionMajor resp.versionMinor ++ text " " ++ decimal resp.statusCode ++
    text " " ++ resp.reason ++ crlf

def headerLine (name value : Bytes) : Bytes := name ++ text ": " ++ value ++ crlf

/-- The loop over the headers that both encoders end with. -/
def encodeHeaders (headers : HeaderMap) (out : Buffer) : Buffer :=
  (headers.entries.foldl (fun out e => out.add (headerLine e.1 e.2)) out).add crlf

def encodeRequest (req : HttpRequest) (out : Buffer) : Buffer :=
  encodeHeaders req.headers (out.add (requestLine req))

def encodeResponse (resp : HttpResponse) (out : Buffer) : Buffer :=
  encodeHeaders resp.headers (out.add (statusLine resp))

end Http1Codec

end DeepSeer
