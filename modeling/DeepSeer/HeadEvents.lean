import DeepSeer.CodecHeads

/-!
How a head reaches the codec: pieces of the target or the reason, and for each
header line pieces of its name and then of its value. Whatever the pieces are,
the codec ends up with the joined texts and with the map of the lines.
-/
namespace DeepSeer

open ByteMemory ByteText HttpWire

/-- A header line as the parser delivers it; an empty value has a piece too. -/
structure HeaderLine where
  names : List Bytes
  values : List Bytes
  clean : Field.Clean (names.flatten, values.flatten)
  valued : values ≠ []

namespace HeaderLine

def name (l : HeaderLine) : Bytes := l.names.flatten

def value (l : HeaderLine) : Bytes := l.values.flatten

def events (l : HeaderLine) : List ParserEvent :=
  l.names.map .headerField ++ l.values.map .headerValue

/-- A line that comes in one piece. -/
def whole (name value : Bytes) (h : Field.Clean (name, value)) : HeaderLine :=
  { names := [name], values := [value], clean := by simpa using h, valued := by simp }

def host : HeaderLine := .whole (text "Host") (text "h") (by decide)

def oneByte : HeaderLine := .whole (text "Content-Length") (text "1") (by decide)

def twoBytes : HeaderLine := .whole (text "Content-Length") (text "2") (by decide)

def chunked : HeaderLine := .whole (text "Transfer-Encoding") (text "chunked") (by decide)

end HeaderLine

/-- The map that lines make when they are set one after another. -/
def headersOf (lines : List HeaderLine) : HeaderMap :=
  lines.foldl (fun m l => HeaderMap.set m l.name l.value) {}

/-- The callbacks for a head up to its end. -/
def headPieces (start : List ParserEvent) (lines : List HeaderLine) : List ParserEvent :=
  .messageBegin :: start ++ lines.flatMap HeaderLine.events

/-- The callbacks for a request head. -/
def requestEvents (urls : List Bytes) (lines : List HeaderLine) (info : HeadInfo) :
    List ParserEvent :=
  headPieces (urls.map .url) lines ++ [.headersComplete info]

/-- The callbacks for a response head. -/
def responseEvents (reasons : List Bytes) (lines : List HeaderLine) (info : HeadInfo) :
    List ParserEvent :=
  headPieces (reasons.map .status) lines ++ [.headersComplete info]

/-- The callbacks that only collect the texts of a head. -/
def ParserEvent.collects : ParserEvent → Bool
  | .headersComplete _ | .body _ | .messageComplete => false
  | _ => true

namespace Http1Codec

/-- What such a callback makes of the codec. -/
def absorb (c : Http1Codec) : ParserEvent → Http1Codec
  | .messageBegin => c.onMessageBegin
  | .url piece => c.onUrl piece
  | .status piece => c.onStatus piece
  | .headerField piece => c.onHeaderField piece
  | .headerValue piece => c.onHeaderValue piece
  | _ => c

theorem handle_absorb {c : Http1Codec} {ev : ParserEvent} (h : ev.collects = true) :
    c.handle ev = some (c.absorb ev, []) := by
  cases ev <;> first | rfl | exact absurd h (by simp [ParserEvent.collects])

/-- The codec once the line it is in the value of is finished. -/
def settle (c : Http1Codec) : Http1Codec := if c.inHeaderValue_ then c.finishHeader else c

/-- The codec has collected the headers `m` since `c₀`. -/
structure Collected (c₀ c : Http1Codec) (m : HeaderMap) : Prop where
  field : c.settle.currentHeaderField_ = []
  value : c.settle.currentHeaderValue_ = []
  type : c.settle.type = c₀.type
  request : c₀.type = .request → c.settle.currentRequest_ = { c₀.currentRequest_ with headers := m }
  response : c₀.type = .response →
    c.settle.currentResponse_ = { c₀.currentResponse_ with headers := m }

theorem Collected.finishHeader {c₀ c : Http1Codec} {m : HeaderMap} (h : Collected c₀ c m) :
    c.finishHeader = c.settle := by
  have hfield := h.field
  unfold settle at hfield ⊢
  split at hfield
  · next hv => rw [if_pos hv]
  · next hv => rw [if_neg hv, Http1Codec.finishHeader, if_pos hfield]

theorem onHeaderField_foldl {names : List Bytes} (h : names ≠ []) (c : Http1Codec) :
    (names.map ParserEvent.headerField).foldl absorb c = { c.settle with
      currentHeaderField_ := c.settle.currentHeaderField_ ++ names.flatten
      inHeaderValue_ := false } := by
  induction names generalizing c with
  | nil => exact absurd rfl h
  | cons name rest ih =>
    have hstep : c.absorb (.headerField name) = { c.settle with
        currentHeaderField_ := c.settle.currentHeaderField_ ++ name
        inHeaderValue_ := false } := rfl
    rw [List.map_cons, List.foldl_cons, hstep]
    cases rest with
    | nil => simp
    | cons next rest =>
      rw [ih (by simp)]
      simp [settle]

theorem onHeaderValue_foldl {values : List Bytes} (h : values ≠ []) (c : Http1Codec) :
    (values.map ParserEvent.headerValue).foldl absorb c = { c with
      currentHeaderValue_ := c.currentHeaderValue_ ++ values.flatten
      inHeaderValue_ := true } := by
  induction values generalizing c with
  | nil => exact absurd rfl h
  | cons value rest ih =>
    have hstep : c.absorb (.headerValue value) = { c with
        currentHeaderValue_ := c.currentHeaderValue_ ++ value
        inHeaderValue_ := true } := rfl
    rw [List.map_cons, List.foldl_cons, hstep]
    cases rest with
    | nil => simp
    | cons next rest =>
      rw [ih (by simp)]
      simp

/-- A line whose name and value are there is finished into the map. -/
theorem settle_line (d : Http1Codec) {name : Bytes} (hname : name ≠ []) (value : Bytes) :
    Collected d { d with
      currentHeaderField_ := name, currentHeaderValue_ := value, inHeaderValue_ := true }
      (HeaderMap.set (if d.type = .request then d.currentRequest_.headers
        else d.currentResponse_.headers) name value) := by
  constructor
  · simp only [settle, if_true, Http1Codec.finishHeader, if_neg hname]
  · simp only [settle, if_true, Http1Codec.finishHeader, if_neg hname]
  · simp only [settle, if_true, finishHeader_type]
  · intro ht
    simp [settle, Http1Codec.finishHeader, hname, ht]
  · intro ht
    simp [settle, Http1Codec.finishHeader, hname, ht]

/-- Pieces of a name and then of its value add both to the map. -/
theorem Collected.header {c₀ c : Http1Codec} {m : HeaderMap} (h : Collected c₀ c m)
    {names values : List Bytes} (named : names.flatten ≠ []) (valued : values ≠ []) :
    Collected c₀ ((names.map ParserEvent.headerField ++
      values.map ParserEvent.headerValue).foldl absorb c)
      (HeaderMap.set m names.flatten values.flatten) := by
  have hnames : names ≠ [] := fun hn => named (by simp [hn])
  have hevents : (names.map ParserEvent.headerField ++
      values.map ParserEvent.headerValue).foldl absorb c = { c.settle with
        currentHeaderField_ := names.flatten, currentHeaderValue_ := values.flatten
        inHeaderValue_ := true } := by
    rw [List.foldl_append, onHeaderField_foldl hnames, onHeaderValue_foldl valued]
    simp [h.field, h.value]
  have hline := settle_line c.settle named values.flatten
  have htype := h.type
  rw [hevents]
  refine ⟨hline.field, hline.value, hline.type.trans htype, fun ht => ?_, fun ht => ?_⟩
  · refine (hline.request (htype.trans ht)).trans ?_
    rw [if_pos (htype.trans ht), h.request ht]
  · refine (hline.response (htype.trans ht)).trans ?_
    rw [if_neg (by simp [htype.trans ht]), h.response ht]

/-- A header line adds its name and value to the map. -/
theorem Collected.line {c₀ c : Http1Codec} {m : HeaderMap} (h : Collected c₀ c m)
    (l : HeaderLine) :
    Collected c₀ (l.events.foldl absorb c) (HeaderMap.set m l.name l.value) :=
  h.header l.clean.named l.valued

theorem Collected.lines {c₀ c : Http1Codec} {m : HeaderMap} (h : Collected c₀ c m)
    (lines : List HeaderLine) :
    Collected c₀ ((lines.flatMap HeaderLine.events).foldl absorb c)
      (lines.foldl (fun m l => HeaderMap.set m l.name l.value) m) := by
  induction lines generalizing c m with
  | nil => exact h
  | cons l rest ih =>
    rw [List.flatMap_cons, List.foldl_append]
    exact ih (h.line l)

theorem onUrl_foldl (urls : List Bytes) (c : Http1Codec) :
    (urls.map ParserEvent.url).foldl absorb c =
      { c with currentRequest_.url := c.currentRequest_.url ++ urls.flatten } := by
  induction urls generalizing c with
  | nil => simp
  | cons url rest ih =>
    rw [List.map_cons, List.foldl_cons, ih]
    simp [absorb, onUrl]

theorem onStatus_foldl (reasons : List Bytes) (c : Http1Codec) :
    (reasons.map ParserEvent.status).foldl absorb c =
      { c with currentResponse_.reason := c.currentResponse_.reason ++ reasons.flatten } := by
  induction reasons generalizing c with
  | nil => simp
  | cons reason rest ih =>
    rw [List.map_cons, List.foldl_cons, ih]
    simp [absorb, onStatus]

/-- Looking for the host changes host and port of the request only. -/
theorem findHost_keeps {req req' : HttpRequest} (h : findHost req = some req') :
    req' = { req with host := req'.host, port := req'.port } := by
  have hsplit : ∀ {req req' : HttpRequest} {t : Bytes}, splitHost req t = some req' →
      req' = { req with host := req'.host, port := req'.port } := by
    intro req req' t ht
    unfold splitHost at ht
    split at ht
    · obtain ⟨port, -, rfl⟩ := Option.map_eq_some_iff.mp ht
      rfl
    · simp only [Option.some.injEq] at ht
      exact ht ▸ rfl
  have hurl : ∀ {req req' : HttpRequest} {url : Bytes}, parseHostFromUrl req url = some req' →
      req' = { req with host := req'.host, port := req'.port } := by
    intro req req' url hu
    unfold parseHostFromUrl at hu
    split at hu
    · simp only [Option.some.injEq] at hu
      exact hu ▸ rfl
    · exact hsplit hu
  have hrest : ∀ {mid : HttpRequest}, mid = { req with host := mid.host, port := mid.port } →
      (if mid.host = [] then parseHostFromUrl mid mid.url else some mid) = some req' →
      req' = { req with host := req'.host, port := req'.port } := by
    intro mid hm hr
    split at hr
    · rw [hurl hr, hm]
    · simp only [Option.some.injEq] at hr
      exact hr ▸ hm
  unfold findHost at h
  simp only [Option.bind_eq_bind] at h
  split at h
  · obtain ⟨mid, hmid, hr⟩ := Option.bind_eq_some_iff.mp h
    exact hrest (hsplit hmid) hr
  · exact hrest rfl h

/-- The request that the pieces of a head have built when the head is complete. -/
theorem requestPieces_collected {c : Http1Codec} (h : c.type = .request) (urls : List Bytes)
    (lines : List HeaderLine) :
    let d := ((headPieces (urls.map .url) lines).foldl absorb c).finishHeader
    d.type = .request ∧ d.currentRequest_ = { url := urls.flatten, headers := headersOf lines } := by
  set c₀ : Http1Codec := { c.onMessageBegin with
    currentRequest_.url := c.onMessageBegin.currentRequest_.url ++ urls.flatten } with hc₀
  have h₀ : Collected c₀ c₀ {} := ⟨rfl, rfl, rfl, fun _ => rfl, fun _ => rfl⟩
  have hall := h₀.lines lines
  have hfold : (headPieces (urls.map .url) lines).foldl absorb c =
      (lines.flatMap HeaderLine.events).foldl absorb c₀ := by
    rw [headPieces, List.foldl_append, List.foldl_cons, onUrl_foldl]
    rfl
  rw [hfold, hall.finishHeader]
  exact ⟨hall.type.trans h, hall.request h⟩

/-- The request head that the callbacks of a head describe. -/
def describedHead (urls : List Bytes) (lines : List HeaderLine) (info : HeadInfo) : HttpRequest :=
  requestHead { url := urls.flatten, headers := headersOf lines } info

/-- When the pieces of a head are complete, the host is looked for in it. -/
theorem requestPieces_complete {c : Http1Codec} (h : c.type = .request) (urls : List Bytes)
    (lines : List HeaderLine) (info : HeadInfo) :
    let d := (headPieces (urls.map .url) lines).foldl absorb c
    d.onHeadersComplete info = (findHost (describedHead urls lines info)).map fun req =>
      ({ d.finishHeader with buildingRequest_ := true, currentRequest_ := req }, .request req) := by
  obtain ⟨htype, hreq⟩ := requestPieces_collected h urls lines
  rw [finishHeader_type] at htype
  dsimp only
  rw [onHeadersComplete_request htype, hreq]
  rfl

/-- The request that comes out of a head is the described one with some host. -/
theorem requestPieces_request {c c' : Http1Codec} (h : c.type = .request) {urls : List Bytes}
    {lines : List HeaderLine} {info : HeadInfo} {req : HttpRequest}
    (hparsed : ((headPieces (urls.map .url) lines).foldl absorb c).handle (.headersComplete info) =
      some (c', [.request req])) :
    req = { describedHead urls lines info with host := req.host, port := req.port } := by
  rw [handle, requestPieces_complete h] at hparsed
  cases hf : findHost (describedHead urls lines info) with
  | none => simp [hf] at hparsed
  | some req' =>
    simp only [hf, Option.map_some, Option.some.injEq, Prod.mk.injEq, List.cons.injEq,
      Emission.request.injEq, and_true] at hparsed
    exact hparsed.2 ▸ findHost_keeps hf

theorem responsePieces_collected {c : Http1Codec} (h : c.type = .response) (reasons : List Bytes)
    (lines : List HeaderLine) :
    let d := ((headPieces (reasons.map .status) lines).foldl absorb c).finishHeader
    d.type = .response ∧
      d.currentResponse_ = { reason := reasons.flatten, headers := headersOf lines } := by
  set c₀ : Http1Codec := { c.onMessageBegin with
    currentResponse_.reason := c.onMessageBegin.currentResponse_.reason ++ reasons.flatten }
    with hc₀
  have h₀ : Collected c₀ c₀ {} := ⟨rfl, rfl, rfl, fun _ => rfl, fun _ => rfl⟩
  have hall := h₀.lines lines
  have hfold : (headPieces (reasons.map .status) lines).foldl absorb c =
      (lines.flatMap HeaderLine.events).foldl absorb c₀ := by
    rw [headPieces, List.foldl_append, List.foldl_cons, onStatus_foldl]
    rfl
  rw [hfold, hall.finishHeader]
  exact ⟨hall.type.trans h, hall.response h⟩

/-- The response head that the callbacks of a head describe. -/
def describedResponse (reasons : List Bytes) (lines : List HeaderLine) (info : HeadInfo) :
    HttpResponse :=
  responseHead { reason := reasons.flatten, headers := headersOf lines } info

/-- The response that comes out of a head is the described one. -/
theorem responsePieces_complete {c : Http1Codec} (h : c.type = .response) (reasons : List Bytes)
    (lines : List HeaderLine) (info : HeadInfo) :
    let d := (headPieces (reasons.map .status) lines).foldl absorb c
    d.handle (.headersComplete info) =
      some ({ d.finishHeader with
          buildingRequest_ := false, currentResponse_ := describedResponse reasons lines info },
        [.response (describedResponse reasons lines info)]) := by
  obtain ⟨htype, hresp⟩ := responsePieces_collected h reasons lines
  rw [finishHeader_type] at htype
  dsimp only
  rw [handle, onHeadersComplete_response (by simp [htype]), hresp]
  rfl

end Http1Codec

end DeepSeer
