import DeepSeer.HeadEvents

/-!
Whole messages on one codec. The parser cuts every span of a message into
pieces as its bytes happen to arrive, and a codec sees one message after
another. What its owner is told does not depend on the cuts, nor on the
messages before.
-/
namespace DeepSeer

open ByteMemory ByteText

/-- A header as the parser cuts it: pieces of its name, then pieces of its value. -/
structure CutHeader where
  names : List Bytes
  values : List Bytes
  named : names.flatten ≠ []
  valued : values ≠ []

/-- A message as the parser cuts it. It starts with the target of a request or
with the reason of a response. -/
structure CutMessage where
  start : List Bytes
  headers : List CutHeader
  info : HeadInfo
  body : List Bytes
  trailers : List CutHeader

inductive MessageKind where
  | request | response
  deriving DecidableEq, Repr

def MessageKind.type : MessageKind → ParserType
  | .request => .request
  | .response => .response

def MessageKind.start : MessageKind → Bytes → ParserEvent
  | .request => .url
  | .response => .status

namespace CutHeader

def events (h : CutHeader) : List ParserEvent :=
  h.names.map .headerField ++ h.values.map .headerValue

/-- The same header in two pieces. -/
def whole (h : CutHeader) : CutHeader :=
  { names := [h.names.flatten], values := [h.values.flatten]
    named := by simpa using h.named, valued := by simp }

/-- The map that headers make when they are set one after another. -/
def collect (headers : List CutHeader) : HeaderMap :=
  headers.foldl (fun m h => HeaderMap.set m h.names.flatten h.values.flatten) {}

theorem collect_whole (headers : List CutHeader) : collect (headers.map whole) = collect headers := by
  simp [collect, List.foldl_map, whole]

end CutHeader

namespace CutMessage

/-- The callbacks for a message after it has begun. -/
def spans (kind : MessageKind) (m : CutMessage) : List ParserEvent :=
  m.start.map kind.start ++ m.headers.flatMap CutHeader.events ++ [.headersComplete m.info] ++
    m.body.map .body ++ m.trailers.flatMap CutHeader.events ++ [.messageComplete]

/-- The same message with every span in one piece. -/
def whole (m : CutMessage) : CutMessage :=
  { start := [m.start.flatten], headers := m.headers.map CutHeader.whole, info := m.info
    body := [m.body.flatten], trailers := m.trailers.map CutHeader.whole }

end CutMessage

/-- What an owner is told about one message. -/
inductive MessageHead where
  | request (req : HttpRequest)
  | response (resp : HttpResponse)

def MessageHead.emission : MessageHead → Emission
  | .request req => .request req
  | .response resp => .response resp

/-- What an owner has been told: the complete messages with their bodies, the
message in progress, and whether its last body call has come. -/
structure Transcript where
  complete : List (MessageHead × Bytes) := []
  current : Option (MessageHead × Bytes) := none
  ended : Bool := false

/-- One more call. There is no result where a call is out of order: body data
outside of a message or after the end of its stream, a second such end, a
message complete without it, or a head inside of a message. -/
def Transcript.record (t : Transcript) : Emission → Option Transcript
  | .request req =>
    if t.current.isSome then none else some { t with current := some (.request req, []) }
  | .response resp =>
    if t.current.isSome then none else some { t with current := some (.response resp, []) }
  | .body data endStream =>
    match t.current, t.ended with
    | some (head, body), false =>
      some { t with current := some (head, body ++ data.linearize), ended := endStream }
    | _, _ => none
  | .messageComplete =>
    match t.current, t.ended with
    | some message, true => some { complete := t.complete ++ [message] }
    | _, _ => none

/-- The transcript of calls that come in order. -/
def transcript (calls : List Emission) : Option Transcript := calls.foldlM Transcript.record {}

namespace Http1Codec

/-- What the owner is told in a run of callbacks, and the codec after it; there
is none where an exception has left a callback. -/
def feed (c : Http1Codec) : List ParserEvent → List Emission × Option Http1Codec
  | [] => ([], some c)
  | ev :: rest =>
    match c.handle ev with
    | none => ([], none)
    | some (c, calls) => (calls ++ (c.feed rest).1, (c.feed rest).2)

/-- The parser settles on the kind of the first start line that it sees. -/
def detect (c : Http1Codec) (kind : MessageKind) : Http1Codec :=
  if c.type = .both then { c with type := kind.type } else c

/-- One message on a codec. -/
def receive (kind : MessageKind) (c : Http1Codec) (m : CutMessage) :
    List Emission × Option Http1Codec :=
  (c.onMessageBegin.detect kind).feed (m.spans kind)

/-- Messages one after another, up to the first exception. -/
def receiveAll (kind : MessageKind) : Http1Codec → List CutMessage →
    List Emission × Option Http1Codec
  | c, [] => ([], some c)
  | c, m :: rest =>
    match c.receive kind m with
    | (calls, none) => (calls, none)
    | (calls, some c) => (calls ++ (receiveAll kind c rest).1, (receiveAll kind c rest).2)

/-- The same messages with every span in one piece and each on a codec of its
own, up to the first exception; whether there was none. -/
def receiveApart (kind : MessageKind) : List CutMessage → List Emission × Bool
  | [] => ([], true)
  | m :: rest =>
    match receive kind { type := kind.type } m.whole with
    | (calls, none) => (calls, false)
    | (calls, some _) => (calls ++ (receiveApart kind rest).1, (receiveApart kind rest).2)

/-- A codec that messages of a kind are fed to. -/
def Serves (c : Http1Codec) (kind : MessageKind) : Prop := c.type = kind.type ∨ c.type = .both

theorem detect_type {c : Http1Codec} {kind : MessageKind} (h : c.Serves kind) :
    (c.detect kind).type = kind.type := by
  unfold detect
  split
  · rfl
  · next hb => exact h.resolve_right hb

theorem feed_append (c : Http1Codec) (first rest : List ParserEvent) :
    c.feed (first ++ rest) = match c.feed first with
      | (calls, none) => (calls, none)
      | (calls, some d) => (calls ++ (d.feed rest).1, (d.feed rest).2) := by
  induction first generalizing c with
  | nil => rfl
  | cons ev events ih =>
    simp only [List.cons_append, feed]
    cases c.handle ev with
    | none => rfl
    | some r =>
      obtain ⟨d, calls⟩ := r
      simp only [ih]
      cases d.feed events with
      | mk more last => cases last <;> simp

theorem feed_type {c d : Http1Codec} {events : List ParserEvent} {calls : List Emission}
    (h : c.feed events = (calls, some d)) : d.type = c.type := by
  induction events generalizing c calls with
  | nil =>
    simp only [feed, Prod.mk.injEq, Option.some.injEq] at h
    rw [h.2]
  | cons ev rest ih =>
    cases hh : c.handle ev with
    | none => simp [feed, hh] at h
    | some r =>
      simp only [feed, hh, Prod.mk.injEq] at h
      exact (ih (Prod.ext rfl h.2)).trans (handle_type hh)

/-- Callbacks that only collect texts tell the owner nothing. -/
theorem feed_collects {events : List ParserEvent} (h : ∀ ev ∈ events, ev.collects = true)
    (c : Http1Codec) : c.feed events = ([], some (events.foldl absorb c)) := by
  induction events generalizing c with
  | nil => rfl
  | cons ev rest ih =>
    obtain ⟨hev, hrest⟩ := List.forall_mem_cons.mp h
    simp [feed, handle_absorb hev, ih hrest]

/-- The calls for the pieces of a body. -/
def bodyCalls (pieces : List Bytes) : List Emission :=
  pieces.map fun piece => .body (({} : Buffer).add piece) false

theorem feed_body (c : Http1Codec) (pieces : List Bytes) :
    c.feed (pieces.map .body) = (bodyCalls pieces, some c) := by
  induction pieces with
  | nil => rfl
  | cons piece rest ih =>
    rw [List.map_cons, feed]
    simp [handle, ih, bodyCalls]

theorem headers_collect (headers : List CutHeader) :
    ∀ ev ∈ headers.flatMap CutHeader.events, ev.collects = true := by
  intro ev hev
  obtain ⟨h, -, hev⟩ := List.mem_flatMap.mp hev
  rcases List.mem_append.mp hev with hev | hev <;> obtain ⟨piece, -, rfl⟩ := List.mem_map.mp hev <;>
    rfl

theorem start_collects (kind : MessageKind) (pieces : List Bytes) :
    ∀ ev ∈ pieces.map kind.start, ev.collects = true := by
  intro ev hev
  obtain ⟨piece, -, rfl⟩ := List.mem_map.mp hev
  cases kind <;> rfl

theorem Collected.headers {c₀ c : Http1Codec} {m : HeaderMap} (h : Collected c₀ c m)
    (headers : List CutHeader) :
    Collected c₀ ((headers.flatMap CutHeader.events).foldl absorb c)
      (headers.foldl (fun m h => HeaderMap.set m h.names.flatten h.values.flatten) m) := by
  induction headers generalizing c m with
  | nil => exact h
  | cons l rest ih =>
    rw [List.flatMap_cons, List.foldl_append]
    exact ih (h.header l.named l.valued)

end Http1Codec

/-- The head that a message has however it is cut. There is none where the host
of a request throws. -/
def CutMessage.head (kind : MessageKind) (m : CutMessage) : Option MessageHead :=
  match kind with
  | .request => (Http1Codec.findHost (Http1Codec.requestHead
      { url := m.start.flatten, headers := CutHeader.collect m.headers } m.info)).map .request
  | .response => some (.response (Http1Codec.responseHead
      { reason := m.start.flatten, headers := CutHeader.collect m.headers } m.info))

theorem CutMessage.head_whole (kind : MessageKind) (m : CutMessage) :
    m.whole.head kind = m.head kind := by
  cases kind <;> simp [head, whole, CutHeader.collect_whole]

namespace Http1Codec

/-- The spans of a head leave its texts joined in the codec. -/
theorem head_collected {c : Http1Codec} {kind : MessageKind} (h : c.type = kind.type)
    (m : CutMessage) :
    let d := ((m.start.map kind.start ++ m.headers.flatMap CutHeader.events).foldl absorb
      c.onMessageBegin).finishHeader
    d.type = kind.type ∧
      (kind = .request → d.currentRequest_ =
        { url := m.start.flatten, headers := CutHeader.collect m.headers }) ∧
      (kind = .response → d.currentResponse_ =
        { reason := m.start.flatten, headers := CutHeader.collect m.headers }) := by
  set c₀ := (m.start.map kind.start).foldl absorb c.onMessageBegin with hc₀
  have hstart : c₀ = match kind with
      | .request => { c.onMessageBegin with currentRequest_.url := m.start.flatten }
      | .response => { c.onMessageBegin with currentResponse_.reason := m.start.flatten } := by
    cases kind with
    | request => exact (onUrl_foldl m.start c.onMessageBegin).trans (by simp [onMessageBegin])
    | response => exact (onStatus_foldl m.start c.onMessageBegin).trans (by simp [onMessageBegin])
  have h₀ : Collected c₀ c₀ {} := by
    rw [hstart]
    cases kind <;> exact ⟨rfl, rfl, rfl, fun _ => rfl, fun _ => rfl⟩
  have htype : c₀.type = kind.type := by
    rw [hstart]
    cases kind <;> exact h
  have hall := h₀.headers m.headers
  rw [List.foldl_append, hall.finishHeader]
  refine ⟨hall.type.trans htype, fun hk => ?_, fun hk => ?_⟩
  · subst hk
    rw [hall.request htype, hstart]
    rfl
  · subst hk
    rw [hall.response htype, hstart]
    rfl

theorem handle_complete {c d : Http1Codec} {info : HeadInfo} {call : Emission}
    (h : c.onHeadersComplete info = some (d, call)) :
    c.handle (.headersComplete info) = some (d, [call]) := by
  simp [handle, h]

/-- The end of a head tells the owner the head that its spans make. -/
theorem feed_head {c : Http1Codec} {kind : MessageKind} (h : c.type = kind.type)
    (m : CutMessage) :
    match m.head kind with
    | none => c.onMessageBegin.feed (m.start.map kind.start ++
        m.headers.flatMap CutHeader.events ++ [.headersComplete m.info]) = ([], none)
    | some head => ∃ d, d.type = kind.type ∧ c.onMessageBegin.feed (m.start.map kind.start ++
        m.headers.flatMap CutHeader.events ++ [.headersComplete m.info]) =
          ([head.emission], some d) := by
  obtain ⟨htype, hreq, hresp⟩ := head_collected h m
  have hspans := feed_collects (List.forall_mem_append.mpr
    ⟨start_collects kind m.start, headers_collect m.headers⟩) c.onMessageBegin
  set d := (m.start.map kind.start ++ m.headers.flatMap CutHeader.events).foldl absorb
    c.onMessageBegin with hd
  rw [finishHeader_type] at htype
  rw [feed_append, hspans]
  cases kind with
  | request =>
    have hc := onHeadersComplete_request htype m.info
    rw [hreq rfl] at hc
    simp only [CutMessage.head]
    cases hf : findHost (requestHead
        { url := m.start.flatten, headers := CutHeader.collect m.headers } m.info) with
    | none =>
      rw [hf, Option.map_none] at hc
      simp [feed, handle, hc]
    | some req =>
      rw [hf, Option.map_some] at hc
      have hh := handle_complete hc
      refine ⟨_, (handle_type hh).trans htype, ?_⟩
      simp only [feed, hh]
      rfl
  | response =>
    have hc := onHeadersComplete_response (fun hr => absurd (htype.symm.trans hr) (by decide))
      m.info
    rw [hresp rfl] at hc
    have hh := handle_complete hc
    refine ⟨_, (handle_type hh).trans htype, ?_⟩
    simp only [feed, hh]
    rfl

/-- What one message makes a codec tell its owner, whatever came before it. -/
theorem receive_eq {c : Http1Codec} {kind : MessageKind} (h : c.Serves kind) (m : CutMessage) :
    match m.head kind with
    | none => c.receive kind m = ([], none)
    | some head => ∃ d, d.Serves kind ∧ c.receive kind m =
        (head.emission :: bodyCalls m.body ++ [.body {} true, .messageComplete], some d) := by
  have hbegin : c.onMessageBegin.detect kind = (c.detect kind).onMessageBegin := by
    unfold detect onMessageBegin
    split <;> rfl
  have hhead := feed_head (detect_type h) m
  simp only [receive, hbegin, CutMessage.spans]
  cases hm : m.head kind with
  | none =>
    simp only [hm] at hhead
    simp only [List.append_assoc] at hhead ⊢
    rw [← List.append_assoc _ [_], ← List.append_assoc, feed_append, hhead]
  | some head =>
    simp only [hm] at hhead
    obtain ⟨d, hd, hfeed⟩ := hhead
    have hrest : d.feed (m.body.map .body ++ m.trailers.flatMap CutHeader.events ++
        [.messageComplete]) = (bodyCalls m.body ++ [.body {} true, .messageComplete],
          some ((m.trailers.flatMap CutHeader.events).foldl absorb d)) := by
      rw [feed_append, feed_append, feed_body]
      simp [feed_collects (headers_collect m.trailers), feed, handle]
    refine ⟨_, .inl ((feed_type hrest).trans hd), ?_⟩
    rw [List.append_assoc, List.append_assoc, feed_append, hfeed]
    dsimp only
    rw [← List.append_assoc, hrest]
    rfl

end Http1Codec

namespace Transcript

/-- The transcript between two messages. -/
def resting (complete : List (MessageHead × Bytes)) : Transcript := { complete := complete }

theorem record_head (done : List (MessageHead × Bytes)) (head : MessageHead) :
    (resting done).record head.emission = some { complete := done, current := some (head, []) } := by
  cases head <;> rfl

/-- The pieces of a body are joined. -/
theorem record_body (done : List (MessageHead × Bytes)) (head : MessageHead) (data : Bytes)
    (pieces : List Bytes) :
    (Http1Codec.bodyCalls pieces).foldlM record
        { complete := done, current := some (head, data) } =
      some { complete := done, current := some (head, data ++ pieces.flatten) } := by
  induction pieces generalizing data with
  | nil => simp [Http1Codec.bodyCalls]
  | cons piece rest ih =>
    have hpiece : (({} : Buffer).add piece).linearize = piece :=
      (Buffer.proper_empty.add piece).2
    have hstep : record { complete := done, current := some (head, data) }
        (.body (({} : Buffer).add piece) false) =
          some { complete := done, current := some (head, data ++ piece) } := by
      simp [record, hpiece]
    have hcalls : Http1Codec.bodyCalls (piece :: rest) =
        .body (({} : Buffer).add piece) false :: Http1Codec.bodyCalls rest := rfl
    rw [hcalls, List.foldlM_cons, hstep]
    simpa using ih (data ++ piece)

/-- The calls for one message complete it. -/
theorem record_message (done : List (MessageHead × Bytes)) (head : MessageHead)
    (pieces : List Bytes) :
    (head.emission :: Http1Codec.bodyCalls pieces ++
      [Emission.body {} true, .messageComplete]).foldlM record (resting done) =
        some (resting (done ++ [(head, pieces.flatten)])) := by
  have hbody := record_body done head [] pieces
  rw [List.nil_append] at hbody
  rw [List.cons_append, List.foldlM_cons, record_head]
  simp only [Option.bind_eq_bind, Option.bind_some, List.foldlM_append, hbody]
  simp [record, resting, Buffer.linearize]

end Transcript

namespace Http1Codec

/-- The transcripts of messages on one codec and on codecs of their own. -/
theorem receiveAll_transcript {kind : MessageKind} (ms : List CutMessage) {c : Http1Codec}
    (h : c.Serves kind) (done : List (MessageHead × Bytes)) :
    ∃ delivered,
      (c.receiveAll kind ms).1.foldlM Transcript.record (.resting done) =
        some (.resting delivered) ∧
      (receiveApart kind ms).1.foldlM Transcript.record (.resting done) =
        some (.resting delivered) ∧
      (c.receiveAll kind ms).2.isSome = (receiveApart kind ms).2 := by
  induction ms generalizing c done with
  | nil => exact ⟨done, rfl, rfl, rfl⟩
  | cons m rest ih =>
    have hcut := receive_eq h m
    have hwhole := receive_eq (c := { type := kind.type }) (.inl rfl) m.whole
    rw [CutMessage.head_whole] at hwhole
    cases hm : m.head kind with
    | none =>
      simp only [hm] at hcut hwhole
      refine ⟨done, ?_, ?_, ?_⟩ <;> simp [receiveAll, receiveApart, hcut, hwhole]
    | some head =>
      simp only [hm] at hcut hwhole
      obtain ⟨d, hd, hcut⟩ := hcut
      obtain ⟨_, -, hwhole⟩ := hwhole
      have hbody : m.whole.body.flatten = m.body.flatten := by simp [CutMessage.whole]
      obtain ⟨delivered, h₁, h₂, h₃⟩ := ih hd (done ++ [(head, m.body.flatten)])
      refine ⟨delivered, ?_, ?_, ?_⟩
      · simp only [receiveAll, hcut]
        rw [List.foldlM_append, Transcript.record_message]
        exact h₁
      · simp only [receiveApart, hwhole]
        rw [List.foldlM_append, Transcript.record_message, hbody]
        exact h₂
      · simp only [receiveAll, receiveApart, hcut, hwhole]
        exact h₃

end Http1Codec

open Http1Codec

/-- Whatever the cuts, and whatever messages came before on the codec, its owner
is told in order what it is told when every message comes in whole spans to a
codec of its own, and each body ends exactly once, after its last data. -/
theorem messages_independent_of_cuts {c : Http1Codec} {kind : MessageKind} (h : c.Serves kind)
    (ms : List CutMessage) :
    ∃ t, transcript (c.receiveAll kind ms).1 = some t ∧
      transcript (receiveApart kind ms).1 = some t ∧ t.current = none ∧
      (c.receiveAll kind ms).2.isSome = (receiveApart kind ms).2 := by
  obtain ⟨delivered, h₁, h₂, h₃⟩ := receiveAll_transcript ms h []
  exact ⟨.resting delivered, h₁, h₂, rfl, h₃⟩

/-- A chunked answer with a trailer, cut inside of its names, values and body. -/
def cutAnswer : CutMessage where
  start := [text "O", text "K"]
  headers := [
    { names := [text "Trans", text "fer-Encoding"], values := [text "", text "chunked"]
      named := by decide, valued := by decide }]
  info := { status_code := 200, chunked := true }
  body := [text "a", text "", text "bc"]
  trailers := [
    { names := [text "Digest"], values := [text "x", text "y"]
      named := by decide, valued := by decide }]

theorem messages_independent_of_cuts_both :
    ∃ t, transcript (receiveAll .response { type := .both } [cutAnswer, cutAnswer]).1 = some t ∧
      transcript (receiveApart .response [cutAnswer, cutAnswer]).1 = some t ∧ t.current = none ∧
      (receiveAll .response { type := .both } [cutAnswer, cutAnswer]).2.isSome =
        (receiveApart .response [cutAnswer, cutAnswer]).2 :=
  messages_independent_of_cuts (c := { type := .both }) (.inr rfl) [cutAnswer, cutAnswer]

end DeepSeer
