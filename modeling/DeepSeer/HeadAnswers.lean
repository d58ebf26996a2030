import DeepSeer.HeadDecoding
import DeepSeer.HttpFraming
import DeepSeer.RelayedAnswers

/-!
Answers to `HEAD` requests in an interception. The codec of the upstream does not
know what the responses answer: its callback for a complete head never tells the
parser to skip the body, so every response has the body that its head announces.
-/
namespace DeepSeer

open ByteMemory ByteText HttpWire Http1Codec

/-- The requests that went to the upstream since the last connect. -/
def forwardedSince (log : List Note) : List HttpRequest :=
  ((sinceConnect log).filterMap fun n =>
    match n with
    | .forwarded req _ => some req
    | _ => none).reverse

/-- The head that the session receives for a head on the wire. -/
def seenHead (head : Head) : HttpResponse :=
  match readStatusLine head.start with
  | some ((major, minor), status, reason) =>
    { statusCode := status, reason := reason, versionMajor := major, versionMinor := minor
      headers := headersOfFields head.fields, hasBody := true }
  | none => {}

/-- One more call of the upstream codec: a head, or data for the last head. The
latest head is first. -/
def tell (told : List (HttpResponse × Bytes)) : Emission → List (HttpResponse × Bytes)
  | .response resp => (resp, []) :: told
  | .body data _ =>
    match told with
    | [] => []
    | (resp, body) :: before => (resp, body ++ data.linearize) :: before
  | .request _ | .messageComplete => told

/-- The heads that the session is told for callbacks of the upstream parser, each
with its body data. -/
def deliveries (events : List ParserEvent) : List (HttpResponse × Bytes) :=
  ((feed { type := .response } events).1.foldl tell []).reverse

/-- What the client of an interception is written for a head and its body. -/
def relayed (resp : HttpResponse) (body : Bytes) : Bytes :=
  encodedResponse (Session.stripFraming true resp) ++ body

/-- Callbacks of a parser for responses with the bodies that it gives them. All
but the last are complete; of the last at least the head is. -/
inductive ParsedAs : List (Head × Bytes) → List ParserEvent → Prop
  | nothing : ParsedAs [] []
  | last {m : CutMessage} {seen : List ParserEvent} {head : Head} {body : Bytes}
      (hresp : m.response = seenHead head) (hseen : seen <+: m.answer)
      (hhead : .headersComplete m.info ∈ seen) (hbody : bodyOf seen = body) :
      ParsedAs [(head, body)] seen
  | next {m : CutMessage} {head : Head} {body : Bytes} {found : List (Head × Bytes)}
      {events : List ParserEvent} (hresp : m.response = seenHead head)
      (hbody : m.body.flatten = body) (hrest : ParsedAs found events) :
      ParsedAs ((head, body) :: found) (m.answer ++ events)

/-- Body data goes to the last head. -/
theorem tell_headless {calls : List Emission} (h : ∀ call ∈ calls, call.headless = true)
    (resp : HttpResponse) (body : Bytes) (told : List (HttpResponse × Bytes)) :
    calls.foldl tell ((resp, body) :: told) =
      (resp, body ++ calls.flatMap (handed true)) :: told := by
  induction calls generalizing body with
  | nil => simp
  | cons call rest ih =>
    obtain ⟨hcall, hrest⟩ := List.forall_mem_cons.mp h
    rw [List.foldl_cons, List.flatMap_cons]
    cases call with
    | request => exact absurd hcall (by simp [Emission.headless])
    | response => exact absurd hcall (by simp [Emission.headless])
    | body data endStream =>
      rw [← List.append_assoc]
      exact ih hrest (body ++ data.linearize)
    | messageComplete =>
      rw [show handed true .messageComplete = [] from rfl, List.nil_append]
      exact ih hrest body

theorem bodyOf_answer (m : CutMessage) : bodyOf m.answer = m.body.flatten := by
  rw [m.answer_eq, bodyOf_append, bodyOf_collects m.front_collects]
  exact m.bodyOf_back

/-- The head of an answer and its data that has come, on any codec. -/
theorem feed_told {c : Http1Codec} (h : c.type = .response) {m : CutMessage}
    {seen : List ParserEvent} (hs : seen <+: m.answer) (hhead : .headersComplete m.info ∈ seen) :
    ∃ calls d, c.feed seen = (calls, some d) ∧
      (∀ told, calls.foldl tell told = (m.response, bodyOf seen) :: told) ∧
      calls.flatMap (handed true) = relayed m.response (bodyOf seen) := by
  obtain ⟨calls, d, hf, hall, hc⟩ := feed_seen true h hs hhead
  refine ⟨_, d, hf, fun told => ?_, ?_⟩
  · rw [List.foldl_cons, tell, tell_headless hall, hc, List.nil_append]
  · rw [List.flatMap_cons, hc]
    rfl

namespace ParsedAs

/-- The session is told every response with the body that the parser gives it. -/
theorem feed {found : List (Head × Bytes)} {events : List ParserEvent}
    (h : ParsedAs found events) {c : Http1Codec} (ht : c.type = .response) :
    ∃ calls d, c.feed events = (calls, some d) ∧
      (∀ told, calls.foldl tell told =
        (found.map fun p => (seenHead p.1, p.2)).reverse ++ told) ∧
      calls.flatMap (handed true) = found.flatMap fun p => relayed (seenHead p.1) p.2 := by
  induction h generalizing c with
  | nothing => exact ⟨[], c, rfl, fun _ => rfl, rfl⟩
  | last hresp hseen hhead hbody =>
    obtain ⟨calls, d, hf, htold, hc⟩ := feed_told ht hseen hhead
    rw [hresp, hbody] at htold hc
    exact ⟨calls, d, hf, htold, by simpa using hc⟩
  | @next m head body found events hresp hbody hrest ih =>
    obtain ⟨calls, d, hf, htold, hc⟩ := feed_told ht (List.prefix_refl m.answer)
      (by simp [m.answer_eq])
    rw [hresp, bodyOf_answer, hbody] at htold hc
    obtain ⟨more, last, hf', htold', hc'⟩ := ih ((feed_type hf).trans ht)
    refine ⟨calls ++ more, last, ?_, fun told => ?_, ?_⟩
    · rw [feed_append, hf]
      simp [hf']
    · rw [List.foldl_append, htold, htold']
      simp
    · rw [List.flatMap_append, hc, hc', List.flatMap_cons]

theorem deliveries {found : List (Head × Bytes)} {events : List ParserEvent}
    (h : ParsedAs found events) :
    deliveries events = found.map fun p => (seenHead p.1, p.2) := by
  obtain ⟨calls, d, hf, htold, -⟩ := h.feed (c := { type := .response }) rfl
  rw [DeepSeer.deliveries, hf, htold []]
  simp

theorem delivered {found : List (Head × Bytes)} {events : List ParserEvent}
    (h : ParsedAs found events) :
    delivered true events = (DeepSeer.deliveries events).flatMap fun p => relayed p.1 p.2 := by
  obtain ⟨calls, d, hf, -, hc⟩ := h.feed (c := { type := .response }) rfl
  rw [Http1Codec.delivered, hf, h.deliveries, List.flatMap_map]
  exact hc

end ParsedAs

/-- The session is told each of the answers with its own body exactly when the
answers to `HEAD` announce none, unless they are last. -/
theorem deliveries_iff {sent : List Answer} {events : List ParserEvent}
    (h : ParsedAs (frames (sent.flatMap Answer.wire)) events) :
    deliveries events = sent.map (fun a => (seenHead a.head.received, a.content)) ↔
      Answer.HeadsAnnounceNone sent := by
  rw [h.deliveries]
  constructor
  · intro heq
    have hbodies := congrArg (List.map Prod.snd) heq
    rw [List.map_map, List.map_map] at hbodies
    exact (Answer.frames_iff sent).mp hbodies
  · intro hnone
    rw [frames, Answer.framed_sent hnone (by have := Answer.flatMap_wire_length sent; omega),
      List.map_map]
    rfl

/-- Since its connect, an interception has been answered by an upstream that
follows HTTP/1.1, answer by answer to the requests that went to it. While the
client hears the session, it is written the responses that the session is told,
each as its head and its body. The session is told the answers that were sent,
each with its own body, exactly when no answer to a `HEAD` announces a body,
unless nothing comes after it. -/
theorem answers_own_bodies_iff {w : World} {s : Session} (h : Reachable w s)
    (hlate : s.log.any Note.lateConnect = false) (htunnel : s.isTunnel_ = false)
    {id : Nat} (hid : s.tlsClient_ = some id) {t : TlsConnection} (ht : s.tls[id]? = some t)
    {sent : List Answer} (hasked : sent.map Answer.toHead <+:
      (forwardedSince s.log).map fun req => decide (req.method = .HEAD))
    (hparsed : ParsedAs (frames (sent.flatMap Answer.wire)) (heardAnswers s.log)) :
    (s.closed_ = false → t.closed_ = false → answeredItself s.log = false →
      t.written = (deliveries (heardAnswers s.log)).flatMap fun p => relayed p.1 p.2) ∧
    (deliveries (heardAnswers s.log) =
        sent.map (fun a => (seenHead a.head.received, a.content)) ↔
      ∀ (k : Nat) (a : Answer), sent[k]? = some a → k + 1 < sent.length →
        (forwardedSince s.log)[k]?.any (fun req => decide (req.method = .HEAD)) = true →
          a.AnnouncesNone) := by
  constructor
  · intro ho hc he
    rw [h.tapped hlate htunnel hid ht ho hc he, hparsed.delivered]
  · rw [deliveries_iff hparsed]
    have hmethod : ∀ (k : Nat) (a : Answer), sent[k]? = some a →
        (forwardedSince s.log)[k]?.any (fun req => decide (req.method = .HEAD)) = a.toHead := by
      intro k a ha
      obtain ⟨hk, rfl⟩ := List.getElem?_eq_some_iff.mp ha
      have hget := hasked.getElem (i := k) (by simpa using hk)
      have hlen := hasked.length_le
      simp only [List.length_map] at hlen
      simp only [List.getElem_map] at hget
      rw [List.getElem?_eq_getElem (by omega), Option.any_some, hget]
    constructor
    · intro hnone k a ha hk hhead
      exact hnone k a ha hk ((hmethod k a ha).symm.trans hhead)
    · intro hnone k a ha hk hhead
      exact hnone k a ha hk ((hmethod k a ha).trans hhead)

/-- A request in an interception. -/
def asked (method : Bytes) : SessionEvent :=
  decrypted 7 (requestEvents [text "/"] [.host]
    { method := method } ++ [.messageComplete])

/-- The answer to a `HEAD`, and the answer to a `GET` that is as long on the wire
as the first announces its body to be. -/
def headAnswer : Answer where
  toHead := true
  head := ⟨text "HTTP/1.1 200 OK", [(text "Content-Length", text "39")]⟩
  coded := []
  content := []
  clean := ⟨by decide, by decide⟩
  status := by decide
  conforms := by decide

def getAnswer : Answer where
  toHead := false
  head := ⟨text "HTTP/1.1 200 OK", [(text "Content-Length", text "1")]⟩
  coded := text "a"
  content := text "a"
  clean := ⟨by decide, by decide⟩
  status := by decide
  conforms := by decide

/-- What the parser makes of the answer to the `GET`. -/
def parsedGet : CutMessage where
  start := [text "OK"]
  headers := [HeaderLine.cut .oneByte]
  info := { status_code := 200, content_length := 1 }
  body := [text "a"]
  trailers := []

/-- What it makes of the answer to the `HEAD` with the other behind it. -/
def parsedHead : CutMessage where
  start := [text "OK"]
  headers := [HeaderLine.cut (.whole (text "Content-Length") (text "39") (by decide))]
  info := { status_code := 200, content_length := 39 }
  body := [getAnswer.wire]
  trailers := []

/-- An interception with a `GET` and a `HEAD` after it. -/
def headLast : Session :=
  (sessionRun waitingWorld (.ok (Session.start 7 true false))
    (intercepted ++ [asked (text "GET"), decrypted 10 parsedGet.answer,
      asked (text "HEAD"), decrypted 10 (parsedHead.front ++ [.headersComplete parsedHead.info])])).session

theorem answers_own_bodies_head_last :
    (headLast.closed_ = false → (headLast.tls[1]?.get (by decide +kernel)).closed_ = false →
      answeredItself headLast.log = false →
      (headLast.tls[1]?.get (by decide +kernel)).written =
        (deliveries (heardAnswers headLast.log)).flatMap fun p => relayed p.1 p.2) ∧
    (deliveries (heardAnswers headLast.log) =
        [getAnswer, headAnswer].map (fun a => (seenHead a.head.received, a.content)) ↔
      ∀ (k : Nat) (a : Answer), [getAnswer, headAnswer][k]? = some a →
        k + 1 < [getAnswer, headAnswer].length →
        (forwardedSince headLast.log)[k]?.any (fun req => decide (req.method = .HEAD)) = true →
          a.AnnouncesNone) :=
  answers_own_bodies_iff (w := waitingWorld) (s := headLast)
    (Session.reachable_session (by decide +kernel)) (by decide +kernel) (by decide +kernel)
    (show headLast.tlsClient_ = some 1 by decide +kernel) (Option.some_get _).symm
    (by decide +kernel)
    (by
      have hframes : frames ([getAnswer, headAnswer].flatMap Answer.wire) =
          [(getAnswer.head.received, text "a"), (headAnswer.head.received, [])] := by
        decide +kernel
      have hheard : heardAnswers headLast.log = parsedGet.answer ++
          (parsedHead.front ++ [.headersComplete parsedHead.info]) := by
        decide +kernel
      rw [hframes, hheard]
      refine .next (by decide +kernel) rfl (.last (m := parsedHead) (by decide +kernel) ?_ ?_ ?_)
      · exact ⟨parsedHead.back, by rw [CutMessage.answer_eq, List.append_assoc]; rfl⟩
      · simp
      · decide +kernel)

/-- An interception with a `HEAD` and a `GET` after it. -/
def headFirst : Session :=
  (sessionRun waitingWorld (.ok (Session.start 7 true false))
    (intercepted ++ [asked (text "HEAD"),
      decrypted 10 (parsedHead.front ++ [.headersComplete parsedHead.info]),
      asked (text "GET"), decrypted 10 parsedHead.back])).session

/-- The response to the `GET` is taken for the body of the response to the `HEAD`
before it. -/
theorem answer_taken_for_body :
    (forwardedSince headFirst.log).map (·.method) = [.HEAD, .GET] ∧
      ParsedAs (frames ([headAnswer, getAnswer].flatMap Answer.wire)) (heardAnswers headFirst.log) ∧
      headFirst.closed_ = false ∧
      deliveries (heardAnswers headFirst.log) =
        [(seenHead headAnswer.head.received, getAnswer.wire)] ∧
      deliveries (heardAnswers headFirst.log) ≠
        [headAnswer, getAnswer].map fun a => (seenHead a.head.received, a.content) := by
  obtain ⟨hmethods, hopen, hheard, hdeliveries⟩ :
      (forwardedSince headFirst.log).map (·.method) = [.HEAD, .GET] ∧
        headFirst.closed_ = false ∧ heardAnswers headFirst.log = parsedHead.answer ∧
        deliveries (heardAnswers headFirst.log) =
          [(seenHead headAnswer.head.received, getAnswer.wire)] := by
    decide +kernel
  have hframes : frames ([headAnswer, getAnswer].flatMap Answer.wire) =
      [(headAnswer.head.received, getAnswer.wire)] := by
    decide +kernel
  refine ⟨hmethods, ?_, hopen, hdeliveries, ?_⟩
  · rw [hframes, hheard]
    exact .last (m := parsedHead) (by decide +kernel) (List.prefix_refl _) (by decide +kernel)
      (by decide +kernel)
  · rw [hdeliveries]
    decide +kernel

end DeepSeer
