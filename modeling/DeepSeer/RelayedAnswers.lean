import DeepSeer.HeaderValues
import DeepSeer.Interceptions

/-!
How the TLS client of an intercepted session reads what it was handed for whole
answers. Their heads go out without `Transfer-Encoding`, and the body data as the
parser hands it over.
-/
namespace DeepSeer

open ByteMemory ByteText HttpWire Http1Codec Session

namespace HeaderLine

def cut (l : HeaderLine) : CutHeader := ⟨l.names, l.values, l.clean.named, l.valued⟩

end HeaderLine

/-- A response as an upstream sends it, cut as its bytes happen to arrive. -/
structure SentAnswer where
  reasons : List Bytes
  lines : List HeaderLine
  info : HeadInfo
  body : List Bytes
  trailers : List CutHeader
  oneLine : 13 ∉ reasons.flatten
  digits : 100 ≤ info.status_code.toNat ∧ info.status_code.toNat ≤ 999

namespace SentAnswer

def cut (a : SentAnswer) : CutMessage where
  start := a.reasons
  headers := a.lines.map HeaderLine.cut
  info := a.info
  body := a.body
  trailers := a.trailers

def status (a : SentAnswer) : Nat := a.info.status_code.toNat

def fields (a : SentAnswer) : List Field := a.lines.map HeaderLine.field

def content (a : SentAnswer) : Bytes := a.body.flatten

/-- The last length that the response announces. -/
def announced (a : SentAnswer) : Option Nat :=
  (fieldValues (text "Content-Length") a.fields).getLast?.bind lengthValue

/-- The response is framed by its length or by chunks, unless its status rules a
body out. -/
def Framed (a : SentAnswer) : Prop :=
  if bodiless a.status then a.content = []
  else framing a.fields = .chunked ∨ framing a.fields = .length a.content.length

/-- The response announces the length of its body, or has none by its status. -/
def Delimited (a : SentAnswer) : Prop :=
  bodiless a.status = true ∨ a.announced = some a.content.length

instance (a : SentAnswer) : Decidable a.Framed := by unfold Framed; infer_instance

instance (a : SentAnswer) : Decidable a.Delimited := by unfold Delimited; infer_instance

/-- The head that the session receives. -/
def response (a : SentAnswer) : HttpResponse := describedResponse a.reasons a.lines a.info

theorem cut_response (a : SentAnswer) : a.cut.response = a.response := by
  have hheaders : CutHeader.collect (a.lines.map HeaderLine.cut) = headersOf a.lines := by
    rw [CutHeader.collect, List.foldl_map]
    rfl
  simp only [CutMessage.response, cut, response, describedResponse, hheaders]

/-- What the client is handed for the whole answer. -/
def handed (a : SentAnswer) : Bytes := a.cut.handedWhole true

theorem handed_eq (a : SentAnswer) :
    a.handed = encodedResponse (stripFraming true a.response) ++ a.content := by
  rw [handed, CutMessage.handedWhole, cut_response]
  rfl

end SentAnswer

/-- The status of a head that the session writes is read back. -/
theorem statusOf_start {resp : HttpResponse} (h : 100 ≤ resp.statusCode)
    (h' : resp.statusCode ≤ 999) : statusOf (statusStart resp) = some resp.statusCode := by
  have hsp : text " " = [32] := by decide
  have hstart : statusStart resp = versionText resp.versionMajor resp.versionMinor ++ 32 ::
      (decimal resp.statusCode ++ 32 :: resp.reason) := by
    simp [statusStart, hsp]
  have hversion := find_split (c := 32)
    (not_mem_versionText (.inr rfl) resp.versionMajor resp.versionMinor)
    (decimal resp.statusCode ++ 32 :: resp.reason)
  have htake : (decimal resp.statusCode ++ 32 :: resp.reason).takeWhile isDigit =
      decimal resp.statusCode := by
    rw [List.takeWhile_append_of_pos (by simpa using decimal_digits resp.statusCode)]
    simp [show isDigit 32 = false by decide]
  simp only [statusOf, hstart, hversion, Option.bind_eq_bind, Option.bind_some, drop_split, htake,
    decimal_length h h', if_true, digitsValue_decimal]

namespace SentAnswer

/-- The head that is handed over is read back. -/
theorem readHead_handed (a : SentAnswer) (rest : Bytes) :
    readHead (a.handed ++ rest) = some (⟨statusStart (stripFraming true a.response),
      HeaderMap.fields (stripFraming true a.response).headers⟩, a.content ++ rest) := by
  have hclean : HeaderMap.Clean (stripFraming true a.response).headers :=
    stripFraming_clean true (headersOf_clean a.lines)
  have hreason : 13 ∉ (stripFraming true a.response).reason := a.oneLine
  rw [handed_eq, List.append_assoc]
  exact readHead_response hreason hclean (a.content ++ rest)

theorem status_handed (a : SentAnswer) :
    statusOf (statusStart (stripFraming true a.response)) = some a.status :=
  statusOf_start a.digits.1 a.digits.2

/-- The head that is handed over frames the body by the announced length. -/
theorem framing_handed (a : SentAnswer) :
    framing (HeaderMap.fields (stripFraming true a.response).headers) =
      (a.announced.map Framing.length).getD .unframed := by
  have hcoding : fieldValues (text "Transfer-Encoding")
      (HeaderMap.fields (stripFraming true a.response).headers) = [] := by
    simp [HeaderMap.fieldValues_fields, stripFraming, HeaderMap.get_remove]
  have hlength : fieldValues (text "Content-Length")
      (HeaderMap.fields (stripFraming true a.response).headers) =
        (fieldValues (text "Content-Length") a.fields).getLast?.toList := by
    have hkeep : (HeadKind.response true).removes (text "Content-Length") = false := by decide
    rw [HeaderMap.fieldValues_fields, stripFraming_get a.response hkeep,
      ← HeaderMap.fieldValues_fields]
    exact fieldValues_headersOf a.lines (text "Content-Length")
  unfold framing announced
  rw [hcoding, hlength]
  cases (fieldValues (text "Content-Length") a.fields).getLast? with
  | none => rfl
  | some value => rfl

/-- The reader takes one answer, with the body that its head frames. -/
theorem readResponses_handed (a : SentAnswer) (n : Nat) (rest : Bytes) :
    readResponses (n + 1) (a.handed ++ rest) =
      (if bodiless a.status then some ([], a.content ++ rest)
        else readBody ((a.announced.map Framing.length).getD .unframed) (a.content ++ rest)).bind
      fun r => (readResponses n r.2).map ((a.status, r.1) :: ·) := by
  have hhead := a.readHead_handed rest
  have hne : a.handed ++ rest ≠ [] := by
    intro hnil
    rw [hnil] at hhead
    exact absurd hhead (by simp [readHead, cutLine])
  simp only [readResponses, if_neg hne, hhead, a.status_handed, a.framing_handed,
    Option.bind_eq_bind, Option.bind_some]
  split
  · simp only [Option.bind_some]
    cases readResponses n (a.content ++ rest) <;> rfl
  · cases readBody ((a.announced.map Framing.length).getD .unframed) (a.content ++ rest) with
    | none => rfl
    | some r =>
      simp only [Option.bind_some]
      cases readResponses n r.2 <;> rfl

/-- An answer that is delimited is read with its own body. -/
theorem Delimited.read {a : SentAnswer} (h : a.Delimited) (hf : a.Framed) (n : Nat)
    (rest : Bytes) : readResponses (n + 1) (a.handed ++ rest) =
      (readResponses n rest).map ((a.status, a.content) :: ·) := by
  rw [readResponses_handed]
  unfold Framed at hf
  by_cases hb : bodiless a.status = true
  · rw [if_pos hb] at hf
    simp [hb, hf]
  · have ha : a.announced = some a.content.length := h.resolve_left hb
    simp [hb, ha, readBody]

/-- An answer that is not delimited is read with another body, or not at all. -/
theorem Delimited.of_read {a : SentAnswer} {n : Nat} {rest : Bytes}
    {answers : List (Nat × Bytes)}
    (h : readResponses (n + 1) (a.handed ++ rest) = some ((a.status, a.content) :: answers)) :
    a.Delimited := by
  rw [readResponses_handed] at h
  by_cases hb : bodiless a.status = true
  · exact .inl hb
  obtain ⟨⟨body, after⟩, hbody, hmore⟩ := Option.bind_eq_some_iff.mp h
  obtain ⟨more, -, heq⟩ := Option.map_eq_some_iff.mp hmore
  have hcontent : body = a.content := by
    simp only [List.cons.injEq, Prod.mk.injEq] at heq
    exact heq.1.2
  rw [if_neg hb] at hbody
  cases ha : a.announced with
  | none => simp [ha, readBody] at hbody
  | some k =>
    simp only [ha, Option.map_some, Option.getD_some, readBody] at hbody
    split at hbody
    · next hle =>
      simp only [Option.some.injEq, Prod.mk.injEq] at hbody
      have hlen : k = a.content.length := by
        rw [← hcontent, ← hbody.1, List.length_take]
        omega
      exact .inr (ha.trans (congrArg some hlen))
    · exact absurd hbody (by simp)

/-- The answers are read one by one exactly when each is delimited. -/
theorem read_iff {answers : List SentAnswer} (hf : ∀ a ∈ answers, a.Framed) :
    (∃ n, readResponses n (answers.flatMap handed) =
      some (answers.map fun a => (a.status, a.content))) ↔ ∀ a ∈ answers, a.Delimited := by
  induction answers with
  | nil => simp only [List.not_mem_nil, false_imp_iff, implies_true, iff_true]; exact ⟨1, rfl⟩
  | cons a rest ih =>
    obtain ⟨hfa, hfrest⟩ := List.forall_mem_cons.mp hf
    rw [List.forall_mem_cons, ← ih hfrest, List.flatMap_cons, List.map_cons]
    constructor
    · rintro ⟨_ | n, h⟩
      · exact absurd h (by simp [readResponses])
      · have ha := Delimited.of_read h
        rw [ha.read hfa] at h
        obtain ⟨more, hmore, heq⟩ := Option.map_eq_some_iff.mp h
        exact ⟨ha, n, hmore.trans (congrArg some (List.tail_eq_of_cons_eq heq))⟩
    · rintro ⟨ha, n, h⟩
      exact ⟨n + 1, by rw [ha.read hfa, h]; rfl⟩

end SentAnswer

/-- While session and client are open, the TLS client of an interception reads
the answers that the upstream has sent since, each with its status and body,
exactly when each announces the length of its body or has none by its status:
what `Transfer-Encoding` alone delimited is not delimited any more. -/
theorem relayed_answers_read_iff {w : World} {s : Session} (h : Reachable w s)
    (hlate : s.log.any Note.lateConnect = false) (htunnel : s.isTunnel_ = false)
    {id : Nat} (hid : s.tlsClient_ = some id) {t : TlsConnection} (ht : s.tls[id]? = some t)
    (ho : s.closed_ = false) (hc : t.closed_ = false) (he : answeredItself s.log = false)
    {answers : List SentAnswer}
    (hsent : heardAnswers s.log = answers.flatMap fun a => a.cut.answer)
    (hframed : ∀ a ∈ answers, a.Framed) :
    (∃ n, readResponses n t.written = some (answers.map fun a => (a.status, a.content))) ↔
      ∀ a ∈ answers, a.Delimited := by
  have hwritten := h.tapped hlate htunnel hid ht ho hc he
  have hcuts : answers.flatMap (fun a => a.cut.answer) =
      (answers.map SentAnswer.cut).flatMap CutMessage.answer := by
    rw [List.flatMap_map]
  have hall : t.written = answers.flatMap SentAnswer.handed := by
    rw [hwritten, hsent, hcuts]
    have hd := delivered_answers true (answers.map SentAnswer.cut)
      (m := ⟨[], [], {}, [], []⟩) (List.nil_prefix)
    rw [List.append_nil] at hd
    rw [hd, List.flatMap_map]
    simp [CutMessage.handedFor]
    rfl
  rw [hall]
  exact SentAnswer.read_iff hframed

/-- What a TLS connection decrypts at once, as the parser hands it over. -/
def decrypted (fd : Fd) (events : List ParserEvent) : SessionEvent :=
  .ready fd { fired := ⟨true, false⟩, reads := [⟨events, .ok⟩] }

/-- A `CONNECT` and the end of the handshake with the upstream. -/
def intercepted : List SessionEvent :=
  [connectHead, .ready 10 { fired := ⟨true, false⟩ }]

/-- A request in an interception, and its answer. -/
def interceptedGet (a : SentAnswer) : List SessionEvent :=
  intercepted ++
  [decrypted 7 (requestEvents [text "/"] [.host]
     { method := text "GET" } ++ [.messageComplete]),
   decrypted 10 a.cut.answer]

/-- The session after the request and its answer. -/
def interceptedSession (a : SentAnswer) : Session :=
  (sessionRun waitingWorld (.ok (start 7 true false)) (interceptedGet a)).session

/-- An answer that announces its length. -/
def lengthAnswer : SentAnswer where
  reasons := [text "OK"]
  lines := [.oneByte]
  info := { status_code := 200, content_length := 1 }
  body := [text "a"]
  trailers := []
  oneLine := by decide
  digits := by decide

/-- An answer in chunks. -/
def chunkedAnswer : SentAnswer where
  reasons := [text "OK"]
  lines := [.chunked]
  info := { status_code := 200, chunked := true }
  body := [text "a"]
  trailers := []
  oneLine := by decide
  digits := by decide

theorem relayed_answers_read_length :
    (∃ n, readResponses n
        ((interceptedSession lengthAnswer).tls[1]?.get (by decide +kernel)).written =
      some ([lengthAnswer].map fun a => (a.status, a.content))) ↔
      ∀ a ∈ [lengthAnswer], a.Delimited :=
  relayed_answers_read_iff (w := waitingWorld) (s := interceptedSession lengthAnswer)
    (reachable_session (by decide +kernel)) (by decide +kernel) (by decide +kernel)
    (show (interceptedSession lengthAnswer).tlsClient_ = some 1 by decide +kernel)
    (Option.some_get _).symm (by decide +kernel) (by decide +kernel) (by decide +kernel)
    (by decide +kernel) (by decide +kernel)

/-- The client of the interception is sent a chunked answer without any framing,
on a connection that stays open. -/
theorem chunked_answer_undelimited :
    let s := interceptedSession chunkedAnswer
    let t := s.tls[1]?.get (by decide +kernel)
    chunkedAnswer.Framed ∧ heardAnswers s.log = chunkedAnswer.cut.answer ∧
      s.closed_ = false ∧ t.closed_ = false ∧
      t.written = text "HTTP/1.1 200 OK\r\n\r\na" ∧
      ∀ n, readResponses n t.written ≠ some [(200, text "a")] := by
  have hstream : ((interceptedSession chunkedAnswer).tls[1]?.get (by decide +kernel)).written =
      text "HTTP/1.1 200 OK\r\n\r\na" := by
    decide +kernel
  refine ⟨by decide, by decide +kernel, by decide +kernel, by decide +kernel, hstream, ?_⟩
  rw [hstream]
  intro n
  have hnone : readResponses n (text "HTTP/1.1 200 OK\r\n\r\na") = none := by
    cases n <;> rfl
  simp [hnone]

end DeepSeer
