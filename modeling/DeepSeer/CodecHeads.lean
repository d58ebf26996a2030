import DeepSeer.BufferString
import DeepSeer.Codec
import DeepSeer.HttpWire

/-!
The bytes of the heads that the codec writes, and how a reader of the wire sees
them: a start line and one field for each entry of the header map.
-/
namespace DeepSeer

open ByteMemory ByteText HttpWire

namespace Http1Codec

def encodedHeaders (headers : HeaderMap) : Bytes :=
  headers.entries.flatMap (fun e => headerLine e.1 e.2) ++ crlf

def encodedRequest (req : HttpRequest) : Bytes := requestLine req ++ encodedHeaders req.headers

def encodedResponse (resp : HttpResponse) : Bytes := statusLine resp ++ encodedHeaders resp.headers

/-- The text of a version has no blank and no line end. -/
theorem not_mem_versionText {b : UInt8} (h : b = 13 ∨ b = 32) (major minor : Nat) :
    b ∉ versionText major minor := by
  have hdigit : isDigit b = false := by rcases h with rfl | rfl <;> decide
  have htext : b ∉ text "HTTP/" ∧ b ∉ text "." := by rcases h with rfl | rfl <;> decide
  simp [versionText, htext, not_mem_decimal hdigit]

theorem encodeHeaders_proper {out : Buffer} (h : out.Proper) (headers : HeaderMap) :
    (encodeHeaders headers out).Proper ∧
      (encodeHeaders headers out).linearize = out.linearize ++ encodedHeaders headers := by
  have hloop : ∀ (l : List (Bytes × Bytes)) {out : Buffer}, out.Proper →
      (l.foldl (fun out e => out.add (headerLine e.1 e.2)) out).Proper ∧
      (l.foldl (fun out e => out.add (headerLine e.1 e.2)) out).linearize =
        out.linearize ++ l.flatMap fun e => headerLine e.1 e.2 := by
    intro l
    induction l with
    | nil => exact fun h => ⟨h, by simp⟩
    | cons e rest ih =>
      intro out h
      obtain ⟨hp, hc⟩ := h.add (headerLine e.1 e.2)
      obtain ⟨hp', hc'⟩ := ih hp
      exact ⟨hp', by rw [List.foldl_cons, hc', hc]; simp⟩
  obtain ⟨hp, hc⟩ := hloop headers.entries h
  obtain ⟨hp', hc'⟩ := hp.add crlf
  exact ⟨hp', by rw [encodeHeaders, hc', hc, encodedHeaders, List.append_assoc]⟩

theorem encodeRequest_proper (req : HttpRequest) :
    (encodeRequest req {}).Proper ∧ (encodeRequest req {}).linearize = encodedRequest req := by
  obtain ⟨hp, hc⟩ := Buffer.proper_empty.add (requestLine req)
  obtain ⟨hp', hc'⟩ := encodeHeaders_proper hp req.headers
  exact ⟨hp', by rw [encodeRequest, hc', hc]; rfl⟩

theorem encodeResponse_proper (resp : HttpResponse) :
    (encodeResponse resp {}).Proper ∧ (encodeResponse resp {}).linearize = encodedResponse resp := by
  obtain ⟨hp, hc⟩ := Buffer.proper_empty.add (statusLine resp)
  obtain ⟨hp', hc'⟩ := encodeHeaders_proper hp resp.headers
  exact ⟨hp', by rw [encodeResponse, hc', hc]; rfl⟩

@[simp] theorem finishHeader_type (c : Http1Codec) : c.finishHeader.type = c.type := by
  unfold finishHeader
  split
  · rfl
  · dsimp only
    split <;> rfl

@[simp] theorem finishHeader_errno (c : Http1Codec) : c.finishHeader.errno = c.errno := by
  unfold finishHeader
  split
  · rfl
  · dsimp only
    split <;> rfl

/-- A request parser ends a head with a request, or with an exception where no
host comes out of it. -/
theorem onHeadersComplete_request {c : Http1Codec} (h : c.type = .request) (info : HeadInfo) :
    c.onHeadersComplete info =
      (findHost (requestHead c.finishHeader.currentRequest_ info)).map fun req =>
        ({ c.finishHeader with buildingRequest_ := true, currentRequest_ := req },
          .request req) := by
  simp only [onHeadersComplete, finishHeader_type, h, if_true]
  cases findHost (requestHead c.finishHeader.currentRequest_ info) <;> rfl

/-- Any other parser ends it with a response. -/
theorem onHeadersComplete_response {c : Http1Codec} (h : c.type ≠ .request) (info : HeadInfo) :
    c.onHeadersComplete info =
      some ({ c.finishHeader with
          buildingRequest_ := false
          currentResponse_ := responseHead c.finishHeader.currentResponse_ info },
        .response (responseHead c.finishHeader.currentResponse_ info)) := by
  simp [onHeadersComplete, h]

/-- No callback changes what the parser parses. -/
theorem handle_type {c c' : Http1Codec} {ev : ParserEvent} {emissions : List Emission}
    (h : c.handle ev = some (c', emissions)) : c'.type = c.type := by
  cases ev with
  | headersComplete info =>
    simp only [handle, Option.map_eq_some_iff, Prod.mk.injEq] at h
    obtain ⟨⟨d, emission⟩, hd, rfl, -⟩ := h
    by_cases ht : c.type = .request
    · rw [onHeadersComplete_request ht] at hd
      obtain ⟨req, -, heq⟩ := Option.map_eq_some_iff.mp hd
      simp only [Prod.mk.injEq] at heq
      exact heq.1 ▸ finishHeader_type c
    · rw [onHeadersComplete_response ht] at hd
      simp only [Option.some.injEq, Prod.mk.injEq] at hd
      exact hd.1 ▸ finishHeader_type c
  | headerField piece =>
    simp only [handle, Option.some.injEq, Prod.mk.injEq, onHeaderField] at h
    rw [← h.1]
    split
    · exact finishHeader_type c
    · rfl
  | _ =>
    simp only [handle, Option.some.injEq, Prod.mk.injEq] at h
    exact h.1 ▸ rfl

end Http1Codec

end DeepSeer
