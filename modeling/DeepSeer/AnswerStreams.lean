import DeepSeer.Ledger

/-!
What the client is handed for the callbacks of the upstream parser: for each
answer its head without the framing that is taken out, and the pieces of its
body, as far as they have come.
-/
namespace DeepSeer

open ByteMemory ByteText Http1Codec

namespace ParserEvent

def piece : ParserEvent → Bytes
  | .body piece => piece
  | _ => []

/-- Every callback but the end of a head. -/
def headless : ParserEvent → Bool
  | .headersComplete _ => false
  | _ => true

end ParserEvent

/-- Every call but the one for a head. -/
def Emission.headless : Emission → Bool
  | .request _ | .response _ => false
  | .body _ _ | .messageComplete => true

/-- The body data that callbacks bring. -/
def bodyOf (events : List ParserEvent) : Bytes := events.flatMap ParserEvent.piece

@[simp] theorem bodyOf_append (first rest : List ParserEvent) :
    bodyOf (first ++ rest) = bodyOf first ++ bodyOf rest := List.flatMap_append

theorem bodyOf_collects {events : List ParserEvent} (h : ∀ ev ∈ events, ev.collects = true) :
    bodyOf events = [] := by
  refine List.flatMap_eq_nil_iff.mpr fun ev hev => ?_
  have hc := h ev hev
  cases ev <;> first | rfl | exact absurd hc (by simp [ParserEvent.collects])

theorem bodyOf_body (pieces : List Bytes) : bodyOf (pieces.map .body) = pieces.flatten := by
  induction pieces with
  | nil => rfl
  | cons piece rest ih => exact congrArg (piece ++ ·) ih

theorem collects_headless {ev : ParserEvent} (h : ev.collects = true) : ev.headless = true := by
  cases ev <;> first | rfl | exact absurd h (by simp [ParserEvent.collects])

namespace CutMessage

/-- The callbacks for an answer. -/
def answer (m : CutMessage) : List ParserEvent := .messageBegin :: m.spans .response

/-- The head that the session receives for an answer. -/
def response (m : CutMessage) : HttpResponse :=
  responseHead { reason := m.start.flatten, headers := CutHeader.collect m.headers } m.info

/-- What the client is handed for a whole answer. -/
def handedWhole (isTlsMitm : Bool) (m : CutMessage) : Bytes :=
  encodedResponse (Session.stripFraming isTlsMitm m.response) ++ m.body.flatten

/-- What the client is handed for the callbacks of an answer that have come. -/
def handedFor (isTlsMitm : Bool) (m : CutMessage) (seen : List ParserEvent) : Bytes :=
  if .headersComplete m.info ∈ seen then
    encodedResponse (Session.stripFraming isTlsMitm m.response) ++ bodyOf seen
  else []

/-- The callbacks up to the end of the head. -/
def front (m : CutMessage) : List ParserEvent :=
  .messageBegin :: (m.start.map .status ++ m.headers.flatMap CutHeader.events)

/-- The callbacks after it. -/
def back (m : CutMessage) : List ParserEvent :=
  m.body.map .body ++ m.trailers.flatMap CutHeader.events ++ [.messageComplete]

theorem answer_eq (m : CutMessage) : m.answer = m.front ++ .headersComplete m.info :: m.back := by
  simp [answer, spans, front, back, MessageKind.start]

theorem front_collects (m : CutMessage) : ∀ ev ∈ m.front, ev.collects = true := by
  intro ev hev
  rcases List.mem_cons.mp hev with rfl | hev
  · rfl
  · exact (List.forall_mem_append.mpr ⟨start_collects .response m.start,
      headers_collect m.headers⟩) ev hev

theorem front_no_head (m : CutMessage) : .headersComplete m.info ∉ m.front := by
  intro hmem
  exact absurd (m.front_collects _ hmem) (by simp [ParserEvent.collects])

theorem back_headless (m : CutMessage) : ∀ ev ∈ m.back, ev.headless = true := by
  intro ev hev
  simp only [back, List.mem_append, List.mem_map, List.mem_singleton] at hev
  rcases hev with (⟨piece, -, rfl⟩ | hev) | rfl
  · rfl
  · exact collects_headless (headers_collect m.trailers ev hev)
  · rfl

theorem bodyOf_back (m : CutMessage) : bodyOf m.back = m.body.flatten := by
  simp only [back, bodyOf_append, bodyOf_body, bodyOf_collects (headers_collect m.trailers)]
  simp [bodyOf, ParserEvent.piece]

/-- The callbacks before the end of the answer. -/
def unfinished (m : CutMessage) : List ParserEvent :=
  m.front ++ .headersComplete m.info :: (m.body.map .body ++ m.trailers.flatMap CutHeader.events)

theorem answer_concat (m : CutMessage) : m.answer = m.unfinished ++ [.messageComplete] := by
  simp [answer_eq, unfinished, back]

theorem unfinished_incomplete (m : CutMessage) : .messageComplete ∉ m.unfinished := by
  have hno : ∀ {events : List ParserEvent}, (∀ ev ∈ events, ev.collects = true) →
      .messageComplete ∉ events := fun hall hm => absurd (hall _ hm) (by decide)
  simp [unfinished, hno m.front_collects, hno (headers_collect m.trailers)]

/-- Only the last callback completes the answer. -/
theorem complete_last {m : CutMessage} {seen : List ParserEvent} (h : seen <+: m.answer)
    (hc : .messageComplete ∈ seen) : seen = m.answer := by
  obtain ⟨rest, hrest⟩ := h
  rcases List.eq_nil_or_concat rest with rfl | ⟨more, last, rfl⟩
  · simpa using hrest
  · rw [answer_concat, List.concat_eq_append, ← List.append_assoc] at hrest
    have hmem : .messageComplete ∈ m.unfinished :=
      (List.append_inj' hrest rfl).1 ▸ List.mem_append_left _ hc
    exact absurd hmem m.unfinished_incomplete

end CutMessage

namespace Http1Codec

/-- Callbacks that end no head hand the body data over. -/
theorem feed_headless (isTlsMitm : Bool) {events : List ParserEvent}
    (h : ∀ ev ∈ events, ev.headless = true) (c : Http1Codec) :
    ∃ calls d, c.feed events = (calls, some d) ∧ (∀ call ∈ calls, call.headless = true) ∧
      calls.flatMap (handed isTlsMitm) = bodyOf events := by
  induction events generalizing c with
  | nil => exact ⟨[], c, rfl, List.forall_mem_nil _, rfl⟩
  | cons ev rest ih =>
    obtain ⟨hev, hrest⟩ := List.forall_mem_cons.mp h
    have hstep : ∃ calls d, c.handle ev = some (d, calls) ∧
        (∀ call ∈ calls, call.headless = true) ∧ calls.flatMap (handed isTlsMitm) = ev.piece := by
      cases ev with
      | headersComplete info => exact absurd hev (by simp [ParserEvent.headless])
      | body piece =>
        have hpiece : (({} : Buffer).add piece).linearize = piece :=
          (Buffer.proper_empty.add piece).2
        exact ⟨_, _, rfl, by simp [Emission.headless], by simp [handed, ParserEvent.piece, hpiece]⟩
      | messageComplete =>
        exact ⟨_, _, rfl, by simp [Emission.headless],
          by simp [handed, ParserEvent.piece, Buffer.linearize]⟩
      | _ => exact ⟨_, _, rfl, List.forall_mem_nil _, rfl⟩
    obtain ⟨calls, d, hh, hall, hc⟩ := hstep
    obtain ⟨more, last, hf, hmore, hm⟩ := ih hrest d
    refine ⟨calls ++ more, last, by simp [feed, hh, hf], List.forall_mem_append.mpr ⟨hall, hmore⟩, ?_⟩
    rw [List.flatMap_append, hc, hm]
    rfl

/-- The end of the head of an answer hands the head over. -/
theorem feed_front {c : Http1Codec} (h : c.type = .response) (m : CutMessage) :
    ∃ d, d.type = .response ∧
      c.feed (m.front ++ [.headersComplete m.info]) = ([.response m.response], some d) := by
  have hhead := @feed_head c .response h m
  simp only [CutMessage.head] at hhead
  obtain ⟨d, hd, hf⟩ := hhead
  refine ⟨d, hd, ?_⟩
  rw [CutMessage.front, List.cons_append, feed]
  simp only [handle, List.nil_append]
  exact hf

/-- Where the head of an answer has come, the owner is told it, and then what has
come of its body. -/
theorem feed_seen (isTlsMitm : Bool) {c : Http1Codec} (h : c.type = .response)
    {m : CutMessage} {seen : List ParserEvent} (hs : seen <+: m.answer)
    (hhead : .headersComplete m.info ∈ seen) :
    ∃ calls d, c.feed seen = (.response m.response :: calls, some d) ∧
      (∀ call ∈ calls, call.headless = true) ∧
      calls.flatMap (handed isTlsMitm) = bodyOf seen := by
  rw [m.answer_eq] at hs
  rcases List.prefix_or_prefix_of_prefix hs (List.prefix_append m.front _) with hf | ⟨rest, rfl⟩
  · exact absurd (hf.subset hhead) m.front_no_head
  · rw [List.prefix_append_right_inj] at hs
    cases rest with
    | nil => exact absurd (by simpa using hhead) m.front_no_head
    | cons ev rest =>
      obtain ⟨rfl, hrest⟩ := List.cons_prefix_cons.mp hs
      obtain ⟨d, -, hd⟩ := feed_front h m
      obtain ⟨calls, last, hf, hall, hc⟩ := feed_headless isTlsMitm
        (fun ev hev => m.back_headless ev (hrest.subset hev)) d
      refine ⟨calls, last, ?_, hall, ?_⟩
      · rw [List.append_cons, feed_append, hd]
        simp [hf]
      · rw [hc, bodyOf_append, bodyOf_collects m.front_collects]
        rfl

/-- What the callbacks of an answer that have come hand over. -/
theorem feed_answer (isTlsMitm : Bool) {c : Http1Codec} (h : c.type = .response)
    {m : CutMessage} {seen : List ParserEvent} (hs : seen <+: m.answer) :
    ∃ calls d, c.feed seen = (calls, some d) ∧
      calls.flatMap (handed isTlsMitm) = m.handedFor isTlsMitm seen := by
  by_cases hhead : .headersComplete m.info ∈ seen
  · obtain ⟨calls, d, hf, -, hc⟩ := feed_seen isTlsMitm h hs hhead
    refine ⟨_, d, hf, ?_⟩
    rw [List.flatMap_cons, hc, CutMessage.handedFor, if_pos hhead]
    rfl
  · have hfront : seen <+: m.front := by
      rw [m.answer_eq] at hs
      rcases List.prefix_or_prefix_of_prefix hs (List.prefix_append m.front _) with hf | ⟨rest, rfl⟩
      · exact hf
      · rw [List.prefix_append_right_inj] at hs
        cases rest with
        | nil => simp
        | cons ev rest =>
          obtain ⟨rfl, -⟩ := List.cons_prefix_cons.mp hs
          exact absurd (by simp) hhead
    have hall : ∀ ev ∈ seen, ev.collects = true := fun ev hev =>
      m.front_collects ev (hfront.subset hev)
    refine ⟨[], _, feed_collects hall c, ?_⟩
    rw [CutMessage.handedFor, if_neg hhead]
    rfl

end Http1Codec

namespace CutMessage

theorem handedFor_answer (isTlsMitm : Bool) (m : CutMessage) :
    m.handedFor isTlsMitm m.answer = m.handedWhole isTlsMitm := by
  rw [handedFor, if_pos (by simp [answer_eq]), answer_eq, bodyOf_append,
    bodyOf_collects m.front_collects]
  have hback : bodyOf (.headersComplete m.info :: m.back) = m.body.flatten := m.bodyOf_back
  rw [hback]
  rfl

end CutMessage

namespace Http1Codec

/-- What whole answers and the callbacks of one more hand over. -/
theorem feed_answers (isTlsMitm : Bool) (ms : List CutMessage) {c : Http1Codec}
    (h : c.type = .response) {m : CutMessage} {seen : List ParserEvent} (hs : seen <+: m.answer) :
    ∃ calls d, c.feed (ms.flatMap CutMessage.answer ++ seen) = (calls, some d) ∧
      calls.flatMap (handed isTlsMitm) =
        ms.flatMap (CutMessage.handedWhole isTlsMitm) ++ m.handedFor isTlsMitm seen := by
  induction ms generalizing c with
  | nil => exact feed_answer isTlsMitm h hs
  | cons n ms ih =>
    obtain ⟨calls, d, hf, hc⟩ := feed_answer isTlsMitm h (List.prefix_refl n.answer)
    obtain ⟨more, last, hf', hc'⟩ := ih ((feed_type hf).trans h)
    refine ⟨calls ++ more, last, ?_, ?_⟩
    · rw [List.flatMap_cons, List.append_assoc, feed_append, hf]
      simp [hf']
    · rw [List.flatMap_append, hc, hc', n.handedFor_answer, List.flatMap_cons, List.append_assoc]

/-- What the client is handed for whole answers and the callbacks of one more. -/
theorem delivered_answers (isTlsMitm : Bool) (ms : List CutMessage) {m : CutMessage}
    {seen : List ParserEvent} (hs : seen <+: m.answer) :
    delivered isTlsMitm (ms.flatMap CutMessage.answer ++ seen) =
      ms.flatMap (CutMessage.handedWhole isTlsMitm) ++ m.handedFor isTlsMitm seen := by
  obtain ⟨calls, d, hf, hc⟩ := feed_answers isTlsMitm ms (c := { type := .response }) rfl hs
  rw [delivered, hf]
  exact hc

end Http1Codec

end DeepSeer
