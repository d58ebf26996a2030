import DeepSeer.AnswerStreams
import DeepSeer.ClientDelivery
import DeepSeer.Exchanges

/-!
What the client of a plain connection is handed for the answer to its request,
and when the session closes.
-/
namespace DeepSeer

open ByteMemory ByteText FallibleRuns Http1Codec

/-- The note of a close that is not the end of an answer. -/
def Note.endsEarly : Note → Bool
  | .closed cause => decide (cause ≠ .responseComplete)
  | _ => false

namespace Session

/-- The books of a session with one request that has reached an upstream. -/
structure Served (s : Session) : Prop where
  direct : Direct s
  booked : Booked s
  shut : s.ledger.closed = s.closed_
  plain : PlainAnswers s
  clean : s.closed_ = false ∨ .messageComplete ∈ s.ledger.answers → s.ledger.erred = false

theorem served_single {w : World} {s : Session} (h : Reachable w s) {req : HttpRequest}
    (hreq : requests s.log = [req]) (hc : req.method ≠ .CONNECT)
    (hup : s.log.any Note.isConnected = true) : Served s := by
  have hlinked : s.ledger.linked = true := by
    obtain ⟨n, hn, hcon⟩ := List.any_eq_true.mp hup
    exact (ledger_connects s.log).1.trans
      (decide_eq_true (List.countP_pos_iff.mpr ⟨n, hn, hcon⟩))
  cases h.stage with
  | idle hu => exact absurd (hlinked.symm.trans hu.linked) (by decide)
  | waiting _ hu => exact absurd (hlinked.symm.trans hu.linked) (by decide)
  | linked req' hl =>
    have hb := hl.direct.booked h.accounted hl.once
    refine ⟨hl.direct, hb, (hb.down.attached hl.direct.mitm).shut, hb.down.plain hl.direct.mitm,
      fun _ => ?_⟩
    obtain ⟨before, hreq', ⟨-, he⟩ | ⟨hne, -⟩⟩ := hl.leads
    · exact he
    · rw [hreq] at hreq'
      exact absurd (List.tail_eq_of_cons_eq hreq').symm hne
  | done ho =>
    have hb := ho.direct.booked h.accounted ho.once
    refine ⟨ho.direct, hb, (hb.down.attached ho.direct.mitm).shut, hb.down.plain ho.direct.mitm,
      fun hd => ?_⟩
    by_contra he
    have hlen := ho.settled (hd.resolve_left (by simp [ho.shut])) (by simpa using he)
    rw [hreq, List.length_singleton] at hlen
    omega
  | left hl => exact absurd hl (single_stays hreq hc)

theorem Served.answers_open {s : Session} (h : Served s) (ho : s.closed_ = false) :
    s.ledger.answers = callbacks s.log :=
  Ledger.answers_open s.log (h.shut.trans ho)

/-- The end of an answer closes the session. -/
theorem Served.complete_closed {s : Session} (h : Served s)
    (hc : .messageComplete ∈ callbacks s.log) : s.closed_ = true := by
  by_contra hn
  have ho : s.closed_ = false := by simpa using hn
  rw [← h.answers_open ho] at hc
  obtain ⟨before, after, heq⟩ := List.append_of_mem hc
  exact hn (h.plain.ended before after heq).1

theorem ledger_finished (log : List Note) :
    ((Ledger.of log).closed = true → ∃ cause, .closed cause ∈ log) ∧
      (.closed .responseComplete ∈ log → (Ledger.of log).finished = true) := by
  induction log with
  | nil => exact ⟨fun h => absurd h (by decide), fun h => absurd h List.not_mem_nil⟩
  | cons n log ih =>
    obtain ⟨hclosed, hfinished⟩ := ih
    by_cases hn : ∃ cause, n = .closed cause
    · obtain ⟨cause, rfl⟩ := hn
      refine ⟨fun _ => ⟨cause, List.mem_cons_self⟩, fun hm => ?_⟩
      simp only [Ledger.of_cons, Ledger.note, Bool.or_eq_true, decide_eq_true_eq]
      rcases List.mem_cons.mp hm with heq | hm
      · cases heq
        exact .inr rfl
      · exact .inl (hfinished hm)
    · have hsame : ((Ledger.of log).note n).closed = (Ledger.of log).closed ∧
          ((Ledger.of log).note n).finished = (Ledger.of log).finished := by
        unfold Ledger.note
        split
        · unfold Ledger.requestBody
          split
          · exact ⟨rfl, rfl⟩
          · split <;> exact ⟨rfl, rfl⟩
        all_goals first | exact ⟨rfl, rfl⟩ | exact absurd ⟨_, rfl⟩ hn
      rw [Ledger.of_cons, hsame.1, hsame.2]
      refine ⟨fun h => (hclosed h).imp fun _ => List.mem_cons_of_mem n, fun hm => ?_⟩
      rcases List.mem_cons.mp hm with heq | hm
      · exact absurd ⟨_, heq.symm⟩ hn
      · exact hfinished hm

theorem handedWhole_ne_nil (isTlsMitm : Bool) (m : CutMessage) : m.handedWhole isTlsMitm ≠ [] := by
  simp [CutMessage.handedWhole, encodedResponse, statusLine, crlf]

end Session

open Session

/-- As long as the client of a plain exchange can be reached, it has been handed
the head of the answer without its framing and the pieces of the body that have
come. When the answer is complete the session is closed, and where it was open
till then the client has been handed the answer and nothing else. -/
theorem answer_handed_over {w : World} {s : Session} (h : Reachable w s) {req : HttpRequest}
    (hreq : requests s.log = [req]) (hc : req.method ≠ .CONNECT)
    (hup : s.log.any Note.isConnected = true) {m : CutMessage}
    (hm : callbacks s.log <+: m.answer) :
    (s.reachesClient = true → s.clientStream = m.handedFor false (callbacks s.log)) ∧
      (.messageComplete ∈ callbacks s.log → s.closed_ = true) ∧
      (.messageComplete ∈ s.ledger.answers → s.clientStream = m.handedWhole false) := by
  have hs := served_single h hreq hc hup
  have hdelivered : ∀ {seen}, seen <+: m.answer → delivered false seen = m.handedFor false seen :=
    fun hseen => delivered_answers false [] hseen
  refine ⟨fun hr => ?_, hs.complete_closed, fun hmem => ?_⟩
  · have ho : s.closed_ = false := by
      rw [hs.direct.reaches hs.booked] at hr
      simpa using hr
    rw [hs.plain.client (hs.clean (.inl ho)), hs.answers_open ho, hdelivered hm]
  · have hpre : s.ledger.answers <+: m.answer := (Ledger.answers_prefix s.log).trans hm
    rw [hs.plain.client (hs.clean (.inr hmem)), hdelivered hpre,
      CutMessage.complete_last hpre hmem, CutMessage.handedFor_answer]

/-- The answer of the exchange. -/
def okAnswer : CutMessage where
  start := [text "OK"]
  headers := [
    { names := [text "Content-Length"], values := [text "1"]
      named := by decide, valued := by decide }]
  info := { status_code := 200, content_length := 1 }
  body := [text "a"]
  trailers := []

/-- The session after the exchange, with an inspector. -/
def inspectedSession : Session :=
  (sessionRun promptWorld (.ok (start 7 false true)) exchange).session

theorem answer_handed_over_inspected :
    (inspectedSession.reachesClient = true →
        inspectedSession.clientStream = okAnswer.handedFor false (callbacks inspectedSession.log)) ∧
      (.messageComplete ∈ callbacks inspectedSession.log → inspectedSession.closed_ = true) ∧
      (.messageComplete ∈ inspectedSession.ledger.answers →
        inspectedSession.clientStream = okAnswer.handedWhole false) :=
  @answer_handed_over _ _ (reachable_session (by decide +kernel))
    ((requests inspectedSession.log).headD {}) (by decide +kernel) (by decide +kernel)
    (by decide +kernel) _ (by decide +kernel)

/-- A session that only the end of an answer closes has handed over all interim
answers and the final one when it closes, exactly when no interim answer has
been complete. -/
theorem final_answer_awaited_iff {w : World} {s : Session} (h : Reachable w s) {req : HttpRequest}
    (hreq : requests s.log = [req]) (hc : req.method ≠ .CONNECT)
    (hup : s.log.any Note.isConnected = true)
    (hearly : s.log.any Note.endsEarly = false)
    {interims : List CutMessage} {final : CutMessage}
    (hm : callbacks s.log <+: interims.flatMap CutMessage.answer ++ final.answer) :
    (s.closed_ = true →
      callbacks s.log = interims.flatMap CutMessage.answer ++ final.answer ∧
        s.clientStream =
          interims.flatMap (CutMessage.handedWhole false) ++ final.handedWhole false) ↔
      interims = [] ∨ .messageComplete ∉ callbacks s.log := by
  have hs := served_single h hreq hc hup
  have hpre : s.ledger.answers <+: callbacks s.log := Ledger.answers_prefix s.log
  have hended : s.closed_ = true → .messageComplete ∈ s.ledger.answers := by
    intro hcl
    obtain ⟨cause, hmem⟩ := (ledger_finished s.log).1 (hs.shut.trans hcl)
    obtain rfl : cause = .responseComplete := by
      have hnot := List.any_eq_false.mp hearly _ hmem
      simpa [Note.endsEarly] using hnot
    exact hs.plain.finished ((ledger_finished s.log).2 hmem)
  constructor
  · intro hall
    by_contra hn
    simp only [not_or, not_not] at hn
    obtain ⟨hne, hmem⟩ := hn
    have hcl := hs.complete_closed hmem
    have hmem' := hended hcl
    obtain ⟨first, rest, rfl⟩ := List.exists_cons_of_ne_nil hne
    -- the answers stop at the end of the first interim one
    have hfirst : s.ledger.answers = first.answer := by
      have hall' := hpre.trans hm
      rw [List.flatMap_cons, List.append_assoc] at hall'
      rcases List.prefix_or_prefix_of_prefix hall' (List.prefix_append first.answer _) with
        hp | ⟨more, hmore⟩
      · exact CutMessage.complete_last hp hmem'
      · have hsplit : s.ledger.answers = first.unfinished ++ .messageComplete :: more := by
          rw [← hmore, first.answer_concat, List.append_assoc]
          rfl
        obtain rfl := (hs.plain.ended _ _ hsplit).2
        rw [← hmore, List.append_nil]
    have hstream : s.clientStream = first.handedWhole false := by
      rw [hs.plain.client (hs.clean (.inr hmem')), hfirst]
      exact (delivered_answers false [] (List.prefix_refl first.answer)).trans
        (first.handedFor_answer false)
    have hlong := (hall hcl).2
    rw [hstream, List.flatMap_cons, List.append_assoc, List.self_eq_append_right,
      List.append_eq_nil_iff] at hlong
    exact handedWhole_ne_nil false final hlong.2
  · rintro (rfl | hno) hcl
    · have hmem := hended hcl
      rw [List.flatMap_nil, List.nil_append] at hm ⊢
      have hwhole := CutMessage.complete_last hm (hpre.subset hmem)
      refine ⟨hwhole, ?_⟩
      rw [hs.plain.client (hs.clean (.inr hmem)),
        CutMessage.complete_last (hpre.trans hm) hmem]
      exact (delivered_answers false [] (List.prefix_refl final.answer)).trans
        (final.handedFor_answer false)
    · exact absurd (hpre.subset (hended hcl)) hno

theorem final_answer_awaited_inspected :
    (inspectedSession.closed_ = true →
      callbacks inspectedSession.log = [].flatMap CutMessage.answer ++ okAnswer.answer ∧
        inspectedSession.clientStream =
          [].flatMap (CutMessage.handedWhole false) ++ okAnswer.handedWhole false) ↔
      ([] : List CutMessage) = [] ∨ .messageComplete ∉ callbacks inspectedSession.log :=
  @final_answer_awaited_iff _ _ (reachable_session (by decide +kernel))
    ((requests inspectedSession.log).headD {}) (by decide +kernel) (by decide +kernel)
    (by decide +kernel) (by decide +kernel) _ _ (by decide +kernel)

/-- An interim answer. -/
def continueAnswer : CutMessage where
  start := [text "Continue"]
  headers := []
  info := { status_code := 100 }
  body := []
  trailers := []

/-- A request whose upstream sends an interim answer before the final one. -/
def interimExchange : List SessionEvent :=
  exchange.take 1 ++
    [received 10 (text "HTTP/1.1 100 Continue\r\n\r\nHTTP/1.1 200 OK\r\nContent-Length: 1\r\n\r\na")
      (continueAnswer.answer ++ okAnswer.answer)]

/-- The session closes at the end of the interim answer, and the client gets
nothing of the final one. -/
theorem interim_answer_closes :
    let s := (sessionRun promptWorld (.ok (start 7 false false)) interimExchange).session
    callbacks s.log = continueAnswer.answer ++ okAnswer.answer ∧ s.closed_ = true ∧
      .closed .responseComplete ∈ s.log ∧
      s.clientStream = continueAnswer.handedWhole false ∧
      s.clientStream ≠ continueAnswer.handedWhole false ++ okAnswer.handedWhole false := by
  decide +kernel

end DeepSeer
