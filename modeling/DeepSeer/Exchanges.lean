import DeepSeer.ExchangeStages

/-!
Exchanges on a plain connection: how the body of a request reaches the upstream
while its connect is under way, and whose answer the client gets first.
-/
namespace DeepSeer

open ByteMemory ByteText FallibleRuns

/-- The states that the runs of a session end in. -/
def Reachable (w : World) (s : Session) : Prop :=
  ∃ fd certGen payloadInspector events,
    sessionRun w (.ok (Session.start fd certGen payloadInspector)) events = .ok s

def Note.isConnected : Note → Bool
  | .connected _ => true
  | _ => false

namespace Session

/-- The connects of a log, as the ledger has them. -/
theorem ledger_connects (log : List Note) :
    (Ledger.of log).linked = decide (1 ≤ log.countP Note.isConnected) ∧
      (Ledger.of log).redialed = decide (2 ≤ log.countP Note.isConnected) := by
  induction log with
  | nil => exact ⟨rfl, rfl⟩
  | cons n log ih =>
    obtain ⟨hl, hr⟩ := ih
    rw [Ledger.of_cons]
    by_cases hn : ∃ mitm, n = .connected mitm
    · obtain ⟨mitm, rfl⟩ := hn
      have hcount : (Note.connected mitm :: log).countP Note.isConnected =
          log.countP Note.isConnected + 1 := List.countP_cons_of_pos rfl
      rw [hcount]
      refine ⟨by simp [Ledger.note], hl.trans (decide_eq_decide.mpr ?_)⟩
      omega
    · have hcount : (n :: log).countP Note.isConnected = log.countP Note.isConnected := by
        refine List.countP_cons_of_neg ?_
        cases n <;> simp_all [Note.isConnected]
      rw [hcount, ← hl, ← hr]
      unfold Ledger.note
      split
      · unfold Ledger.requestBody
        split
        · exact ⟨rfl, rfl⟩
        · split <;> exact ⟨rfl, rfl⟩
      all_goals first | exact ⟨rfl, rfl⟩ | exact absurd ⟨_, rfl⟩ hn

/-- A run that has not crashed ends in its last session. -/
theorem ok_session {r : Outcome} (h : r.fault = none) : r = .ok r.session := by
  cases r with
  | ok s => rfl
  | error crash => simp [Outcome.fault] at h

theorem reachable_session {w : World} {fd : Fd} {certGen payloadInspector : Bool}
    {events : List SessionEvent}
    (h : (sessionRun w (.ok (start fd certGen payloadInspector)) events).fault = none) :
    Reachable w (sessionRun w (.ok (start fd certGen payloadInspector)) events).session :=
  ⟨fd, certGen, payloadInspector, events, ok_session h⟩

end Session

open Session

theorem Reachable.accounted {w : World} {s : Session} (h : Reachable w s) : Accounted s := by
  obtain ⟨fd, certGen, payloadInspector, events, hr⟩ := h
  have hrun := sessionRun_accounted w fd certGen payloadInspector events
  rwa [hr] at hrun

theorem Reachable.stage {w : World} {s : Session} (h : Reachable w s) : Stage s := by
  obtain ⟨fd, certGen, payloadInspector, events, hr⟩ := h
  have hrun := sessionRun_stage w fd certGen payloadInspector events
  rw [hr] at hrun
  exact hrun.2

/-- One request that is no CONNECT leaves a session in its stages. -/
theorem single_stays {s : Session} {req : HttpRequest} (hreq : requests s.log = [req])
    (hc : req.method ≠ .CONNECT) :
    ¬ (serial s.log = false ∨ ∃ req', .request req' ∈ s.log ∧ req'.method = .CONNECT) := by
  rintro (hs | ⟨req', hmem, hc'⟩)
  · have hserial : ∀ log : List Note, (requests log).length ≤ 1 → serial log = true := by
      intro log
      induction log with
      | nil => exact fun _ => rfl
      | cons n log ih =>
        intro hlen
        have hrest := ih (by
          rw [requests_cons, List.length_append] at hlen
          omega)
        cases n with
        | request req' =>
          have hnone : requests log = [] := by
            simpa [Note.req] using hlen
          have hidle : ∀ log : List Note, requests log = [] → inProgress log = false := by
            intro log
            induction log with
            | nil => exact fun _ => rfl
            | cons n log ih =>
              intro hn
              rw [requests_cons, List.append_eq_nil_iff] at hn
              cases n with
              | request req => simp [Note.req] at hn
              | error => rfl
              | closed => rfl
              | _ => exact ih hn.2
          simp [serial, hidle log hnone, hrest]
        | _ => exact hrest
    exact absurd ((hserial s.log (by simp [hreq])).symm.trans hs) (by decide)
  · have hmem' := mem_requests.mpr hmem
    rw [hreq, List.mem_singleton] at hmem'
    exact hc (hmem' ▸ hc')

/-- While the session is open, the upstream of a single request has been handed
a front of its head and the pieces of its body in their order, and all of it
once the connect has completed; nothing then waits in `pendingBody_`. -/
theorem request_body_in_order {w : World} {s : Session} (h : Reachable w s)
    (hopen : s.closed_ = false) {req : HttpRequest} (hreq : requests s.log = [req])
    (hc : req.method ≠ .CONNECT) :
    s.upstreamStream <+: forwardedHead req ++ chunks s.log ∧
      (s.log.any Note.isConnected = true →
        s.upstreamStream = forwardedHead req ++ chunks s.log ∧ s.pendingBody_.empty = true) := by
  have hlinked := (ledger_connects s.log).1
  have hunlinked : Unlinked s → s.upstreamStream = [] ∧ s.log.any Note.isConnected = false := by
    intro hu
    have hb := hu.direct.booked h.accounted hu.once
    obtain ⟨hnone, hm, -⟩ := hb.up.waiting hu.linked
    refine ⟨by simp [upstreamStream, hm, hnone], ?_⟩
    have hzero : ¬ 1 ≤ s.log.countP Note.isConnected := by
      simpa using hlinked.symm.trans hu.linked
    by_contra hn
    have hpos : 0 < s.log.countP Note.isConnected :=
      List.countP_pos_iff.mpr (by simpa using hn)
    omega
  cases h.stage with
  | idle hu =>
    obtain ⟨hs, hn⟩ := hunlinked hu
    exact ⟨by simp [hs], fun hy => absurd (hn.symm.trans hy) (by decide)⟩
  | waiting _ hu =>
    obtain ⟨hs, hn⟩ := hunlinked hu
    exact ⟨by simp [hs], fun hy => absurd (hn.symm.trans hy) (by decide)⟩
  | linked req' hl =>
    have hb := hl.direct.booked h.accounted hl.once
    obtain ⟨c, hcn, -, hcl⟩ := (hb.down.attached hl.direct.mitm).upstream hl.linked
    have hreach : s.reachesUpstream = true :=
      (reachesUpstream_plain (.inl hl.direct.mitm)).mpr ⟨c, hcn, hcl.trans hl.live⟩
    obtain ⟨hstream, hpending⟩ := hb.up.stream hl.linked hreach
    obtain ⟨before, hreq', -⟩ := hl.leads
    obtain rfl : req' = req := by
      rw [hreq] at hreq'
      exact (List.head_eq_of_cons_eq hreq').symm
    have hall : s.upstreamStream = forwardedHead req' ++ chunks s.log := hstream.trans hl.stream
    refine ⟨by rw [hall], fun _ => ⟨hall, ?_⟩⟩
    rw [Buffer.empty_iff hb.up.proper.represents, hpending]
    exact hl.pending
  | done ho => exact absurd (hopen.symm.trans ho.shut) (by decide)
  | left hl => exact absurd hl (single_stays hreq hc)

/-- A request with a body in two pieces, whose connect completes between them. -/
def splitPost : List SessionEvent :=
  [received 7 (text "POST / HTTP/1.1\r\nHost: h\r\nContent-Length: 2\r\n\r\na")
    (requestEvents [text "/"]
      [.host,
        .twoBytes]
      { method := text "POST", content_length := 2 } ++ [.body (text "a")]),
   .ready 10 { fired := ⟨false, true⟩ },
   received 7 (text "b") [.body (text "b"), .messageComplete]]

/-- A world like the prompt one, but for the connects, which take their time. -/
def slowWorld : World := { promptWorld with connect := fun _ => .inProgress }

/-- The state after the run in the slow world. -/
def splitSession : Session :=
  (sessionRun slowWorld (.ok (start 7 false false)) splitPost).session

def splitRequest : HttpRequest := (requests splitSession.log).headD {}

theorem request_body_in_order_split :
    splitSession.upstreamStream <+: forwardedHead splitRequest ++ chunks splitSession.log ∧
      (splitSession.log.any Note.isConnected = true →
        splitSession.upstreamStream = forwardedHead splitRequest ++ chunks splitSession.log ∧
          splitSession.pendingBody_.empty = true) :=
  request_body_in_order (reachable_session (by decide +kernel)) (by decide +kernel)
    (by decide +kernel) (by decide +kernel)

example : splitSession.log.any Note.isConnected = true ∧ chunks splitSession.log = text "ab" := by
  decide +kernel

/-- Two requests in one read, each of which connects at once, and the answer to
the second one. -/
def pipelined : List SessionEvent :=
  [received 7 (text "GET /a HTTP/1.1\r\nHost: h\r\n\r\nGET /b HTTP/1.1\r\nHost: h\r\n\r\n")
    (requestEvents [text "/a"] [.host]
      { method := text "GET" } ++ .messageComplete ::
      requestEvents [text "/b"] [.host]
        { method := text "GET" } ++ [.messageComplete]),
   received 11 (text "HTTP/1.1 200 OK\r\n\r\n")
    (responseEvents [text "OK"] [] { status_code := 200 })]

end DeepSeer
