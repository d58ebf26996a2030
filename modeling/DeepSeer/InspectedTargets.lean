import DeepSeer.InspectedAnswers

/-!
Whose target the inspector is told. The session keeps one request, the latest to
have come, and reports every response under the target of that one, whichever
request the response answers.
-/
namespace DeepSeer

open ByteMemory ByteText HttpWire Http1Codec Session

/-- The status of the response under way and the number of responses that have
ended, when one more callback comes. The end of an interim response does not count. -/
def countFinal (seen : Nat × Nat) : ParserEvent → Nat × Nat
  | .headersComplete info => (info.status_code.toNat, seen.2)
  | .messageComplete =>
    if 100 ≤ seen.1 ∧ seen.1 < 200 then (0, seen.2) else (0, seen.2 + 1)
  | _ => seen

/-- The number of responses that have ended, without the interim ones. -/
def finals (events : List ParserEvent) : Nat := (events.foldl countFinal (0, 0)).2

/-- The request that the response under way answers: the upstream answers in order
what was forwarded to it. -/
def answering (log : List Note) : Option HttpRequest :=
  (forwardedSince log)[finals (heardAnswers log)]?

/-- Every call of the inspector names the URL of the request that the inspected
response answers. -/
def OwnUrls (log : List Note) : Prop :=
  ∀ (later earlier : List Note) (payload url : Bytes) (req : HttpRequest),
    log = later ++ .inspected payload url :: .upstreamParsed .messageComplete :: earlier →
    answering earlier = some req → url = req.url

/-- Whenever a response with body data ends, the target of the latest request is the
URL of the request that the response answers. -/
def LatestOwn (log : List Note) : Prop :=
  ∀ (later earlier : List Note) (req : HttpRequest),
    log = later ++ .upstreamParsed .messageComplete :: earlier →
    collected (callbacks earlier) ≠ [] →
    answering earlier = some req → keptTarget earlier = req.url

/-- What the inspector is given: what was collected of the response that has just
ended, and the target kept at that time. -/
theorem reported_inspected {log : List Note} (h : Reported log) {later rest : List Note}
    {payload url : Bytes} (hl : log = later ++ .inspected payload url :: rest) :
    ∃ earlier, rest = .upstreamParsed .messageComplete :: earlier ∧
      payload = collected (callbacks earlier) ∧ payload ≠ [] ∧ url = keptTarget earlier := by
  induction h generalizing later with
  | start => cases later <;> cases hl
  | @called log hne _ ih =>
    cases later with
    | nil =>
      obtain ⟨hcall, rfl⟩ := List.cons.inj hl
      cases hcall
      exact ⟨log, rfl, rfl, hne, rfl⟩
    | cons _ later =>
      cases later with
      | nil => cases (List.cons.inj (List.cons.inj hl).2).1
      | cons _ later => exact ih (List.cons.inj (List.cons.inj hl).2).2
  | parsed ev _ _ ih =>
    cases later with
    | nil => cases (List.cons.inj hl).1
    | cons _ later => exact ih (List.cons.inj hl).2
  | other hn _ ih =>
    cases later with
    | nil =>
      rw [(List.cons.inj hl).1] at hn
      cases hn
    | cons _ later => exact ih (List.cons.inj hl).2

/-- The end of a response of which anything was collected is reported. -/
theorem reported_complete {log : List Note} (h : Reported log) {later earlier : List Note}
    (hl : log = later ++ .upstreamParsed .messageComplete :: earlier)
    (hne : collected (callbacks earlier) ≠ []) :
    ∃ after, log = after ++ .inspected (collected (callbacks earlier)) (keptTarget earlier) ::
      .upstreamParsed .messageComplete :: earlier := by
  induction h generalizing later with
  | start => cases later <;> cases hl
  | @called log hcall _ ih =>
    cases later with
    | nil => cases (List.cons.inj hl).1
    | cons _ later =>
      cases later with
      | nil =>
        obtain rfl := (List.cons.inj (List.cons.inj hl).2).2
        exact ⟨[], rfl⟩
      | cons _ later =>
        obtain ⟨after, hafter⟩ := ih (List.cons.inj (List.cons.inj hl).2).2
        exact ⟨_ :: _ :: after, by rw [hafter]; rfl⟩
  | parsed ev hnone _ ih =>
    cases later with
    | nil =>
      obtain ⟨hev, rfl⟩ := List.cons.inj hl
      exact absurd (hnone (Note.upstreamParsed.inj hev)) hne
    | cons _ later =>
      obtain ⟨after, hafter⟩ := ih (List.cons.inj hl).2
      exact ⟨_ :: after, by rw [hafter]; rfl⟩
  | other hn _ ih =>
    cases later with
    | nil =>
      rw [(List.cons.inj hl).1] at hn
      cases hn
    | cons _ later =>
      obtain ⟨after, hafter⟩ := ih (List.cons.inj hl).2
      exact ⟨_ :: after, by rw [hafter]; rfl⟩

/-- In every session with an inspector, each call of it is given what was collected
of the response that has just ended. Every call names the URL of the request that
this response answers exactly if the latest request is that one, or has its target,
whenever a response ends. -/
theorem inspected_urls_iff {w : World} {s : Session} (h : Reachable w s)
    (hi : s.payloadInspector_ = true) :
    (∀ (later rest : List Note) (payload url : Bytes),
      s.log = later ++ .inspected payload url :: rest →
      ∃ earlier, rest = .upstreamParsed .messageComplete :: earlier ∧
        payload = collected (callbacks earlier)) ∧
      (OwnUrls s.log ↔ LatestOwn s.log) := by
  have hreported := (h.overheard hi).reported
  refine ⟨fun later rest payload url hl => ?_, fun hown => ?_, fun hlatest => ?_⟩
  · obtain ⟨earlier, hrest, hpayload, -, -⟩ := reported_inspected hreported hl
    exact ⟨earlier, hrest, hpayload⟩
  · intro later earlier req hl hne hreq
    obtain ⟨after, hafter⟩ := reported_complete hreported hl hne
    exact hown after earlier _ _ req hafter hreq
  · intro later earlier payload url req hl hreq
    obtain ⟨before, hrest, hpayload, hne, hurl⟩ := reported_inspected hreported hl
    obtain rfl := (List.cons.inj hrest).2
    rw [hurl]
    refine hlatest (later ++ [.inspected payload url]) earlier req ?_ (hpayload ▸ hne) hreq
    rw [hl, List.append_assoc]
    rfl

theorem inspected_urls_overheard :
    (∀ (later rest : List Note) (payload url : Bytes),
      overheardSession.log = later ++ .inspected payload url :: rest →
      ∃ earlier, rest = .upstreamParsed .messageComplete :: earlier ∧
        payload = collected (callbacks earlier)) ∧
      (OwnUrls overheardSession.log ↔ LatestOwn overheardSession.log) :=
  inspected_urls_iff (w := waitingWorld) (s := overheardSession)
    (reachable_session (by decide +kernel)) (by decide +kernel)

/-- What the parser makes of a `GET` for the target. -/
def getOf (target : Bytes) : List ParserEvent :=
  requestEvents [target] [.host] { method := text "GET" } ++ [.messageComplete]

/-- Two requests in an interception, of which the second comes before the answer to
the first. -/
def pipelinedPair : List SessionEvent :=
  intercepted ++ [decrypted 7 (getOf (text "/a") ++ getOf (text "/b")),
    decrypted 10 lengthAnswer.cut.answer]

/-- The response to the first request is reported under the target of the second. -/
theorem pipelined_target_lost :
    let s := (sessionRun waitingWorld (.ok (start 7 true true)) pipelinedPair).session
    (forwardedSince s.log).map (·.url) = [text "/a", text "/b"] ∧
      heardAnswers s.log = lengthAnswer.cut.answer ∧ s.closed_ = false ∧
      .inspected (text "a") (text "/b") ∈ s.log ∧ ¬ OwnUrls s.log := by
  refine ⟨by decide +kernel, by decide +kernel, by decide +kernel, by decide +kernel, ?_⟩
  intro hown
  set log := (sessionRun waitingWorld (.ok (start 7 true true)) pipelinedPair).session.log with hlog
  have hsplit : log = [] ++ .inspected (text "a") (text "/b") ::
      .upstreamParsed .messageComplete :: log.drop 2 := by
    rw [hlog]
    decide +kernel
  have hfirst : (answering (log.drop 2)).map (·.url) = some (text "/a") := by
    rw [hlog]
    decide +kernel
  obtain ⟨req, hreq, hurl⟩ := Option.map_eq_some_iff.mp hfirst
  have heq := hown [] (log.drop 2) _ _ req hsplit hreq
  rw [hurl] at heq
  exact absurd heq (by decide)

end DeepSeer
