import DeepSeer.Dials
import DeepSeer.HeaderValues

/-!
How the upstream reads the body of a request that was forwarded. The head goes
out with the framing headers of the client, and the body data follows as the
parser hands it over, without the framing that the parser took off.
-/
namespace DeepSeer

open ByteMemory ByteText HttpWire Http1Codec Session

/-- A note under which the request that was forwarded last stays the last. -/
def Note.follows : Note → Bool
  | .request _ | .forwarded _ _ | .connected _ => false
  | _ => true

/-- The last request of a log was forwarded on the upstream that was connected
last: with the notes before it came, from then until it was forwarded, and since. -/
structure ForwardedLast (log : List Note) (req : HttpRequest) (before mid later : List Note) :
    Prop where
  log : ∃ link, log = later ++ .forwarded req link :: (mid ++ .request req :: before)
  mid : requests mid = []
  later : later.all Note.follows = true

namespace Ledger

theorem linked_follows {later : List Note} (h : later.all Note.follows = true)
    (earlier : List Note) : (of (later ++ earlier)).linked = (of earlier).linked := by
  induction later with
  | nil => rfl
  | cons n rest ih =>
    rw [List.all_cons, Bool.and_eq_true] at h
    rw [List.cons_append, of_cons, ← ih h.2]
    cases n with
    | clientParsed ev =>
      cases ev with
      | body piece =>
        simp only [note, requestBody]
        split
        · rfl
        · split <;> rfl
      | _ => rfl
    | request | forwarded | connected => exact absurd h.1 (by simp [Note.follows])
    | _ => rfl

/-- Once a head is forwarded with what waited, the body data goes out as it
comes. -/
theorem forwarded_books {earlier : List Note} (hl : (of earlier).linked = true)
    (req : HttpRequest) (link : Link) {later : List Note} (h : later.all Note.follows = true) :
    (of (later ++ .forwarded req link :: earlier)).linked = true ∧
      (of (later ++ .forwarded req link :: earlier)).pending = [] ∧
      (of (later ++ .forwarded req link :: earlier)).stream =
        (of earlier).stream ++ (forwardedHead req ++ ((of earlier).pending ++ chunks later)) := by
  induction later with
  | nil => exact ⟨hl, rfl, by simp [note, chunks]⟩
  | cons n rest ih =>
    rw [List.all_cons, Bool.and_eq_true] at h
    obtain ⟨hlinked, hpending, hstream⟩ := ih h.2
    rw [List.cons_append, of_cons, chunks_cons]
    set l := of (rest ++ .forwarded req link :: earlier) with hlog
    have haside : ∀ l' : Ledger, l'.linked = l.linked → l'.pending = l.pending →
        l'.stream = l.stream → n.chunk = [] → l'.linked = true ∧ l'.pending = [] ∧
          l'.stream = (of earlier).stream ++
            (forwardedHead req ++ ((of earlier).pending ++ (chunks rest ++ n.chunk))) := by
      intro l' hl' hp' hs' hn
      exact ⟨hl'.trans hlinked, hp'.trans hpending, by rw [hs', hstream, hn, List.append_nil]⟩
    cases n with
    | clientParsed ev =>
      cases ev with
      | body piece =>
        by_cases hp : piece = []
        · have hsame : l.note (.clientParsed (.body piece)) = l := by
            simp only [note, requestBody, if_pos hp]
          exact haside _ (by rw [hsame]) (by rw [hsame]) (by rw [hsame]) hp
        · have hbody : l.note (.clientParsed (.body piece)) =
              { l with stream := l.stream ++ l.pending ++ piece, pending := [] } := by
            simp only [note, requestBody, if_neg hp, hlinked, if_true]
          rw [hbody]
          refine ⟨hlinked, rfl, ?_⟩
          simp [hstream, hpending, Note.chunk]
      | _ => exact haside _ rfl rfl rfl rfl
    | upstreamParsed ev =>
      refine haside _ rfl ?_ rfl rfl
      simp only [note, upstreamParsed]
      split
      · exact hpending.symm
      · rfl
    | request | forwarded | connected => exact absurd h.1 (by simp [Note.follows])
    | _ => exact haside _ rfl rfl rfl rfl

end Ledger

/-- The map frames a body as the lines that it was made of do. -/
theorem framing_headersOf {lines : List HeaderLine}
    (h : framing (lines.map HeaderLine.field) ≠ .unframed) :
    framing (HeaderMap.fields (headersOf lines)) = framing (lines.map HeaderLine.field) := by
  have hcoding := fieldValues_headersOf lines (text "Transfer-Encoding")
  have hlength := fieldValues_headersOf lines (text "Content-Length")
  simp only [receivedValues] at hcoding hlength
  unfold framing at h ⊢
  rw [hcoding, hlength]
  cases hc : (fieldValues (text "Transfer-Encoding") (lines.map HeaderLine.field)).getLast? with
  | some value => simp
  | none =>
    rw [hc] at h
    simp only [Option.toList_none, List.getLast?_nil] at h ⊢
    split at h
    · next value hv => simp [hv]
    · exact absurd rfl h

/-- A forwarded head is read as far as its own end, whatever follows it. -/
theorem readMessage_forwarded {req : HttpRequest} (hurl : 13 ∉ req.url)
    (hclean : HeaderMap.Clean req.headers) (rest : Bytes) :
    readMessage (forwardedHead req ++ rest) =
      (readBody (framing (HeaderMap.fields req.headers)) rest).map fun r =>
        (requestStart { req with url := originForm req.url }, r.1, r.2) := by
  have hread := @readHead_request { req with url := originForm req.url }
    (originForm_oneLine hurl) hclean rest
  simp only [readMessage, forwardedHead, hread, Option.bind_eq_bind, Option.bind_some]
  cases readBody (framing (HeaderMap.fields req.headers)) rest <;> rfl

/-- The body data that waits for an upstream, as the log has it. -/
def waitingBody (log : List Note) : Bytes := (Ledger.of log).pending

/-- What has been written to the upstream that was connected last, as the log
has it. -/
def sentBefore (log : List Note) : Bytes := (Ledger.of log).stream

/-- What an upstream that can be reached has been written since the last request was
forwarded. -/
theorem Reachable.forwarded_stream {w : World} {s : Session} (h : Reachable w s)
    (hup : s.reachesUpstream = true) (ht : s.isTunnel_ = false)
    (hlate : s.log.any Note.lateConnect = false) {req : HttpRequest} {before mid later : List Note}
    (hf : ForwardedLast s.log req before mid later) :
    s.upstreamStream = sentBefore (mid ++ .request req :: before) ++
      (forwardedHead req ++ (waitingBody (mid ++ .request req :: before) ++ chunks later)) := by
  have hd := h.dialed hlate ht
  obtain ⟨link, hlog⟩ := hf.log
  have hlinked : s.ledger.linked = true := by
    by_contra hn
    obtain ⟨hu, hm, -⟩ := hd.up.waiting (by simpa using hn)
    obtain ⟨c, hc, -⟩ := (reachesUpstream_plain (.inl hm)).mp hup
    exact absurd (hu.symm.trans hc) (by simp)
  have hlinked₀ : (Ledger.of (mid ++ .request req :: before)).linked = true := by
    rw [Session.ledger, hlog, Ledger.linked_follows hf.later] at hlinked
    exact hlinked
  obtain ⟨-, -, hstream⟩ := Ledger.forwarded_books hlinked₀ req link hf.later
  rw [(hd.up.stream hlinked hup).1, Session.ledger, hlog, hstream]
  rfl

/-- The bytes of a forwarded request are read as its head says. -/
theorem read_forwarded {urls : List Bytes} {lines : List HeaderLine} {info : HeadInfo}
    {req : HttpRequest} (hurl : 13 ∉ urls.flatten)
    (hreq : findHost (describedHead urls lines info) = some req)
    (hframed : framing (lines.map HeaderLine.field) ≠ .unframed) (rest : Bytes) :
    readMessage (forwardedHead req ++ rest) =
      (readBody (framing (lines.map HeaderLine.field)) rest).map fun r =>
        (requestStart { req with url := originForm req.url }, r.1, r.2) := by
  have hkeep := findHost_keeps hreq
  have hheaders : req.headers = headersOf lines := by
    rw [hkeep]
    rfl
  have hline : 13 ∉ req.url := by
    rw [hkeep]
    exact hurl
  have hread := readMessage_forwarded hline (hheaders ▸ headersOf_clean lines) rest
  rwa [hheaders, framing_headersOf hframed] at hread

/-- While its upstream can be reached, the last request has been sent so that the
bytes since then are read as one message with its body and nothing after it,
exactly when the head frames the body by its length and what waited for the head
was this body's data so far; or when other data waited, and by chance it makes
of a chunked body its own coding. -/
theorem request_body_framed_iff {w : World} {s : Session} (h : Reachable w s)
    (hup : s.reachesUpstream = true) (ht : s.isTunnel_ = false)
    (hlate : s.log.any Note.lateConnect = false)
    {req : HttpRequest} {before mid later : List Note}
    (hf : ForwardedLast s.log req before mid later)
    {urls : List Bytes} {lines : List HeaderLine} {info : HeadInfo} (hurl : 13 ∉ urls.flatten)
    (hreq : findHost (describedHead urls lines info) = some req)
    (hframed : framing (lines.map HeaderLine.field) = .chunked ∨
      framing (lines.map HeaderLine.field) = .length (chunks mid ++ chunks later).length) :
    (∃ sent start, s.upstreamStream = sentBefore (mid ++ .request req :: before) ++ sent ∧
        readMessage sent = some (start, chunks mid ++ chunks later, [])) ↔
      (framing (lines.map HeaderLine.field) ≠ .chunked ∧
          waitingBody (mid ++ .request req :: before) = chunks mid) ∨
        (framing (lines.map HeaderLine.field) = .chunked ∧
          waitingBody (mid ++ .request req :: before) ≠ chunks mid ∧
          readBody .chunked (waitingBody (mid ++ .request req :: before) ++ chunks later) =
            some (chunks mid ++ chunks later, [])) := by
  set earlier := mid ++ .request req :: before with hearlier
  have hsent : s.upstreamStream = sentBefore earlier ++
      (forwardedHead req ++ (waitingBody earlier ++ chunks later)) :=
    h.forwarded_stream hup ht hlate hf
  have hunframed : framing (lines.map HeaderLine.field) ≠ .unframed := by
    rcases hframed with he | he <;> simp [he]
  have hread := read_forwarded hurl hreq hunframed (waitingBody earlier ++ chunks later)
  -- the message that is read is what was written since the head
  have hmessage : (∃ sent start, s.upstreamStream = sentBefore earlier ++ sent ∧
      readMessage sent = some (start, chunks mid ++ chunks later, [])) ↔
      readBody (framing (lines.map HeaderLine.field)) (waitingBody earlier ++ chunks later) =
        some (chunks mid ++ chunks later, []) := by
    constructor
    · rintro ⟨sent, start, hs, hm⟩
      rw [hsent, List.append_cancel_left_eq] at hs
      rw [← hs, hread] at hm
      obtain ⟨⟨body, rest⟩, hb, heq⟩ := Option.map_eq_some_iff.mp hm
      simp only [Prod.mk.injEq] at heq
      rw [hb, heq.2.1, heq.2.2]
    · intro hb
      exact ⟨_, _, hsent, by rw [hread, hb]; rfl⟩
  rw [hmessage]
  rcases hframed with he | he
  · rw [he]
    constructor
    · intro hb
      refine .inr ⟨rfl, fun hw => ?_, hb⟩
      rw [hw] at hb
      exact readBody_chunked_ne _ hb
    · rintro (⟨hn, -⟩ | ⟨-, -, hb⟩)
      · exact absurd rfl hn
      · exact hb
  · rw [he, readBody_length_iff, List.append_cancel_right_eq]
    simp

/-- The header lines of the request with a body in two pieces. -/
def splitLines : List HeaderLine :=
  [.host, .twoBytes]

/-- What the log of that run has since the head was forwarded, between the head
and its request, and before. -/
def splitLater : List Note := splitSession.log.takeWhile Note.follows

def splitMid : List Note :=
  (splitSession.log.drop (splitLater.length + 1)).takeWhile fun n => n.req.isNone

def splitBefore : List Note :=
  splitSession.log.drop (splitLater.length + 1 + splitMid.length + 1)

theorem request_body_framed_split :
    (∃ sent start, splitSession.upstreamStream =
        sentBefore (splitMid ++ .request splitRequest :: splitBefore) ++ sent ∧
        readMessage sent = some (start, chunks splitMid ++ chunks splitLater, [])) ↔
      (framing (splitLines.map HeaderLine.field) ≠ .chunked ∧
          waitingBody (splitMid ++ .request splitRequest :: splitBefore) = chunks splitMid) ∨
        (framing (splitLines.map HeaderLine.field) = .chunked ∧
          waitingBody (splitMid ++ .request splitRequest :: splitBefore) ≠ chunks splitMid ∧
          readBody .chunked (waitingBody (splitMid ++ .request splitRequest :: splitBefore) ++
            chunks splitLater) = some (chunks splitMid ++ chunks splitLater, [])) :=
  @request_body_framed_iff slowWorld splitSession (reachable_session (by decide +kernel))
    (by decide +kernel) (by decide +kernel) (by decide +kernel) splitRequest splitBefore splitMid
    splitLater ⟨⟨.plain 1, by decide +kernel⟩, by decide +kernel, by decide +kernel⟩ [text "/"]
    splitLines { method := text "POST", content_length := 2 } (by decide) (by decide +kernel)
    (by decide +kernel)

/-- A request with a chunked body. -/
def chunkedPost : List SessionEvent :=
  [received 7 (text "POST / HTTP/1.1\r\nHost: h\r\nTransfer-Encoding: chunked\r\n\r\n1\r\na\r\n0\r\n\r\n")
    (requestEvents [text "/"]
      [.host,
        .chunked]
      { method := text "POST", chunked := true } ++ [.body (text "a"), .messageComplete])]

/-- The head announces chunks, and the body goes out without them: a reader of
the stream finds no message in it. -/
theorem chunked_body_unreadable :
    let s := (sessionRun promptWorld (.ok (start 7 false false)) chunkedPost).session
    s.reachesUpstream = true ∧ chunks s.log = text "a" ∧
      s.upstreamStream =
        text "POST / HTTP/1.1\r\nHost: h\r\nTransfer-Encoding: chunked\r\n\r\na" ∧
      readMessage s.upstreamStream = none := by
  decide +kernel

end DeepSeer
