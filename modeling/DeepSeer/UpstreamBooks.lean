import DeepSeer.Ledger

/-!
The books of what a session writes to the upstream: while the upstream can be
reached, it has been handed what the log says, and body data waits only as long
as there is no upstream.
-/
namespace DeepSeer

open ByteMemory ByteText FallibleRuns Http1Codec

namespace Session

variable {w : World} {D : Side → Prop}

/-- The books stay as they are, but for the flags of a close. -/
def KeepsBooks (s s' : Session) : Prop :=
  ∃ closed finished, s'.ledger = { s.ledger with closed := closed, finished := finished }

theorem KeepsBooks.refl (s : Session) : KeepsBooks s s := ⟨_, _, rfl⟩

theorem KeepsBooks.trans {s s' s'' : Session} (h : KeepsBooks s s') (h' : KeepsBooks s' s'') :
    KeepsBooks s s'' := by
  obtain ⟨_, _, hl⟩ := h
  obtain ⟨closed, finished, hl'⟩ := h'
  exact ⟨closed, finished, by rw [hl', hl]⟩

theorem Shuts.books {s s' : Session} (h : Shuts s s') : KeepsBooks s s' := by
  rcases h.ledger with ⟨hl, -⟩ | ⟨hl, -⟩
  · exact ⟨_, _, hl⟩
  · exact ⟨_, _, hl⟩

/-- Notes of moving data and closing are not booked otherwise. -/
theorem ledger_aside {notes : List Note} (ha : notes.all aside = true) (log : List Note) :
    ∃ closed finished, Ledger.of (notes ++ log) =
      { Ledger.of log with closed := closed, finished := finished } := by
  induction notes with
  | nil => exact ⟨_, _, rfl⟩
  | cons n rest ih =>
    rw [List.all_cons, Bool.and_eq_true] at ha
    obtain ⟨_, _, h⟩ := ih ha.2
    rw [List.cons_append, Ledger.of_cons, h]
    cases n <;> first | exact ⟨_, _, rfl⟩ | exact absurd ha.1 (by simp [aside])

theorem aside_books {s s' : Session} {notes : List Note} (ha : notes.all aside = true)
    (hl : s'.log = notes ++ s.log) : KeepsBooks s s' := by
  obtain ⟨closed, finished, h⟩ := ledger_aside ha s.log
  exact ⟨closed, finished, by rw [Session.ledger, hl, h]; rfl⟩

theorem KeepsBooks.linked {s s' : Session} (h : KeepsBooks s s') :
    s'.ledger.linked = s.ledger.linked := by
  obtain ⟨_, _, hl⟩ := h
  rw [hl]

theorem KeepsBooks.redialed {s s' : Session} (h : KeepsBooks s s') :
    s'.ledger.redialed = s.ledger.redialed := by
  obtain ⟨_, _, hl⟩ := h
  rw [hl]

theorem KeepsBooks.erred {s s' : Session} (h : KeepsBooks s s') :
    s'.ledger.erred = s.ledger.erred := by
  obtain ⟨_, _, hl⟩ := h
  rw [hl]

theorem KeepsBooks.stream {s s' : Session} (h : KeepsBooks s s') :
    s'.ledger.stream = s.ledger.stream := by
  obtain ⟨_, _, hl⟩ := h
  rw [hl]

theorem KeepsBooks.pending {s s' : Session} (h : KeepsBooks s s') :
    s'.ledger.pending = s.ledger.pending := by
  obtain ⟨_, _, hl⟩ := h
  rw [hl]

theorem KeepsBooks.answers {s s' : Session} (h : KeepsBooks s s') :
    s'.ledger.answers = s.ledger.answers := by
  obtain ⟨_, _, hl⟩ := h
  rw [hl]

/-- The books of the upstream side are right. -/
structure BookedUp (s : Session) : Prop where
  proper : s.pendingBody_.Proper
  waiting : s.ledger.linked = false →
    s.upstream_ = none ∧ s.isTlsMitm_ = false ∧ s.pendingBody_.linearize = s.ledger.pending
  stream : s.ledger.linked = true → s.reachesUpstream = true →
    s.upstreamStream = s.ledger.stream ∧ s.pendingBody_.linearize = s.ledger.pending

/-- A change of neither the upstream side nor its books. -/
theorem BookedUp.same {s s' : Session} (h : BookedUp s) (hl : KeepsBooks s s')
    (hp : s'.pendingBody_ = s.pendingBody_) (hu : s'.upstream_ = s.upstream_)
    (hm : s'.isTlsMitm_ = s.isTlsMitm_) (htls : s'.tls = s.tls)
    (hid : s'.tlsUpstream_ = s.tlsUpstream_) : BookedUp s' := by
  have hreaches : s'.reachesUpstream = s.reachesUpstream := by
    simp only [reachesUpstream, hm, hid, htls, hu]
  have hstream : s'.upstreamStream = s.upstreamStream := by
    simp only [upstreamStream, hm, hid, htls, hu]
  refine ⟨hp ▸ h.proper, fun hn => ?_, fun hlinked hr => ?_⟩
  · rw [hu, hm, hp, hl.pending]
    exact h.waiting (hl.linked.symm.trans hn)
  · rw [hstream, hp, hl.stream, hl.pending]
    exact h.stream (hl.linked.symm.trans hlinked) (hreaches.symm.trans hr)

/-- Which TLS connection the session writes requests to. -/
theorem Pointers.tlsUpstream_side {s : Session} (h : Pointers s) {id : Nat} {t : TlsConnection}
    (hid : s.tlsUpstream_ = some id) (ht : s.tls[id]? = some t) : t.side = .upstream := by
  cases h with
  | plain _ _ _ _ htu => exact absurd (htu.symm.trans hid) (by simp)
  | upgrading _ _ htls _ hserver _ _ htu =>
    obtain rfl : 0 = id := Option.some.inj (htu.symm.trans hid)
    rw [htls] at ht
    cases ht
    simp [TlsConnection.side, hserver]
  | intercepted _ htls _ hserver _ _ _ htu =>
    obtain rfl : 0 = id := Option.some.inj (htu.symm.trans hid)
    rw [htls] at ht
    cases ht
    simp [TlsConnection.side, hserver]

/-- Moving data that is not for the upstream leaves its books right. -/
theorem BookedUp.frame {s s' : Session} (h : BookedUp s) (hp : Pointers s)
    (hs : Loose w D s s') (hl : KeepsBooks s s') (hD : ¬ D .upstream) : BookedUp s' := by
  have hstream : s'.upstreamStream = s.upstreamStream :=
    hs.upstreamStream hD fun id t hid ht hd => hD (hp.tlsUpstream_side hid ht ▸ hd)
  have hpending := hs.pending hD
  refine ⟨hpending ▸ h.proper, fun hn => ?_, fun hlinked hr => ?_⟩
  · obtain ⟨hu, hm, hw⟩ := h.waiting (hl.linked.symm.trans hn)
    exact ⟨rel_none hs.upstream hu, hs.isTlsMitm.trans hm, by rw [hpending, hw, hl.pending]⟩
  · obtain ⟨hst, hpe⟩ := h.stream (hl.linked.symm.trans hlinked) (hs.reachesUpstream hr)
    exact ⟨by rw [hstream, hst, hl.stream], by rw [hpending, hpe, hl.pending]⟩

/-- An upstream that can be reached takes the buffer. -/
theorem writeToUpstream_left (w : World) (s : Session) {data : Buffer} (hd : data.Proper) :
    (s.writeToUpstream w data).2.Proper ∧
      (s.reachesUpstream = true → (s.writeToUpstream w data).2.linearize = []) := by
  have htls : ∀ id, (s.writeTls w id data).2.Proper ∧
      ((∃ t, s.tls[id]? = some t ∧ t.closed_ = false) →
        (s.writeTls w id data).2.linearize = []) := by
    intro id
    unfold writeTls
    cases ht : s.tls[id]? with
    | none => exact ⟨hd, fun ⟨t, h, _⟩ => absurd h (by simp)⟩
    | some t =>
      simp only [TlsConnection.write]
      split
      · next hc => exact ⟨hd, fun ⟨t', h, ho⟩ => by cases h; exact absurd (hc.symm.trans ho) (by decide)⟩
      · exact ⟨Buffer.proper_empty, fun _ => rfl⟩
  rcases pointer_cases s.isTlsMitm_ s.tlsUpstream_ with ⟨id, hm, hid⟩ | hp
  · have hwrite : s.writeToUpstream w data = s.writeTls w id data := by
      simp [writeToUpstream, hm, hid]
    rw [hwrite]
    exact ⟨(htls id).1, fun hr => (htls id).2 ((reachesUpstream_tls hm hid).mp hr)⟩
  · cases hu : s.upstream_ with
    | none =>
      have hwrite : s.writeToUpstream w data = (s, data) := by
        rcases hp with hp | hp <;> simp [writeToUpstream, hp, hu]
      rw [hwrite]
      refine ⟨hd, fun hr => ?_⟩
      obtain ⟨c, hc, -⟩ := (reachesUpstream_plain hp).mp hr
      exact absurd (hu.symm.trans hc) (by simp)
    | some c =>
      have hwrite : s.writeToUpstream w data =
          if c.connected then s.writeUpstream w c data else (s, data) := by
        rcases hp with hp | hp <;> simp [writeToUpstream, hp, hu]
      rw [hwrite]
      cases ho : c.closed_ with
      | false =>
        simp only [Connection.connected, ho, Bool.not_false, if_true, writeUpstream,
          Connection.write, Bool.false_eq_true, if_false]
        exact ⟨Buffer.proper_empty, fun _ => rfl⟩
      | true =>
        simp only [Connection.connected, ho, Bool.not_true, Bool.false_eq_true, if_false]
        refine ⟨hd, fun hr => ?_⟩
        obtain ⟨d, hc, hd'⟩ := (reachesUpstream_plain hp).mp hr
        rw [hu] at hc
        cases hc
        exact absurd (ho.symm.trans hd') (by decide)

/-- The waiting body data goes to an upstream that can be reached. -/
theorem sendPending_spec (w : World) {s : Session} (hp : s.pendingBody_.Proper) :
    (s.sendPending w).pendingBody_.Proper ∧ (s.reachesUpstream = true →
      (s.sendPending w).upstreamStream = s.upstreamStream ++ s.pendingBody_.linearize ∧
      (s.sendPending w).pendingBody_.linearize = []) := by
  obtain ⟨hproper, hleft⟩ := writeToUpstream_left w s hp
  exact ⟨hproper, fun hr => ⟨writeToUpstream_stream w hr _, hleft hr⟩⟩

/-- Without an upstream nothing goes anywhere. -/
theorem sendPending_waits (w : World) {s : Session} (hu : s.upstream_ = none)
    (hm : s.isTlsMitm_ = false) : s.sendPending w = s := by
  have hwrite : s.writeToUpstream w s.pendingBody_ = (s, s.pendingBody_) := by
    simp [writeToUpstream, hm, hu]
  rw [sendPending, hwrite]

theorem pieceBuffer (piece : Bytes) :
    (({} : Buffer).add piece).Proper ∧ (({} : Buffer).add piece).linearize = piece :=
  Buffer.proper_empty.add piece

/-- A piece of a request body is booked. -/
theorem BookedUp.requestBody (w : World) {s : Session} (h : BookedUp s) (piece : Bytes) :
    BookedUp ((s.note (.clientParsed (.body piece))).onRequestBody w (({} : Buffer).add piece)) := by
  set s₁ := s.note (.clientParsed (.body piece)) with hs₁
  obtain ⟨hproper, hpiece⟩ := pieceBuffer piece
  have hbooks : s₁.ledger = s.ledger.requestBody piece := rfl
  have hempty : (({} : Buffer).add piece).empty = true ↔ piece = [] := by
    rw [Buffer.empty_iff hproper.represents, hpiece]
  unfold onRequestBody
  split
  · next he =>
    have hnil := hempty.mp he
    have hsame : s₁.ledger = s.ledger := by
      rw [hbooks, Ledger.requestBody, if_pos hnil]
    exact h.same ⟨_, _, hsame⟩ rfl rfl rfl rfl rfl
  · next he =>
    have hne : piece ≠ [] := fun hnil => he (hempty.mpr hnil)
    obtain ⟨hmoved, hjoined⟩ := h.proper.move hproper
    set s₂ := { s₁ with pendingBody_ := (s₁.pendingBody_.move (({} : Buffer).add piece)).1 } with hs₂
    have hkeeps : KeepsBooks s₂ (s₂.sendPending w) := (shuts_sendPending w s₂).books
    obtain ⟨hsent, hspec⟩ := sendPending_spec w (s := s₂) hmoved
    refine ⟨hsent, fun hn => ?_, fun hlinked hr => ?_⟩
    · have hn' : s.ledger.linked = false := by
        rw [hkeeps.linked, show s₂.ledger = _ from hbooks, Ledger.requestBody, if_neg hne] at hn
        split at hn
        · next hl => exact absurd (hl.symm.trans hn) (by decide)
        · exact hn
      obtain ⟨hu, hm, hw⟩ := h.waiting hn'
      rw [sendPending_waits w (s := s₂) hu hm]
      refine ⟨hu, hm, ?_⟩
      rw [show s₂.ledger = _ from hbooks, Ledger.requestBody, if_neg hne, if_neg (by simp [hn'])]
      exact hjoined.trans (by rw [hpiece, hw])
    · have hr₂ : s₂.reachesUpstream = true :=
        (quiet_sendPending (w := w) (toUpstream_any s₂)).toLoose.reachesUpstream hr
      have hlinked' : s.ledger.linked = true := by
        rw [hkeeps.linked, show s₂.ledger = _ from hbooks, Ledger.requestBody, if_neg hne] at hlinked
        split at hlinked <;> exact hlinked
      obtain ⟨hst, hpe⟩ := h.stream hlinked' hr₂
      obtain ⟨hstream, hempty⟩ := hspec hr₂
      rw [hkeeps.stream, hkeeps.pending, show s₂.ledger = _ from hbooks, Ledger.requestBody,
        if_neg hne, if_pos hlinked', hstream, hempty]
      refine ⟨?_, rfl⟩
      rw [show s₂.pendingBody_.linearize = s.pendingBody_.linearize ++ piece from
        hjoined.trans (by rw [hpiece]), hpe, show s₂.upstreamStream = s.upstreamStream from rfl, hst,
        List.append_assoc]

theorem writeToUpstream_pending (w : World) (s : Session) (data : Buffer) :
    (s.writeToUpstream w data).1.pendingBody_ = s.pendingBody_ := by
  unfold writeToUpstream
  split
  · unfold writeTls
    split <;> rfl
  · split
    · split
      · exact (afterUpstreamFlush_loose w s _ _ _).pending id
      · rfl
    · rfl

/-- A head that is forwarded is booked with the body data that waited for it. -/
theorem BookedUp.sendRequest (w : World) {s : Session} (h : BookedUp s)
    (hlinked : s.ledger.linked = true) :
    BookedUp (s.sendRequest w) ∧ (s.sendRequest w).ledger.linked = true := by
  set s₁ : Session := { s.note (.forwarded s.currentRequest_ s.link) with
    currentRequest_.url := originForm s.currentRequest_.url } with hs₁
  have hbooks : s₁.ledger = { s.ledger with
      stream := s.ledger.stream ++ forwardedHead s.currentRequest_ ++ s.ledger.pending
      pending := [] } := rfl
  have hpending : (s.headSent w).pendingBody_ = s.pendingBody_ := writeToUpstream_pending w s₁ _
  have hkeeps : KeepsBooks s₁ (s.headSent w) := (shuts_writeToUpstream w s₁ _).books
  have hloose : Loose w anySide s₁ (s.headSent w) :=
    (quiet_writeToUpstream (toUpstream_any _) _).toLoose
  -- what is right of the streams once the head is written and the waiting data after it
  have hdone : ∀ s' : Session, KeepsBooks (s.headSent w) s' → s'.pendingBody_.Proper →
      (s'.reachesUpstream = true → (s.headSent w).reachesUpstream = true ∧
        s'.upstreamStream = (s.headSent w).upstreamStream ++ s.pendingBody_.linearize ∧
        s'.pendingBody_.linearize = []) →
      BookedUp s' ∧ s'.ledger.linked = true := by
    intro s' hk hproper hstream
    have hl := hkeeps.trans hk
    have hlinked' : s'.ledger.linked = true := by
      rw [hl.linked, hbooks]
      exact hlinked
    refine ⟨⟨hproper, fun hn => absurd (hlinked'.symm.trans hn) (by decide), fun _ hr => ?_⟩,
      hlinked'⟩
    obtain ⟨hr', hst, hpe⟩ := hstream hr
    have hr₀ : s.reachesUpstream = true := hloose.reachesUpstream hr'
    obtain ⟨hs, hp⟩ := h.stream hlinked hr₀
    rw [hl.stream, hl.pending, hbooks, hst, hpe, headSent_stream w hr₀, hs, hp]
    exact ⟨rfl, rfl⟩
  have hproper : (s.headSent w).pendingBody_.Proper := hpending ▸ h.proper
  rw [sendRequest_eq]
  split
  · next he =>
    refine hdone _ (.refl _) hproper fun hr => ⟨hr, ?_, ?_⟩
    all_goals
      have hnil : s.pendingBody_.linearize = [] := by
        rw [← hpending]
        exact (Buffer.empty_iff hproper.represents).mp he
    · rw [hnil, List.append_nil]
    · rw [hpending, hnil]
  · obtain ⟨hsent, hspec⟩ := sendPending_spec w hproper
    refine hdone _ (shuts_sendPending w _).books hsent fun hr => ?_
    have hr' : (s.headSent w).reachesUpstream = true :=
      (quiet_sendPending (w := w) (toUpstream_any _)).toLoose.reachesUpstream hr
    obtain ⟨hst, hpe⟩ := hspec hr'
    exact ⟨hr', by rw [hst, hpending], hpe⟩

theorem wrapUpstream_none {s : Session} (hu : s.upstream_ = none) :
    s.wrapUpstream = { s with
      upstream_ := some { id := s.upstreams + 1, socket_ := s.connectingSocket_ }
      connectingSocket_ := kInvalidFd
      upstreams := s.upstreams + 1 } := by
  simp [wrapUpstream, closeUpstream, hu]

/-- The first connect starts an empty stream. -/
theorem BookedUp.connect {s : Session} (h : BookedUp s) (hn : s.ledger.linked = false) :
    BookedUp (s.note (.connected s.isTlsMitm_)).wrapUpstream := by
  obtain ⟨hu, hm, hw⟩ := h.waiting hn
  rw [wrapUpstream_none (s := s.note (.connected s.isTlsMitm_)) hu]
  refine ⟨h.proper, fun hl => absurd hl (by simp [Session.ledger, note, Ledger.note]),
    fun _ _ => ⟨?_, hw⟩⟩
  simp [upstreamStream, note, hm, Session.ledger, Ledger.note]

theorem BookedUp.forwardRequest (w : World) {s : Session} (h : BookedUp s) (hp : Pointers s)
    (hlinked : s.ledger.linked = true) :
    Ends (s.forwardRequest w) (fun s' => BookedUp s' ∧ s'.ledger.linked = true) fun _ => True := by
  unfold Session.forwardRequest
  cases he : s.prepareUpstream with
  | error crash => trivial
  | ok s₁ =>
    have hkeeps := (shuts_prepareUpstream he).books
    have hframe : BookedUp s₁ := by
      unfold prepareUpstream at he
      split at he
      · cases he
        exact h
      · cases hu : s.upstream_ with
        | none => simp [setupUpstreamCallbacks, hu, crash, bind, Except.bind] at he
        | some c =>
          obtain ⟨s', e, q, -⟩ := readUpstream_ok w hu
          rw [e] at he
          cases he
          exact h.frame hp q.toLoose hkeeps id
    exact hframe.sendRequest w (hkeeps.linked.trans hlinked)

theorem shut_eq {l : List TlsConnection} {id : Nat} {t : TlsConnection} (ht : l[id]? = some t) :
    TlsFlow.shut l id = t.closed_ := by
  simp [TlsFlow.shut, ht]

/-- A handshake that goes on keeps the books of the upstream. -/
theorem BookedUp.shaken {s s' : Session} (h : BookedUp s) (hp : Pointers s) (hp' : Pointers s')
    (hm : s.isTlsMitm_ = true) (k : Shaken s s') : BookedUp s' := by
  have hat : ∀ {s : Session}, Pointers s → s.isTlsMitm_ = true →
      s.tlsUpstream_ = some 0 ∧ s.tls ≠ [] := by
    intro s hp hm
    cases hp with
    | plain hn => exact absurd (hm.symm.trans hn) (by decide)
    | upgrading _ _ htls _ _ _ _ htu => exact ⟨htu, by simp [htls]⟩
    | intercepted _ htls _ _ _ _ _ htu => exact ⟨htu, by simp [htls]⟩
  obtain ⟨hu, hne⟩ := hat hp hm
  have hm' : s'.isTlsMitm_ = true := k.mitm.trans hm
  obtain ⟨hu', -⟩ := hat hp' hm'
  obtain ⟨notes, haside, hlog, -⟩ := k.log
  have hk : KeepsBooks s s' := aside_books haside hlog
  have hlinked : s.ledger.linked = true := by
    by_contra hn
    have hplain := (h.waiting (by simpa using hn)).2.1
    exact absurd (hm.symm.trans hplain) (by decide)
  refine ⟨k.pending ▸ h.proper,
    fun hn => absurd ((hk.linked.trans hlinked).symm.trans hn) (by decide), fun _ hr => ?_⟩
  obtain ⟨u', hu'', ho⟩ := (reachesUpstream_tls hm' hu').mp hr
  have hr₀ : s.reachesUpstream = true := by
    obtain ⟨u, rest, htls⟩ := List.exists_cons_of_ne_nil hne
    have ht : s.tls[0]? = some u := by simp [htls]
    refine (reachesUpstream_tls hm hu).mpr ⟨u, ht, ?_⟩
    by_contra hc
    have hshut := k.shut 0 ((shut_eq ht).trans (by simpa using hc))
    exact absurd (((shut_eq hu'').symm.trans hshut).symm.trans ho) (by decide)
  obtain ⟨hst, hpe⟩ := h.stream hlinked hr₀
  rw [upstreamStream_tls hm' hu', k.stream, ← upstreamStream_tls hm hu, hk.stream, k.pending,
    hk.pending]
  exact ⟨hst, hpe⟩

/-- The start of an interception keeps what waits, and starts an empty stream. -/
theorem BookedUp.entered {s s' : Session} (h : BookedUp s) (hl : s.ledger.linked = true)
    (hs : s.ledger.stream = []) (hr : s.reachesUpstream = true) (hent : Entered s s') :
    BookedUp s' := by
  obtain ⟨notes, haside, hlog, -⟩ := hent.log
  have hk : KeepsBooks s s' := aside_books haside hlog
  refine ⟨hent.pending ▸ h.proper,
    fun hn => absurd ((hk.linked.trans hl).symm.trans hn) (by decide), fun _ _ => ⟨?_, ?_⟩⟩
  · rw [hk.stream, hs]
    cases htu : s'.tlsUpstream_ with
    | none => simp [upstreamStream, htu, hent.upstream]
    | some id => rw [upstreamStream_tls hent.mitm htu, hent.stream]
  · rw [hent.pending, hk.pending]
    exact (h.stream hl hr).2

end Session

end DeepSeer
