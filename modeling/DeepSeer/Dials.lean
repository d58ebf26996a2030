import DeepSeer.Exchanges

/-!
The books of the upstream side through every connect. A plain session that
connects again starts another stream on another upstream; what waits for one
stays. The books are lost only to a tunnel and to a connect that completes after
an interception began.
-/
namespace DeepSeer

open ByteMemory ByteText FallibleRuns Http1Codec

namespace Session

variable {w : World} {D : Side → Prop}

/-- The books of the upstream side are right, and a plain upstream is there, with
its callbacks and open as long as the session is. -/
structure Dialed (s : Session) : Prop where
  pointers : Pointers s
  up : BookedUp s
  upstream : s.isTlsMitm_ = false → s.ledger.linked = true →
    ∃ c, s.upstream_ = some c ∧ c.wired = true ∧ c.closed_ = s.closed_

/-- A change of nothing that is booked on the upstream side. -/
theorem Dialed.same {s s' : Session} (h : Dialed s) (hl : KeepsBooks s s')
    (hc : s'.closed_ = s.closed_) (hpe : s'.pendingBody_ = s.pendingBody_)
    (hm : s'.isTlsMitm_ = s.isTlsMitm_) (hcl : s'.client_ = s.client_)
    (hu : s'.upstream_ = s.upstream_) (ht : s'.tls = s.tls) (htc : s'.tlsClient_ = s.tlsClient_)
    (htu : s'.tlsUpstream_ = s.tlsUpstream_) : Dialed s' := by
  refine ⟨?_, h.up.same hl hpe hu hm ht htu, fun hm' hl' => ?_⟩
  · rw [Pointers, hm, hcl, ht, htc, htu]
    exact h.pointers
  · rw [hu, hc]
    exact h.upstream (hm.symm.trans hm') (hl.linked.symm.trans hl')

/-- Moving data that is not for the upstream leaves its books right. -/
theorem Dialed.quiet {s s' : Session} (h : Dialed s) (hq : Quiet w D s s')
    (hk : KeepsBooks s s') (hD : ¬ D .upstream) : Dialed s' :=
  ⟨hq.toLoose.pointers h.pointers, h.up.frame h.pointers hq.toLoose hk hD,
    fun hm hl => upstream_quiet hq (h.upstream (hq.isTlsMitm.symm.trans hm)
      (hk.linked.symm.trans hl))⟩

theorem Dialed.requestBody {s : Session} (h : Dialed s) (piece : Bytes) :
    Dialed ((s.note (.clientParsed (.body piece))).onRequestBody w (({} : Buffer).add piece)) := by
  set s₁ := s.note (.clientParsed (.body piece)) with hs₁
  have h₁ : Pointers s₁ := h.pointers
  have hq : Quiet w (only .upstream) s₁ (s₁.onRequestBody w (({} : Buffer).add piece)) :=
    quiet_onRequestBody (toUpstream_only h₁) _
  have hk := (shuts_onRequestBody w s₁ (({} : Buffer).add piece)).books
  have hlinked : s₁.ledger.linked = s.ledger.linked := by
    show (s.ledger.requestBody piece).linked = _
    unfold Ledger.requestBody
    split
    · rfl
    · split <;> rfl
  exact ⟨hq.toLoose.pointers h₁, h.up.requestBody w piece, fun hm hl => upstream_quiet hq
    (h.upstream (hq.isTlsMitm.symm.trans hm) (hlinked.symm.trans (hk.linked.symm.trans hl)))⟩

/-- A request head goes to the upstream. -/
theorem Dialed.sendRequest {s : Session} (h : Dialed s) (hlinked : s.ledger.linked = true) :
    Dialed (s.sendRequest w) := by
  set s₁ : Session := { s.note (.forwarded s.currentRequest_ s.link) with
    currentRequest_.url := originForm s.currentRequest_.url } with hs₁
  have h₁ : Pointers s₁ := h.pointers
  have hsent : Quiet w (only .upstream) s₁ (s.sendRequest w) := (sendRequest_quiet w h.pointers).1
  exact ⟨hsent.toLoose.pointers h₁, (h.up.sendRequest w hlinked).1, fun hm _ =>
    upstream_quiet hsent (h.upstream (hsent.isTlsMitm.symm.trans hm) hlinked)⟩

/-- A connect of an open plain session starts an empty stream, whether another
upstream was there or not. -/
theorem Dialed.wrap {s : Session} (h : Dialed s) (ho : s.closed_ = false)
    (hm : s.isTlsMitm_ = false) : BookedUp (s.note (.connected s.isTlsMitm_)).wrapUpstream := by
  cases hn : s.ledger.linked with
  | false => exact h.up.connect hn
  | true =>
    obtain ⟨c, hc, -, hcl⟩ := h.upstream hm hn
    have hr : s.reachesUpstream = true :=
      (reachesUpstream_plain (.inl hm)).mpr ⟨c, hc, hcl.trans ho⟩
    have hwait := (h.up.stream hn hr).2
    have hwrap : (s.note (.connected s.isTlsMitm_)).wrapUpstream = { s.note (.connected s.isTlsMitm_)
        with
        upstream_ := some { id := s.upstreams + 1, socket_ := s.connectingSocket_ }
        connectingSocket_ := kInvalidFd
        upstreams := s.upstreams + 1
        loop_ := (c.close s.loop_).2 } := by
      simp [wrapUpstream, closeUpstream, note, hc]
    rw [hwrap]
    refine ⟨h.up.proper, fun hl => absurd hl (by simp [Session.ledger, note, Ledger.note]),
      fun _ _ => ⟨?_, hwait⟩⟩
    simp [upstreamStream, note, hm, Session.ledger, Ledger.note]

theorem wrapUpstream_aside (s : Session) :
    s.wrapUpstream.log = s.log ∧ s.wrapUpstream.closed_ = s.closed_ ∧
      s.wrapUpstream.pendingBody_ = s.pendingBody_ := by
  unfold wrapUpstream closeUpstream
  split <;> exact ⟨rfl, rfl, rfl⟩

/-- A connect of an open plain session, as far as the callbacks of the upstream. -/
theorem Dialed.connect {s : Session} (h : Dialed s) (ho : s.closed_ = false)
    (hm : s.isTlsMitm_ = false) :
    ∃ s', (s.note (.connected s.isTlsMitm_)).wrapUpstream.prepareUpstream = .ok s' ∧
      Dialed s' ∧ s'.ledger.linked = true := by
  have hup := h.wrap ho hm
  obtain ⟨km, kc, kt, ktc, ktu⟩ := wrapUpstream_keeps (s.note (.connected s.isTlsMitm_))
  obtain ⟨hlog, hclosed, -⟩ := wrapUpstream_aside (s.note (.connected s.isTlsMitm_))
  set s₁ := (s.note (.connected s.isTlsMitm_)).wrapUpstream with hs₁
  have hp₁ : Pointers s₁ := by
    rw [Pointers, km, kc, kt, ktc, ktu]
    exact h.pointers
  have hlinked : s₁.ledger.linked = true := by
    rw [Session.ledger, hlog]
    rfl
  obtain ⟨s₂, e₂, q₂, d, hd, hw, hcl⟩ := readUpstream_ok promptWorld (s := s₁) rfl
  have e₂' : s₁.prepareUpstream = .ok s₂ := by
    simp only [prepareUpstream, km.trans hm, Bool.false_eq_true, if_false]
    exact e₂
  have hk := (shuts_prepareUpstream e₂').books
  have hopen : s₂.closed_ = s₁.closed_ := by
    rw [prepareUpstream_plain (s := s₁) (km.trans hm) rfl] at e₂'
    exact Except.ok.inj e₂' ▸ rfl
  refine ⟨s₂, e₂', ⟨q₂.toLoose.pointers hp₁, hup.frame hp₁ q₂.toLoose hk id,
    fun _ _ => ⟨d, hd, hw, ?_⟩⟩, hk.linked.trans hlinked⟩
  rw [hcl, hopen, hclosed]
  exact ho.symm

/-- The start of an interception keeps what waits, and starts an empty stream. -/
theorem Dialed.startTlsMitm {s : Session} (h : Dialed s) (ho : s.closed_ = false)
    (hm : s.isTlsMitm_ = false) (hostname : Bytes) :
    Ends ((s.note (.connected s.isTlsMitm_)).wrapUpstream.startTlsMitm w hostname) Dialed
      fun _ => True := by
  have hup := h.wrap ho hm
  obtain ⟨km, kc, kt, ktc, ktu⟩ := wrapUpstream_keeps (s.note (.connected s.isTlsMitm_))
  obtain ⟨hlog, -, -⟩ := wrapUpstream_aside (s.note (.connected s.isTlsMitm_))
  set s₁ := (s.note (.connected s.isTlsMitm_)).wrapUpstream with hs₁
  have hlinked₁ : s₁.ledger.linked = true ∧ s₁.ledger.stream = [] := by
    rw [Session.ledger, hlog]
    exact ⟨rfl, rfl⟩
  cases h.pointers with
  | upgrading hm' => exact absurd (hm.symm.trans hm') (by decide)
  | intercepted hm' => exact absurd (hm.symm.trans hm') (by decide)
  | @plain c _ hc htls htc htu =>
    obtain ⟨s', e, hp, hent, -⟩ := startTlsMitm_ok w (s := s₁) (kc.trans hc) rfl (kt.trans htls)
      (ktc.trans htc) (ktu.trans htu) hostname
    rw [e]
    have hreach : s₁.reachesUpstream = true :=
      (reachesUpstream_plain (.inl (km.trans hm))).mpr ⟨_, rfl, rfl⟩
    exact ⟨hp, hup.entered hlinked₁.1 hlinked₁.2 hreach hent,
      fun hm' => absurd (hent.mitm.symm.trans hm') (by decide)⟩

/-- A handshake that goes on keeps the books of the upstream. -/
theorem Dialed.handshake {s : Session} (h : Dialed s) {id : Nat} {t : TlsConnection}
    (ht : s.tls[id]? = some t) (hd : t.handshakeDone_ = false) :
    Ends (s.continueHandshake w id) Dialed fun _ => True := by
  obtain ⟨s', e, hp, k⟩ := continueHandshake_ok w h.pointers ht hd
  rw [e]
  have hm : s.isTlsMitm_ = true := by
    cases h.pointers with
    | plain _ _ htls => simp [htls] at ht
    | upgrading hm => exact hm
    | intercepted hm => exact hm
  exact ⟨hp, h.up.shaken h.pointers hp hm k,
    fun hm' => absurd ((k.mitm.trans hm).symm.trans hm') (by decide)⟩

/-- What waits is dropped at the end of a response. -/
theorem Dialed.responseComplete {s : Session} (h : Dialed s) :
    Dialed (((s.note (.upstreamParsed .messageComplete)).onResponseBody w {}).onResponseComplete) := by
  rw [onResponseBody_empty]
  unfold onResponseComplete
  dsimp only
  set s₁ := s.note (.upstreamParsed .messageComplete) with hs₁
  -- the note of what is inspected is not booked
  set s₂ := if s₁.payloadInspector_ ∧ s₁.responseBody_.empty = false then
      s₁.note (.inspected s₁.responseBody_.linearize s₁.currentRequest_.url) else s₁ with hs₂
  obtain ⟨log, hlog, hs₂'⟩ : ∃ log, Ledger.of log = s.ledger.upstreamParsed .messageComplete ∧
      s₂ = { s with log := log } := by
    rw [hs₂]
    split
    · exact ⟨_, rfl, rfl⟩
    · exact ⟨_, rfl, rfl⟩
  set s₃ : Session := { s₂ with pendingBody_ := {}, responseBody_ := {} } with hs₃
  have hbooks : s₃.ledger = s.ledger.upstreamParsed .messageComplete := by
    rw [hs₃, hs₂']
    exact hlog
  have hdone : Dialed s₃ := by
    refine ⟨?_, ⟨Buffer.proper_empty, fun hn => ?_, fun hl hr => ?_⟩, fun hm hl => ?_⟩
    · rw [hs₃, hs₂']
      exact h.pointers
    · rw [hbooks] at hn ⊢
      rw [hs₃, hs₂']
      exact ⟨(h.up.waiting hn).1, (h.up.waiting hn).2.1, rfl⟩
    · rw [hbooks] at hl ⊢
      rw [hs₃, hs₂'] at hr ⊢
      exact ⟨(h.up.stream hl hr).1, rfl⟩
    · rw [hbooks] at hl
      rw [hs₃, hs₂'] at hm ⊢
      exact h.upstream hm hl
  split
  · exact hdone
  · have hq : Quiet w noSide s₃ (s₃.close .responseComplete) := quiet_close s₃ _
    exact hdone.quiet hq (close_books s₃ _) fun hD => hD

/-- A callback of the upstream parser that is not the end of a response. -/
theorem Dialed.heard {s : Session} (h : Dialed s) {ev : ParserEvent}
    (hev : ev ≠ .messageComplete) (codec : Http1Codec) :
    Dialed ({ s with upstreamCodec_ := codec }.note (.upstreamParsed ev)) :=
  ⟨h.pointers, h.up.upstreamParsed hev codec, h.upstream⟩

/-- A head that goes to the client. -/
theorem Dialed.answer {s : Session} (h : Dialed s) (resp : HttpResponse) {n : Note}
    (hn : s.ledger.note n = { s.ledger with erred := (s.ledger.note n).erred }) :
    Dialed (s.answer w resp n) := by
  unfold Session.answer
  dsimp only
  have hnote : Dialed (if s.reachesClient then s.note n else s) := by
    split
    · refine ⟨h.pointers, ⟨h.up.proper, fun hl => ?_, fun hl hr => ?_⟩, fun hm hl => ?_⟩
      · rw [ledger_note, hn] at hl ⊢
        exact h.up.waiting hl
      · rw [ledger_note, hn] at hl ⊢
        exact h.up.stream hl hr
      · rw [ledger_note, hn] at hl
        exact h.upstream hm hl
    · exact h
  set s₁ := if s.reachesClient then s.note n else s with hs₁
  exact hnote.quiet (quiet_writeToClient (w := w) (toClient_only hnote.pointers)
    (Http1Codec.encodeResponse_proper resp).1) (shuts_writeToClient w s₁ _).books (by simp)

/-- The upstream books are right, unless a tunnel or a connect after the start
of an interception has changed what they are about. -/
def Dials (s : Session) : Prop := LateConnect s ∨ s.isTunnel_ = true ∨ Dialed s

theorem dials_ok {s : Session} (h : Dialed s) : Dials s := .inr (.inr h)

theorem SteadyEnd.dials {s : Session} {r : Outcome} (h : SteadyEnd w s r)
    (hs : LateConnect s ∨ s.isTunnel_ = true) : Ends r Dials fun _ => True :=
  Ends.mono h (fun _ h => hs.elim (fun hl => .inl (h.late hl)) fun ht => .inr (.inl (h.tunnel ht)))
    fun _ _ => trivial

theorem onUpstreamConnected_dials {s : Session} (h : Dialed s) :
    Ends (s.onUpstreamConnected w) Dials fun _ => True := by
  unfold onUpstreamConnected
  cases ho : s.closed_ with
  | true => exact dials_ok h
  | false =>
    simp only [Bool.false_eq_true, if_false]
    cases hm : s.isTlsMitm_ with
    | true =>
      have hwrap : Steady w (s.note (.connected true)) (s.note (.connected true)).wrapUpstream :=
        steady_wrapUpstream w _
      have hlate : LateConnect (s.note (.connected true)).wrapUpstream :=
        hwrap.late ⟨List.mem_cons_self, hm⟩
      split
      · exact (steadily_startTunnel w _).ends.dials (.inl hlate)
      · exact (steadily_forwardRequest w _).ends.dials (.inl hlate)
    | false =>
      have hconnect := h.connect ho hm
      have hmitm := @Dialed.startTlsMitm w s h ho hm
      rw [hm] at hconnect hmitm
      split
      · unfold startTunnel
        split
        · exact Ends.mono (hmitm _) (fun _ => dials_ok) fun _ => id
        · set s₁ := (s.note (.connected false)).wrapUpstream with hs₁
          exact (steadily_passThrough w { s₁ with isTunnel_ := true }).ends.dials (.inr rfl)
      · obtain ⟨s₂, e₂, h₂, hl₂⟩ := hconnect
        rw [Session.forwardRequest, e₂]
        exact dials_ok (h₂.sendRequest hl₂)

theorem connectUpstream_dials {s : Session} (h : Dialed s) (host : Bytes) (port : Nat) :
    Ends (s.connectUpstream w host port) Dials fun _ => True := by
  unfold connectUpstream
  split
  · trivial
  · have hcount : Dialed { s with sockets := s.sockets + 1 } :=
      h.same ⟨_, _, rfl⟩ rfl rfl rfl rfl rfl rfl rfl rfl
    dsimp only
    split
    · exact dials_ok (hcount.answer _ rfl)
    · next fd _ =>
      have hreplace : Dialed (replaceConnecting { s with sockets := s.sockets + 1 } fd) :=
        h.same ⟨_, _, rfl⟩ rfl rfl rfl rfl rfl rfl rfl rfl
      split
      · exact dials_ok (hreplace.answer _ rfl)
      · exact onUpstreamConnected_dials hreplace
      · exact dials_ok (h.same ⟨_, _, rfl⟩ rfl rfl rfl rfl rfl rfl rfl rfl)

theorem onRequest_dials {s : Session} (h : Dialed s) (req : HttpRequest) :
    Ends (s.onRequest w req) Dials fun _ => True := by
  unfold onRequest handleConnect
  dsimp only
  split
  · split
    · trivial
    · refine connectUpstream_dials ?_ _ _
      exact h.same ⟨_, _, rfl⟩ rfl rfl rfl rfl rfl rfl rfl rfl
  · split
    · next hm =>
      have hset : Dialed { s.note (.request req) with currentRequest_ := req } :=
        h.same ⟨_, _, rfl⟩ rfl rfl rfl rfl rfl rfl rfl rfl
      have hlinked : s.ledger.linked = true := by
        by_contra hn
        have hplain := (h.up.waiting (by simpa using hn)).2.1
        exact absurd (hplain.symm.trans hm) (by decide)
      have hprepare : { s.note (.request req) with currentRequest_ := req }.prepareUpstream =
          .ok { s.note (.request req) with currentRequest_ := req } := if_pos hm
      rw [Session.forwardRequest, hprepare]
      exact dials_ok (hset.sendRequest hlinked)
    · refine connectUpstream_dials ?_ _ _
      exact h.same ⟨_, _, rfl⟩ rfl rfl rfl rfl rfl rfl rfl rfl

/-- Every effect keeps the upstream books right, or loses them to a tunnel or a
late connect. -/
theorem effect_dials {s : Session} {r : Outcome} (h : Dials s) (he : Effect w s r) :
    Ends r Dials fun _ => True := by
  have hsteady := effect_steadily he
  rcases h with hl | ht | h
  · exact hsteady.dials (.inl hl)
  · exact hsteady.dials (.inr ht)
  have hbook : ∀ {l l' : Ledger}, l' = l → ∃ closed finished,
      l' = { l with closed := closed, finished := finished } := fun h => ⟨_, _, h⟩
  cases he with
  | quiet hq hs => exact dials_ok (h.quiet (hq noSide) hs.books id)
  | clientData data _ => exact dials_ok (h.same ⟨_, _, rfl⟩ rfl rfl rfl rfl rfl rfl rfl rfl)
  | upstreamData data _ _ => exact dials_ok (h.same ⟨_, _, rfl⟩ rfl rfl rfl rfl rfl rfl rfl rfl)
  | tunnelUp c data ht _ => exact hsteady.dials (.inr ht)
  | tunnelDown data ht _ => exact hsteady.dials (.inr ht)
  | clientErrno errno => exact dials_ok (h.same ⟨_, _, rfl⟩ rfl rfl rfl rfl rfl rfl rfl rfl)
  | upstreamErrno errno => exact dials_ok (h.same ⟨_, _, rfl⟩ rfl rfl rfl rfl rfl rfl rfl rfl)
  | parserThrows => trivial
  | request ev codec req hh =>
    have hb : ∀ piece, ev ≠ .body piece := by
      rintro piece rfl
      simp [handle] at hh
    refine onRequest_dials ?_ req
    exact h.same (hbook (clientParsed_books s.ledger hb)) rfl rfl rfl rfl rfl rfl rfl rfl
  | requestBody piece => exact dials_ok (h.requestBody piece)
  | clientParsed ev codec emissions hb _ _ =>
    exact dials_ok (h.same (hbook (clientParsed_books s.ledger hb)) rfl rfl rfl rfl rfl rfl rfl rfl)
  | response ev codec resp _ hc =>
    have hev : ev ≠ .messageComplete := by
      rintro rfl
      simp [handle] at hc
    exact dials_ok ((h.heard hev codec).answer _ rfl)
  | responseBody piece _ =>
    have hheard : Dialed (s.note (.upstreamParsed (.body piece))) :=
      h.heard (by simp) s.upstreamCodec_
    exact dials_ok (hheard.quiet (quiet_onResponseBody (toClient_only hheard.pointers)
      (Buffer.proper_empty.add piece).1) (shuts_onResponseBody w _ _).books (by simp))
  | responseComplete _ => exact dials_ok h.responseComplete
  | upstreamParsed ev codec _ _ _ hev _ _ => exact dials_ok (h.heard hev codec)
  | badRequest =>
    have hanswer : Dialed (s.sendError w 400 (text "Bad Request")) := h.answer _ rfl
    have hq : Quiet w noSide (s.sendError w 400 (text "Bad Request"))
        ((s.sendError w 400 (text "Bad Request")).close .clientParseError) := quiet_close _ _
    exact dials_ok (hanswer.quiet hq (close_books _ _) fun hD => hD)
  | connected fd _ =>
    refine onUpstreamConnected_dials ?_
    exact h.same ⟨_, _, rfl⟩ rfl rfl rfl rfl rfl rfl rfl rfl
  | handshake id t ht _ hd => exact Ends.mono (h.handshake ht hd) (fun _ => dials_ok) fun _ _ => trivial
  | destroyed => trivial

theorem start_dialed (fd : Fd) (certGen payloadInspector : Bool) :
    Dialed (start fd certGen payloadInspector) :=
  ⟨start_pointers fd certGen _, (start_booked fd certGen payloadInspector).up,
    fun _ hl => absurd hl (by simp [Session.ledger, start])⟩

/-- The upstream books of every run are right, or lost to a tunnel or a late
connect. -/
theorem sessionRun_dials (w : World) (fd : Fd) (certGen payloadInspector : Bool)
    (events : List SessionEvent) :
    Ends (sessionRun w (.ok (start fd certGen payloadInspector)) events) Dials fun _ => True :=
  sessionRun_effects (fun _ _ => effect_dials) (dials_ok (start_dialed fd certGen _)) events

end Session

open Session

/-- A reachable session that is no tunnel and has seen no late connect has right
upstream books. -/
theorem Reachable.dialed {w : World} {s : Session} (h : Reachable w s)
    (hlate : s.log.any Note.lateConnect = false) (ht : s.isTunnel_ = false) : Dialed s := by
  obtain ⟨fd, certGen, payloadInspector, events, hr⟩ := h
  have hrun := sessionRun_dials w fd certGen payloadInspector events
  rw [hr] at hrun
  rcases hrun with hl | ht' | hd
  · have hmem : s.log.any Note.lateConnect = true :=
      List.any_eq_true.mpr ⟨.connected true, hl.noted, rfl⟩
    exact absurd (hlate.symm.trans hmem) (by decide)
  · exact absurd (ht.symm.trans ht') (by decide)
  · exact hd

end DeepSeer
