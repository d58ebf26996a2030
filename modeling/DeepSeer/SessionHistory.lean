import DeepSeer.SessionActs

/-!
What no handler can undo. Notes stay in the log, a closed session stays closed,
and the client connection is the one the session started with, moved on by its
calls, until its socket goes to TLS.
-/
namespace DeepSeer

open ByteMemory ByteText FallibleRuns KqueueLoop

namespace Session

structure Steady (w : World) (s s' : Session) : Prop where
  log : s.log <:+ s'.log
  closed : s.closed_ = true → s'.closed_ = true
  noted : ∀ cause, .closed cause ∈ s'.log → .closed cause ∈ s.log ∨ s'.closed_ = true
  shut : s.closed_ = false → s'.closed_ = true → ∀ c, s'.client_ = some c → c.closed_ = true
  mitm : s.isTlsMitm_ = true → s'.isTlsMitm_ = true
  tunnel : s.isTunnel_ = true → s'.isTunnel_ = true
  client : ∀ c', s'.client_ = some c' →
    ∃ c, s.client_ = some c ∧ c.Moves True Buffer.Proper w.clientSend c'
  parses : s.clientCodec_.type = .request → s'.clientCodec_.type = .request

/-- A computation that is steady however it ends. -/
abbrev SteadyEnd (w : World) (s : Session) (r : Outcome) : Prop :=
  Ends r (Steady w s) fun crash => Steady w s crash.state

/-- A computation that is steady and throws no exception. -/
abbrev Steadily (w : World) (s : Session) (r : Outcome) : Prop :=
  Ends r (Steady w s) fun crash => Steady w s crash.state ∧ crash.fault ≠ .exception

variable {w : World}

/-- A change that leaves log, flags and client connection alone. -/
theorem Steady.same {s s' : Session} (hl : s'.log = s.log) (hf : s'.closed_ = s.closed_)
    (hm : s.isTlsMitm_ = true → s'.isTlsMitm_ = true) (hc : s'.client_ = s.client_)
    (hp : s.clientCodec_.type = .request → s'.clientCodec_.type = .request)
    (ht : s.isTunnel_ = true → s'.isTunnel_ = true) : Steady w s s' :=
  ⟨hl ▸ List.suffix_refl _, fun h => hf.trans h, fun _ h => .inl (hl ▸ h),
    fun ho h => absurd (ho.symm.trans (hf.symm.trans h)) (by decide), hm, ht,
    fun c' h => ⟨c', hc ▸ h, .refl c'⟩, hp⟩

theorem Steady.refl (w : World) (s : Session) : Steady w s s := .same rfl rfl id rfl id id

theorem Steady.trans {s s' s'' : Session} (h : Steady w s s') (h' : Steady w s' s'') :
    Steady w s s'' := by
  refine ⟨h.log.trans h'.log, fun hc => h'.closed (h.closed hc), fun cause hmem => ?_,
    fun ho hc c'' hc'' => ?_, fun hm => h'.mitm (h.mitm hm), fun ht => h'.tunnel (h.tunnel ht),
    fun c'' hc'' => ?_,
    fun hp => h'.parses (h.parses hp)⟩
  · rcases h'.noted cause hmem with hmem | hc
    · exact (h.noted cause hmem).imp_right h'.closed
    · exact .inr hc
  · cases hs' : s'.closed_ with
    | false => exact h'.shut hs' hc c'' hc''
    | true =>
      obtain ⟨c', hc', hm'⟩ := h'.client c'' hc''
      exact (hm'.kin.closed (h.shut ho hs' c' hc')).1
  · obtain ⟨c', hc', hm'⟩ := h'.client c'' hc''
    obtain ⟨c, hc, hm⟩ := h.client c' hc'
    exact ⟨c, hc, hm.trans hm'⟩

theorem Loose.isTlsMitm {D : Side → Prop} {s s' : Session} (h : Loose w D s s') :
    s'.isTlsMitm_ = s.isTlsMitm_ := by
  have hs : s'.still.isTlsMitm_ = s.still.isTlsMitm_ := by rw [h.still]
  exact hs

theorem Loose.isTunnel {D : Side → Prop} {s s' : Session} (h : Loose w D s s') :
    s'.isTunnel_ = s.isTunnel_ := by
  have hs : s'.still.isTunnel_ = s.still.isTunnel_ := by rw [h.still]
  exact hs

theorem Loose.currentRequest {D : Side → Prop} {s s' : Session} (h : Loose w D s s') :
    s'.currentRequest_ = s.currentRequest_ := by
  have hs : s'.still.currentRequest_ = s.still.currentRequest_ := by rw [h.still]
  exact hs

theorem Loose.clientCodec {D : Side → Prop} {s s' : Session} (h : Loose w D s s') :
    s'.clientCodec_ = s.clientCodec_ := by
  have hs : s'.still.clientCodec_ = s.still.clientCodec_ := by rw [h.still]
  exact hs

theorem Quiet.steady {D : Side → Prop} {s s' : Session} (h : Quiet w D s s') : Steady w s s' := by
  obtain ⟨notes, -, hl, hclosed⟩ := h.log
  refine ⟨⟨notes, hl.symm⟩, h.closed, fun cause hmem => ?_, fun ho hc => (h.shut ho hc).client,
    fun hm => h.isTlsMitm.trans hm, fun ht => h.isTunnel.trans ht, fun c' hc' => ?_,
    fun hp => by rwa [h.clientCodec]⟩
  · rw [hl] at hmem
    exact (List.mem_append.mp hmem).symm.imp_right (hclosed cause)
  · obtain ⟨c, hc, hm⟩ := rel_back h.client hc'
    exact ⟨c, hc, hm.mono fun _ => trivial⟩

/-- A note that says nothing about a close. -/
theorem Steady.note {s s' : Session} (h : Steady w s s') {n : Note} (hn : aside n = false) :
    Steady w s (s'.note n) := by
  refine h.trans ⟨⟨[n], rfl⟩, id, fun cause hmem => ?_,
    fun ho hc => absurd (ho.symm.trans hc) (by decide), id, id, fun c' h => ⟨c', h, .refl c'⟩, id⟩
  rcases List.mem_cons.mp hmem with rfl | hmem
  · exact absurd hn (by simp [aside])
  · exact .inl hmem

theorem Steadily.trans {s s' : Session} {r : Outcome} (h : Steady w s s')
    (h' : Steadily w s' r) : Steadily w s r :=
  Ends.mono h' (fun _ => h.trans) fun _ he => ⟨h.trans he.1, he.2⟩

theorem SteadyEnd.trans {s s' : Session} {r : Outcome} (h : Steady w s s')
    (h' : SteadyEnd w s' r) : SteadyEnd w s r :=
  Ends.mono h' (fun _ => h.trans) fun _ => h.trans

theorem Steadily.ends {s : Session} {r : Outcome} (h : Steadily w s r) : SteadyEnd w s r :=
  Ends.mono h (fun _ => id) fun _ => And.left

theorem SteadyEnd.session {s : Session} {r : Outcome} (h : SteadyEnd w s r) :
    Steady w s r.session := by
  cases r <;> exact h

/-- Steady computations one after another. -/
theorem Steadily.bind {s : Session} {x : Outcome} {f : Session → Outcome} (h : Steadily w s x)
    (hf : ∀ s', Steadily w s' (f s')) : Steadily w s (x >>= f) :=
  Ends.bind h fun s' hs' => (hf s').trans hs'

theorem steady_crash (s : Session) {fault : Fault} (h : fault ≠ .exception) :
    Steadily w s (s.crash fault) := ⟨.refl w s, h⟩

theorem steady_answer (w : World) (s : Session) (resp : HttpResponse) {n : Note}
    (hn : aside n = false) : Steady w s (s.answer w resp n) := by
  have hnote : Steady w s (if s.reachesClient then s.note n else s) := by
    split
    · exact (Steady.refl w s).note hn
    · exact .refl w s
  exact hnote.trans (quiet_writeToClient (toClient_any _)
    (Http1Codec.encodeResponse_proper resp).1).steady

theorem steadily_writeEstablished (w : World) (s : Session) :
    Steadily w s (s.writeEstablished w) := by
  unfold writeEstablished
  split
  · exact steady_crash s (by decide)
  · next c hc =>
    exact (quiet_afterClientFlush (D := anySide) hc (.writeText established s.loop_ trivial (.refl c))
      (c.writeText_noNew w.clientSend established s.loop_)
      (writeText_open established s.loop_)).steady

theorem steadily_stopClientRead (w : World) (s : Session) : Steadily w s s.stopClientRead := by
  unfold stopClientRead
  split
  · exact steady_crash s (by decide)
  · next c hc =>
    exact (quiet_setClient (D := anySide) hc (.stopRead s.loop_ (.refl c))
      (c.stopRead_noNew s.loop_) fun _ _ => (c.stopRead_closed s.loop_).trans).steady

theorem steadily_setupUpstreamCallbacks (w : World) (s : Session) :
    Steadily w s s.setupUpstreamCallbacks := by
  unfold setupUpstreamCallbacks
  split
  · exact steady_crash s (by decide)
  · exact Steady.same rfl rfl id rfl id id

theorem steadily_startUpstreamRead (w : World) (s : Session) :
    Steadily w s s.startUpstreamRead := by
  unfold startUpstreamRead
  split
  · exact steady_crash s (by decide)
  · exact Steady.same rfl rfl id rfl id id

theorem steadily_prepareUpstream (w : World) (s : Session) : Steadily w s s.prepareUpstream := by
  unfold prepareUpstream
  split
  · exact Steady.refl w s
  · exact (steadily_setupUpstreamCallbacks w s).bind (steadily_startUpstreamRead w)

theorem steady_sendRequest (w : World) (s : Session) : Steady w s (s.sendRequest w) := by
  have hsent : ∀ s' : Session, Steady w s s' → Steady w s
      (if s'.pendingBody_.empty then s' else s'.sendPending w) := by
    intro s' h
    split
    · exact h
    · exact h.trans (quiet_sendPending (toUpstream_any s')).steady
  refine hsent _ (Steady.trans ?_ (quiet_writeToUpstream (toUpstream_any _) _).steady)
  exact ((Steady.refl w s).note rfl).trans (Steady.same rfl rfl id rfl id id)

theorem steadily_forwardRequest (w : World) (s : Session) : Steadily w s (s.forwardRequest w) :=
  (steadily_prepareUpstream w s).bind fun s => steady_sendRequest w s

theorem steadily_wireTls (w : World) (s : Session) (pointer : Option Nat) :
    Steadily w s (s.wireTls pointer) := by
  unfold wireTls
  split
  · exact steady_crash s (by decide)
  · split
    · exact steady_crash s (by decide)
    · exact Steady.same rfl rfl id rfl id id

theorem steadily_startTlsRead (w : World) (s : Session) (pointer : Option Nat) :
    Steadily w s (s.startTlsRead pointer) := by
  unfold startTlsRead
  split
  · exact steady_crash s (by decide)
  · split
    · exact steady_crash s (by decide)
    · exact Steady.same rfl rfl id rfl id id

theorem steadily_onClientHandshake (w : World) (s : Session) :
    Steadily w s s.onClientHandshake := by
  have hreset : Steady w s { s with
      clientCodec_ := { type := .request }, upstreamCodec_ := { type := .response } } :=
    Steady.same rfl rfl id rfl (fun _ => rfl) id
  exact Steadily.trans hreset <| (steadily_wireTls w _ _).bind fun s =>
    (steadily_wireTls w s _).bind fun s => (steadily_startTlsRead w s _).bind fun s =>
      steadily_startTlsRead w s _

theorem steady_handshakeStep (w : World) (s : Session) (id : Nat) :
    Steady w s (s.handshakeStep w id).1 := by
  unfold handshakeStep
  split
  · exact .refl w s
  · exact Steady.same rfl rfl (fun h => h) rfl (fun h => h) fun h => h

theorem steadily_clientHandshake (w : World) (s : Session) (id : Nat) :
    Steadily w s (s.clientHandshake w id) := by
  have hstep := steady_handshakeStep w s id
  unfold clientHandshake
  split
  · next heq =>
    rw [heq] at hstep
    exact hstep
  · next heq =>
    rw [heq] at hstep
    exact Steadily.trans hstep (steadily_onClientHandshake w _)
  · next heq =>
    rw [heq] at hstep
    exact hstep.trans (quiet_close (D := anySide) _ _).steady

theorem steadily_onUpstreamHandshake (w : World) (s : Session) (hostname : Bytes) :
    Steadily w s (s.onUpstreamHandshake w hostname) := by
  unfold onUpstreamHandshake
  split
  · split
    · exact steady_crash s (by decide)
    · refine @Steadily.trans w _ (Session.makeTls _ _ _ _) _ ?_ (steadily_clientHandshake w _ _)
      exact ⟨List.suffix_refl _, id, fun _ h => .inl h,
        fun ho hc => absurd (ho.symm.trans hc) (by decide), id, id,
        fun c h => by simp [makeTls] at h, id⟩
  · exact (quiet_close (D := anySide) s _).steady

theorem steadily_upstreamHandshake (w : World) (s : Session) (id : Nat) (hostname : Bytes) :
    Steadily w s (s.upstreamHandshake w id hostname) := by
  have hstep := steady_handshakeStep w s id
  unfold upstreamHandshake
  split
  · next heq =>
    rw [heq] at hstep
    exact hstep
  · next heq =>
    rw [heq] at hstep
    exact Steadily.trans hstep (steadily_onUpstreamHandshake w _ hostname)
  · next heq =>
    rw [heq] at hstep
    exact hstep.trans (quiet_close (D := anySide) _ _).steady

theorem steadily_continueHandshake (w : World) (s : Session) (id : Nat) :
    Steadily w s (s.continueHandshake w id) := by
  unfold continueHandshake
  split
  · exact Steady.refl w s
  · exact steadily_upstreamHandshake w s id _
  · exact steadily_clientHandshake w s id

theorem steady_dropTls (w : World) (s : Session) (pointer : Option Nat) :
    Steady w s (s.dropTls pointer) := by
  unfold dropTls
  split
  · exact .refl w s
  · split
    · exact .refl w s
    · split
      · exact .refl w s
      · exact (quiet_closeTls (D := anySide) s _).steady

theorem steadily_startTlsMitm (w : World) (s : Session) (hostname : Bytes) :
    Steadily w s (s.startTlsMitm w hostname) := by
  have hflag : Steady w s { s with isTlsMitm_ := true } :=
    Steady.same rfl rfl (fun _ => rfl) rfl id id
  refine Steadily.trans hflag <| (steadily_writeEstablished w _).bind fun s =>
    (steadily_stopClientRead w s).bind fun s => ?_
  split
  · exact steady_crash s (by decide)
  · refine Steadily.trans (@Steady.trans w _ (Session.makeTls _ _ _ _) _ ?_ (steady_dropTls w _ _))
      (steadily_upstreamHandshake w _ _ _)
    exact Steady.same rfl rfl id rfl id id

/-- What starts a tunnel that is not intercepted. -/
theorem steadily_passThrough (w : World) (s : Session) : Steadily w s (do
    let s ← s.writeEstablished w
    let s ← s.setupUpstreamCallbacks
    s.startUpstreamRead) :=
  (steadily_writeEstablished w s).bind fun s =>
    (steadily_setupUpstreamCallbacks w s).bind (steadily_startUpstreamRead w)

theorem steadily_startTunnel (w : World) (s : Session) : Steadily w s (s.startTunnel w) := by
  unfold startTunnel
  split
  · exact steadily_startTlsMitm w s _
  · have hflag : Steady w s { s with isTunnel_ := true } :=
      Steady.same rfl rfl id rfl id fun _ => rfl
    exact Steadily.trans hflag (steadily_passThrough w _)

theorem steady_wrapUpstream (w : World) (s : Session) : Steady w s s.wrapUpstream := by
  unfold wrapUpstream closeUpstream
  split <;> exact Steady.same rfl rfl id rfl id id

theorem steadily_onUpstreamConnected (w : World) (s : Session) :
    Steadily w s (s.onUpstreamConnected w) := by
  unfold onUpstreamConnected
  split
  · exact Steady.refl w s
  · have hwrap := (Steady.note (Steady.refl w s) (n := .connected s.isTlsMitm_) rfl).trans
      (steady_wrapUpstream w _)
    dsimp only
    split
    · exact Steadily.trans hwrap (steadily_startTunnel w _)
    · exact Steadily.trans hwrap (steadily_forwardRequest w _)

theorem steady_replaceConnecting (w : World) (s : Session) (fd : Fd) :
    Steady w s (s.replaceConnecting fd) := by
  have hnote : Steady w s (s.note (.opened fd s.stray)) := (Steady.refl w s).note rfl
  exact hnote.trans (Steady.same rfl rfl id rfl id id)

theorem steadily_connectUpstream (w : World) (s : Session) (host : Bytes) (port : Nat) :
    Steadily w s (s.connectUpstream w host port) := by
  have hcount : Steady w s { s with sockets := s.sockets + 1 } := Steady.same rfl rfl id rfl id id
  unfold connectUpstream
  split
  · exact steady_crash s (by decide)
  · dsimp only
    split
    · exact hcount.trans (steady_answer w _ _ rfl)
    · next fd hfd =>
      have hreplace := hcount.trans (steady_replaceConnecting w _ fd)
      split
      · exact hreplace.trans (steady_answer w _ _ rfl)
      · exact Steadily.trans hreplace (steadily_onUpstreamConnected w _)
      · exact hreplace.trans (Steady.same rfl rfl id rfl id id)

/-- A `CONNECT` throws exactly where its target has no port that converts. -/
theorem steadily_handleConnect (w : World) (s : Session) {req : HttpRequest} {host : Bytes}
    {port : Nat} (h : connectTarget req.url = some (host, port)) :
    Steadily w s (s.handleConnect w req) := by
  have hname : Steady w s { s with connectHostname_ := host } := Steady.same rfl rfl id rfl id id
  simp only [handleConnect, h]
  exact Steadily.trans hname (steadily_connectUpstream w _ host port)

/-- A request throws only as a `CONNECT` to such a target. -/
theorem steadily_onRequest (w : World) (s : Session) {req : HttpRequest}
    (h : req.method = .CONNECT → connectTarget req.url ≠ none) :
    Steadily w (s.note (.request req)) (s.onRequest w req) := by
  have hset : Steady w (s.note (.request req))
      { s.note (.request req) with currentRequest_ := req } :=
    Steady.same rfl rfl id rfl id id
  unfold onRequest
  dsimp only
  split
  · next hc =>
    have hconnect : Steady w (s.note (.request req))
        { s.note (.request req) with currentRequest_ := req, isConnect_ := true } :=
      Steady.same rfl rfl id rfl id id
    obtain ⟨⟨host, port⟩, ht⟩ := Option.ne_none_iff_exists'.mp (h hc)
    exact Steadily.trans hconnect (steadily_handleConnect w _ ht)
  · split
    · exact Steadily.trans hset (steadily_forwardRequest w _)
    · exact Steadily.trans hset (steadily_connectUpstream w _ _ _)

theorem onRequest_throws {s : Session} {req : HttpRequest} (hc : req.method = .CONNECT)
    (ht : connectTarget req.url = none) : ∃ s', s.onRequest w req = s'.crash .exception ∧
      Steady w (s.note (.request req)) s' := by
  refine ⟨{ s.note (.request req) with currentRequest_ := req, isConnect_ := true }, ?_,
    Steady.same rfl rfl id rfl id id⟩
  simp only [onRequest, hc, handleConnect, ht, if_true]

theorem steadyEnd_onRequest (w : World) (s : Session) (req : HttpRequest) :
    SteadyEnd w (s.note (.request req)) (s.onRequest w req) := by
  by_cases h : req.method = .CONNECT ∧ connectTarget req.url = none
  · obtain ⟨s', he, hs⟩ := onRequest_throws (w := w) (s := s) h.1 h.2
    rw [he]
    exact hs
  · exact (steadily_onRequest w s fun hc ht => h ⟨hc, ht⟩).ends

/-- Every effect is steady. -/
theorem effect_steadily {s : Session} {r : Outcome} (h : Effect w s r) : SteadyEnd w s r := by
  have hclient : ∀ {ev codec emissions}, s.clientCodec_.handle ev = some (codec, emissions) →
      Steady w s ({ s with clientCodec_ := codec }.note (.clientParsed ev)) := by
    intro ev codec emissions hh
    have hcodec : Steady w s { s with clientCodec_ := codec } :=
      .same rfl rfl id rfl (Http1Codec.handle_type hh).trans id
    exact hcodec.note rfl
  have hupstream : ∀ ev codec,
      Steady w s ({ s with upstreamCodec_ := codec }.note (.upstreamParsed ev)) := by
    intro ev codec
    have hcodec : Steady w s { s with upstreamCodec_ := codec } := .same rfl rfl id rfl id id
    exact hcodec.note rfl
  cases h with
  | quiet hq _ => exact (hq anySide).steady
  | clientData data _ => exact (Steady.refl w s).note rfl
  | upstreamData data _ _ => exact (Steady.refl w s).note rfl
  | tunnelUp c data _ hc =>
    exact ((Steady.refl w s).note rfl).trans
      (quiet_writeUpstream (D := anySide) trivial (s := s.note (.clientData data.linearize)) hc
        data).steady
  | tunnelDown data _ hd =>
    exact ((Steady.refl w s).note rfl).trans (quiet_writeToClient (toClient_any _) hd).steady
  | clientErrno errno => exact Steady.same rfl rfl id rfl id id
  | upstreamErrno errno => exact Steady.same rfl rfl id rfl id id
  | parserThrows => exact Steady.refl w s
  | request ev codec req hh =>
    exact SteadyEnd.trans ((hclient hh).note rfl) (steadyEnd_onRequest w _ req)
  | requestBody piece =>
    exact ((Steady.refl w s).note rfl).trans (quiet_onRequestBody (toUpstream_any _) _).steady
  | clientParsed ev codec emissions _ hh _ => exact hclient hh
  | response ev codec resp _ _ => exact (hupstream ev codec).trans (steady_answer w _ _ rfl)
  | responseBody piece _ =>
    exact ((Steady.refl w s).note rfl).trans
      (quiet_onResponseBody (toClient_any _) (Buffer.proper_empty.add piece).1).steady
  | responseComplete _ =>
    exact (((Steady.refl w s).note rfl).trans
      (quiet_onResponseBody (toClient_any _) Buffer.proper_empty).steady).trans
      (quiet_onResponseComplete (D := anySide) trivial _).steady
  | upstreamParsed ev codec _ _ _ _ _ _ => exact hupstream ev codec
  | badRequest =>
    exact (steady_answer w s _ rfl).trans (quiet_close (D := anySide) _ _).steady
  | connected fd _ =>
    have hremove : Steady w s { s with loop_ := s.loop_.remove fd } := .same rfl rfl id rfl id id
    exact (Steadily.trans hremove (steadily_onUpstreamConnected w _)).ends
  | handshake id t _ _ _ => exact (steadily_continueHandshake w s id).ends
  | destroyed => exact Steady.refl w s

end Session

end DeepSeer
