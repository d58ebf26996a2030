import DeepSeer.Exchanges
import DeepSeer.SettledConnects

/-!
What is left of a session that has closed. No watch and no socket is, and nothing
is opened any more, in every run in which no socket replaces one whose connect is
awaited, no request comes to the closed session that has to be connected, and no
connect completes after an interception has begun.
-/
namespace DeepSeer

open ByteMemory ByteText FallibleRuns KqueueLoop

namespace Session

variable {g : Bool} {s : Session} {w : World}

/-- The connect of another socket than the connecting one is never awaited. -/
theorem Settled.unawaited (h : Settled g s) (hs : s.stray = false) : Unawaited s := by
  intro fd e he hcb
  have howner := h.entries fd e he
  rw [hcb] at howner
  have hawaited : s.stray = true := by
    simp [stray, howner.1, he, hcb]
  exact absurd (hs.symm.trans hawaited) (by decide)

theorem replaceConnecting_entries (s : Session) (fd : Fd) :
    (s.replaceConnecting fd).loop_.fdEntries_ = s.loop_.fdEntries_ := by
  unfold replaceConnecting
  dsimp only
  split <;> rfl

theorem Settled.replaceConnecting (h : Settled g s) (ho : s.closed_ = false)
    (hs : s.stray = false) {fd : Fd} (hfd : fd ≠ kInvalidFd) :
    Settled g (s.replaceConnecting fd) := by
  have hfree := h.unawaited hs
  have hkept : ∀ other cb, cb ≠ .connect → Owner s other cb →
      Owner (s.replaceConnecting fd) other cb := by
    intro other cb hcb howner
    cases cb with
    | connect => exact absurd rfl hcb
    | connection id => exact howner
    | tls id => exact howner
  refine ⟨⟨fun other e he => ?_, fun other ho' => ?_, h.dead⟩,
    ⟨h.known, h.noted, h.connect, h.cert, h.mitm, ?_⟩, fun hc => ?_⟩
  · rw [replaceConnecting_entries] at he
    exact hkept other _ (hfree other e he) (h.entries other e he)
  · by_cases hnew : other = fd
    · exact ⟨.connect, hnew.symm, hnew ▸ hfd⟩
    · have hold : s.loop_.sockets other = true ∧
          (s.connectingSocket_ = kInvalidFd ∨ other ≠ s.connectingSocket_) := by
        simp only [Session.replaceConnecting, openFd, Function.update_of_ne hnew] at ho'
        split at ho'
        · next hinvalid => exact ⟨ho', .inl hinvalid⟩
        · by_cases heq : other = s.connectingSocket_
          · simp [closeFd, heq] at ho'
          · simp only [closeFd, Function.update_of_ne heq] at ho'
            exact ⟨ho', .inr heq⟩
      obtain ⟨cb, howner⟩ := h.sockets other hold.1
      refine ⟨cb, hkept other cb (fun hcb => ?_) howner⟩
      rw [hcb] at howner
      rcases hold.2 with hinvalid | hne
      · exact howner.2 (howner.1.symm.trans hinvalid)
      · exact hne howner.1.symm
  · have hlog : s.log.any Note.isClosed = false := h.noted.symm.trans ho
    simp [Session.replaceConnecting, Session.note, opensLate, hlog, h.opens]
  · exact absurd (ho.symm.trans hc) (by decide)

/-- The watch for the connect of the connecting socket. -/
theorem Settled.watchConnecting (h : Settled g s) (ho : s.closed_ = false)
    (hfd : s.connectingSocket_ ≠ kInvalidFd) (events : IoMask) :
    Settled g { s with loop_ := s.loop_.watch s.connectingSocket_ events .connect } := by
  refine ⟨h.toOwned.acted (watch_acted .connect s.loop_ s.connectingSocket_ events)
    (fun fd cb howner _ => howner) (fun fd heq => ?_) h.dead,
    ⟨h.known, h.noted, h.connect, h.cert, h.mitm, h.opens⟩, fun hc => ?_⟩
  · have hsame := Option.some.inj heq
    exact ⟨hsame, hsame ▸ hfd⟩
  · exact absurd (ho.symm.trans hc) (by decide)

/-- A socket is opened for the request, on an open session. -/
theorem Settled.connectUpstream (hvalid : ∀ k, w.createSocket k ≠ some kInvalidFd)
    (h : Settled g s) (hp : Pointers s) (ho : s.closed_ = false) (host : Bytes) (port : Nat) :
    Tidy g (s.connectUpstream w host port) := by
  have hcount : Settled g { s with sockets := s.sockets + 1 } := h.aside _ _ _ _ _ _ _ _
  unfold Session.connectUpstream
  split
  · trivial
  · dsimp only
    split
    · exact .inr (hcount.sendError w _ _)
    · next fd hfd =>
      have hne : fd ≠ kInvalidFd := fun heq => hvalid s.sockets (heq ▸ hfd)
      set s₁ : Session := { s with sockets := s.sockets + 1 } with hs₁
      have hend : ∀ r, SteadyEnd w (s₁.replaceConnecting fd) r →
          (s.stray = false → Tidy g r) → Tidy g r := by
        intro r hsteady htidy
        cases hst : s.stray with
        | false => exact htidy hst
        | true =>
          have hlog : (s₁.replaceConnecting fd).log = .opened fd true :: s.log := by
            simp [Session.replaceConnecting, Session.note, hs₁, ← hst, stray]
          exact hsteady.tidy hlog (by simp [Note.strays, h.noted.symm.trans ho])
      have hnew : s.stray = false → Settled g (s₁.replaceConnecting fd) := fun hst =>
        hcount.replaceConnecting ho hst hne
      have hfree : s.stray = false → Unawaited (s₁.replaceConnecting fd) := by
        intro hst other e he
        refine h.unawaited hst other e ?_
        simpa only [replaceConnecting_entries] using he
      split
      · exact hend _ (steady_answer w _ _ rfl) fun hst => .inr ((hnew hst).sendError w _ _)
      · exact hend _ (steadily_onUpstreamConnected w _).ends fun hst =>
          (hnew hst).onUpstreamConnected (hfree hst) hp
      · exact hend _ (Steady.same rfl rfl id rfl id id) fun hst =>
          .inr ((hnew hst).watchConnecting ho hne _)

/-- A request that is noted with its headers, and with the flag of a tunnel. -/
theorem Settled.request (h : Settled g s) (req : HttpRequest) {connect : Bool}
    (hc : connect = (decide (req.method = .CONNECT) || s.isConnect_)) :
    Settled g { s.note (.request req) with currentRequest_ := req, isConnect_ := connect } := by
  refine ⟨⟨h.entries, h.sockets, h.dead⟩, ⟨h.known, ?_, ?_, h.cert, h.mitm, h.opens⟩, h.shut⟩
  · exact h.noted.trans (by simp [Session.note, Note.isClosed])
  · exact hc.trans (by simp [Session.note, Note.asksTunnel, h.connect])

theorem Settled.onRequest (hvalid : ∀ k, w.createSocket k ≠ some kInvalidFd) (h : Settled g s)
    (hp : Pointers s) (req : HttpRequest) : Tidy g (s.onRequest w req) := by
  by_cases hdial : s.closed_ = true ∧ dialled g s.log req = true
  · have hlog : (s.note (.request req)).log = .request req :: s.log := rfl
    exact (steadyEnd_onRequest w s req).tidy hlog
      (by simp [Note.strays, h.noted.symm.trans hdial.1, hdial.2])
  have hopen : dialled g s.log req = true → s.closed_ = false := by
    intro hd
    simpa [hd] using hdial
  unfold Session.onRequest
  dsimp only
  split
  · next hm =>
    have ho := hopen (by simp [dialled, hm])
    have hset : Settled g { s.note (.request req) with
        currentRequest_ := req, isConnect_ := true } := h.request req (by simp [hm])
    unfold handleConnect
    split
    · trivial
    · next host port _ =>
      have hname : Settled g { s.note (.request req) with
          currentRequest_ := req, isConnect_ := true, connectHostname_ := host } :=
        hset.aside _ _ _ _ _ _ _ _
      exact hname.connectUpstream hvalid hp ho host port
  · next hm =>
    have hset : Settled g { s.note (.request req) with currentRequest_ := req } :=
      h.request req (by simp [hm, Session.note])
    split
    · exact (Settled.forwardRequest w hset).tidy
    · next hplain =>
      refine hset.connectUpstream hvalid hp (hopen ?_) _ _
      cases hg : g && tunnelled s.log with
      | false => simp [dialled, hg]
      | true =>
        simp only [Bool.and_eq_true] at hg
        exact absurd (h.mitm hg.1 hg.2) hplain

theorem Settled.clientEvent (hvalid : ∀ k, w.createSocket k ≠ some kInvalidFd) (h : Settled g s)
    (hp : Pointers s) (ev : ParserEvent) : Tidy g (s.clientEvent w ev) := by
  have hnoted : ∀ codec, Settled g ({ s with clientCodec_ := codec }.note (.clientParsed ev)) :=
    fun codec => (h.aside _ _ _ codec _ _ _ _).note rfl
  rcases clientEvent_cases w s ev with ⟨-, he⟩ | ⟨codec, req, -, he⟩ | ⟨piece, -, he⟩ |
    ⟨codec, -, -, -, -, he⟩ <;> rw [he]
  · trivial
  · exact (hnoted codec).onRequest hvalid hp req
  · exact .inr ((hnoted s.clientCodec_).onRequestBody w _)
  · exact .inr (hnoted codec)

theorem Settled.upstreamEvent (h : Settled g s) (ev : ParserEvent) :
    SettledEnd g (s.upstreamEvent w ev) := by
  have hnoted : ∀ codec, Settled g ({ s with upstreamCodec_ := codec }.note (.upstreamParsed ev)) :=
    fun codec => (h.aside _ _ _ _ codec _ _ _).note rfl
  have hbody : ∀ body, Settled g ((s.note (.upstreamParsed ev)).onResponseBody w body) :=
    fun body => (hnoted s.upstreamCodec_).onResponseBody w body
  rcases upstreamEvent_cases w s ev with ⟨-, he⟩ | ⟨codec, resp, -, he⟩ | ⟨piece, -, he⟩ |
    ⟨-, he⟩ | ⟨codec, -, -, -, -, -, he⟩ <;> rw [he]
  · trivial
  · exact (hnoted codec).onResponse w resp
  · exact hbody _
  · exact (hbody _).onResponseComplete
  · exact hnoted codec

/-- The connect is not awaited any more when its socket is ready. -/
theorem Settled.connected (h : Settled g s) (hp : Pointers s) {fd : Fd}
    (hfd : (s.loop_.fdEntries_ fd).map FdEntry.callback = some .connect) :
    Tidy g ({ s with loop_ := s.loop_.remove fd }.onUpstreamConnected w) := by
  have hremoved : Settled g { s with loop_ := s.loop_.remove fd } :=
    ⟨h.toOwned.acted (remove_acted .connect none s.loop_ fd) (fun _ _ howner _ => howner)
      (fun _ hnone => by cases hnone) h.dead,
      ⟨h.known, h.noted, h.connect, h.cert, h.mitm, h.opens⟩, h.shut⟩
  refine hremoved.onUpstreamConnected (fun other e he hcb => ?_) hp
  obtain ⟨hne, he⟩ := remove_entries he
  obtain ⟨e', he', hcb'⟩ := Option.map_eq_some_iff.mp hfd
  have howner := h.entries other e he
  have howner' := h.entries fd e' he'
  rw [hcb] at howner
  rw [hcb'] at howner'
  exact hne (howner.1.symm.trans howner'.1)

theorem Settled.perform (hvalid : ∀ k, w.createSocket k ≠ some kInvalidFd) (h : Settled g s)
    (hp : Pointers s) (a : Act) : Tidy g (s.perform w a) := by
  cases a with
  | clientEvent ev => exact h.clientEvent hvalid hp ev
  | upstreamEvent ev =>
    simp only [Session.perform]
    split
    · exact (h.upstreamEvent ev).tidy
    · exact .inr h
  | clientErrno errno => exact .inr (h.aside _ _ _ _ _ _ _ _)
  | upstreamErrno errno => exact .inr (h.aside _ _ _ _ _ _ _ _)
  | badRequest => exact .inr ((h.sendError w _ _).close _)
  | close cause _ => exact .inr (h.close cause)
  | clientData data =>
    simp only [Session.perform]
    split
    · exact .inr h
    · exact .inr (h.note rfl)
  | upstreamData data =>
    simp only [Session.perform]
    split
    · exact .inr (h.note rfl)
    · exact .inr h
  | tunnelUp data _ =>
    simp only [Session.perform]
    split
    · next c _ hc =>
      have hnoted : Settled g (s.note (.clientData data.linearize)) := h.note rfl
      exact .inr (hnoted.writeUpstream w hc data)
    · exact .inr h
  | tunnelDown data _ =>
    simp only [Session.perform]
    split
    · have hnoted : Settled g (s.note (.upstreamData data.linearize)) := h.note rfl
      exact .inr (hnoted.writeToClient w data)
    · exact .inr h
  | clientEnd =>
    simp only [Session.perform]
    split
    · exact .inr h
    · exact .inr (h.closeClient.fail _ _)
  | clientFail =>
    simp only [Session.perform]
    split
    · exact .inr h
    · exact .inr (h.fail _ _).closeClient
  | upstreamEnd =>
    simp only [Session.perform]
    split
    · exact .inr h
    · exact .inr (h.closeUpstream.fail _ _)
  | upstreamFail =>
    simp only [Session.perform]
    split
    · exact .inr h
    · exact .inr (h.fail _ _).closeUpstream
  | clientFlush =>
    simp only [Session.perform]
    split
    · exact .inr h
    · next c hc =>
      exact .inr (h.afterClientFlush hc (Connection.calls_handleWrite _ c s.loop_) _)
  | upstreamFlush =>
    simp only [Session.perform]
    split
    · exact .inr h
    · next c hc =>
      exact .inr (h.afterUpstreamFlush hc (Connection.calls_handleWrite _ c s.loop_) _)
  | connected fd =>
    simp only [Session.perform]
    split
    · next hfd => exact h.connected hp hfd
    · exact .inr h
  | handshake id =>
    simp only [Session.perform]
    split
    · exact .inr h
    · next t ht =>
      split
      · next hd => exact (h.continueHandshake hp ht hd.2).tidy
      · exact .inr h
  | tlsEnd id wired err => exact .inr (h.endTlsRead id wired err)
  | tlsFlush id =>
    simp only [Session.perform]
    split
    · exact .inr h
    · next t ht =>
      exact .inr (h.setTls ht (TlsConnection.calls_doWrite _ id t s.loop_))
  | destroyed => trivial

theorem astray_late {log : List Note} (h : .connected true ∈ log) : astray g log = true := by
  obtain ⟨later, earlier, rfl⟩ := List.append_of_mem h
  exact astray_cons (List.suffix_append _ _) rfl

/-- A session starts with the watch and the socket of its client. -/
theorem start_settled (fd : Fd) (certGen payloadInspector : Bool) :
    Settled certGen (start fd certGen payloadInspector) := by
  set c : Connection := { socket_ := fd, wired := true } with hc
  have hbefore : Settled certGen {
      loop_ := ({} : KqueueLoop).openFd fd, client_ := some c
      certGen_ := certGen, payloadInspector_ := payloadInspector } := by
    refine ⟨⟨fun other e he => ?_, fun other ho => ?_, ?_⟩, ⟨fun id t ht => ?_, rfl, rfl, rfl,
      fun _ ht => ?_, rfl⟩, fun hcl => ?_⟩
    · cases he
    · have hsame : other = fd := by
        by_contra hne
        simp [openFd, Function.update_of_ne hne] at ho
      exact ⟨.connection 0, c, .inl rfl, rfl, hsame ▸ rfl⟩
    · rintro d (hd | hd) hcl
      · cases hd
        cases hcl
      · cases hd
    · cases ht
    · cases ht
    · cases hcl
  exact hbefore.setClient rfl (c.calls_startRead _)

/-- A run that has not gone astray is settled. -/
theorem sessionRun_settled (hvalid : ∀ k, w.createSocket k ≠ some kInvalidFd) (fd : Fd)
    (certGen payloadInspector : Bool) (events : List SessionEvent) :
    Tidy certGen (sessionRun w (.ok (start fd certGen payloadInspector)) events) := by
  have hact : ∀ s a, astray certGen s.log = true ∨ Pointers s ∧ Settled certGen s →
      Ends (s.perform w a) (fun s => astray certGen s.log = true ∨ Pointers s ∧ Settled certGen s)
        fun _ => True := by
    rintro s a (hs | ⟨hp, hs⟩)
    · exact Ends.mono (effect_steadily (perform_effect w s a))
        (fun s' h => .inl (astray_mono h.log hs)) fun _ _ => trivial
    · refine Ends.mono ((effect_pointed hp (perform_effect w s a)).and (hs.perform hvalid hp a))
        ?_ fun _ _ => trivial
      rintro s' ⟨hlate | hp', hs' | hs'⟩
      · exact .inl hs'
      · exact .inl (astray_late hlate.noted)
      · exact .inl hs'
      · exact .inr ⟨hp', hs'⟩
  exact Ends.mono (sessionRun_ends (r := .ok _) hact
    (.inr ⟨start_pointers fd certGen _, start_settled fd certGen _⟩) events)
    (fun _ h => h.imp_right And.right) fun _ => id

end Session

open Session

/-- A session that closed in a run that did not go astray has left no watch and no
socket, and opened none after it had closed. -/
theorem closed_session_leaves_nothing {w : World}
    (hvalid : ∀ k, w.createSocket k ≠ some kInvalidFd) (fd : Fd) (certGen payloadInspector : Bool)
    (events : List SessionEvent) {s : Session}
    (hrun : sessionRun w (.ok (start fd certGen payloadInspector)) events = .ok s)
    (hs : astray certGen s.log = false) :
    (s.closed_ = true → (∀ other, s.loop_.fdEntries_ other = none) ∧
      ∀ other, s.loop_.sockets other = false) ∧ opensLate s.log = false := by
  have hend := sessionRun_settled hvalid fd certGen payloadInspector events
  rw [hrun] at hend
  have h : Settled certGen s := hend.resolve_left (by simp [hs])
  refine ⟨fun hc => ⟨fun other => ?_, fun other => ?_⟩, h.opens⟩
  · rw [Option.eq_none_iff_forall_ne_some]
    exact fun e he => h.shut hc other e.callback (h.entries other e he)
  · by_contra ho
    obtain ⟨cb, howner⟩ := h.sockets other (by simpa using ho)
    exact h.shut hc other cb howner

/-- Two requests in one read, after which the client ends its stream. -/
def abandoned : List SessionEvent :=
  pipelined.take 1 ++ [.ready 7 { fired := ⟨true, false⟩, answer := .bytes [] }]

theorem promptWorld_valid (k : Nat) : promptWorld.createSocket k ≠ some kInvalidFd := by
  intro h
  have hfd : (10 : Int) + k = -1 := Option.some.inj h
  omega

theorem closed_session_leaves_nothing_prompt :
    let s := (sessionRun promptWorld (.ok (start 7 false false)) abandoned).session
    (s.closed_ = true → (∀ other, s.loop_.fdEntries_ other = none) ∧
      ∀ other, s.loop_.sockets other = false) ∧ opensLate s.log = false :=
  closed_session_leaves_nothing promptWorld_valid 7 false false abandoned
    (ok_session (by decide +kernel)) (by decide +kernel)

/-- A world like the prompt one, but for the upstreams, which take no data. -/
def brokenWorld : World := { promptWorld with upstreamSend := fun _ _ => .fails }

/-- The connect of the second request leaves the watch for that of the first behind,
and a request that comes after the upstream has failed opens a socket. -/
theorem closed_session_leaks :
    (let r := sessionRun slowWorld (.ok (start 7 false false)) abandoned
     r.fault = none ∧ r.session.closed_ = true ∧
       (r.session.loop_.fdEntries_ 10).isSome = true) ∧
    (let r := sessionRun brokenWorld (.ok (start 7 false false)) (pipelined.take 1)
     r.fault = none ∧ r.session.closed_ = true ∧ r.session.loop_.sockets 11 = true ∧
       opensLate r.session.log = true) := by
  decide +kernel

end DeepSeer
