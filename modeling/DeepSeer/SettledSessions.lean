import DeepSeer.Ownership

/-!
The handlers that move data, close or set callbacks keep a session settled, and so
does the hand-over of the socket of a connection to a TLS connection.
-/
namespace DeepSeer

open ByteMemory ByteText FallibleRuns KqueueLoop

namespace Session

/-- A computation that leaves a settled session if it succeeds. -/
abbrev SettledEnd (g : Bool) (r : Outcome) : Prop := Ends r (Settled g) fun _ => True

variable {g : Bool} {s : Session}

theorem Settled.closeClient (h : Settled g s) : Settled g s.closeClient := by
  unfold Session.closeClient
  split
  · exact h
  · next c hc => exact h.setClient hc (c.calls_close s.loop_)

theorem Settled.closeUpstream (h : Settled g s) : Settled g s.closeUpstream := by
  unfold Session.closeUpstream
  split
  · exact h
  · next c hc => exact h.setUpstream hc (c.calls_close s.loop_)

theorem Settled.closeTls (h : Settled g s) (id : Nat) : Settled g (s.closeTls id) := by
  unfold Session.closeTls
  split
  · exact h
  · next t ht => exact h.setTls ht (t.calls_close id s.loop_)

theorem Settled.fail (h : Settled g s) (wired : Bool) (cause : CloseCause) :
    Settled g (if wired then s.close cause else s) := by
  split
  · exact h.close cause
  · exact h

theorem Settled.afterClientFlush (h : Settled g s) {c c' : Connection} {loop : KqueueLoop}
    (hc : s.client_ = some c) (hcalls : c.Calls s.loop_ c' loop) (flushed : Connection.Flushed) :
    Settled g (s.afterClientFlush (c', loop, flushed)) := by
  have hset := h.setClient hc hcalls
  cases flushed with
  | settled => exact hset
  | failed => exact (hset.fail c'.wired _).closeClient

theorem Settled.afterUpstreamFlush (h : Settled g s) {c c' : Connection} {loop : KqueueLoop}
    (hc : s.upstream_ = some c) (hcalls : c.Calls s.loop_ c' loop)
    (flushed : Connection.Flushed) : Settled g (s.afterUpstreamFlush (c', loop, flushed)) := by
  have hset := h.setUpstream hc hcalls
  cases flushed with
  | settled => exact hset
  | failed => exact (hset.fail c'.wired _).closeUpstream

variable (w : World)

theorem Settled.writeUpstream (h : Settled g s) {c : Connection} (hc : s.upstream_ = some c)
    (data : Buffer) : Settled g (s.writeUpstream w c data).1 :=
  h.afterUpstreamFlush hc (Connection.calls_write _ c data s.loop_) _

theorem Settled.writeTls (h : Settled g s) (id : Nat) (data : Buffer) :
    Settled g (s.writeTls w id data).1 := by
  unfold Session.writeTls
  split
  · exact h
  · next t ht => exact h.setTls ht (TlsConnection.calls_write _ id t data s.loop_)

theorem Settled.writeToClient (h : Settled g s) (data : Buffer) :
    Settled g (s.writeToClient w data).1 := by
  unfold Session.writeToClient
  split
  · exact h.writeTls w _ data
  · split
    · next c hc =>
      split
      · exact h.afterClientFlush hc (Connection.calls_write _ c data s.loop_) _
      · exact h
    · exact h

theorem Settled.writeToUpstream (h : Settled g s) (data : Buffer) :
    Settled g (s.writeToUpstream w data).1 := by
  unfold Session.writeToUpstream
  split
  · exact h.writeTls w _ data
  · split
    · next c hc =>
      split
      · exact h.writeUpstream w hc data
      · exact h
    · exact h

theorem Settled.answer (h : Settled g s) (resp : HttpResponse) {n : Note}
    (hn : n.settling = true) : Settled g (s.answer w resp n) := by
  have hnote : Settled g (if s.reachesClient then s.note n else s) := by
    split
    · exact h.note hn
    · exact h
  exact hnote.writeToClient w _

theorem Settled.sendError (h : Settled g s) (status : Nat) (reason : Bytes) :
    Settled g (s.sendError w status reason) := h.answer w _ rfl

theorem Settled.sendPending (h : Settled g s) : Settled g (s.sendPending w) :=
  (h.writeToUpstream w s.pendingBody_).aside _ _ _ _ _ _ _ _

theorem Settled.onRequestBody (h : Settled g s) (body : Buffer) :
    Settled g (s.onRequestBody w body) := by
  unfold Session.onRequestBody
  split
  · exact h
  · exact Settled.sendPending w (h.aside _ _ _ _ _ _ _ _)

theorem Settled.onResponse (h : Settled g s) (resp : HttpResponse) :
    Settled g (s.onResponse w resp) := h.answer w _ rfl

theorem Settled.onResponseBody (h : Settled g s) (body : Buffer) :
    Settled g (s.onResponseBody w body) := by
  have hkept : ∀ {s' : Session}, Settled g s' →
      Settled g (if body.empty then s' else (s'.writeToClient w body).1) := by
    intro s' h'
    split
    · exact h'
    · exact h'.writeToClient w body
  unfold Session.onResponseBody
  dsimp only
  apply hkept
  split
  · exact h.aside _ _ _ _ _ _ _ _
  · exact h

theorem Settled.onResponseComplete (h : Settled g s) : Settled g s.onResponseComplete := by
  have hdone : ∀ {s' : Session}, Settled g s' → Settled g
      (if s'.isTlsMitm_ then { s' with pendingBody_ := {}, responseBody_ := {} }
        else { s' with pendingBody_ := {}, responseBody_ := {} }.close .responseComplete) := by
    intro s' h'
    have hcleared : Settled g { s' with pendingBody_ := {}, responseBody_ := {} } :=
      h'.aside _ _ _ _ _ _ _ _
    split
    · exact hcleared
    · exact hcleared.close _
  unfold Session.onResponseComplete
  dsimp only
  apply hdone
  split
  · exact h.note rfl
  · exact h

theorem Settled.endTlsRead (h : Settled g s) (id : Nat) (wired : Bool) (err : SslError) :
    Settled g (s.endTlsRead id wired err) := by
  have hend := (h.closeTls id).fail wired .tlsEnd
  cases err with
  | wantRead => exact h
  | zeroReturn => exact hend
  | syscall => exact hend
  | wantWrite => exact h.closeTls id
  | ssl => exact h.closeTls id

theorem Settled.sendRequest (h : Settled g s) : Settled g (s.sendRequest w) := by
  have hsent : ∀ {s' : Session}, Settled g s' →
      Settled g (if s'.pendingBody_.empty then s' else s'.sendPending w) := by
    intro s' h'
    split
    · exact h'
    · exact h'.sendPending w
  have hnoted : Settled g { s.note (.forwarded s.currentRequest_ s.link) with
      currentRequest_.url := originForm s.currentRequest_.url } :=
    (h.note rfl).aside _ _ _ _ _ _ _ _
  exact hsent (hnoted.writeToUpstream w _)

theorem Settled.writeEstablished (h : Settled g s) : SettledEnd g (s.writeEstablished w) := by
  unfold Session.writeEstablished
  split
  · trivial
  · next c hc => exact h.afterClientFlush hc (Connection.calls_writeText _ c established s.loop_) _

theorem Settled.stopClientRead (h : Settled g s) : SettledEnd g s.stopClientRead := by
  unfold Session.stopClientRead
  split
  · trivial
  · next c hc => exact h.setClient hc (c.calls_stopRead s.loop_)

theorem Settled.setupUpstreamCallbacks (h : Settled g s) :
    SettledEnd g s.setupUpstreamCallbacks := by
  unfold Session.setupUpstreamCallbacks
  split
  · trivial
  · next c hc =>
    exact h.setUpstream hc ⟨rfl, .refl _ _ _, fun hcl => .inl ⟨hcl, rfl⟩⟩

theorem Settled.startUpstreamRead (h : Settled g s) : SettledEnd g s.startUpstreamRead := by
  unfold Session.startUpstreamRead
  split
  · trivial
  · next c hc => exact h.setUpstream hc (c.calls_startRead s.loop_)

theorem Settled.forwardRequest (h : Settled g s) : SettledEnd g (s.forwardRequest w) := by
  have hprepare : SettledEnd g s.prepareUpstream := by
    unfold prepareUpstream
    split
    · exact h
    · exact h.setupUpstreamCallbacks.bind fun _ h' => h'.startUpstreamRead
  exact hprepare.bind fun _ h' => h'.sendRequest w

theorem Settled.wireTls (h : Settled g s) (pointer : Option Nat) :
    SettledEnd g (s.wireTls pointer) := by
  unfold Session.wireTls
  split
  · trivial
  · split
    · trivial
    · next t ht => exact h.setTls ht (.refl _ _ _)

theorem Settled.startTlsRead (h : Settled g s) (pointer : Option Nat) :
    SettledEnd g (s.startTlsRead pointer) := by
  unfold Session.startTlsRead
  split
  · trivial
  · split
    · trivial
    · next id _ t ht => exact h.setTls ht (t.calls_startRead id s.loop_)

theorem Settled.onClientHandshake (h : Settled g s) : SettledEnd g s.onClientHandshake := by
  have hreset : Settled g { s with
      clientCodec_ := { type := .request }, upstreamCodec_ := { type := .response } } :=
    h.aside _ _ _ _ _ _ _ _
  exact (hreset.wireTls _).bind fun _ h => (h.wireTls _).bind fun _ h =>
    (h.startTlsRead _).bind fun _ h => h.startTlsRead _

theorem Settled.handshakeStep (h : Settled g s) (id : Nat) :
    Settled g (s.handshakeStep w id).1 := by
  unfold Session.handshakeStep
  split
  · exact h
  · next t ht => exact h.setTls ht (t.calls_continueHandshake (w.handshake id) id s.loop_)

/-- The socket of a connection is handed to a new TLS connection. -/
structure HandOver (s s' : Session) (c : Connection) (t : TlsConnection) : Prop where
  mine : s.client_ = some c ∨ s.upstream_ = some c
  loop : s'.loop_ = s.loop_.remove c.socket_
  tls : s'.tls = s.tls ++ [t]
  socket : t.socket_ = c.socket_
  opened : t.closed_ = false
  left : ∀ d, s.client_ = some d ∨ s.upstream_ = some d →
    d = c ∨ s'.client_ = some d ∨ s'.upstream_ = some d
  back : ∀ d, s'.client_ = some d ∨ s'.upstream_ = some d →
    s.client_ = some d ∨ s.upstream_ = some d
  connecting : s'.connectingSocket_ = s.connectingSocket_
  closed : s'.closed_ = s.closed_

namespace HandOver

variable {w} {s' : Session} {c : Connection} {t : TlsConnection}

theorem last (h : HandOver s s' c t) : s'.tls[s.tls.length]? = some t := by
  rw [h.tls]
  simp

theorem owner (h : HandOver s s' c t) {fd : Fd} {cb : IoCallback} (ho : Owner s fd cb) :
    fd = c.socket_ ∨ Owner s' fd cb := by
  cases cb with
  | connect => exact .inr ⟨h.connecting.trans ho.1, ho.2⟩
  | connection id =>
    obtain ⟨d, hd, hid, hheld⟩ := ho
    rcases h.left d hd with rfl | hd'
    · unfold Connection.held at hheld
      split at hheld
      · cases hheld
      · exact .inl (Option.some.inj hheld).symm
    · exact .inr ⟨d, hd', hid, hheld⟩
  | tls id =>
    obtain ⟨d, hd, hheld⟩ := ho
    have hlt := (List.getElem?_eq_some_iff.mp hd).1
    exact .inr ⟨d, by rw [h.tls, List.getElem?_append_left hlt, hd], hheld⟩

theorem owned (h : HandOver s s' c t) (hs : Owned s) : Owned s' where
  entries := by
    intro fd e he
    rw [h.loop] at he
    obtain ⟨hne, he⟩ := remove_entries he
    exact (h.owner (hs.entries fd e he)).resolve_left hne
  sockets := by
    intro fd hfd
    rw [h.loop, remove_sockets] at hfd
    obtain ⟨cb, ho⟩ := hs.sockets fd hfd
    rcases h.owner ho with rfl | ho'
    · exact ⟨.tls s.tls.length, t, h.last,
        (TlsConnection.held_open h.opened).trans (congrArg some h.socket)⟩
    · exact ⟨cb, ho'⟩
  dead := fun d hd => hs.dead d (h.back d hd)

/-- On a closed session the new connection has no descriptor, and its handshake
closes it at once. -/
theorem begins_closed (h : HandOver s s' c t) (hs : Settled g s) (hk : Kept g s')
    (hc : s.closed_ = true) : Settled g (s'.handshakeStep w s.tls.length).1 := by
  have hunheld : c.closed_ = true := by
    by_contra ho
    have hheld := Connection.held_open (c := c) (by simpa using ho)
    exact hs.shut hc c.socket_ (.connection c.id) ⟨c, h.mine, rfl, hheld⟩
  have hsocket : t.socket_ = kInvalidFd := h.socket.trans (hs.dead c h.mine hunheld)
  set r := t.continueHandshake (w.handshake s.tls.length) s.tls.length s'.loop_ with hr
  have hstep : (s'.handshakeStep w s.tls.length).1 = s'.setTls s.tls.length r.1 r.2.1 := by
    simp only [Session.handshakeStep, h.last]
    rfl
  have hnone : r.1.held = none := by
    simp [hr, TlsConnection.continueHandshake, h.opened, hsocket, TlsConnection.close,
      TlsConnection.held]
  have hacted : Acted (.tls s.tls.length) t.held s'.loop_ r.1.held r.2.1 :=
    t.calls_continueHandshake _ _ _
  have howner : ∀ fd cb, ¬ Owner (s'.setTls s.tls.length r.1 r.2.1) fd cb := by
    intro fd cb ho
    cases cb with
    | connect => exact hs.shut hc fd .connect ⟨h.connecting.symm.trans ho.1, ho.2⟩
    | connection id =>
      obtain ⟨d, hd, hid, hheld⟩ := ho
      exact hs.shut hc fd (.connection id) ⟨d, h.back d hd, hid, hheld⟩
    | tls id =>
      obtain ⟨d, hd, hheld⟩ := ho
      by_cases hid : s.tls.length = id
      · subst hid
        simp only [Session.setTls, List.getElem?_set_self
          (List.getElem?_eq_some_iff.mp h.last).1, Option.some.injEq] at hd
        rw [← hd, hnone] at hheld
        cases hheld
      · simp only [Session.setTls, List.getElem?_set_ne hid, h.tls] at hd
        have hlt : id < s.tls.length := by
          have hbound := (List.getElem?_eq_some_iff.mp hd).1
          rw [List.length_append, List.length_singleton] at hbound
          omega
        rw [List.getElem?_append_left hlt] at hd
        exact hs.shut hc fd (.tls id) ⟨d, hd, hheld⟩
  have howned : Owned s' := h.owned hs.toOwned
  rw [hstep]
  refine ⟨howned.setTls h.last hacted, ⟨fun id d hd hopen => ?_, hk.noted, hk.connect, hk.cert,
    hk.mitm, hk.opens⟩, fun _ => howner⟩
  exact absurd ⟨d, hd, TlsConnection.held_open hopen⟩ (howner d.socket_ (.tls id))

/-- The first step of the handshake on the new connection. -/
theorem begins (h : HandOver s s' c t) (hs : Settled g s) (hk : Kept g s') :
    Settled g (s'.handshakeStep w s.tls.length).1 := by
  cases hc : s.closed_ with
  | true => exact h.begins_closed hs hk hc
  | false =>
    have hset : Settled g s' :=
      ⟨h.owned hs.toOwned, hk, fun hcl => absurd (hcl.symm.trans (h.closed.trans hc)) (by decide)⟩
    exact hset.handshakeStep w _

end HandOver

end Session

end DeepSeer
