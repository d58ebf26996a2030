import DeepSeer.HeadEvents
import DeepSeer.SessionHistory

/-!
The connection pointers of a session and the flag of interception. A session is
plain, or waits for the upstream handshake, or holds a TLS connection on each
side. A connect that completes on an intercepted session breaks this, and no
null pointer is dereferenced before one does.
-/
namespace DeepSeer

open ByteMemory ByteText FallibleRuns KqueueLoop

namespace Session

/-- How the pointers can stand together. -/
inductive PointersOf (mitm : Bool) (client : Option Connection) (tls : List TlsConnection)
    (tlsClient tlsUpstream : Option Nat) : Prop
  | plain {c : Connection} : mitm = false → client = some c → tls = [] → tlsClient = none →
      tlsUpstream = none → PointersOf mitm client tls tlsClient tlsUpstream
  | upgrading {c : Connection} {u : TlsConnection} {hostname : Bytes} :
      mitm = true → client = some c → tls = [u] → u.callback = .upstream hostname →
      u.isServer_ = false → u.wired = false → tlsClient = none → tlsUpstream = some 0 →
      PointersOf mitm client tls tlsClient tlsUpstream
  | intercepted {u c : TlsConnection} :
      mitm = true → tls = [u, c] → u.handshakeDone_ = true → u.isServer_ = false →
      c.callback = .client → c.isServer_ = true → tlsClient = some 1 → tlsUpstream = some 0 →
      PointersOf mitm client tls tlsClient tlsUpstream

abbrev Pointers (s : Session) : Prop :=
  PointersOf s.isTlsMitm_ s.client_ s.tls s.tlsClient_ s.tlsUpstream_

variable {w : World}

/-- Moving data and closing leave the pointers as they stand. -/
theorem Loose.pointers {D : Side → Prop} {s s' : Session} (h : Loose w D s s')
    (hs : Pointers s) : Pointers s' := by
  have hmitm := h.isTlsMitm
  have htls := h.tls
  cases hs with
  | plain hm hc ht htc htu =>
    obtain ⟨c', hc', -⟩ := rel_forth h.client hc
    rw [ht] at htls
    cases hl : s'.tls with
    | nil => exact .plain (hmitm.trans hm) hc' hl (h.tlsClient.trans htc) (h.tlsUpstream.trans htu)
    | cons => rw [hl] at htls; cases htls
  | upgrading hm hc ht hcb hserver hw htc htu =>
    obtain ⟨c', hc', -⟩ := rel_forth h.client hc
    rw [ht] at htls
    rcases hl : s'.tls with _ | ⟨u', rest⟩ <;> rw [hl] at htls
    · cases htls
    · obtain ⟨hu, ⟨⟩⟩ := List.forall₂_cons.mp htls
      exact .upgrading (hmitm.trans hm) hc' hl (hu.callback.trans hcb) (hu.isServer.trans hserver)
        (hu.wired.trans hw) (h.tlsClient.trans htc) (h.tlsUpstream.trans htu)
  | intercepted hm ht hd hserver hcb hclient htc htu =>
    rw [ht] at htls
    rcases hl : s'.tls with _ | ⟨u', _ | ⟨c', rest⟩⟩ <;> rw [hl] at htls
    · cases htls
    · obtain ⟨-, ⟨⟩⟩ := List.forall₂_cons.mp htls
    · obtain ⟨hu, htls⟩ := List.forall₂_cons.mp htls
      obtain ⟨hc, ⟨⟩⟩ := List.forall₂_cons.mp htls
      exact .intercepted (hmitm.trans hm) hl (hu.handshakeDone.trans hd)
        (hu.isServer.trans hserver) (hc.callback.trans hcb) (hc.isServer.trans hclient)
        (h.tlsClient.trans htc) (h.tlsUpstream.trans htu)

/-- What a handshake and what follows it leave alone: streams keep their bytes,
and a new one starts empty. -/
structure Shaken (s s' : Session) : Prop where
  mitm : s'.isTlsMitm_ = s.isTlsMitm_
  tunnel : s'.isTunnel_ = s.isTunnel_
  upstream : s.upstream_ = none → s'.upstream_ = none
  pending : s'.pendingBody_ = s.pendingBody_
  stream : ∀ id, TlsFlow.stream s'.tls id = TlsFlow.stream s.tls id
  shut : ∀ id, TlsFlow.shut s.tls id = true → TlsFlow.shut s'.tls id = true
  closed : s.closed_ = true → s'.closed_ = true
  connects : NoNewConnects s.loop_ s'.loop_
  log : ∃ notes : List Note, notes.all aside = true ∧ s'.log = notes ++ s.log ∧
    ∀ cause, .closed cause ∈ notes → s'.closed_ = true

/-- No side, for what writes nothing. -/
abbrev noSide : Side → Prop := fun _ => False

theorem Loose.shaken {s s' : Session} (h : Loose w noSide s s') : Shaken s s' :=
  ⟨h.isTlsMitm, h.isTunnel, rel_none h.upstream, h.pending id,
    fun _ => h.tls.stream_eq fun _ _ h => h, fun _ => h.tls.shut_stays, h.closed, h.connects, h.log⟩

theorem Shaken.trans {s s' s'' : Session} (h : Shaken s s') (h' : Shaken s' s'') :
    Shaken s s'' := by
  refine ⟨h'.mitm.trans h.mitm, h'.tunnel.trans h.tunnel, fun hu => h'.upstream (h.upstream hu),
    h'.pending.trans h.pending, fun id => (h'.stream id).trans (h.stream id),
    fun id hs => h'.shut id (h.shut id hs), fun hc => h'.closed (h.closed hc),
    h.connects.trans h'.connects, ?_⟩
  obtain ⟨notes, ha, hl, hn⟩ := h.log
  obtain ⟨notes', ha', hl', hn'⟩ := h'.log
  refine ⟨notes' ++ notes, by rw [List.all_append, ha, ha']; rfl,
    by rw [hl', hl, List.append_assoc], fun cause hmem => ?_⟩
  rcases List.mem_append.mp hmem with hmem | hmem
  · exact hn' cause hmem
  · exact h'.closed (hn cause hmem)

/-- A connection of the table that advances. -/
theorem shaken_setTls {s : Session} {id : Nat} {t t' : TlsConnection} {loop : KqueueLoop}
    (ht : s.tls[id]? = some t) (ha : t.Advances t') (hl : NoNewConnects s.loop_ loop) :
    Shaken s (s.setTls id t' loop) := by
  obtain ⟨hid, -⟩ := List.getElem?_eq_some_iff.mp ht
  refine ⟨rfl, rfl, fun h => h, rfl, fun id' => ?_, fun id' hs => ?_, fun h => h, hl,
    ⟨[], rfl, rfl, by simp⟩⟩
  · by_cases he : id' = id
    · subst he
      simp only [TlsFlow.stream, setTls, List.getElem?_set_self hid, ht, Option.map_some,
        ha.written]
    · simp [TlsFlow.stream, setTls, List.getElem?_set_ne (Ne.symm he)]
  · by_cases he : id' = id
    · subst he
      simp only [TlsFlow.shut, ht, Option.map_some, Option.getD_some] at hs
      simp [TlsFlow.shut, setTls, hid, ha.closed hs]
    · simpa [TlsFlow.shut, setTls, List.getElem?_set_ne (Ne.symm he)] using hs

/-- A session with both TLS connections. -/
structure Intercepts (s : Session) (u c : TlsConnection) : Prop where
  mitm : s.isTlsMitm_ = true
  tls : s.tls = [u, c]
  done : u.handshakeDone_ = true
  upstream : u.isServer_ = false
  callback : c.callback = .client
  client : c.isServer_ = true
  tlsClient : s.tlsClient_ = some 1
  tlsUpstream : s.tlsUpstream_ = some 0

theorem Intercepts.pointers {s : Session} {u c : TlsConnection} (h : Intercepts s u c) :
    Pointers s :=
  .intercepted h.mitm h.tls h.done h.upstream h.callback h.client h.tlsClient h.tlsUpstream

theorem Intercepts.at_client {s : Session} {u c : TlsConnection} (h : Intercepts s u c) :
    s.tls[1]? = some c := by
  rw [h.tls]
  rfl

theorem Intercepts.at_upstream {s : Session} {u c : TlsConnection} (h : Intercepts s u c) :
    s.tls[0]? = some u := by
  rw [h.tls]
  rfl

theorem Intercepts.setClient {s : Session} {u c c' : TlsConnection} (h : Intercepts s u c)
    (ha : c.Advances c') (loop : KqueueLoop) : Intercepts (s.setTls 1 c' loop) u c' :=
  ⟨h.mitm, by simp [setTls, h.tls], h.done, h.upstream, ha.callback.trans h.callback,
    ha.isServer.trans h.client, h.tlsClient, h.tlsUpstream⟩

theorem Intercepts.setUpstream {s : Session} {u u' c : TlsConnection} (h : Intercepts s u c)
    (ha : u.Advances u') (loop : KqueueLoop) : Intercepts (s.setTls 0 u' loop) u' c :=
  ⟨h.mitm, by simp [setTls, h.tls], ha.handshakeDone h.done, ha.isServer.trans h.upstream,
    h.callback, h.client, h.tlsClient, h.tlsUpstream⟩

theorem wireTls_ok {s : Session} {id : Nat} {t : TlsConnection} {pointer : Option Nat}
    (hp : pointer = some id) (ht : s.tls[id]? = some t) :
    s.wireTls pointer = .ok (s.setTls id { t with wired := true } s.loop_) := by
  subst hp
  simp only [wireTls, ht]

theorem startTlsRead_ok {s : Session} {id : Nat} {t : TlsConnection} {pointer : Option Nat}
    (hp : pointer = some id) (ht : s.tls[id]? = some t) :
    s.startTlsRead pointer =
      .ok (s.setTls id (t.startRead id s.loop_).1 (t.startRead id s.loop_).2) := by
  subst hp
  simp only [startTlsRead, ht]

/-- Setting callbacks on both connections and reading from both. -/
theorem Intercepts.wire {s : Session} {u c : TlsConnection} (h : Intercepts s u c) :
    ∃ s' u' c', (do
      let s ← s.wireTls s.tlsClient_
      s.wireTls s.tlsUpstream_) = Except.ok s' ∧ Intercepts s' u' c' ∧ Shaken s s' := by
  have h₁ := h.setClient c.wire_advances s.loop_
  have k₁ := shaken_setTls h.at_client c.wire_advances (.refl s.loop_)
  have h₂ := h₁.setUpstream u.wire_advances s.loop_
  refine ⟨_, _, _, ?_, h₂, k₁.trans (shaken_setTls h₁.at_upstream u.wire_advances (.refl _))⟩
  rw [wireTls_ok h.tlsClient h.at_client]
  exact wireTls_ok h₁.tlsUpstream h₁.at_upstream

theorem Intercepts.read {s : Session} {u c : TlsConnection} (h : Intercepts s u c) :
    ∃ s', (do
      let s ← s.startTlsRead s.tlsClient_
      s.startTlsRead s.tlsUpstream_) = Except.ok s' ∧ Pointers s' ∧ Shaken s s' := by
  obtain ⟨ac, lc⟩ := c.startRead_advances 1 s.loop_
  have h₁ := h.setClient ac (c.startRead 1 s.loop_).2
  have k₁ := shaken_setTls h.at_client ac lc
  obtain ⟨au, lu⟩ := u.startRead_advances 0 (c.startRead 1 s.loop_).2
  have h₂ := h₁.setUpstream au (u.startRead 0 (c.startRead 1 s.loop_).2).2
  refine ⟨_, ?_, h₂.pointers, k₁.trans (shaken_setTls h₁.at_upstream au lu)⟩
  rw [startTlsRead_ok h.tlsClient h.at_client]
  exact startTlsRead_ok h₁.tlsUpstream h₁.at_upstream

/-- The completed client handshake finds both TLS connections. -/
theorem onClientHandshake_ok {s : Session} {u c : TlsConnection} (h : Intercepts s u c) :
    ∃ s', s.onClientHandshake = .ok s' ∧ Pointers s' ∧ Shaken s s' := by
  set s₀ := { s with
    clientCodec_ := { type := .request }, upstreamCodec_ := { type := .response } } with hs₀
  have h₀ : Intercepts s₀ u c :=
    ⟨h.mitm, h.tls, h.done, h.upstream, h.callback, h.client, h.tlsClient, h.tlsUpstream⟩
  have k₀ : Shaken s s₀ :=
    ⟨rfl, rfl, id, rfl, fun _ => rfl, fun _ => id, id, .refl _, ⟨[], rfl, rfl, by simp⟩⟩
  obtain ⟨s₁, u₁, c₁, e₁, h₁, k₁⟩ := h₀.wire
  obtain ⟨s₂, e₂, h₂, k₂⟩ := h₁.read
  refine ⟨s₂, ?_, h₂, (k₀.trans k₁).trans k₂⟩
  have hsplit : s.onClientHandshake = (do
      let s ← (do
        let s ← s₀.wireTls s₀.tlsClient_
        s.wireTls s.tlsUpstream_)
      let s ← s.startTlsRead s.tlsClient_
      s.startTlsRead s.tlsUpstream_) := by
    rw [bind_assoc]
    rfl
  rw [hsplit, e₁]
  exact e₂

/-- The step of a handshake on a connection of the table. -/
theorem handshakeStep_spec (w : World) {s : Session} {id : Nat} {t : TlsConnection}
    (ht : s.tls[id]? = some t) :
    ∃ t' loop outcome, s.handshakeStep w id = (s.setTls id t' loop, outcome) ∧
      TlsConnection.Handshaken t t' outcome ∧ NoNewConnects s.loop_ loop := by
  obtain ⟨hh, hl⟩ := t.continueHandshake_spec (w.handshake id) id s.loop_
  exact ⟨_, _, _, by simp only [handshakeStep, ht], hh, hl⟩

theorem shaken_close (w : World) (s : Session) (cause : CloseCause) : Shaken s (s.close cause) :=
  (quiet_close (w := w) (D := noSide) s cause).toLoose.shaken

theorem pointers_close (w : World) {s : Session} (h : Pointers s) (cause : CloseCause) :
    Pointers (s.close cause) :=
  (quiet_close (w := w) (D := noSide) s cause).toLoose.pointers h

/-- The client handshake leaves both TLS connections in their places. -/
theorem clientHandshake_ok (w : World) {s : Session} {u c : TlsConnection} (h : Intercepts s u c) :
    ∃ s', s.clientHandshake w 1 = .ok s' ∧ Pointers s' ∧ Shaken s s' := by
  obtain ⟨c', loop, outcome, hstep, hh, hl⟩ := handshakeStep_spec w h.at_client
  have h₁ := h.setClient hh.toAdvances loop
  have k₁ := shaken_setTls h.at_client hh.toAdvances hl
  simp only [clientHandshake, hstep]
  cases outcome with
  | nothing => exact ⟨_, rfl, h₁.pointers, k₁⟩
  | complete =>
    obtain ⟨s₂, e₂, h₂, k₂⟩ := onClientHandshake_ok h₁
    exact ⟨s₂, e₂, h₂, k₁.trans k₂⟩
  | failed =>
    exact ⟨_, rfl, pointers_close w h₁.pointers _, k₁.trans (shaken_close w _ _)⟩

/-- A session that waits for the upstream handshake. -/
structure Upgrades (s : Session) (u : TlsConnection) : Prop where
  mitm : s.isTlsMitm_ = true
  client : ∃ c, s.client_ = some c
  tls : s.tls = [u]
  callback : ∃ hostname, u.callback = .upstream hostname
  upstream : u.isServer_ = false
  wired : u.wired = false
  tlsClient : s.tlsClient_ = none
  tlsUpstream : s.tlsUpstream_ = some 0

theorem Upgrades.pointers {s : Session} {u : TlsConnection} (h : Upgrades s u) : Pointers s := by
  obtain ⟨c, hc⟩ := h.client
  obtain ⟨hostname, hcb⟩ := h.callback
  exact .upgrading h.mitm hc h.tls hcb h.upstream h.wired h.tlsClient h.tlsUpstream

/-- The completed upstream handshake finds the client connection and hands its
socket to TLS. -/
theorem onUpstreamHandshake_ok (w : World) {s : Session} {u : TlsConnection} (h : Upgrades s u)
    (hd : u.handshakeDone_ = true) (hostname : Bytes) :
    ∃ s', s.onUpstreamHandshake w hostname = .ok s' ∧ Pointers s' ∧ Shaken s s' := by
  obtain ⟨c, hc⟩ := h.client
  unfold onUpstreamHandshake
  split
  · simp only [hc, Connection.releaseSocket]
    rw [show s.tls.length = 1 by rw [h.tls]; rfl]
    set t : TlsConnection := { socket_ := c.socket_, isServer_ := true, callback := .client } with ht
    set s₁ : Session := { s with
      client_ := none, loop_ := s.loop_.remove c.socket_, tlsClient_ := some 1 } with hs₁
    have h₁ : Intercepts (s₁.makeTls c.socket_ true .client) u t :=
      ⟨h.mitm, by simp [makeTls, hs₁, h.tls, ht], hd, h.upstream, rfl, rfl, rfl, h.tlsUpstream⟩
    have k₁ : Shaken s (s₁.makeTls c.socket_ true .client) := by
      exact ⟨rfl, rfl, id, rfl, TlsFlow.stream_append rfl, fun _ => TlsFlow.shut_append t, id,
        remove_noNew _ _, ⟨[], rfl, rfl, by simp⟩⟩
    obtain ⟨s₂, e₂, h₂, k₂⟩ := clientHandshake_ok w h₁
    exact ⟨s₂, e₂, h₂, k₁.trans k₂⟩
  · exact ⟨_, rfl, pointers_close w h.pointers _, shaken_close w _ _⟩

theorem upstreamHandshake_ok (w : World) {s : Session} {u : TlsConnection} (h : Upgrades s u)
    (hostname : Bytes) :
    ∃ s', s.upstreamHandshake w 0 hostname = .ok s' ∧ Pointers s' ∧ Shaken s s' := by
  have hu : s.tls[0]? = some u := by
    rw [h.tls]
    rfl
  obtain ⟨u', loop, outcome, hstep, hh, hl⟩ := handshakeStep_spec w hu
  have h₁ : Upgrades (s.setTls 0 u' loop) u' :=
    ⟨h.mitm, h.client, by simp [setTls, h.tls], h.callback.imp fun _ => hh.callback.trans,
      hh.isServer.trans h.upstream, hh.wired.trans h.wired, h.tlsClient, h.tlsUpstream⟩
  have k₁ := shaken_setTls hu hh.toAdvances hl
  simp only [upstreamHandshake, hstep]
  cases outcome with
  | nothing => exact ⟨_, rfl, h₁.pointers, k₁⟩
  | complete =>
    obtain ⟨s₂, e₂, h₂, k₂⟩ := onUpstreamHandshake_ok w h₁ (hh.complete rfl) hostname
    exact ⟨s₂, e₂, h₂, k₁.trans k₂⟩
  | failed => exact ⟨_, rfl, pointers_close w h₁.pointers _, k₁.trans (shaken_close w _ _)⟩

/-- A handshake that goes on finds every pointer that it uses. -/
theorem continueHandshake_ok (w : World) {s : Session} (hp : Pointers s) {id : Nat}
    {t : TlsConnection} (ht : s.tls[id]? = some t) (hd : t.handshakeDone_ = false) :
    ∃ s', s.continueHandshake w id = .ok s' ∧ Pointers s' ∧ Shaken s s' := by
  cases hp with
  | plain _ _ htls _ _ => exact absurd ht (by simp [htls])
  | @upgrading c u hostname hm hc htls hcb hserver hw htc htu =>
    have h : Upgrades s u := ⟨hm, ⟨c, hc⟩, htls, ⟨hostname, hcb⟩, hserver, hw, htc, htu⟩
    obtain ⟨rfl, rfl⟩ : 0 = id ∧ u = t := by
      rw [htls] at ht
      cases id <;> simp_all
    simp only [continueHandshake, ht, Option.map_some, hcb]
    exact upstreamHandshake_ok w h hostname
  | @intercepted u c hm htls hdone hserver hcb hclient htc htu =>
    have h : Intercepts s u c := ⟨hm, htls, hdone, hserver, hcb, hclient, htc, htu⟩
    match id, ht with
    | 0, ht =>
      rw [h.at_upstream, Option.some.injEq] at ht
      exact absurd (hdone.symm.trans (ht ▸ hd)) (by decide)
    | 1, ht =>
      simp only [continueHandshake, h.at_client, Option.map_some, hcb]
      exact clientHandshake_ok w h
    | id + 2, ht => exact absurd ht (by simp [htls])

/-- Only this side. -/
abbrev only (side : Side) : Side → Prop := fun d => d = side

theorem writeEstablished_ok (w : World) {s : Session} {c : Connection} (hc : s.client_ = some c) :
    ∃ s', s.writeEstablished w = .ok s' ∧ Quiet w (only .client) s s' := by
  simp only [writeEstablished, hc]
  exact ⟨_, rfl, quiet_afterClientFlush hc (.writeText established s.loop_ rfl (.refl c))
    (c.writeText_noNew w.clientSend established s.loop_) (writeText_open established s.loop_)⟩

theorem stopClientRead_ok (w : World) {s : Session} {c : Connection} (hc : s.client_ = some c) :
    ∃ s', s.stopClientRead = .ok s' ∧ Quiet w (only .client) s s' := by
  simp only [stopClientRead, hc]
  exact ⟨_, rfl, quiet_setClient hc (.stopRead s.loop_ (.refl c)) (c.stopRead_noNew s.loop_)
    fun _ _ => (c.stopRead_closed s.loop_).trans⟩

/-- The callbacks and the reading of an upstream connection that is set. -/
theorem readUpstream_ok (w : World) {s : Session} {c : Connection} (hc : s.upstream_ = some c) :
    ∃ s', (do
      let s ← s.setupUpstreamCallbacks
      s.startUpstreamRead) = Except.ok s' ∧ Quiet w noSide s s' ∧
      ∃ d, s'.upstream_ = some d ∧ d.wired = true ∧ d.closed_ = c.closed_ := by
  simp only [setupUpstreamCallbacks, hc]
  set d : Connection := { c with wired := true } with hd
  exact ⟨_, rfl, @quiet_setUpstream w noSide s c (d.startRead s.loop_).1 _ hc
    (.startRead s.loop_ (.wire (.refl c))) (d.startRead_noNew s.loop_)
    fun _ _ => (d.startRead_closed s.loop_).trans, (d.startRead s.loop_).1, rfl,
    d.startRead_wired s.loop_, d.startRead_closed s.loop_⟩

/-- What the start of an interception makes of a plain session. -/
structure Entered (s s' : Session) : Prop where
  mitm : s'.isTlsMitm_ = true
  tunnel : s'.isTunnel_ = s.isTunnel_
  upstream : s'.upstream_ = none
  pending : s'.pendingBody_ = s.pendingBody_
  stream : ∀ id, TlsFlow.stream s'.tls id = []
  connects : NoNewConnects s.loop_ s'.loop_
  log : ∃ notes : List Note, notes.all aside = true ∧ s'.log = notes ++ s.log ∧
    ∀ cause, .closed cause ∈ notes → s'.closed_ = true

/-- The start of an interception finds both plain connections. -/
theorem startTlsMitm_ok (w : World) {s : Session} {c d : Connection} (hc : s.client_ = some c)
    (hu : s.upstream_ = some d) (ht : s.tls = []) (htc : s.tlsClient_ = none)
    (htu : s.tlsUpstream_ = none) (hostname : Bytes) :
    ∃ s', s.startTlsMitm w hostname = .ok s' ∧ Pointers s' ∧ Entered s s' ∧
      ∃ s₃ u, Upgrades s₃ u ∧ s₃.upstream_ = none ∧ s₃.upstreamHandshake w 0 hostname = .ok s' := by
  obtain ⟨s₁, e₁, q₁⟩ := writeEstablished_ok w (s := { s with isTlsMitm_ := true }) hc
  obtain ⟨c₁, hc₁, -⟩ := rel_forth q₁.client hc
  obtain ⟨s₂, e₂, q₂⟩ := stopClientRead_ok w hc₁
  obtain ⟨c₂, hc₂, -⟩ := rel_forth q₂.client hc₁
  have q := q₁.toLoose.trans q₂.toLoose
  obtain ⟨d₂, hd₂, -⟩ := rel_forth q.upstream hu
  have htls : s₂.tls = [] := by
    have h := q.tls
    rw [ht] at h
    exact List.forall₂_nil_left_iff.mp h
  set t : TlsConnection :=
    { socket_ := d₂.socket_, isServer_ := false, callback := .upstream hostname } with htdef
  set s₃ := makeTls { s₂ with
    upstream_ := none
    loop_ := s₂.loop_.remove d₂.socket_
    tlsUpstream_ := some 0 } d₂.socket_ false (.upstream hostname) with hs₃
  have h₃ : Upgrades s₃ t :=
    ⟨q.isTlsMitm, ⟨c₂, hc₂⟩, by simp [hs₃, makeTls, htls, htdef], ⟨hostname, rfl⟩, rfl, rfl,
      q.tlsClient.trans htc, rfl⟩
  obtain ⟨s', e', h', k⟩ := upstreamHandshake_ok w h₃ hostname
  refine ⟨s', ?_, h', ⟨k.mitm.trans q.isTlsMitm, k.tunnel.trans q.isTunnel, k.upstream rfl,
    k.pending.trans (q.pending (by simp)), fun id => ?_,
    (q.connects.trans (remove_noNew _ _)).trans k.connects, ?_⟩, s₃, t, h₃, rfl, e'⟩
  · have hlen : s₂.tls.length = 0 := by rw [htls]; rfl
    simp only [startTlsMitm, e₁, bind, Except.bind]
    simp only [e₂, hd₂, Connection.releaseSocket, hlen, q.tlsUpstream, htu, dropTls]
    exact e'
  · rw [k.stream, h₃.tls]
    simp only [TlsFlow.stream]
    cases id <;> simp [htdef]
  · obtain ⟨notes, ha, hl, hn⟩ := q.log
    obtain ⟨notes', ha', hl', hn'⟩ := k.log
    refine ⟨notes' ++ notes, by rw [List.all_append, ha, ha']; rfl,
      by rw [hl', List.append_assoc, ← hl]; rfl, fun cause hmem => ?_⟩
    rcases List.mem_append.mp hmem with hmem | hmem
    · exact hn' cause hmem
    · exact k.closed (hn cause hmem)

/-- A connect has completed on an open session after its interception began. -/
structure LateConnect (s : Session) : Prop where
  noted : .connected true ∈ s.log
  mitm : s.isTlsMitm_ = true

/-- A computation that leaves the pointers in order and dereferences no null
pointer, unless a connect completed too late. -/
abbrev Pointed (r : Outcome) : Prop :=
  Ends r (fun s => LateConnect s ∨ Pointers s) fun crash =>
    LateConnect crash.state ∨ Pointers crash.state ∧ crash.fault ≠ .nullPointer

theorem Pointed.session {r : Outcome} (h : Pointed r) :
    LateConnect r.session ∨ Pointers r.session := by
  cases r with
  | ok s => exact h
  | error crash => exact h.imp_right And.left

theorem Steady.late {s s' : Session} (h : Steady w s s') (hs : LateConnect s) : LateConnect s' :=
  ⟨h.log.subset hs.noted, h.mitm hs.mitm⟩

theorem SteadyEnd.late {s : Session} {r : Outcome} (h : SteadyEnd w s r) (hs : LateConnect s) :
    Pointed r :=
  Ends.mono h (fun _ hst => .inl (hst.late hs)) fun _ hst => .inl (hst.late hs)

theorem pointed_ok {s : Session} (h : Pointers s) : Pointed (.ok s) := .inr h

theorem pointed_crash {s : Session} (h : Pointers s) {fault : Fault} (hf : fault ≠ .nullPointer) :
    Pointed (s.crash fault) := .inr ⟨h, hf⟩

theorem wrapUpstream_keeps (s : Session) :
    s.wrapUpstream.isTlsMitm_ = s.isTlsMitm_ ∧ s.wrapUpstream.client_ = s.client_ ∧
      s.wrapUpstream.tls = s.tls ∧ s.wrapUpstream.tlsClient_ = s.tlsClient_ ∧
      s.wrapUpstream.tlsUpstream_ = s.tlsUpstream_ := by
  unfold wrapUpstream closeUpstream
  split <;> exact ⟨rfl, rfl, rfl, rfl, rfl⟩

theorem sendRequest_pointers (w : World) {s : Session} (h : Pointers s) :
    Pointers (s.sendRequest w) := by
  have hsent : ∀ s' : Session, Pointers s' →
      Pointers (if s'.pendingBody_.empty then s' else s'.sendPending w) := by
    intro s' h'
    split
    · exact h'
    · exact (quiet_sendPending (w := w) (toUpstream_any s')).toLoose.pointers h'
  exact hsent _ ((quiet_writeToUpstream (w := w) (toUpstream_any _) _).toLoose.pointers h)

/-- A request goes on where the upstream connection is set, or TLS is. -/
theorem forwardRequest_pointed (w : World) {s : Session} (h : Pointers s)
    (hu : s.isTlsMitm_ = false → ∃ d, s.upstream_ = some d) : Pointed (s.forwardRequest w) := by
  unfold forwardRequest prepareUpstream
  split
  · exact pointed_ok (sendRequest_pointers w h)
  · next hm =>
    obtain ⟨d, hd⟩ := hu (by simpa using hm)
    obtain ⟨s', e, q, -⟩ := readUpstream_ok w hd
    rw [e]
    exact pointed_ok (sendRequest_pointers w (q.toLoose.pointers h))

theorem startTunnel_pointed (w : World) {s : Session} (h : Pointers s)
    (hm : s.isTlsMitm_ = false) {d : Connection} (hd : s.upstream_ = some d) :
    Pointed (s.startTunnel w) := by
  cases h with
  | upgrading hm' => exact absurd (hm.symm.trans hm') (by decide)
  | intercepted hm' => exact absurd (hm.symm.trans hm') (by decide)
  | plain _ hc htls htc htu =>
    unfold startTunnel
    split
    · obtain ⟨s', e, hp, -, -⟩ := startTlsMitm_ok w hc hd htls htc htu s.connectHostname_
      rw [e]
      exact pointed_ok hp
    · obtain ⟨s₁, e₁, q₁⟩ := writeEstablished_ok w (s := { s with isTunnel_ := true }) hc
      obtain ⟨d₁, hd₁, -⟩ := rel_forth q₁.upstream hd
      obtain ⟨s₂, e₂, q₂, -⟩ := readUpstream_ok w hd₁
      rw [e₁]
      change Pointed (do
        let s ← s₁.setupUpstreamCallbacks
        s.startUpstreamRead)
      rw [e₂]
      exact pointed_ok (q₂.toLoose.pointers (q₁.toLoose.pointers (.plain hm hc htls htc htu)))

theorem onUpstreamConnected_pointed (w : World) {s : Session} (h : Pointers s) :
    Pointed (s.onUpstreamConnected w) := by
  unfold onUpstreamConnected
  split
  · exact pointed_ok h
  set s₁ := s.note (.connected s.isTlsMitm_) with hs₁
  have hsteady : Steadily w s₁ (if s₁.wrapUpstream.isConnect_ then s₁.wrapUpstream.startTunnel w
      else s₁.wrapUpstream.forwardRequest w) := by
    split
    · exact Steadily.trans (steady_wrapUpstream w s₁) (steadily_startTunnel w _)
    · exact Steadily.trans (steady_wrapUpstream w s₁) (steadily_forwardRequest w _)
  cases hm : s.isTlsMitm_ with
  | true => exact hsteady.ends.late ⟨by simp [hs₁, note, hm], hm⟩
  | false =>
    obtain ⟨km, kc, kt, ktc, ktu⟩ := wrapUpstream_keeps s₁
    have hp : Pointers s₁.wrapUpstream := by
      rw [Pointers, km, kc, kt, ktc, ktu]
      exact h
    dsimp only
    split
    · exact startTunnel_pointed w hp (km.trans hm) rfl
    · exact forwardRequest_pointed w hp fun _ => ⟨_, rfl⟩

theorem answer_pointers (w : World) {s : Session} (h : Pointers s) (resp : HttpResponse)
    (n : Note) : Pointers (s.answer w resp n) := by
  refine (quiet_writeToClient (w := w) (toClient_any _)
    (Http1Codec.encodeResponse_proper resp).1).toLoose.pointers ?_
  split <;> exact h

theorem connectUpstream_pointed (w : World) {s : Session} (h : Pointers s) (host : Bytes)
    (port : Nat) : Pointed (s.connectUpstream w host port) := by
  unfold connectUpstream
  split
  · exact pointed_crash h (by decide)
  · dsimp only
    split
    · refine pointed_ok (answer_pointers w ?_ _ _)
      exact h
    · split
      · refine pointed_ok (answer_pointers w ?_ _ _)
        exact h
      · refine onUpstreamConnected_pointed w ?_
        exact h
      · exact pointed_ok h

theorem onRequest_pointed (w : World) {s : Session} (h : Pointers s) (req : HttpRequest) :
    Pointed (s.onRequest w req) := by
  unfold onRequest handleConnect
  dsimp only
  split
  · split
    · refine @pointed_crash _ ?_ .exception (by decide)
      exact h
    · refine connectUpstream_pointed w ?_ _ _
      exact h
  · split
    · next hm =>
      refine forwardRequest_pointed w ?_ fun hn => absurd (hm.symm.trans hn) (by decide)
      exact h
    · refine connectUpstream_pointed w ?_ _ _
      exact h

/-- No effect dereferences a null pointer before a connect came too late. -/
theorem effect_pointed {s : Session} {r : Outcome} (h : Pointers s) (he : Effect w s r) :
    Pointed r := by
  cases he with
  | quiet hq _ => exact pointed_ok ((hq anySide).toLoose.pointers h)
  | clientData data _ => exact pointed_ok h
  | upstreamData data _ _ => exact pointed_ok h
  | tunnelUp c data _ hc =>
    exact pointed_ok ((quiet_writeUpstream (w := w) (D := anySide)
      (s := s.note (.clientData data.linearize)) trivial hc data).toLoose.pointers h)
  | tunnelDown data _ hd =>
    exact pointed_ok ((quiet_writeToClient (w := w) (toClient_any _) hd).toLoose.pointers h)
  | clientErrno errno => exact pointed_ok h
  | upstreamErrno errno => exact pointed_ok h
  | parserThrows => exact pointed_crash h (by decide)
  | request ev codec req _ =>
    refine onRequest_pointed w ?_ req
    exact h
  | requestBody piece =>
    exact pointed_ok ((quiet_onRequestBody (w := w) (toUpstream_any _) _).toLoose.pointers h)
  | clientParsed ev codec _ _ _ _ => exact pointed_ok h
  | response ev codec resp _ _ =>
    refine pointed_ok (answer_pointers w ?_ _ _)
    exact h
  | responseBody piece _ =>
    exact pointed_ok ((quiet_onResponseBody (w := w) (toClient_any _)
      (Buffer.proper_empty.add piece).1).toLoose.pointers h)
  | responseComplete _ =>
    exact pointed_ok (((quiet_onResponseBody (w := w) (toClient_any _) Buffer.proper_empty).trans
      (quiet_onResponseComplete trivial _)).toLoose.pointers h)
  | upstreamParsed ev codec _ _ _ _ _ _ => exact pointed_ok h
  | badRequest => exact pointed_ok (pointers_close w (answer_pointers w h _ _) _)
  | connected fd _ =>
    refine onUpstreamConnected_pointed w ?_
    exact h
  | handshake id t ht _ hd =>
    obtain ⟨s', e, hp, -⟩ := continueHandshake_ok w h ht hd
    rw [e]
    exact pointed_ok hp
  | destroyed => exact pointed_crash h (by decide)

theorem start_pointers (fd : Fd) (certGen payloadInspector : Bool) :
    Pointers (start fd certGen payloadInspector) := .plain rfl rfl rfl rfl rfl

/-- A session that no connect reaches after its interception began never
dereferences a null pointer. -/
theorem sessionRun_pointed (w : World) (fd : Fd) (certGen payloadInspector : Bool)
    (events : List SessionEvent) :
    Pointed (sessionRun w (.ok (start fd certGen payloadInspector)) events) := by
  refine sessionRun_effects (fun s r hs he => ?_) (.inr (start_pointers fd certGen _)) events
  rcases hs with hlate | hp
  · exact (effect_steadily he).late hlate
  · exact effect_pointed hp he

end Session

open Session

/-- A connect that completes on an open session after its interception began. -/
def Note.lateConnect : Note → Bool
  | .connected isTlsMitm => isTlsMitm
  | _ => false

/-- In every run in which no upstream connect completes on an open session after
its interception began, no handler dereferences a null connection pointer. -/
theorem pointers_set_until_late_connect (w : World) (fd : Fd) (certGen payloadInspector : Bool)
    (events : List SessionEvent)
    (hlate : (sessionRun w (.ok (start fd certGen payloadInspector)) events).session.log.any
      Note.lateConnect = false) :
    (sessionRun w (.ok (start fd certGen payloadInspector)) events).fault ≠ some .nullPointer := by
  have h := sessionRun_pointed w fd certGen payloadInspector events
  intro hf
  cases hr : sessionRun w (.ok (start fd certGen payloadInspector)) events with
  | ok s => simp [hr, Outcome.fault] at hf
  | error crash =>
    rw [hr] at h hf hlate
    simp only [Outcome.fault, Option.some.injEq] at hf
    rcases h with h | ⟨-, hne⟩
    · have hmem : crash.state.log.any Note.lateConnect = true :=
        List.any_eq_true.mpr ⟨.connected true, h.noted, rfl⟩
      exact absurd (hlate.symm.trans hmem) (by decide)
    · exact hne hf

/-- Bytes of a CONNECT head for `h:443` and what the parser makes of them. -/
def connectHead : SessionEvent :=
  .ready 7
    { fired := ⟨true, false⟩
      answer := .bytes (text "CONNECT h:443 HTTP/1.1\r\n\r\n")
      report := ⟨requestEvents [text "h:443"] [] { method := text "CONNECT" }, .pausedUpgrade⟩ }

/-- A CONNECT head that comes over TLS. -/
def innerConnectHead : SessionEvent :=
  .ready 7
    { fired := ⟨true, false⟩
      reads := [⟨requestEvents [text "h:443"] [] { method := text "CONNECT" }, .pausedUpgrade⟩] }

/-- A world like the prompt one, but for the upstream handshake, which waits for
the upstream once. -/
def waitingWorld : World :=
  { promptWorld with handshake := fun id k => if id = 0 ∧ k = 0 then .stops .wantRead else .done }

theorem pointers_set_intercepted :
    (sessionRun waitingWorld (.ok (start 7 true false)) [connectHead, .ready 10 {}]).fault ≠
      some .nullPointer :=
  pointers_set_until_late_connect waitingWorld 7 true false [connectHead, .ready 10 {}]
    (by decide +kernel)

/-- A CONNECT inside an intercepted connection starts a second interception,
which finds no plain client. -/
theorem inner_connect_null_pointer :
    (sessionRun waitingWorld (.ok (start 7 true false))
      [connectHead, .ready 10 {}, innerConnectHead]).fault = some .nullPointer := by
  decide +kernel

end DeepSeer
