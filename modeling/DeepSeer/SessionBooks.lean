import DeepSeer.ClientBooks

/-!
Every effect keeps the books of a session right until a second connect or a
tunnel, so they are right at the end of every run.
-/
namespace DeepSeer

open ByteMemory ByteText FallibleRuns Http1Codec

namespace Session

variable {w : World}

/-- An intercepted session that has just begun to hear has a new upstream codec
and no handshake before it. -/
def Tuned (s : Session) : Prop :=
  s.hears = true →
    s.upstreamCodec_ = { type := .response } ∧ ∀ t ∈ s.tls, t.handshakeDone_ = true

theorem deaf_tuned {s : Session} (h : s.hears = false) : Tuned s :=
  fun hh => absurd (h.symm.trans hh) (by decide)

theorem startRead_done (t : TlsConnection) (id : Nat) (loop : KqueueLoop) :
    (t.startRead id loop).1.handshakeDone_ = t.handshakeDone_ := by
  unfold TlsConnection.startRead
  split <;> rfl

/-- What the completed client handshake makes of the session. -/
theorem onClientHandshake_tuned {s s' : Session} {u c : TlsConnection} (h : Intercepts s u c)
    (hd : c.handshakeDone_ = true) (hr : s.onClientHandshake = .ok s') : Tuned s' := by
  simp only [onClientHandshake, wireTls, startTlsRead, h.tlsClient, h.tlsUpstream, h.tls, setTls,
    bind, Except.bind, List.getElem?_cons_zero, List.getElem?_cons_succ, List.set_cons_zero,
    List.set_cons_succ] at hr
  cases hr
  intro _
  refine ⟨rfl, fun t ht => ?_⟩
  simp only [List.mem_cons, List.not_mem_nil, or_false] at ht
  rcases ht with rfl | rfl
  · rw [startRead_done]
    exact h.done
  · rw [startRead_done]
    exact hd

/-- A step of a handshake sets no callbacks. -/
theorem setTls_deaf {s : Session} {id : Nat} {t t' : TlsConnection} (ht : s.tls[id]? = some t)
    (hw : t'.wired = t.wired) (hserver : t'.isServer_ = t.isServer_) (loop : KqueueLoop)
    (hh : s.hears = false) : (s.setTls id t' loop).hears = false := by
  simp only [hears, Bool.or_eq_false_iff, List.any_eq_false] at hh ⊢
  refine ⟨hh.1, fun d hd => ?_⟩
  rcases List.mem_or_eq_of_mem_set hd with hmem | rfl
  · exact hh.2 d hmem
  · rw [hw, hserver]
    exact hh.2 t (List.mem_of_getElem? ht)

theorem close_deaf (w : World) {s : Session} (hu : s.upstream_ = none) (hh : s.hears = false)
    (cause : CloseCause) : (s.close cause).hears = false := by
  by_contra hc
  have hq := (quiet_close (w := w) (D := noSide) s cause).toLoose
  exact absurd ((hq.hears_back hu (by simpa using hc)).symm.trans hh) (by decide)

theorem clientHandshake_tuned (w : World) {s s' : Session} {u c : TlsConnection}
    (h : Intercepts s u c) (hu : s.upstream_ = none) (hh : s.hears = false)
    (hr : s.clientHandshake w 1 = .ok s') : Tuned s' := by
  obtain ⟨c', loop, outcome, hstep, hhs, -⟩ := handshakeStep_spec w h.at_client
  have hdeaf := setTls_deaf h.at_client hhs.wired hhs.isServer loop hh
  have hnone : (s.setTls 1 c' loop).upstream_ = none := hu
  simp only [clientHandshake, hstep] at hr
  cases outcome with
  | nothing =>
    cases hr
    exact deaf_tuned hdeaf
  | complete =>
    exact onClientHandshake_tuned (h.setClient hhs.toAdvances loop) (hhs.complete rfl) hr
  | failed =>
    cases hr
    exact deaf_tuned (close_deaf w hnone hdeaf _)

theorem onUpstreamHandshake_tuned (w : World) {s s' : Session} {u : TlsConnection}
    (h : Upgrades s u) (hu : s.upstream_ = none) (hh : s.hears = false)
    (hd : u.handshakeDone_ = true) {hostname : Bytes}
    (hr : s.onUpstreamHandshake w hostname = .ok s') : Tuned s' := by
  obtain ⟨c, hc⟩ := h.client
  unfold onUpstreamHandshake at hr
  split at hr
  · simp only [hc, Connection.releaseSocket] at hr
    rw [show s.tls.length = 1 by rw [h.tls]; rfl] at hr
    set s₁ := Session.makeTls { s with
      client_ := none, loop_ := s.loop_.remove c.socket_, tlsClient_ := some 1 }
      c.socket_ true .client with hs₁
    have h₁ : Intercepts s₁ u { socket_ := c.socket_, isServer_ := true, callback := .client } :=
      ⟨h.mitm, by simp [makeTls, hs₁, h.tls], hd, h.upstream, rfl, rfl, rfl, h.tlsUpstream⟩
    refine clientHandshake_tuned w h₁ hu ?_ hr
    simp [hears, hs₁, makeTls, hu, h.tls, h.wired]
  · cases hr
    exact deaf_tuned (close_deaf w hu hh _)

theorem upstreamHandshake_tuned (w : World) {s s' : Session} {u : TlsConnection}
    (h : Upgrades s u) (hu : s.upstream_ = none) (hh : s.hears = false) {hostname : Bytes}
    (hr : s.upstreamHandshake w 0 hostname = .ok s') : Tuned s' := by
  have hu₀ : s.tls[0]? = some u := by
    rw [h.tls]
    rfl
  obtain ⟨u', loop, outcome, hstep, hhs, -⟩ := handshakeStep_spec w hu₀
  have h₁ : Upgrades (s.setTls 0 u' loop) u' :=
    ⟨h.mitm, h.client, by simp [setTls, h.tls], h.callback.imp fun _ => hhs.callback.trans,
      hhs.isServer.trans h.upstream, hhs.wired.trans h.wired, h.tlsClient, h.tlsUpstream⟩
  have hdeaf := setTls_deaf hu₀ hhs.wired hhs.isServer loop hh
  have hnone : (s.setTls 0 u' loop).upstream_ = none := hu
  simp only [upstreamHandshake, hstep] at hr
  cases outcome with
  | nothing =>
    cases hr
    exact deaf_tuned hdeaf
  | complete => exact onUpstreamHandshake_tuned w h₁ hnone hdeaf (hhs.complete rfl) hr
  | failed =>
    cases hr
    exact deaf_tuned (close_deaf w hnone hdeaf _)

theorem continueHandshake_tuned (w : World) {s s' : Session} (hp : Pointers s)
    (hu : s.upstream_ = none) (hh : s.hears = false) {id : Nat} {t : TlsConnection}
    (ht : s.tls[id]? = some t) (hd : t.handshakeDone_ = false)
    (hr : s.continueHandshake w id = .ok s') : Tuned s' := by
  cases hp with
  | plain _ _ htls => exact absurd ht (by simp [htls])
  | @upgrading c u hostname hm hc htls hcb hserver hw htc htu =>
    have h : Upgrades s u := ⟨hm, ⟨c, hc⟩, htls, ⟨hostname, hcb⟩, hserver, hw, htc, htu⟩
    rw [htls] at ht
    obtain ⟨hid, -⟩ := List.getElem?_eq_some_iff.mp ht
    obtain rfl : id = 0 := by
      simp only [List.length_cons, List.length_nil] at hid
      omega
    simp only [continueHandshake, htls, List.getElem?_cons_zero, Option.map_some, hcb] at hr
    exact upstreamHandshake_tuned w h hu hh hr
  | @intercepted u c hm htls hdu hserver hcb hclient htc htu =>
    have h : Intercepts s u c := ⟨hm, htls, hdu, hserver, hcb, hclient, htc, htu⟩
    rw [htls] at ht
    rcases id with _ | _ | id
    · cases ht
      exact absurd (hdu.symm.trans hd) (by decide)
    · simp only [continueHandshake, htls, List.getElem?_cons_succ, List.getElem?_cons_zero,
        Option.map_some, hcb] at hr
      exact clientHandshake_tuned w h hu hh hr
    · simp at ht

theorem upgrades_deaf {s : Session} {u : TlsConnection} (h : Upgrades s u)
    (hu : s.upstream_ = none) : s.hears = false := by
  simp [hears, hu, h.tls, h.wired]

/-- The start of an interception hands its client nothing yet. -/
theorem startTlsMitm_handed (w : World) {s : Session} {c d : Connection} (hc : s.client_ = some c)
    (hu : s.upstream_ = some d) (ht : s.tls = []) (htc : s.tlsClient_ = none)
    (htu : s.tlsUpstream_ = none) (hostname : Bytes) :
    ∃ s', s.startTlsMitm w hostname = .ok s' ∧ Pointers s' ∧ Entered s s' ∧
      ∀ erred, Handed [] erred s' := by
  obtain ⟨s', e, hp, hent, s₃, u, hupg, hnone, hhand⟩ := startTlsMitm_ok w hc hu ht htc htu hostname
  have htuned := upstreamHandshake_tuned w hupg hnone (upgrades_deaf hupg hnone) hhand
  refine ⟨s', e, hp, hent, fun erred => ⟨hent.upstream, fun _ _ _ => ?_, fun _ => rfl,
    fun _ hh => ?_, fun hh => (htuned hh).2⟩⟩
  · rw [hent.stream]
    rfl
  · rw [(htuned hh).1]
    exact replays_nil

/-- While a handshake goes on the client has been handed nothing. -/
theorem Handed.handshake (w : World) {answers : List ParserEvent} {erred : Bool} {s : Session}
    (h : Handed answers erred s) (hp : Pointers s) {id : Nat} {t : TlsConnection}
    (ht : s.tls[id]? = some t) (hd : t.handshakeDone_ = false) :
    ∃ s', s.continueHandshake w id = .ok s' ∧ Pointers s' ∧ Shaken s s' ∧
      Handed answers erred s' := by
  obtain ⟨s', e, hp', k⟩ := continueHandshake_ok w hp ht hd
  have hdeaf : s.hears = false := by
    by_contra hn
    have hdone := h.done (by simpa using hn) t (List.mem_of_getElem? ht)
    exact absurd (hdone.symm.trans hd) (by decide)
  have htuned := continueHandshake_tuned w hp h.upstream hdeaf ht hd e
  have hanswers := h.deaf hdeaf
  have hstay : s'.closed_ = false → s.closed_ = false := by
    intro ho
    by_contra hc
    exact absurd ((k.closed (by simpa using hc)).symm.trans ho) (by decide)
  have hopen : TlsFlow.shut s'.tls 1 = false → TlsFlow.shut s.tls 1 = false := by
    intro ho
    by_contra hc
    exact absurd ((k.shut 1 (by simpa using hc)).symm.trans ho) (by decide)
  refine ⟨s', e, hp', k, k.upstream h.upstream, fun ho he hs => ?_, fun _ => hanswers,
    fun _ hh => ?_, fun hh => (htuned hh).2⟩
  · rw [k.stream]
    exact h.client (hstay ho) he (hopen hs)
  · rw [hanswers, (htuned hh).1]
    exact replays_nil

/-- All books of a session are right. -/
structure Booked (s : Session) : Prop where
  pointers : Pointers s
  up : BookedUp s
  down : BookedDown s

/-- A change of nothing that is booked. -/
theorem Booked.same {s s' : Session} (h : Booked s) (hl : s'.ledger = s.ledger)
    (hc : s'.closed_ = s.closed_) (hpe : s'.pendingBody_ = s.pendingBody_)
    (hm : s'.isTlsMitm_ = s.isTlsMitm_) (hcl : s'.client_ = s.client_)
    (hu : s'.upstream_ = s.upstream_) (ht : s'.tls = s.tls) (htc : s'.tlsClient_ = s.tlsClient_)
    (htu : s'.tlsUpstream_ = s.tlsUpstream_) (hcodec : s'.upstreamCodec_ = s.upstreamCodec_) :
    Booked s' := by
  have hstream : s'.clientStream = s.clientStream := by
    simp only [clientStream, hm, htc, ht, hcl]
  have hdown := h.down
  refine ⟨?_, h.up.same ⟨_, _, hl⟩ hpe hu hm ht htu, ?_⟩
  · rw [Pointers, hm, hcl, ht, htc, htu]
    exact h.pointers
  · refine ⟨?_, ?_, fun hm' => ?_, fun hm' => ?_, fun hm' => ?_⟩
    · rw [hl, hc]
      exact hdown.shut
    · rw [hl]
      exact hdown.unanswered
    · have ha := hdown.attached (hm.symm.trans hm')
      exact ⟨by rw [hl, hc, ha.shut], by rw [hcl, hc]; exact ha.client,
        by rw [hl, hu, hc]; exact ha.upstream⟩
    · have hp := hdown.plain (hm.symm.trans hm')
      exact ⟨by rw [hl, hstream]; exact hp.client, by rw [hl, hc, hcodec]; exact hp.replays,
        by rw [hl, hc]; exact hp.ended, by rw [hl]; exact hp.finished⟩
    · have hp := hdown.mitm (hm.symm.trans hm')
      have hhears : s'.hears = s.hears := by simp [hears, hu, ht, hp.upstream]
      exact ⟨hu.trans hp.upstream, by rw [hl]; exact hp.linked,
        by rw [hl, hc, ht]; exact hp.client, by rw [hl, hhears]; exact hp.deaf,
        by rw [hl, hc, hhears, hcodec]; exact hp.replays, by rw [hhears, ht]; exact hp.done⟩

theorem Booked.quiet {s s' : Session} (h : Booked s) (hq : Quiet w noSide s s')
    (hs : Shuts s s') : Booked s' :=
  ⟨hq.toLoose.pointers h.pointers, h.up.frame h.pointers hq.toLoose hs.books id,
    h.down.frame h.pointers hq hs id⟩

theorem toUpstream_only {s : Session} (h : Pointers s) : ToUpstream (only .upstream) s :=
  ⟨rfl, fun _ _ hid ht => h.tlsUpstream_side hid ht⟩

/-- A request head and what waits behind it go to the upstream only. -/
theorem sendRequest_quiet (w : World) {s : Session} (h : Pointers s) :
    Quiet w (only .upstream) { s.note (.forwarded s.currentRequest_ s.link) with
        currentRequest_.url := originForm s.currentRequest_.url } (s.sendRequest w) ∧
      Shuts { s.note (.forwarded s.currentRequest_ s.link) with
        currentRequest_.url := originForm s.currentRequest_.url } (s.sendRequest w) := by
  set s₁ : Session := { s.note (.forwarded s.currentRequest_ s.link) with
    currentRequest_.url := originForm s.currentRequest_.url }
  have h₁ : Pointers s₁ := h
  have hq : Quiet w (only .upstream) s₁ (s.headSent w) :=
    quiet_writeToUpstream (toUpstream_only h₁) _
  have hsh : Shuts s₁ (s.headSent w) := shuts_writeToUpstream w s₁ _
  rw [sendRequest_eq]
  split
  · exact ⟨hq, hsh⟩
  · exact ⟨hq.trans (quiet_sendPending (toUpstream_only (hq.toLoose.pointers h₁))),
      hsh.trans (shuts_sendPending w _)⟩

theorem toClient_only {s : Session} (h : Pointers s) : ToClient (only .client) s := by
  refine ⟨rfl, fun id t hid ht => ?_⟩
  cases h with
  | plain _ _ _ htc => exact absurd (htc.symm.trans hid) (by simp)
  | upgrading _ _ _ _ _ _ htc => exact absurd (htc.symm.trans hid) (by simp)
  | intercepted _ htls _ _ _ hclient htc =>
    obtain rfl : 1 = id := Option.some.inj (htc.symm.trans hid)
    rw [htls] at ht
    cases ht
    simp [TlsConnection.side, hclient]

/-- A client that cannot be reached is handed nothing. -/
theorem writeToClient_unreached (w : World) {s : Session} (h : s.reachesClient = false)
    (data : Buffer) : (s.writeToClient w data).1 = s := by
  rcases pointer_cases s.isTlsMitm_ s.tlsClient_ with ⟨id, hm, hid⟩ | hp
  · have hwrite : s.writeToClient w data = s.writeTls w id data := by simp [writeToClient, hm, hid]
    rw [hwrite, writeTls]
    cases ht : s.tls[id]? with
    | none => rfl
    | some t =>
      have hc : t.closed_ = true := by
        simpa [reachesClient, hm, hid, ht] using h
      obtain ⟨hlt, rfl⟩ := List.getElem?_eq_some_iff.mp ht
      simp [TlsConnection.write, hc, setTls]
  · cases hc : s.client_ with
    | none => rcases hp with hp | hp <;> simp [writeToClient, hp, hc]
    | some c =>
      have hn : c.connected = false := by
        rcases hp with hp | hp <;> simpa [reachesClient, hp, hc] using h
      rcases hp with hp | hp <;> simp [writeToClient, hp, hc, hn]

/-- An answer of the proxy's own. -/
theorem Booked.sendError {s : Session} (h : Booked s) (status : Nat) (reason : Bytes) :
    Booked (s.sendError w status reason) := by
  unfold Session.sendError answer
  dsimp only
  obtain ⟨hproper, -⟩ := Http1Codec.encodeResponse_proper (errorResponse status reason)
  cases hr : s.reachesClient with
  | false =>
    simp only [Bool.false_eq_true, if_false]
    rw [writeToClient_unreached w hr]
    exact h
  | true =>
    simp only [if_true]
    set s₁ := s.note (.error status) with hs₁
    have h₁ : Pointers s₁ := h.pointers
    have hup : BookedUp s₁ := ⟨h.up.proper, h.up.waiting, h.up.stream⟩
    have hdown : BookedDown s₁ := by
      have hd := h.down
      refine ⟨hd.shut, hd.unanswered, fun hm => ?_, fun hm => ?_, fun hm => ?_⟩
      · exact ⟨(hd.attached hm).shut, (hd.attached hm).client, (hd.attached hm).upstream⟩
      · exact ⟨fun he => absurd he (by simp [hs₁, Ledger.note]), (hd.plain hm).replays,
          (hd.plain hm).ended, (hd.plain hm).finished⟩
      · have hp := hd.mitm hm
        exact ⟨hp.upstream, hp.linked, fun _ he => absurd he (by simp [hs₁, Ledger.note]),
          hp.deaf, hp.replays, hp.done⟩
    have hq : Quiet w (only .client) s₁ (s₁.writeToClient w
        (Http1Codec.encodeResponse (errorResponse status reason) {})).1 :=
      quiet_writeToClient (toClient_only h₁) hproper
    have hsh := shuts_writeToClient w s₁
      (Http1Codec.encodeResponse (errorResponse status reason) {})
    exact ⟨hq.toLoose.pointers h₁, hup.frame h₁ hq.toLoose hsh.books (by simp),
      hdown.quiet_erred hq hsh rfl⟩

/-- A request head goes to the upstream. -/
theorem Booked.sendRequest {s : Session} (h : Booked s) (hlinked : s.ledger.linked = true) :
    Booked (s.sendRequest w) := by
  set s₁ : Session := { s.note (.forwarded s.currentRequest_ s.link) with
    currentRequest_.url := originForm s.currentRequest_.url } with hs₁
  have hd := h.down
  have h₁ : Pointers s₁ := h.pointers
  have hdown : BookedDown s₁ :=
    ⟨hd.shut, hd.unanswered,
      fun hm => ⟨(hd.attached hm).shut, (hd.attached hm).client, (hd.attached hm).upstream⟩,
      fun hm => ⟨(hd.plain hm).client, (hd.plain hm).replays, (hd.plain hm).ended,
        (hd.plain hm).finished⟩,
      fun hm => ⟨(hd.mitm hm).upstream, (hd.mitm hm).linked, (hd.mitm hm).client,
        (hd.mitm hm).deaf, (hd.mitm hm).replays, (hd.mitm hm).done⟩⟩
  have hsent : Quiet w (only .upstream) s₁ (s.sendRequest w) ∧ Shuts s₁ (s.sendRequest w) :=
    sendRequest_quiet w h.pointers
  exact ⟨hsent.1.toLoose.pointers h₁, (h.up.sendRequest w hlinked).1,
    hdown.frame h₁ hsent.1 hsent.2 (by simp)⟩

/-- The callbacks and the reading of a plain upstream. -/
theorem prepareUpstream_plain {s : Session} {c : Connection} (hm : s.isTlsMitm_ = false)
    (hu : s.upstream_ = some c) : s.prepareUpstream = .ok { s with
      upstream_ := some ({ c with wired := true }.startRead s.loop_).1
      loop_ := ({ c with wired := true }.startRead s.loop_).2 } := by
  simp [prepareUpstream, setupUpstreamCallbacks, startUpstreamRead, hm, hu, bind, Except.bind]

/-- The first connect of a plain session. -/
theorem Booked.connect {s : Session} (h : Booked s) (ho : s.closed_ = false)
    (hn : s.ledger.linked = false) :
    ∃ s', (s.note (.connected s.isTlsMitm_)).wrapUpstream.prepareUpstream = .ok s' ∧
      Booked s' ∧ s'.ledger.linked = true := by
  obtain ⟨hu, hm, -⟩ := h.up.waiting hn
  have hup := h.up.connect hn
  set s₁ := (s.note (.connected s.isTlsMitm_)).wrapUpstream with hs₁
  have hwrap := wrapUpstream_none (s := s.note (.connected s.isTlsMitm_)) hu
  rw [← hs₁] at hwrap
  set c : Connection := { id := s.upstreams + 1, socket_ := s.connectingSocket_ } with hc
  have hplain : s₁.isTlsMitm_ = false := by
    rw [hwrap]
    exact hm
  have hset : s₁.upstream_ = some c := by
    rw [hwrap]
    rfl
  have hp₁ : Pointers s₁ := by
    rw [hwrap]
    exact h.pointers
  have ha := h.down.attached hm
  have hpl := h.down.plain hm
  have hans := h.down.unanswered hn
  obtain ⟨s₂, e₂, q₂, d, hd, hw, hcl⟩ := readUpstream_ok promptWorld hset
  have heq := prepareUpstream_plain hplain hset
  have e₂' : s₁.prepareUpstream = .ok s₂ := by
    simp only [prepareUpstream, hplain, Bool.false_eq_true, if_false]
    exact e₂
  have hshut := shuts_prepareUpstream e₂'
  rw [e₂'] at heq
  have hs₂ := Except.ok.inj heq
  refine ⟨s₂, e₂', ⟨q₂.toLoose.pointers hp₁, hup.frame hp₁ q₂.toLoose hshut.books id, ?_⟩, ?_⟩
  · have hledger : s₂.ledger = { s.ledger with
        linked := true, redialed := s.ledger.linked, stream := [] } := by
      rw [hs₂, hwrap]
      rfl
    have hstream : s₂.clientStream = s.clientStream := by
      rw [hs₂, hwrap]
      rfl
    refine ⟨?_, fun hl => absurd hl (by simp [hledger]), fun _ => ⟨?_, ?_, fun _ => ⟨d, hd, hw, ?_⟩⟩,
      fun _ => ⟨?_, ?_, ?_, ?_⟩, fun hm₂ => ?_⟩
    · rw [hledger, hs₂, hwrap]
      exact h.down.shut
    · rw [hledger, hs₂, hwrap]
      exact ha.shut
    · rw [hs₂, hwrap]
      exact ha.client
    · rw [hcl, hs₂, hwrap]
      exact ho.symm
    · rw [hledger, hstream]
      exact hpl.client
    · rw [hledger, hs₂, hwrap]
      exact hpl.replays
    · rw [hledger, hs₂, hwrap]
      exact hpl.ended
    · rw [hledger]
      exact hpl.finished
    · exact absurd ((q₂.isTlsMitm.trans hplain).symm.trans hm₂) (by decide)
  · rw [hshut.books.linked, hwrap]
    rfl

/-- The flag of a close comes from a note of it. -/
theorem closed_noted {s s' : Session} {notes : List Note} (hl : s'.log = notes ++ s.log)
    (hc : s'.ledger.closed = true) :
    (∃ cause, .closed cause ∈ notes) ∨ s.ledger.closed = true := by
  rw [Session.ledger, hl] at hc
  clear hl
  induction notes with
  | nil => exact .inr hc
  | cons n rest ih =>
    by_cases hn : ∃ cause, n = .closed cause
    · obtain ⟨cause, rfl⟩ := hn
      exact .inl ⟨cause, List.mem_cons_self⟩
    · have hsame : ((Ledger.of (rest ++ s.log)).note n).closed = (Ledger.of (rest ++ s.log)).closed := by
        unfold Ledger.note
        split
        · unfold Ledger.requestBody
          split
          · rfl
          · split <;> rfl
        · rfl
        · rfl
        · rfl
        · rfl
        · exact absurd ⟨_, rfl⟩ hn
        · rfl
      rcases ih (hsame ▸ hc) with ⟨cause, hmem⟩ | hcl
      · exact .inl ⟨cause, List.mem_cons_of_mem _ hmem⟩
      · exact .inr hcl

/-- The start of an interception. -/
theorem Booked.startTlsMitm {s : Session} (h : Booked s) (ho : s.closed_ = false)
    (hn : s.ledger.linked = false) (hostname : Bytes) :
    Ends ((s.note (.connected s.isTlsMitm_)).wrapUpstream.startTlsMitm w hostname) Booked
      fun _ => True := by
  obtain ⟨hu, hm, -⟩ := h.up.waiting hn
  have hwrap := wrapUpstream_none (s := s.note (.connected s.isTlsMitm_)) hu
  set s₁ := (s.note (.connected s.isTlsMitm_)).wrapUpstream with hs₁
  have hledger : s₁.ledger = { s.ledger with
      linked := true, redialed := s.ledger.linked, stream := [] } := by
    rw [hwrap]
    rfl
  cases h.pointers with
  | upgrading hm' => exact absurd (hm.symm.trans hm') (by decide)
  | intercepted hm' => exact absurd (hm.symm.trans hm') (by decide)
  | @plain c _ hc htls htc htu =>
    obtain ⟨s', e, hp, hent, hhanded⟩ := startTlsMitm_handed w (s := s₁) (c := c)
      (d := { id := s.upstreams + 1, socket_ := s.connectingSocket_ })
      (by rw [hwrap]; exact hc) (by rw [hwrap]; rfl) (by rw [hwrap]; exact htls)
      (by rw [hwrap]; exact htc) (by rw [hwrap]; exact htu) hostname
    rw [e]
    obtain ⟨notes, haside, hlog, hclosed⟩ := hent.log
    have hk : KeepsBooks s₁ s' := aside_books haside hlog
    have hanswers : s'.ledger.answers = [] := by
      rw [hk.answers, hledger]
      exact h.down.unanswered hn
    have hlinked : s'.ledger.linked = true := by
      rw [hk.linked, hledger]
    have hup : BookedUp s₁ := h.up.connect hn
    have hreach : s₁.reachesUpstream = true :=
      (reachesUpstream_plain (.inl (by rw [hwrap]; exact hm))).mpr ⟨_, rfl, rfl⟩
    refine ⟨hp, hup.entered (by rw [hledger]) (by rw [hledger]) hreach hent,
      ⟨?_, fun hl => absurd (hlinked.symm.trans hl) (by decide),
        fun hm' => absurd (hent.mitm.symm.trans hm') (by decide),
        fun hm' => absurd (hent.mitm.symm.trans hm') (by decide), fun _ => ?_⟩⟩
    · intro hcl
      rcases closed_noted hlog hcl with ⟨cause, hcause⟩ | hcl₁
      · exact hclosed cause hcause
      · rw [hledger] at hcl₁
        exact absurd ((h.down.shut hcl₁).symm.trans ho) (by decide)
    · refine Handed.mitm ?_ hlinked
      rw [hanswers]
      exact hhanded _

/-- The books are right, unless a second connect or a tunnel has changed what
they are about. -/
def Accounted (s : Session) : Prop :=
  s.ledger.redialed = true ∨ s.isTunnel_ = true ∨ Booked s

theorem redialed_note {l : Ledger} (h : l.redialed = true ∧ l.linked = true) (n : Note) :
    (l.note n).redialed = true ∧ (l.note n).linked = true := by
  unfold Ledger.note
  split
  · unfold Ledger.requestBody
    split
    · exact h
    · split <;> exact h
  all_goals first | exact h | exact ⟨h.2, rfl⟩

theorem redialed_linked (log : List Note) :
    (Ledger.of log).redialed = true → (Ledger.of log).linked = true := by
  induction log with
  | nil => exact fun h => absurd h (by decide)
  | cons n rest ih =>
    intro h
    by_cases hr : (Ledger.of rest).redialed = true
    · exact (redialed_note ⟨hr, ih hr⟩ n).2
    · rw [Ledger.of_cons] at h ⊢
      unfold Ledger.note at h ⊢
      split at h
      · unfold Ledger.requestBody at h ⊢
        split at h
        · exact absurd h hr
        · split at h <;> exact absurd h hr
      all_goals first | rfl | exact absurd h hr

/-- A second connect stays in the books. -/
theorem Steady.redialed {s s' : Session} (h : Steady w s s') (hs : s.ledger.redialed = true) :
    s'.ledger.redialed = true := by
  obtain ⟨notes, hl⟩ := h.log
  have hall : ∀ notes : List Note, (Ledger.of (notes ++ s.log)).redialed = true ∧
      (Ledger.of (notes ++ s.log)).linked = true := by
    intro notes
    induction notes with
    | nil => exact ⟨hs, redialed_linked s.log hs⟩
    | cons n rest ih => exact redialed_note ih n
  rw [Session.ledger, ← hl]
  exact (hall notes).1

theorem Steady.accounted {s s' : Session} (h : Steady w s s')
    (hs : s.ledger.redialed = true ∨ s.isTunnel_ = true) : Accounted s' :=
  hs.elim (fun hr => .inl (h.redialed hr)) fun ht => .inr (.inl (h.tunnel ht))

theorem SteadyEnd.accounted {s : Session} {r : Outcome} (h : SteadyEnd w s r)
    (hs : s.ledger.redialed = true ∨ s.isTunnel_ = true) : Ends r Accounted fun _ => True :=
  Ends.mono h (fun _ h => h.accounted hs) fun _ _ => trivial

theorem accounted_ok {s : Session} (h : Booked s) : Accounted s := .inr (.inr h)

/-- A tunnel that is not intercepted is out of the books. -/
theorem startTunnel_accounted {s : Session} (h : Booked s) (ho : s.closed_ = false)
    (hn : s.ledger.linked = false) :
    Ends ((s.note (.connected s.isTlsMitm_)).wrapUpstream.startTunnel w) Accounted
      fun _ => True := by
  unfold startTunnel
  split
  · exact Ends.mono (h.startTlsMitm ho hn _) (fun _ => accounted_ok) fun _ => id
  · set s₁ := (s.note (.connected s.isTlsMitm_)).wrapUpstream with hs₁
    exact (steadily_passThrough w { s₁ with isTunnel_ := true }).ends.accounted (.inr rfl)

theorem onUpstreamConnected_accounted {s : Session} (h : Booked s) :
    Ends (s.onUpstreamConnected w) Accounted fun _ => True := by
  unfold onUpstreamConnected
  cases ho : s.closed_ with
  | true => exact accounted_ok h
  | false =>
    simp only [Bool.false_eq_true, if_false]
    cases hn : s.ledger.linked with
    | true =>
      set s₁ := (s.note (.connected s.isTlsMitm_)).wrapUpstream with hs₁
      have hlog : Steady w (s.note (.connected s.isTlsMitm_)) s₁ := steady_wrapUpstream w _
      have hredialed : s₁.ledger.redialed = true := hlog.redialed hn
      split
      · exact (steadily_startTunnel w s₁).ends.accounted (.inl hredialed)
      · exact (steadily_forwardRequest w s₁).ends.accounted (.inl hredialed)
    | false =>
      split
      · exact startTunnel_accounted h ho hn
      · obtain ⟨s₂, e₂, h₂, hl₂⟩ := h.connect ho hn
        rw [Session.forwardRequest, e₂]
        exact accounted_ok (h₂.sendRequest hl₂)

theorem connectUpstream_accounted {s : Session} (h : Booked s) (host : Bytes) (port : Nat) :
    Ends (s.connectUpstream w host port) Accounted fun _ => True := by
  unfold connectUpstream
  split
  · trivial
  · have hcount : Booked { s with sockets := s.sockets + 1 } :=
      h.same rfl rfl rfl rfl rfl rfl rfl rfl rfl rfl
    dsimp only
    split
    · exact accounted_ok (hcount.sendError 502 _)
    · next fd _ =>
      have hreplace : Booked (replaceConnecting { s with sockets := s.sockets + 1 } fd) :=
        h.same rfl rfl rfl rfl rfl rfl rfl rfl rfl rfl
      split
      · exact accounted_ok (hreplace.sendError 502 _)
      · exact onUpstreamConnected_accounted hreplace
      · exact accounted_ok (h.same rfl rfl rfl rfl rfl rfl rfl rfl rfl rfl)

theorem onRequest_accounted {s : Session} (h : Booked s) (req : HttpRequest) :
    Ends (s.onRequest w req) Accounted fun _ => True := by
  unfold onRequest handleConnect
  dsimp only
  split
  · split
    · trivial
    · refine connectUpstream_accounted ?_ _ _
      exact h.same rfl rfl rfl rfl rfl rfl rfl rfl rfl rfl
  · split
    · next hm =>
      have hset : Booked { s.note (.request req) with currentRequest_ := req } :=
        h.same rfl rfl rfl rfl rfl rfl rfl rfl rfl rfl
      have hlinked := (h.down.mitm hm).linked
      have hprepare : { s.note (.request req) with currentRequest_ := req }.prepareUpstream =
          .ok { s.note (.request req) with currentRequest_ := req } := if_pos hm
      rw [Session.forwardRequest, hprepare]
      exact accounted_ok (hset.sendRequest hlinked)
    · refine connectUpstream_accounted ?_ _ _
      exact h.same rfl rfl rfl rfl rfl rfl rfl rfl rfl rfl

/-- A callback that is no body data is not booked on the client side. -/
theorem clientParsed_books (l : Ledger) {ev : ParserEvent} (hb : ∀ piece, ev ≠ .body piece) :
    l.note (.clientParsed ev) = l := by
  cases ev with
  | body piece => exact absurd rfl (hb piece)
  | _ => rfl

/-- A note of the upstream side leaves the answers alone. -/
theorem BookedDown.note {s : Session} (h : BookedDown s) {n : Note}
    (hl : (s.ledger.note n).linked = s.ledger.linked)
    (he : (s.ledger.note n).erred = s.ledger.erred)
    (hc : (s.ledger.note n).closed = s.ledger.closed)
    (hf : (s.ledger.note n).finished = s.ledger.finished)
    (ha : (s.ledger.note n).answers = s.ledger.answers) : BookedDown (s.note n) := by
  refine ⟨?_, ?_, fun hm => ⟨?_, (h.attached hm).client, ?_⟩, fun hm => ⟨?_, ?_, ?_, ?_⟩,
    fun hm => ⟨(h.mitm hm).upstream, ?_, ?_, ?_, ?_, (h.mitm hm).done⟩⟩
  · rw [ledger_note, hc]
    exact h.shut
  · rw [ledger_note, hl, ha]
    exact h.unanswered
  · rw [ledger_note, hc]
    exact (h.attached hm).shut
  · rw [ledger_note, hl]
    exact (h.attached hm).upstream
  · rw [ledger_note, he, ha]
    exact (h.plain hm).client
  · rw [ledger_note, ha]
    exact (h.plain hm).replays
  · rw [ledger_note, ha]
    exact (h.plain hm).ended
  · rw [ledger_note, hf, ha]
    exact (h.plain hm).finished
  · rw [ledger_note, hl]
    exact (h.mitm hm).linked
  · rw [ledger_note, he, ha]
    exact (h.mitm hm).client
  · rw [ledger_note, ha]
    exact (h.mitm hm).deaf
  · rw [ledger_note, ha]
    exact (h.mitm hm).replays

/-- Body data of a request keeps the books right. -/
theorem Booked.requestBody {s : Session} (h : Booked s) (piece : Bytes) :
    Booked ((s.note (.clientParsed (.body piece))).onRequestBody w (({} : Buffer).add piece)) := by
  set s₁ := s.note (.clientParsed (.body piece)) with hs₁
  have h₁ : Pointers s₁ := h.pointers
  obtain ⟨stream, pending, hl⟩ : ∃ stream pending, s.ledger.note (.clientParsed (.body piece)) =
      { s.ledger with stream := stream, pending := pending } := by
    show ∃ stream pending, s.ledger.requestBody piece = _
    unfold Ledger.requestBody
    split
    · exact ⟨_, _, rfl⟩
    · split <;> exact ⟨_, _, rfl⟩
  have hdown : BookedDown s₁ := h.down.note (by rw [hl]) (by rw [hl]) (by rw [hl])
    (by rw [hl]) (by rw [hl])
  have hq : Quiet w (only .upstream) s₁ (s₁.onRequestBody w (({} : Buffer).add piece)) :=
    quiet_onRequestBody (toUpstream_only h₁) _
  exact ⟨hq.toLoose.pointers h₁, h.up.requestBody w piece,
    hdown.frame h₁ hq (shuts_onRequestBody w s₁ _) (by simp)⟩

/-- The error number of a codec is not booked. -/
theorem Booked.errno {s : Session} (h : Booked s) (errno : Errno) :
    Booked { s with upstreamCodec_.errno := errno } := by
  have hd := h.down
  refine ⟨h.pointers, ⟨h.up.proper, h.up.waiting, h.up.stream⟩, hd.shut, hd.unanswered,
    fun hm => ?_, fun hm => ?_, fun hm => ?_⟩
  · exact ⟨(hd.attached hm).shut, (hd.attached hm).client, (hd.attached hm).upstream⟩
  · exact ⟨(hd.plain hm).client, fun ho => ((hd.plain hm).replays ho).errno errno,
      (hd.plain hm).ended, (hd.plain hm).finished⟩
  · have hp := hd.mitm hm
    exact ⟨hp.upstream, hp.linked, hp.client, hp.deaf,
      fun ho hh => (hp.replays ho hh).errno errno, hp.done⟩

theorem BookedUp.upstreamParsed {s : Session} (h : BookedUp s) {ev : ParserEvent}
    (hev : ev ≠ .messageComplete) (codec : Http1Codec) :
    BookedUp ({ s with upstreamCodec_ := codec }.note (.upstreamParsed ev)) := by
  have hpending : (s.ledger.upstreamParsed ev).pending = s.ledger.pending := if_neg hev
  refine ⟨h.proper, fun hn => ?_, fun hl hr => ?_⟩
  · obtain ⟨hu, hm, hw⟩ := h.waiting hn
    exact ⟨hu, hm, hw.trans hpending.symm⟩
  · obtain ⟨hs, hp⟩ := h.stream hl hr
    exact ⟨hs, hp.trans hpending.symm⟩

/-- A callback of the upstream codec and the data that it hands to the client. -/
theorem Booked.heard {s s₁ s' : Session} (h : Booked s) (hh : s.hears = true)
    {ev : ParserEvent} {codec : Http1Codec} {calls : List Emission} (hev : ev ≠ .messageComplete)
    (hcodec : s.upstreamCodec_.handle ev = some (codec, calls)) {log : List Note}
    (hlog : Ledger.of log = s.ledger.upstreamParsed ev)
    (hs₁ : s₁ = { s with upstreamCodec_ := codec, log := log })
    (hq : Quiet w (only .client) s₁ s') (hs : Shuts s₁ s')
    (hstream : s.reachesClient = true → s'.clientStream =
      s.clientStream ++ calls.flatMap (handed s.isTlsMitm_)) : Booked s' := by
  subst hs₁
  set s₁ := { s with upstreamCodec_ := codec, log := log }
  have hpending : (s.ledger.upstreamParsed ev).pending = s.ledger.pending := if_neg hev
  have hbooks : s₁.ledger = s.ledger.upstreamParsed ev := hlog
  have h₁ : Pointers s₁ := h.pointers
  have hup : BookedUp s₁ := by
    refine ⟨h.up.proper, fun hn => ?_, fun hl hr => ?_⟩
    · rw [hbooks] at hn ⊢
      rw [hpending]
      exact h.up.waiting hn
    · rw [hbooks] at hl ⊢
      rw [hpending]
      exact h.up.stream hl hr
  have hshut : s₁.ledger.closed = true → s₁.closed_ = true := by
    rw [hbooks]
    exact h.down.shut
  refine ⟨hq.toLoose.pointers h₁, hup.frame h₁ hq.toLoose hs.books (by simp), ?_⟩
  exact h.down.heard h.pointers (fun hn => ⟨(h.up.waiting hn).1, (h.up.waiting hn).2.1⟩) hh hcodec
    hlog rfl hq hs.books hs.closes (hs.marks hshut) (fun _ he => absurd he hev)
    (fun hf => .inl ((congrArg Ledger.finished hbooks).symm.trans (hs.finished.symm.trans hf)))
    hstream

/-- A response head goes to a client that can be reached, with the note of it. -/
theorem onResponse_spec (w : World) {s : Session} (hp : Pointers s) (resp : HttpResponse) :
    ∃ s₁, (s₁ = s ∨ s₁ = s.note (.response resp s.link)) ∧
      Quiet w (only .client) s₁ (s.onResponse w resp) ∧ Shuts s₁ (s.onResponse w resp) ∧
      (s.reachesClient = true → (s.onResponse w resp).clientStream =
        s.clientStream ++ encodedResponse (stripFraming s.isTlsMitm_ resp)) := by
  obtain ⟨hproper, henc⟩ := Http1Codec.encodeResponse_proper (stripFraming s.isTlsMitm_ resp)
  unfold onResponse answer
  dsimp only
  cases hr : s.reachesClient with
  | false =>
    simp only [Bool.false_eq_true, if_false]
    rw [writeToClient_unreached w hr]
    exact ⟨s, .inl rfl, .refl w _ s, .refl s, fun h => absurd h (by simp)⟩
  | true =>
    simp only [if_true]
    set s₁ := s.note (.response resp s.link) with hs₁
    refine ⟨s₁, .inr rfl, quiet_writeToClient (toClient_only (s := s₁) hp) hproper,
      shuts_writeToClient w s₁ _, fun _ => ?_⟩
    rw [writeToClient_stream w (s := s₁) hr, henc]
    rfl

theorem Booked.response {s : Session} (h : Booked s) (hh : s.hears = true) {ev : ParserEvent}
    {codec : Http1Codec} {resp : HttpResponse}
    (hcodec : s.upstreamCodec_.handle ev = some (codec, [.response resp])) :
    Booked (({ s with upstreamCodec_ := codec }.note (.upstreamParsed ev)).onResponse w resp) := by
  set s₁ := { s with upstreamCodec_ := codec }.note (.upstreamParsed ev) with hs₁
  have hev : ev ≠ .messageComplete := by
    rintro rfl
    simp [handle] at hcodec
  obtain ⟨s₂, hs₂, hq, hsh, hstream⟩ := onResponse_spec w (s := s₁) h.pointers resp
  have hcalls : s.reachesClient = true → (s₁.onResponse w resp).clientStream =
      s.clientStream ++ [Emission.response resp].flatMap (handed s.isTlsMitm_) := by
    intro hr
    rw [hstream hr]
    simp [handed]
    rfl
  rcases hs₂ with rfl | rfl
  · exact h.heard hh hev hcodec rfl hs₁ hq hsh hcalls
  · exact h.heard hh hev hcodec rfl rfl hq hsh hcalls

/-- Body data goes to a client that can be reached. -/
theorem onResponseBody_stream (w : World) {s : Session} (hr : s.reachesClient = true)
    (piece : Bytes) : (s.onResponseBody w (({} : Buffer).add piece)).clientStream =
      s.clientStream ++ piece := by
  obtain ⟨hproper, hpiece⟩ := pieceBuffer piece
  unfold onResponseBody
  dsimp only
  split
  · next he =>
    have hnil : piece = [] := by
      rw [← hpiece]
      exact (Buffer.empty_iff hproper.represents).mp he
    rw [hnil, List.append_nil]
    split <;> rfl
  · split
    · set s₁ : Session := { s with
        responseBody_ := (({} : Buffer).add piece).slices.foldl (fun b slice => b.add slice.data)
          s.responseBody_ } with hs₁
      have hr₁ : s₁.reachesClient = true := hr
      rw [writeToClient_stream w hr₁, hpiece]
      rfl
    · rw [writeToClient_stream w hr, hpiece]

theorem handed_piece (isTlsMitm : Bool) (piece : Bytes) :
    [Emission.body (({} : Buffer).add piece) false].flatMap (handed isTlsMitm) = piece := by
  simp [handed, (pieceBuffer piece).2]

theorem Booked.responseBody {s : Session} (h : Booked s) (hh : s.hears = true) (piece : Bytes) :
    Booked ((s.note (.upstreamParsed (.body piece))).onResponseBody w (({} : Buffer).add piece)) := by
  set s₁ := s.note (.upstreamParsed (.body piece)) with hs₁
  refine @Booked.heard w s s₁ _ h hh (.body piece) s.upstreamCodec_
    [.body (({} : Buffer).add piece) false] (by simp) rfl _ rfl rfl
    (quiet_onResponseBody (toClient_only (s := s₁) h.pointers) (pieceBuffer piece).1)
    (shuts_onResponseBody w s₁ _) fun hr => ?_
  rw [handed_piece, onResponseBody_stream w (s := s₁) hr]
  rfl

theorem close_books (s : Session) (cause : CloseCause) : KeepsBooks s (s.close cause) := by
  cases hc : s.closed_ with
  | true => exact ⟨_, _, by rw [Session.ledger, close_log, if_pos hc]; rfl⟩
  | false => exact ⟨_, _, by rw [Session.ledger, close_log, if_neg (by simp [hc])]; rfl⟩

theorem close_closes {s : Session} (h : s.ledger.closed = s.closed_) (cause : CloseCause) :
    (s.close cause).ledger.closed = (s.close cause).closed_ := by
  rw [close_closed, Session.ledger, close_log]
  cases hc : s.closed_ with
  | true => simpa [hc, Session.ledger] using h
  | false => simp [Ledger.note]

/-- The end of a body hands nothing over. -/
theorem onResponseBody_empty (w : World) (s : Session) : s.onResponseBody w {} = s := by
  unfold onResponseBody
  dsimp only
  split
  · split <;> rfl
  · next hn => exact absurd rfl hn

/-- The end of a response settles what waits, and closes a plain session. -/
theorem Booked.responseComplete {s : Session} (h : Booked s) (hh : s.hears = true) :
    Booked (((s.note (.upstreamParsed .messageComplete)).onResponseBody w {}).onResponseComplete) := by
  set s₁ := s.note (.upstreamParsed .messageComplete) with hs₁
  rw [onResponseBody_empty]
  unfold onResponseComplete
  dsimp only
  -- the note of what is inspected is not booked
  set s₂ := if s₁.payloadInspector_ ∧ s₁.responseBody_.empty = false then
      s₁.note (.inspected s₁.responseBody_.linearize s₁.currentRequest_.url) else s₁ with hs₂
  obtain ⟨log, hlog, hs₂'⟩ : ∃ log, Ledger.of log = s.ledger.upstreamParsed .messageComplete ∧
      s₂ = { s with upstreamCodec_ := s.upstreamCodec_, log := log } := by
    rw [hs₂]
    split
    · exact ⟨_, rfl, rfl⟩
    · exact ⟨_, rfl, rfl⟩
  set s₃ : Session := { s₂ with pendingBody_ := {}, responseBody_ := {} } with hs₃
  have hbooks : s₃.ledger = s.ledger.upstreamParsed .messageComplete := by
    rw [hs₃, hs₂']
    exact hlog
  have hup : BookedUp s₃ := by
    refine ⟨Buffer.proper_empty, fun hn => ?_, fun hl hr => ?_⟩
    · rw [hbooks] at hn ⊢
      rw [hs₃, hs₂']
      exact ⟨(h.up.waiting hn).1, (h.up.waiting hn).2.1, rfl⟩
    · rw [hbooks] at hl ⊢
      rw [hs₃, hs₂'] at hr ⊢
      exact ⟨(h.up.stream hl hr).1, rfl⟩
  have hp₃ : Pointers s₃ := by
    rw [hs₃, hs₂']
    exact h.pointers
  have hq₃ : Quiet w (only .upstream) s₂ s₃ := quiet_bodies s₂ {} (by simp)
  have hstream₃ : s₃.clientStream = s.clientStream := by
    rw [hs₃, hs₂']
    rfl
  have hshut₃ : s₃.ledger.closed = true → s₃.closed_ = true := by
    rw [hbooks, hs₃, hs₂']
    exact h.down.shut
  have hcalls : [Emission.body {} true, .messageComplete].flatMap (handed s.isTlsMitm_) = [] := by
    simp [handed, Buffer.linearize]
  -- what is right of the answers after the callback, for either end of it
  have hdone : ∀ s' : Session, Quiet w (only .upstream) s₂ s' → KeepsBooks s₂ s' →
      (s₂.ledger.closed = s₂.closed_ → s'.ledger.closed = s'.closed_) →
      (s'.ledger.closed = true → s'.closed_ = true) →
      (s.isTlsMitm_ = false → s'.closed_ = true) →
      (s'.ledger.finished = true → s.ledger.finished = true ∨ s.closed_ = false) →
      s'.clientStream = s.clientStream → BookedDown s' := by
    intro s' hq hk hc hc' hend hfin hst
    have hcodec : s.upstreamCodec_.handle .messageComplete =
        some (s.upstreamCodec_, [.body {} true, .messageComplete]) := rfl
    exact h.down.heard h.pointers (fun hn => ⟨(h.up.waiting hn).1, (h.up.waiting hn).2.1⟩) hh
      hcodec hlog hs₂' hq hk hc hc'
      (fun hm _ => hend hm) (fun hf => (hfin hf).imp_right fun ho => ⟨ho, rfl⟩)
      fun _ => by rw [hst, hcalls, List.append_nil]
  have hmitm₃ : s₃.isTlsMitm_ = s.isTlsMitm_ := by
    rw [hs₃, hs₂']
  have hclosed₃ : s₃.closed_ = s.closed_ := by
    rw [hs₃, hs₂']
  have hfinished₃ : s₃.ledger.finished = s.ledger.finished := by
    rw [hbooks]
    rfl
  split
  · next hm =>
    refine ⟨hp₃, hup, hdone s₃ hq₃ ⟨_, _, rfl⟩ id hshut₃ (fun hn => ?_) (fun hf => ?_) hstream₃⟩
    · exact absurd ((hmitm₃.symm.trans hm).symm.trans hn) (by decide)
    · exact .inl (hfinished₃.symm.trans hf)
  · next hm =>
    have hplain : s₃.isTlsMitm_ = false := by simpa using hm
    have hq : Quiet w noSide s₃ (s₃.close .responseComplete) := quiet_close s₃ _
    have hq' : Quiet w (only .upstream) s₃ (s₃.close .responseComplete) := quiet_close s₃ _
    refine ⟨hq.toLoose.pointers hp₃, hup.frame hp₃ hq.toLoose (close_books s₃ _) id,
      hdone _ (hq₃.trans hq') (close_books s₃ _) (fun hc => @close_closes s₃ hc .responseComplete)
        (fun _ => close_closed s₃ _) (fun _ => close_closed s₃ _) (fun hf => ?_) ?_⟩
    · cases ho : s.closed_ with
      | false => exact .inr rfl
      | true =>
        rw [Session.ledger, close_log, if_pos (hclosed₃.trans ho)] at hf
        exact .inl (hfinished₃.symm.trans hf)
    · rw [hq.toLoose.plainStream hplain id, hstream₃]

/-- The other callbacks hand nothing over. -/
theorem handed_nothing {c d : Http1Codec} {ev : ParserEvent} {calls : List Emission}
    (hb : ∀ piece, ev ≠ .body piece) (hm : ev ≠ .messageComplete)
    (hh : c.handle ev = some (d, calls)) (hr : ∀ resp, .response resp ∉ calls) (isTlsMitm : Bool) :
    calls.flatMap (handed isTlsMitm) = [] := by
  cases ev with
  | body piece => exact absurd rfl (hb piece)
  | messageComplete => exact absurd rfl hm
  | headersComplete info =>
    simp only [handle, Option.map_eq_some_iff, Prod.mk.injEq] at hh
    obtain ⟨⟨e, call⟩, hc, -, rfl⟩ := hh
    by_cases ht : c.type = .request
    · rw [onHeadersComplete_request ht] at hc
      obtain ⟨req, -, heq⟩ := Option.map_eq_some_iff.mp hc
      simp only [Prod.mk.injEq] at heq
      simp [← heq.2, handed]
    · rw [onHeadersComplete_response ht] at hc
      simp only [Option.some.injEq, Prod.mk.injEq] at hc
      exact absurd (by simp [← hc.2]) (hr (responseHead c.finishHeader.currentResponse_ info))
  | _ =>
    simp only [handle, Option.some.injEq, Prod.mk.injEq] at hh
    simp [← hh.2]

/-- A handshake that goes on keeps the books right. -/
theorem Booked.handshake {s : Session} (h : Booked s) {id : Nat} {t : TlsConnection}
    (ht : s.tls[id]? = some t) (hd : t.handshakeDone_ = false) :
    Ends (s.continueHandshake w id) Booked fun _ => True := by
  have hm : s.isTlsMitm_ = true := by
    cases hp' : h.pointers with
    | plain _ _ htls => simp [htls] at ht
    | upgrading hm => exact hm
    | intercepted hm => exact hm
  have ha := h.down.mitm hm
  obtain ⟨s', e, hp, k, hhanded⟩ := ha.handed.handshake w h.pointers ht hd
  rw [e]
  obtain ⟨notes, haside, hlog, hclosed⟩ := k.log
  have hk : KeepsBooks s s' := aside_books haside hlog
  have hlinked : s'.ledger.linked = true := hk.linked.trans ha.linked
  have hm' : s'.isTlsMitm_ = true := k.mitm.trans hm
  refine ⟨hp, h.up.shaken h.pointers hp hm k,
    ⟨fun hc => ?_, fun hn => absurd (hlinked.symm.trans hn) (by decide),
      fun hn => absurd (hm'.symm.trans hn) (by decide),
      fun hn => absurd (hm'.symm.trans hn) (by decide), fun _ => ?_⟩⟩
  · rcases closed_noted hlog hc with ⟨cause, hmem⟩ | hc₀
    · exact hclosed cause hmem
    · exact k.closed (h.down.shut hc₀)
  · refine Handed.mitm ?_ hlinked
    rw [hk.answers, hk.erred]
    exact hhanded

/-- Every effect keeps the books right, or makes a second connect or a tunnel. -/
theorem effect_accounted {s : Session} {r : Outcome} (h : Accounted s) (he : Effect w s r) :
    Ends r Accounted fun _ => True := by
  have hsteady := effect_steadily he
  rcases h with hr | ht | h
  · exact hsteady.accounted (.inl hr)
  · exact hsteady.accounted (.inr ht)
  clear hsteady
  cases he with
  | quiet hq hs => exact accounted_ok (h.quiet (hq noSide) hs)
  | clientData data _ => exact accounted_ok (h.same rfl rfl rfl rfl rfl rfl rfl rfl rfl rfl)
  | upstreamData data _ _ => exact accounted_ok (h.same rfl rfl rfl rfl rfl rfl rfl rfl rfl rfl)
  | tunnelUp c data ht hc =>
    exact .inr (.inl ((Steady.refl w s).note rfl |>.trans
      (quiet_writeUpstream (D := anySide) trivial (s := s.note (.clientData data.linearize)) hc
        data).steady |>.tunnel ht))
  | tunnelDown data ht hd =>
    exact .inr (.inl ((Steady.refl w s).note rfl |>.trans
      (quiet_writeToClient (toClient_any _) hd).steady |>.tunnel ht))
  | clientErrno errno => exact accounted_ok (h.same rfl rfl rfl rfl rfl rfl rfl rfl rfl rfl)
  | upstreamErrno errno => exact accounted_ok (h.errno errno)
  | parserThrows => trivial
  | request ev codec req hh =>
    have hb : ∀ piece, ev ≠ .body piece := by
      rintro piece rfl
      simp [handle] at hh
    have hparsed : Booked ({ s with clientCodec_ := codec }.note (.clientParsed ev)) :=
      h.same (clientParsed_books s.ledger hb) rfl rfl rfl rfl rfl rfl rfl rfl rfl
    exact onRequest_accounted hparsed req
  | requestBody piece => exact accounted_ok (h.requestBody piece)
  | clientParsed ev codec emissions hb _ _ =>
    exact accounted_ok
      (h.same (clientParsed_books s.ledger hb) rfl rfl rfl rfl rfl rfl rfl rfl rfl)
  | response ev codec resp hh hc => exact accounted_ok (h.response hh hc)
  | responseBody piece hh => exact accounted_ok (h.responseBody hh piece)
  | responseComplete hh => exact accounted_ok (h.responseComplete hh)
  | upstreamParsed ev codec emissions hh hb hm hc hr =>
    refine accounted_ok (h.heard (w := w) hh hm hc rfl rfl (.refl w _ _) (.refl _) fun _ => ?_)
    rw [handed_nothing hb hm hc hr, List.append_nil]
    rfl
  | badRequest =>
    exact accounted_ok ((h.sendError 400 _).quiet (w := w) (quiet_close _ _)
      (shuts_close _ (by decide)))
  | connected fd _ =>
    refine onUpstreamConnected_accounted ?_
    exact h.same rfl rfl rfl rfl rfl rfl rfl rfl rfl rfl
  | handshake id t ht _ hd =>
    exact Ends.mono (h.handshake ht hd) (fun _ => accounted_ok) fun _ h => h
  | destroyed => trivial

theorem start_booked (fd : Fd) (certGen payloadInspector : Bool) :
    Booked (start fd certGen payloadInspector) := by
  have hbooks : (start fd certGen payloadInspector).ledger = {} := rfl
  have hlinked : (start fd certGen payloadInspector).ledger.linked ≠ true := by simp [hbooks]
  have hclosed : (start fd certGen payloadInspector).ledger.closed ≠ true := by simp [hbooks]
  have hplain : (start fd certGen payloadInspector).isTlsMitm_ ≠ true := by simp [start]
  exact ⟨start_pointers fd certGen _, ⟨Buffer.proper_empty, fun _ => ⟨rfl, rfl, rfl⟩,
    fun hl => absurd hl hlinked⟩, ⟨fun hc => absurd hc hclosed, fun _ => rfl,
    fun _ => ⟨rfl, ⟨_, rfl, rfl, rfl⟩, fun hl => absurd hl hlinked⟩,
    fun _ => ⟨fun _ => rfl, fun _ => replays_nil, fun before after h => absurd h (by simp [hbooks]),
      fun hf => absurd hf (by simp [hbooks])⟩, fun hm => absurd hm hplain⟩⟩

/-- The books of every run are right. -/
theorem sessionRun_accounted (w : World) (fd : Fd) (certGen payloadInspector : Bool)
    (events : List SessionEvent) :
    Ends (sessionRun w (.ok (start fd certGen payloadInspector)) events) Accounted
      fun _ => True :=
  sessionRun_effects (fun _ _ => effect_accounted) (accounted_ok (start_booked fd certGen _)) events

end Session

end DeepSeer
