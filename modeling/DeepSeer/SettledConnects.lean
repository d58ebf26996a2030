import DeepSeer.SettledSessions

/-!
What settles the handlers that hand a socket on: a completed connect, the start of
an interception and the handshakes. Three things can leave a watch or a socket
behind, and the log shows each of them when it comes.
-/
namespace DeepSeer

open ByteMemory ByteText FallibleRuns KqueueLoop

/-- The request goes to a new connection: it asks for a tunnel, or the session,
which has a certificate generator or not, is not intercepted. -/
def dialled (certGen : Bool) (log : List Note) (req : HttpRequest) : Bool :=
  decide (req.method = .CONNECT) || !(certGen && tunnelled log)

/-- What can leave a watch or a socket behind: a connect that completes after an
interception has begun, a socket that replaces one whose connect is awaited, and a
request to the closed session that has to be connected. -/
def Note.strays (certGen : Bool) (log : List Note) : Note → Bool
  | .connected isTlsMitm => isTlsMitm
  | .opened _ stray => stray && !log.any Note.isClosed
  | .request req => log.any Note.isClosed && dialled certGen log req
  | _ => false

def astray (certGen : Bool) : List Note → Bool
  | [] => false
  | n :: log => n.strays certGen log || astray certGen log

theorem astray_mono {g : Bool} {log log' : List Note} (h : log <:+ log')
    (ha : astray g log = true) : astray g log' = true := by
  obtain ⟨notes, rfl⟩ := h
  induction notes with
  | nil => exact ha
  | cons n rest ih => simp [astray, ih]

theorem astray_cons {g : Bool} {n : Note} {log log' : List Note} (h : n :: log <:+ log')
    (hn : n.strays g log = true) : astray g log' = true :=
  astray_mono h (by simp [astray, hn])

namespace Session

variable {g : Bool} {s : Session} {w : World}

theorem settled_clientHandshake {id : Nat} (h : Settled g (s.handshakeStep w id).1) :
    SettledEnd g (s.clientHandshake w id) := by
  unfold clientHandshake
  split
  · next heq =>
    rw [heq] at h
    exact h
  · next heq =>
    rw [heq] at h
    exact h.onClientHandshake
  · next heq =>
    rw [heq] at h
    exact h.close _

theorem Settled.onUpstreamHandshake (h : Settled g s) (htc : s.tlsClient_ = none)
    (hostname : Bytes) : SettledEnd g (s.onUpstreamHandshake w hostname) := by
  unfold Session.onUpstreamHandshake
  split
  · split
    · trivial
    · next c hc =>
      dsimp only [Connection.releaseSocket]
      set s₁ := Session.makeTls { s with
        client_ := none
        loop_ := s.loop_.remove c.socket_
        tlsClient_ := some s.tls.length } c.socket_ true .client with hs₁
      have hhand : HandOver s s₁ c
          { socket_ := c.socket_, isServer_ := true, callback := .client } :=
        { mine := .inl hc
          loop := rfl
          tls := rfl
          socket := rfl
          opened := rfl
          left := fun d hd => hd.imp (fun hd => Option.some.inj (hd.symm.trans hc)) .inr
          back := fun d hd => .inr (hd.resolve_left fun hn => by cases hn)
          connecting := rfl
          closed := rfl }
      have hkept : Kept g s₁ := by
        refine ⟨fun id t ht hopen => ?_, h.noted, h.connect, h.cert, h.mitm, h.opens⟩
        by_cases hid : id = s.tls.length
        · exact .inl (congrArg some hid.symm)
        · have hlt : id < s.tls.length := by
            have hbound := (List.getElem?_eq_some_iff.mp ht).1
            rw [hhand.tls, List.length_append, List.length_singleton] at hbound
            omega
          rw [hhand.tls, List.getElem?_append_left hlt] at ht
          exact .inr ((h.known id t ht hopen).resolve_left fun hn => by simp [htc] at hn)
      exact settled_clientHandshake (hhand.begins h hkept)
  · exact h.close _

theorem handshakeStep_tlsClient (w : World) (s : Session) (id : Nat) :
    (s.handshakeStep w id).1.tlsClient_ = s.tlsClient_ := by
  unfold handshakeStep
  split <;> rfl

theorem settled_upstreamHandshake {id : Nat} (h : Settled g (s.handshakeStep w id).1)
    (htc : s.tlsClient_ = none) (hostname : Bytes) :
    SettledEnd g (s.upstreamHandshake w id hostname) := by
  have hkeep := (handshakeStep_tlsClient w s id).trans htc
  unfold upstreamHandshake
  split
  · next heq =>
    rw [heq] at h
    exact h
  · next heq =>
    rw [heq] at h hkeep
    exact h.onUpstreamHandshake hkeep hostname
  · next heq =>
    rw [heq] at h
    exact h.close _

/-- A handshake that is not done is either that of the upstream, before there is a
TLS client, or that of the client. -/
theorem Settled.continueHandshake (h : Settled g s) (hp : Pointers s) {id : Nat}
    {t : TlsConnection} (ht : s.tls[id]? = some t) (hd : t.handshakeDone_ = false) :
    SettledEnd g (s.continueHandshake w id) := by
  have hstep := h.handshakeStep w id
  cases hp with
  | plain _ _ htls => exact absurd ht (by simp [htls])
  | @upgrading c u hostname _ _ htls hcb _ _ htc =>
    unfold Session.continueHandshake
    split
    · exact h
    · exact settled_upstreamHandshake hstep htc _
    · exact settled_clientHandshake hstep
  | @intercepted u c _ htls hdone _ hcb =>
    match id, ht with
    | 0, ht =>
      rw [htls, List.getElem?_cons_zero, Option.some.injEq] at ht
      exact absurd (hdone.symm.trans (ht ▸ hd)) (by decide)
    | 1, ht =>
      have hclient : (s.tls[1]?.map TlsConnection.callback) = some .client := by
        simp [htls, hcb]
      simp only [Session.continueHandshake, hclient]
      exact settled_clientHandshake hstep
    | id + 2, ht => exact absurd ht (by simp [htls])

/-- The start of an interception on a session that has none. -/
theorem Settled.startTlsMitm (h : Settled g { s with isTlsMitm_ := true }) {c : Connection}
    (hc : s.client_ = some c) (ht : s.tls = []) (htc : s.tlsClient_ = none)
    (htu : s.tlsUpstream_ = none) (hostname : Bytes) :
    SettledEnd g (s.startTlsMitm w hostname) := by
  obtain ⟨s₁, e₁, q₁⟩ := writeEstablished_ok w (s := { s with isTlsMitm_ := true }) hc
  have h₁ : Settled g s₁ := by
    have hend := h.writeEstablished w
    rwa [e₁] at hend
  obtain ⟨c₁, hc₁, -⟩ := rel_forth q₁.client hc
  obtain ⟨s₂, e₂, q₂⟩ := stopClientRead_ok w hc₁
  have h₂ : Settled g s₂ := by
    have hend := h₁.stopClientRead
    rwa [e₂] at hend
  have q := q₁.toLoose.trans q₂.toLoose
  have htls : s₂.tls = [] := by
    have hflow := q.tls
    rw [show ({ s with isTlsMitm_ := true } : Session).tls = [] from ht] at hflow
    exact List.forall₂_nil_left_iff.mp hflow
  have htc₂ : s₂.tlsClient_ = none := q.tlsClient.trans htc
  have htu₂ : s₂.tlsUpstream_ = none := q.tlsUpstream.trans htu
  simp only [Session.startTlsMitm, e₁, bind, Except.bind]
  simp only [e₂]
  cases hu : s₂.upstream_ with
  | none => trivial
  | some d =>
    simp only [Connection.releaseSocket, htu₂, dropTls]
    set s₃ := Session.makeTls { s₂ with
      upstream_ := none
      loop_ := s₂.loop_.remove d.socket_
      tlsUpstream_ := some s₂.tls.length } d.socket_ false (.upstream hostname) with hs₃
    have hhand : HandOver s₂ s₃ d
        { socket_ := d.socket_, isServer_ := false, callback := .upstream hostname } :=
      { mine := .inr hu
        loop := rfl
        tls := rfl
        socket := rfl
        opened := rfl
        left := fun e he => he.elim (fun he => .inr (.inl he))
          fun he => .inl (Option.some.inj (he.symm.trans hu))
        back := fun e he => .inl (he.resolve_right fun hn => by cases hn)
        connecting := rfl
        closed := rfl }
    have hkept : Kept g s₃ := by
      refine ⟨fun id t ht hopen => ?_, h₂.noted, h₂.connect, h₂.cert, h₂.mitm, h₂.opens⟩
      have hbound := (List.getElem?_eq_some_iff.mp ht).1
      rw [hhand.tls, List.length_append, List.length_singleton, htls, List.length_nil] at hbound
      obtain rfl : id = 0 := by omega
      exact .inr (by simp [hs₃, makeTls, htls])
    exact settled_upstreamHandshake (hhand.begins h₂ hkept) htc₂ hostname

/-- No connect is awaited. -/
abbrev Unawaited (s : Session) : Prop :=
  ∀ fd e, s.loop_.fdEntries_ fd = some e → e.callback ≠ .connect

/-- The socket of a connect that is not awaited any more becomes the upstream. -/
theorem Settled.wrap (h : Settled g s) (ho : s.closed_ = false) (hfree : Unawaited s) (mitm : Bool)
    (hmitm : g = true → tunnelled (.connected s.isTlsMitm_ :: s.log) = true → mitm = true) :
    Settled g { (s.note (.connected s.isTlsMitm_)).wrapUpstream with isTlsMitm_ := mitm } := by
  set s₁ := s.note (.connected s.isTlsMitm_) with hs₁
  have h₁ : Owned s₁ := ⟨h.entries, h.sockets, h.dead⟩
  have h₂ : Owned s₁.closeUpstream := h₁.closeUpstream
  have hparts : s₁.closeUpstream.client_ = s.client_ ∧ s₁.closeUpstream.tls = s.tls ∧
      s₁.closeUpstream.tlsClient_ = s.tlsClient_ ∧
      s₁.closeUpstream.tlsUpstream_ = s.tlsUpstream_ ∧
      s₁.closeUpstream.connectingSocket_ = s.connectingSocket_ ∧
      s₁.closeUpstream.closed_ = s.closed_ ∧ s₁.closeUpstream.certGen_ = s.certGen_ ∧
      s₁.closeUpstream.isConnect_ = s.isConnect_ ∧ s₁.closeUpstream.log = s₁.log ∧
      NoNewConnects s.loop_ s₁.closeUpstream.loop_ := by
    unfold Session.closeUpstream
    split
    · exact ⟨rfl, rfl, rfl, rfl, rfl, rfl, rfl, rfl, rfl, .refl _⟩
    · next c _ => exact ⟨rfl, rfl, rfl, rfl, rfl, rfl, rfl, rfl, rfl, c.close_noNew _⟩
  obtain ⟨hclient, htls, htc, htu, hf, hcl, hcert, hconnect, hlog, hnew⟩ := hparts
  have hheld : ∀ {c fd}, s₁.closeUpstream.upstream_ = some c → c.held ≠ some fd := by
    intro c fd hc
    simp [Connection.held_closed (closeUpstream_shut hc)]
  unfold wrapUpstream
  refine ⟨⟨fun fd e he => ?_, fun fd hfd => ?_, ?_⟩, ⟨fun id t ht hopen => ?_, ?_, ?_,
    hcert.trans h.cert, ?_, ?_⟩, fun hclosed => ?_⟩
  · have howner := h₂.entries fd e he
    cases hcb : e.callback with
    | connect => exact absurd hcb (hfree fd e (hnew fd e he hcb))
    | connection id =>
      rw [hcb] at howner
      obtain ⟨c, hc | hc, hid, hfd⟩ := howner
      · exact ⟨c, .inl hc, hid, hfd⟩
      · exact absurd hfd (hheld hc)
    | tls id =>
      rw [hcb] at howner
      exact howner
  · obtain ⟨cb, howner⟩ := h₂.sockets fd hfd
    cases cb with
    | connect =>
      refine ⟨.connection (s₁.upstreams + 1), _, .inr rfl, rfl, ?_⟩
      exact congrArg some (hf.symm.trans howner.1)
    | connection id =>
      obtain ⟨c, hc | hc, hid, hfd⟩ := howner
      · exact ⟨.connection id, c, .inl hc, hid, hfd⟩
      · exact absurd hfd (hheld hc)
    | tls id => exact ⟨.tls id, howner⟩
  · rintro c (hc | hc) hclosed
    · exact h₂.dead c (.inl hc) hclosed
    · cases hc
      cases hclosed
  · exact (h.known id t (htls ▸ ht) hopen).imp htc.trans htu.trans
  · exact hcl.trans (h.noted.trans (by rw [hlog]; rfl))
  · exact hconnect.trans (h.connect.trans (by rw [hlog]; rfl))
  · intro hg ht
    rw [hlog] at ht
    exact hmitm hg ht
  · rw [hlog]
    exact h.opens
  · exact absurd (hclosed.symm.trans (hcl.trans ho)) (by decide)

/-- What is left of a run: it went astray, or the session is settled. -/
abbrev Tidy (g : Bool) (r : Outcome) : Prop :=
  Ends r (fun s => astray g s.log = true ∨ Settled g s) fun _ => True

theorem SettledEnd.tidy {r : Outcome} (h : SettledEnd g r) : Tidy g r :=
  Ends.mono h (fun _ => .inr) fun _ => id

theorem SteadyEnd.tidy {r : Outcome} {n : Note} {log : List Note} (h : SteadyEnd w s r)
    (hl : s.log = n :: log) (hn : n.strays g log = true) : Tidy g r :=
  Ends.mono h (fun _ hs => .inl (astray_cons (hl ▸ hs.log) hn)) fun _ _ => trivial

theorem Settled.startTunnel (h : Settled g s) (hfree : Unawaited s) (ho : s.closed_ = false)
    (hp : Pointers s) (hm : s.isTlsMitm_ = false) :
    SettledEnd g ((s.note (.connected s.isTlsMitm_)).wrapUpstream.startTunnel w) := by
  obtain ⟨km, kc, kt, ktc, ktu⟩ := wrapUpstream_keeps (s.note (.connected s.isTlsMitm_))
  have hcert : (s.note (.connected s.isTlsMitm_)).wrapUpstream.certGen_ = g := by
    have hsame : (s.note (.connected s.isTlsMitm_)).wrapUpstream.certGen_ = s.certGen_ := by
      unfold wrapUpstream Session.closeUpstream
      split <;> rfl
    exact hsame.trans h.cert
  unfold Session.startTunnel
  split
  · cases hp with
    | upgrading hm' => exact absurd (hm.symm.trans hm') (by decide)
    | intercepted hm' => exact absurd (hm.symm.trans hm') (by decide)
    | plain _ hc htls htc htu =>
      exact (h.wrap ho hfree true fun _ _ => rfl).startTlsMitm (kc.trans hc) (kt.trans htls)
        (ktc.trans htc) (ktu.trans htu) _
  · next hnone =>
    have hg : g = false := by simpa [hcert] using hnone
    have hwrap : Settled g (s.note (.connected s.isTlsMitm_)).wrapUpstream :=
      h.wrap ho hfree _ fun ht => absurd (hg.symm.trans ht) (by decide)
    have hflag : Settled g { (s.note (.connected s.isTlsMitm_)).wrapUpstream with
        isTunnel_ := true } := hwrap.aside _ _ _ _ _ _ _ _
    exact (hflag.writeEstablished w).bind fun _ h => h.setupUpstreamCallbacks.bind fun _ h =>
      h.startUpstreamRead

theorem Settled.onUpstreamConnected (h : Settled g s) (hfree : Unawaited s) (hp : Pointers s) :
    Tidy g (s.onUpstreamConnected w) := by
  have hlog : (s.note (.connected s.isTlsMitm_)).wrapUpstream.log =
      .connected s.isTlsMitm_ :: s.log := by
    unfold wrapUpstream Session.closeUpstream
    split <;> rfl
  have hconnect : (s.note (.connected s.isTlsMitm_)).wrapUpstream.isConnect_ = s.isConnect_ := by
    unfold wrapUpstream Session.closeUpstream
    split <;> rfl
  obtain ⟨km, -⟩ := wrapUpstream_keeps (s.note (.connected s.isTlsMitm_))
  unfold Session.onUpstreamConnected
  cases ho : s.closed_ with
  | true => exact .inr h
  | false =>
    simp only [Bool.false_eq_true, if_false]
    cases hm : s.isTlsMitm_ with
    | true =>
      rw [hm] at hlog
      split
      · exact (steadily_startTunnel w _).ends.tidy hlog rfl
      · exact (steadily_forwardRequest w _).ends.tidy hlog rfl
    | false =>
      rw [← hm]
      split
      · exact (h.startTunnel hfree ho hp hm).tidy
      · next hplain =>
        have hasks : s.log.any Note.asksTunnel = false := by
          rw [← h.connect, ← hconnect]
          simpa using hplain
        have hwrap : Settled g (s.note (.connected s.isTlsMitm_)).wrapUpstream :=
          h.wrap ho hfree _ fun hg ht =>
            km.trans (h.mitm hg (by simpa [tunnelled, hasks] using ht))
        exact (Settled.forwardRequest w hwrap).tidy

end Session

end DeepSeer
