import DeepSeer.Exchanges
import Mathlib.Data.List.TakeWhile

/-!
A session whose only request is a CONNECT that it does not intercept. Until the
connect completes, what the client sends goes to the parser; from then on it
goes to the upstream as it is, and what the upstream sends goes to the client.
-/
namespace DeepSeer

open ByteMemory ByteText FallibleRuns KqueueLoop

namespace Note

/-- The bytes of the client that a note brings. -/
def sent : Note → Bytes
  | .clientData data => data
  | _ => []

/-- The bytes of the upstream that a note brings. -/
def returned : Note → Bytes
  | .upstreamData data => data
  | _ => []

end Note

/-- What the client has sent. -/
def clientBytes (log : List Note) : Bytes := log.reverse.flatMap Note.sent

/-- What the upstreams have sent. -/
def upstreamBytes (log : List Note) : Bytes := log.reverse.flatMap Note.returned

/-- What the client has sent before the first connect completed. -/
def early (log : List Note) : Bytes :=
  (log.reverse.takeWhile fun n => !n.isConnected).flatMap Note.sent

/-- What the client has sent since then. -/
def late (log : List Note) : Bytes :=
  (log.reverse.dropWhile fun n => !n.isConnected).flatMap Note.sent

theorem early_append_late (log : List Note) : early log ++ late log = clientBytes log := by
  rw [early, late, ← List.flatMap_append, List.takeWhile_append_dropWhile, clientBytes]

@[simp] theorem upstreamBytes_cons (n : Note) (log : List Note) :
    upstreamBytes (n :: log) = upstreamBytes log ++ n.returned := by
  simp [upstreamBytes]

theorem connected_reverse (log : List Note) :
    (log.reverse.dropWhile fun n => !n.isConnected).isEmpty = !log.any Note.isConnected := by
  rw [Bool.eq_iff_iff]
  simp [List.dropWhile_eq_nil_iff]

theorem late_cons {log : List Note} (h : log.any Note.isConnected = true) (n : Note) :
    late (n :: log) = late log ++ n.sent := by
  have hne := connected_reverse log
  rw [h] at hne
  rw [late, List.reverse_cons, List.dropWhile_append, hne]
  simp [late]

theorem late_connected {log : List Note} (h : log.any Note.isConnected = false)
    (isTlsMitm : Bool) : late (.connected isTlsMitm :: log) = [] := by
  have he := connected_reverse log
  rw [h] at he
  rw [late, List.reverse_cons, List.dropWhile_append, he]
  simp [Note.isConnected, Note.sent]

/-- No request but one CONNECT has come, and nothing of a body. -/
structure LoneConnect (log : List Note) : Prop where
  single : (requests log).length ≤ 1
  connect : ∀ req ∈ requests log, req.method = .CONNECT
  bare : chunks log = []

theorem LoneConnect.suffix {log log' : List Note} (h : LoneConnect log') (hs : log <:+ log') :
    LoneConnect log := by
  have hreq : (requests log).Sublist (requests log') := hs.sublist.filterMap _
  refine ⟨hreq.length_le.trans h.single, fun req hm => h.connect req (hreq.subset hm), ?_⟩
  obtain ⟨notes, rfl⟩ := hs
  have hbare := h.bare
  rw [chunks, List.reverse_append, List.flatMap_append, List.append_eq_nil_iff] at hbare
  exact hbare.1

namespace Session

variable {w : World} {D : Side → Prop}

/-- An open session that has neither an upstream nor a tunnel. -/
structure Waiting (s : Session) : Prop where
  live : s.closed_ = false
  certGen : s.certGen_ = false
  mitm : s.isTlsMitm_ = false
  tunnel : s.isTunnel_ = false
  unlinked : s.log.any Note.isConnected = false
  silent : upstreamBytes s.log = []

/-- An open session that passes the data of both sides on. -/
structure Piped (s : Session) : Prop where
  live : s.closed_ = false
  mitm : s.isTlsMitm_ = false
  tunnel : s.isTunnel_ = true
  tls : s.tls = []
  free : NoConnects s.loop_
  client : ∃ c, s.client_ = some c ∧ c.wired = true ∧ c.closed_ = false
  upstream : ∃ c, s.upstream_ = some c ∧ c.wired = true ∧ c.closed_ = false
  asked : requests s.log ≠ []
  linked : s.log.any Note.isConnected = true

/-- A tunnel that has passed on all that it was sent. -/
structure Tunnel (s : Session) : Prop extends Piped s where
  up : s.upstreamStream = late s.log
  down : s.clientStream = established ++ upstreamBytes s.log

/-- The stages of a session whose only request is a CONNECT. -/
inductive TunnelStage (s : Session) : Prop
  | idle (h : Waiting s) (free : NoConnects s.loop_)
      (fresh : requests s.log = [] → s.ledger.erred = false) : TunnelStage s
  | asked (h : Waiting s) (one : OneConnect s.loop_) (connect : s.isConnect_ = true)
      (request : requests s.log ≠ []) (clean : s.ledger.erred = false) : TunnelStage s
  | tunnel (h : Tunnel s) : TunnelStage s
  | closed (h : s.closed_ = true) : TunnelStage s

theorem Waiting.ledger {s : Session} (h : Waiting s) :
    s.ledger.linked = false ∧ s.ledger.redialed = false := by
  have hzero : s.log.countP Note.isConnected = 0 := by
    rw [List.countP_eq_zero]
    intro n hn hc
    exact absurd h.unlinked (by simpa using ⟨n, hn, hc⟩)
  obtain ⟨hl, hr⟩ := ledger_connects s.log
  rw [hzero] at hl hr
  exact ⟨hl, hr⟩

theorem Waiting.booked {s : Session} (h : Waiting s) (ha : Accounted s) : Booked s := by
  rcases ha with hr | ht | hb
  · exact absurd (h.ledger.2.symm.trans hr) (by decide)
  · exact absurd (h.tunnel.symm.trans ht) (by decide)
  · exact hb

theorem Waiting.deaf {s : Session} (h : Waiting s) (hb : Booked s) : s.hears = false :=
  unlinked_deaf hb.pointers h.mitm (hb.up.waiting h.ledger.1).1

theorem Waiting.note {s : Session} (h : Waiting s) {n : Note} (hn : n.isConnected = false)
    (hr : n.returned = []) : Waiting (s.note n) :=
  ⟨h.live, h.certGen, h.mitm, h.tunnel, by simp [hn, h.unlinked], by simp [hr, h.silent]⟩

theorem Loose.certGen {s s' : Session} (h : Loose w D s s') : s'.certGen_ = s.certGen_ := by
  have hs : s'.still.certGen_ = s.still.certGen_ := by rw [h.still]
  exact hs

/-- Moving data and closing leave the session waiting, unless it closes. -/
theorem Waiting.moves {s s' : Session} (h : Waiting s) (hl : Loose w D s s') (hs : Shuts s s') :
    s'.closed_ = true ∨ s'.log = s.log ∧ Waiting s' := by
  cases hs with
  | kept hlog hc =>
    exact .inr ⟨hlog, hc.trans h.live, hl.certGen.trans h.certGen, hl.isTlsMitm.trans h.mitm,
      hl.isTunnel.trans h.tunnel, by rw [hlog]; exact h.unlinked, by rw [hlog]; exact h.silent⟩
  | shut _ _ _ hc => exact .inl hc

theorem TunnelStage.idle_moves {s s' : Session} (h : Waiting s) (free : NoConnects s.loop_)
    (fresh : requests s.log = [] → s.ledger.erred = false) (hl : Loose w D s s')
    (hs : Shuts s s') : TunnelStage s' := by
  rcases h.moves hl hs with hc | ⟨hlog, hw⟩
  · exact .closed hc
  · refine .idle hw (free.mono hl.connects) ?_
    rw [ledger, hlog]
    exact fresh

theorem TunnelStage.asked_moves {s s' : Session} (h : Waiting s) (one : OneConnect s.loop_)
    (connect : s.isConnect_ = true) (request : requests s.log ≠ []) (clean : s.ledger.erred = false)
    (hl : Loose w D s s') (hs : Shuts s s') : TunnelStage s' := by
  rcases h.moves hl hs with hc | ⟨hlog, hw⟩
  · exact .closed hc
  · refine .asked hw (one.mono hl.connects) (hl.isConnect.trans connect) ?_ ?_
    · rw [hlog]
      exact request
    · rw [ledger, hlog]
      exact clean

theorem Piped.reaches {s : Session} (h : Piped s) :
    s.reachesClient = true ∧ s.reachesUpstream = true := by
  obtain ⟨c, hc, -, ho⟩ := h.client
  obtain ⟨u, hu, -, ho'⟩ := h.upstream
  exact ⟨(reachesClient_plain (.inl h.mitm)).mpr ⟨c, hc, ho⟩,
    (reachesUpstream_plain (.inl h.mitm)).mpr ⟨u, hu, ho'⟩⟩

theorem Piped.note {s : Session} (h : Piped s) (n : Note) : Piped (s.note n) := by
  refine ⟨h.live, h.mitm, h.tunnel, h.tls, h.free, h.client, h.upstream, ?_, ?_⟩
  · rw [note_log, requests_cons]
    exact List.append_ne_nil_of_right_ne_nil _ h.asked
  · rw [note_log, List.any_cons, h.linked, Bool.or_true]

/-- Moving data and closing leave both connections of a tunnel in place, unless
the session closes. -/
theorem Piped.moves {s s' : Session} (h : Piped s) (hq : Quiet w D s s') (hs : Shuts s s') :
    s'.closed_ = true ∨ s'.log = s.log ∧ Piped s' := by
  cases hs with
  | shut _ _ _ hc => exact .inl hc
  | kept hlog hc =>
    have ho : s'.closed_ = false := hc.trans h.live
    obtain ⟨c, hcl, hw, hco⟩ := h.client
    obtain ⟨c', hcl', -⟩ := rel_forth hq.client hcl
    obtain ⟨u, hu, hwu, huo⟩ := h.upstream
    obtain ⟨u', hu', -⟩ := rel_forth hq.upstream hu
    have hclient : Open s.client_ := fun d hd => by
      cases hcl.symm.trans hd
      exact ⟨hw, hco⟩
    have hupstream : Open s.upstream_ := fun d hd => by
      cases hu.symm.trans hd
      exact ⟨hwu, huo⟩
    have htls := hq.tls
    rw [h.tls] at htls
    exact .inr ⟨hlog, ho, hq.isTlsMitm.trans h.mitm, hq.isTunnel.trans h.tunnel,
      List.forall₂_nil_left_iff.mp htls, h.free.mono hq.connects,
      ⟨c', hcl', hq.clientOpen ho hclient c' hcl'⟩,
      ⟨u', hu', hq.upstreamOpen ho hupstream u' hu'⟩, by rw [hlog]; exact h.asked,
      by rw [hlog]; exact h.linked⟩

/-- What writes to neither side leaves a tunnel as it is. -/
theorem Tunnel.moves {s s' : Session} (h : Tunnel s) (hq : Quiet w noSide s s')
    (hs : Shuts s s') : TunnelStage s' := by
  rcases h.toPiped.moves hq hs with hc | ⟨hlog, hp⟩
  · exact .closed hc
  · refine .tunnel ⟨hp, ?_, ?_⟩
    · rw [hq.toLoose.upstreamStream id fun _ _ _ _ hD => hD, hlog]
      exact h.up
    · rw [hq.toLoose.plainStream h.mitm id, hlog]
      exact h.down

theorem Tunnel.note {s : Session} (h : Tunnel s) {n : Note} (hs : n.sent = [])
    (hr : n.returned = []) : Tunnel (s.note n) := by
  refine ⟨h.toPiped.note n, ?_, ?_⟩
  · rw [note_log, late_cons h.linked, hs, List.append_nil]
    exact h.up
  · rw [note_log, upstreamBytes_cons, hr, List.append_nil]
    exact h.down

/-- Data of the client goes to the upstream of a tunnel. -/
theorem Tunnel.sends {s : Session} (h : Tunnel s) {c : Connection} (hc : s.upstream_ = some c)
    (data : Buffer) :
    TunnelStage ((s.note (.clientData data.linearize)).writeUpstream w c data).1 := by
  set s₁ := s.note (.clientData data.linearize) with hs₁
  have hp : Piped s₁ := h.toPiped.note _
  have hwrite : s₁.writeToUpstream w data = s₁.writeUpstream w c data := by
    obtain ⟨d, hd, -, ho⟩ := hp.upstream
    cases hd.symm.trans hc
    simp [writeToUpstream, hp.mitm, hd, Connection.connected, ho]
  have hq : Quiet w (only .upstream) s₁ (s₁.writeUpstream w c data).1 :=
    quiet_writeUpstream (D := only .upstream) (s := s₁) rfl hc data
  rcases hp.moves hq (shuts_writeUpstream w s₁ c data) with hcl | ⟨hlog, hp'⟩
  · exact .closed hcl
  · refine .tunnel ⟨hp', ?_, ?_⟩
    · rw [← hwrite, writeToUpstream_stream w hp.reaches.2, hwrite, hlog, note_log,
        late_cons h.linked]
      exact congrArg (· ++ data.linearize) h.up
    · rw [hq.toLoose.plainStream hp.mitm (by simp), hlog, note_log, upstreamBytes_cons]
      exact h.down.trans (by simp [Note.returned])

/-- Data of the upstream goes to the client of a tunnel. -/
theorem Tunnel.returns {s : Session} (h : Tunnel s) {data : Buffer} (hd : data.Proper) :
    TunnelStage ((s.note (.upstreamData data.linearize)).writeToClient w data).1 := by
  set s₁ := s.note (.upstreamData data.linearize) with hs₁
  have hp : Piped s₁ := h.toPiped.note _
  have hq : Quiet w (only .client) s₁ (s₁.writeToClient w data).1 := by
    refine quiet_writeToClient (D := only .client) (s := s₁) ⟨rfl, fun id t _ ht => ?_⟩ hd
    exact absurd ht (by simp [hp.tls])
  rcases hp.moves hq (shuts_writeToClient w s₁ data) with hcl | ⟨hlog, hp'⟩
  · exact .closed hcl
  · refine .tunnel ⟨hp', ?_, ?_⟩
    · have hstream := hq.toLoose.upstreamStream (by simp) fun id t _ ht =>
        absurd ht (by simp [hp.tls])
      rw [hstream, hlog, note_log, late_cons h.linked]
      exact h.up.trans (by simp [Note.sent])
    · rw [writeToClient_stream w hp.reaches.1, hlog, note_log, upstreamBytes_cons]
      exact (congrArg (· ++ data.linearize) h.down).trans (by simp [Note.returned])

/-- An open client takes the 200 line, unless the session closes over it. -/
theorem writeEstablished_spec (w : World) {s : Session} {c : Connection}
    (hc : s.client_ = some c) (hw : c.wired = true) (ho : c.closed_ = false) :
    ∃ s', s.writeEstablished w = .ok s' ∧ (s'.closed_ = true ∨
      ∃ c' loop, s' = { s with client_ := some c', loop_ := loop } ∧
        c'.wired = true ∧ c'.closed_ = false ∧ c'.written = c.written ++ established ∧
        NoNewConnects s.loop_ loop) := by
  have hl := c.writeText_noNew w.clientSend established s.loop_
  have hlink : (c.writeText w.clientSend established s.loop_).1.wired = true ∧
      (c.writeText w.clientSend established s.loop_).1.closed_ = false ∧
      (c.writeText w.clientSend established s.loop_).1.written = c.written ++ established := by
    rw [Connection.writeText, if_neg (by simp [ho])]
    have hsame := Connection.flushNow_link w.clientSend { c with
      writeBuf_ := c.writeBuf_.add established, written := c.written ++ established } s.loop_
    exact ⟨hsame.wired.trans hw, hsame.closed.trans ho, hsame.written⟩
  simp only [writeEstablished, hc]
  revert hlink hl
  obtain ⟨c', loop, flushed⟩ := c.writeText w.clientSend established s.loop_
  rintro hl ⟨hw', ho', hwritten⟩
  refine ⟨_, rfl, ?_⟩
  cases flushed with
  | settled => exact .inr ⟨c', loop, rfl, hw', ho', hwritten, hl⟩
  | failed =>
    have hw'' : c'.wired = true := hw'
    simp only [afterClientFlush, hw'', if_true, closeClient_closed, close_closed]
    exact .inl trivial

theorem startRead_written (c : Connection) (loop : KqueueLoop) :
    (c.startRead loop).1.written = c.written := by
  unfold Connection.startRead
  split <;> rfl

/-- A session that is not intercepted has no TLS connection. -/
theorem Pointers.tls_nil {s : Session} (h : Pointers s) (hm : s.isTlsMitm_ = false) :
    s.tls = [] := by
  cases h with
  | plain _ _ htls => exact htls
  | upgrading hm' => exact absurd (hm.symm.trans hm') (by decide)
  | intercepted hm' => exact absurd (hm.symm.trans hm') (by decide)

/-- The connect of the only request starts its tunnel. -/
theorem Waiting.connected {s : Session} (h : Waiting s) (ha : Accounted s)
    (free : NoConnects s.loop_) (connect : s.isConnect_ = true) (request : requests s.log ≠ [])
    (clean : s.ledger.erred = false) : Ends (s.onUpstreamConnected w) TunnelStage fun _ => True := by
  have hb := h.booked ha
  have hu := (hb.up.waiting h.ledger.1).1
  obtain ⟨c, hc, hw, ho⟩ := (hb.down.attached h.mitm).client
  have hempty : s.clientStream = [] := by
    rw [(hb.down.plain h.mitm).client clean, hb.down.unanswered h.ledger.1]
    rfl
  have htls : s.tls = [] := hb.pointers.tls_nil h.mitm
  rw [clientStream_plain (.inl h.mitm), hc] at hempty
  have hwrap := wrapUpstream_none (s := s.note (.connected s.isTlsMitm_)) hu
  set d : Connection := { id := s.upstreams + 1, socket_ := s.connectingSocket_ } with hd
  set s₁ : Session := { s with
    log := .connected s.isTlsMitm_ :: s.log, upstream_ := some d
    connectingSocket_ := kInvalidFd, upstreams := s.upstreams + 1, isTunnel_ := true } with hs₁
  have hstart : s.onUpstreamConnected w = (do
      let s ← s₁.writeEstablished w
      let s ← s.setupUpstreamCallbacks
      s.startUpstreamRead) := by
    have hcon : (s.note (.connected s.isTlsMitm_)).isConnect_ = true := connect
    have hcert : (s.note (.connected s.isTlsMitm_)).certGen_ = false := h.certGen
    simp only [onUpstreamConnected, h.live, Bool.false_eq_true, if_false]
    rw [hwrap, if_pos hcon, startTunnel, if_neg (by simp [hcert])]
    rfl
  obtain ⟨s₂, e₂, h₂⟩ := writeEstablished_spec w (s := s₁) hc hw (ho.trans h.live)
  rw [hstart, e₂]
  rcases h₂ with hcl | ⟨c', loop, rfl, hw', ho', hwritten, hloop⟩
  · refine Ends.mono (((steadily_setupUpstreamCallbacks w s₂).bind
      (steadily_startUpstreamRead w)).ends) (fun s₃ hs => .closed (hs.closed hcl)) fun _ _ => trivial
  · set d' : Connection := { d with wired := true } with hd'
    set s₃ : Session := { s₁ with
      client_ := some c', upstream_ := some (d'.startRead loop).1
      loop_ := (d'.startRead loop).2 } with hs₃
    have hup : s₃.upstreamStream = (d'.startRead loop).1.written :=
      upstreamStream_plain (s := s₃) (.inl h.mitm)
    have hdown : s₃.clientStream = c'.written := clientStream_plain (s := s₃) (.inl h.mitm)
    have htunnel : Tunnel s₃ := by
      refine ⟨⟨h.live, h.mitm, rfl, htls, free.mono (hloop.trans (d'.startRead_noNew loop)),
        ⟨c', rfl, hw', ho'⟩, ⟨(d'.startRead loop).1, rfl, d'.startRead_wired loop,
          d'.startRead_closed loop⟩, ?_, rfl⟩, ?_, ?_⟩
      · simpa [hs₃, hs₁, Note.req] using request
      · rw [hup, startRead_written]
        exact (late_connected h.unlinked _).symm
      · have hsilent : upstreamBytes s₃.log = [] := by simp [hs₃, hs₁, Note.returned, h.silent]
        rw [hdown, hwritten, hsilent, List.append_nil]
        exact (congrArg (· ++ established) hempty).trans (List.nil_append _)
    exact TunnelStage.tunnel htunnel

/-- The proxy's own answer to the CONNECT. -/
theorem Waiting.refuse {s : Session} (h : Waiting s) (free : NoConnects s.loop_)
    (request : requests s.log ≠ []) (status : Nat) (reason : Bytes) :
    TunnelStage (s.sendError w status reason) := by
  have hsent : ∀ s' : Session, Waiting s' → NoConnects s'.loop_ → requests s'.log ≠ [] →
      TunnelStage (s'.writeToClient w
        (Http1Codec.encodeResponse (errorResponse status reason) {})).1 := fun s' hs hfree hne =>
    .idle_moves hs hfree (fun he => absurd he hne)
      (quiet_writeToClient (w := w) (toClient_any s')
        (Http1Codec.encodeResponse_proper (errorResponse status reason)).1).toLoose
      (shuts_writeToClient w s' _)
  unfold sendError answer
  dsimp only
  split
  · exact hsent _ (h.note (n := .error status) rfl rfl) free (by simpa [Note.req] using request)
  · exact hsent _ h free request

/-- The connect of the CONNECT is made. -/
theorem Waiting.connect {s : Session} (h : Waiting s) (hb : Booked s) (free : NoConnects s.loop_)
    (connect : s.isConnect_ = true) (request : requests s.log ≠ [])
    (clean : s.ledger.erred = false) (host : Bytes) (port : Nat) :
    Ends (s.connectUpstream w host port) TunnelStage fun _ => True := by
  unfold connectUpstream
  split
  · trivial
  · have hcount : Waiting { s with sockets := s.sockets + 1 } :=
      ⟨h.live, h.certGen, h.mitm, h.tunnel, h.unlinked, h.silent⟩
    dsimp only
    split
    · exact hcount.refuse free request 502 _
    · next fd _ =>
      set s₁ := replaceConnecting { s with sockets := s.sockets + 1 } fd with hs₁
      have hnote := hcount.note (n := .opened fd (stray { s with sockets := s.sockets + 1 })) rfl rfl
      have hnew : Waiting s₁ :=
        ⟨h.live, h.certGen, h.mitm, h.tunnel, hnote.unlinked, hnote.silent⟩
      have hfree : NoConnects s₁.loop_ := by
        refine free.mono ?_
        simp only [hs₁, replaceConnecting]
        split
        · exact openFd_noNew _ fd
        · exact (closeFd_noNew _ _).trans (openFd_noNew _ fd)
      have hb₁ : Booked s₁ := hb.same rfl rfl rfl rfl rfl rfl rfl rfl rfl rfl
      have hreq : requests s₁.log ≠ [] := by
        simpa [hs₁, replaceConnecting, Note.req] using request
      split
      · exact hnew.refuse hfree hreq 502 _
      · exact hnew.connected (accounted_ok hb₁) hfree connect hreq clean
      · exact TunnelStage.asked ⟨h.live, h.certGen, h.mitm, h.tunnel, hnew.unlinked, hnew.silent⟩
          (.watch hfree fd _) connect hreq clean

/-- The first request of the session is its CONNECT. -/
theorem Waiting.request {s : Session} (h : Waiting s) (hb : Booked s) (free : NoConnects s.loop_)
    (clean : s.ledger.erred = false) {req : HttpRequest} (hc : req.method = .CONNECT) :
    Ends (s.onRequest w req) TunnelStage fun _ => True := by
  unfold onRequest handleConnect
  simp only [hc, if_true]
  cases ht : connectTarget req.url with
  | none => trivial
  | some target =>
    have hnote := h.note (n := .request req) rfl rfl
    set s₁ : Session := { s.note (.request req) with
      currentRequest_ := req, isConnect_ := true, connectHostname_ := target.1 } with hs₁
    have hw : Waiting s₁ :=
      ⟨h.live, h.certGen, h.mitm, h.tunnel, hnote.unlinked, hnote.silent⟩
    exact hw.connect (hb.same rfl rfl rfl rfl rfl rfl rfl rfl rfl rfl) free rfl
      (by simp [hs₁, Note.req]) clean target.1 target.2

/-- A session that waits, with what else its stage says, after a note. -/
theorem TunnelStage.note {s : Session} (h : TunnelStage s) {n : Note} (hn : n.isConnected = false)
    (hr : n.returned = []) (hs : n.sent = [] ∨ s.isTunnel_ = false) (hq : n.req = none)
    (he : (s.ledger.note n).erred = s.ledger.erred) : TunnelStage (s.note n) := by
  have hreq : requests (s.note n).log = requests s.log := by simp [hq]
  cases h with
  | idle hw free fresh =>
    exact .idle (hw.note hn hr) free fun hnil => he.trans (fresh (hreq.symm.trans hnil))
  | asked hw one connect request clean =>
    exact .asked (hw.note hn hr) one connect (hreq ▸ request) (he.trans clean)
  | tunnel ht =>
    exact .tunnel (ht.note (hs.resolve_right fun hf => absurd (hf.symm.trans ht.tunnel) (by decide))
      hr)
  | closed hc => exact .closed hc

/-- A change of nothing that the stages speak of. -/
theorem TunnelStage.same {s s' : Session} (h : TunnelStage s) (hq : Quiet w noSide s s')
    (hs : Shuts s s') : TunnelStage s' := by
  cases h with
  | idle hw free fresh => exact .idle_moves hw free fresh hq.toLoose hs
  | asked hw one connect request clean =>
    exact .asked_moves hw one connect request clean hq.toLoose hs
  | tunnel ht => exact ht.moves hq hs
  | closed hc => exact .closed (hq.closed hc)

/-- The parsers have no part in the stages. -/
theorem TunnelStage.codecs {s : Session} (h : TunnelStage s) (client upstream : Http1Codec) :
    TunnelStage { s with clientCodec_ := client, upstreamCodec_ := upstream } := by
  have hw : Waiting s → Waiting { s with clientCodec_ := client, upstreamCodec_ := upstream } :=
    fun hw => ⟨hw.live, hw.certGen, hw.mitm, hw.tunnel, hw.unlinked, hw.silent⟩
  cases h with
  | idle h free fresh => exact .idle (hw h) free fresh
  | asked h one connect request clean => exact .asked (hw h) one connect request clean
  | tunnel h =>
    exact .tunnel ⟨⟨h.live, h.mitm, h.tunnel, h.tls, h.free, h.client, h.upstream, h.asked,
      h.linked⟩, h.up, h.down⟩
  | closed h => exact .closed h

/-- The CONNECT that is the only request. -/
theorem TunnelStage.request {s : Session} (ha : Accounted s) (hst : TunnelStage s)
    (hc : ¬ s.closed_ = true) {ev : ParserEvent} {codec : Http1Codec} {req : HttpRequest}
    (hh : s.clientCodec_.handle ev = some (codec, [.request req])) :
    Ends (({ s with clientCodec_ := codec }.note (.clientParsed ev)).onRequest w req)
      (fun s' => LoneConnect s'.log → TunnelStage s') fun _ => True := by
  have hbody : ∀ piece, ev ≠ .body piece := by
    rintro piece rfl
    simp [Http1Codec.handle] at hh
  set s₁ := { s with clientCodec_ := codec }.note (.clientParsed ev) with hs₁
  by_cases hone : LoneConnect (s₁.note (.request req)).log
  case neg =>
    exact Ends.mono (steadyEnd_onRequest w s₁ req)
      (fun s' hs hl' => absurd (hl'.suffix hs.log) hone) fun _ _ => trivial
  have hnone : requests s.log = [] := by
    have hlen := hone.single
    simp only [hs₁, note_log, requests_cons, Note.req, Option.toList_some, Option.toList_none,
      List.nil_append, List.cons_append, List.length_cons] at hlen
    exact List.eq_nil_of_length_eq_zero (by omega)
  have hconnect : req.method = .CONNECT := hone.connect req (by simp [Note.req])
  have hb₁ : Booked s → Booked s₁ := fun hb =>
    hb.same (clientParsed_books s.ledger hbody) rfl rfl rfl rfl rfl rfl rfl rfl rfl
  cases hst with
  | idle hw free fresh =>
    have hnote := hw.note (n := .clientParsed ev) rfl rfl
    have hw₁ : Waiting s₁ :=
      ⟨hw.live, hw.certGen, hw.mitm, hw.tunnel, hnote.unlinked, hnote.silent⟩
    have hclean : s₁.ledger.erred = false :=
      (congrArg Ledger.erred (clientParsed_books s.ledger hbody)).trans (fresh hnone)
    exact Ends.mono (hw₁.request (hb₁ (hw.booked ha)) free hclean hconnect)
      (fun s' hs _ => hs) fun _ => id
  | asked _ _ _ request => exact absurd hnone request
  | tunnel ht => exact absurd hnone ht.asked
  | closed hcl => exact absurd hcl hc

/-- A CONNECT brings no body data. -/
theorem TunnelStage.requestBody {s : Session} (hst : TunnelStage s) (piece : Bytes)
    (hl' : LoneConnect ((s.note (.clientParsed (.body piece))).onRequestBody w
      (({} : Buffer).add piece)).log) :
    TunnelStage ((s.note (.clientParsed (.body piece))).onRequestBody w
      (({} : Buffer).add piece)) := by
  set s₁ := s.note (.clientParsed (.body piece)) with hs₁
  have hsteady : Steady w s₁ (s₁.onRequestBody w (({} : Buffer).add piece)) :=
    (quiet_onRequestBody (toUpstream_any _) _).steady
  have hnil : piece = [] := by
    have hbare := (hl'.suffix hsteady.log).bare
    rw [hs₁, note_log, chunks_cons, List.append_eq_nil_iff] at hbare
    exact hbare.2
  have hsame : s₁.onRequestBody w (({} : Buffer).add piece) = s₁ := by
    obtain ⟨hp, hcontent⟩ := pieceBuffer piece
    rw [onRequestBody, if_pos ((Buffer.empty_iff hp.represents).mpr (hcontent.trans hnil))]
  rw [hsame]
  exact hst.note rfl rfl (.inl rfl) rfl (by simp [Ledger.note, Ledger.requestBody, hnil])

/-- Every effect leads on through the stages, as long as the CONNECT stays the
only request. -/
theorem effect_tunnel {s : Session} {r : Outcome} (ha : Accounted s)
    (h : LoneConnect s.log → TunnelStage s) (he : Effect w s r) :
    Ends r (fun s' => LoneConnect s'.log → TunnelStage s') fun _ => True := by
  have hsteady := effect_steadily he
  by_cases hl : LoneConnect s.log
  case neg =>
    exact Ends.mono hsteady (fun s' hs hl' => absurd (hl'.suffix hs.log) hl) fun _ _ => trivial
  have hst := h hl
  by_cases hc : s.closed_ = true
  case pos =>
    exact Ends.mono hsteady (fun s' hs _ => .closed (hs.closed hc)) fun _ _ => trivial
  clear hsteady
  have hdeaf : s.hears = false := by
    cases hst with
    | idle hw => exact hw.deaf (hw.booked ha)
    | asked hw => exact hw.deaf (hw.booked ha)
    | tunnel ht => simp [hears, ht.tunnel, ht.tls]
    | closed hcl => exact absurd hcl hc
  have hnever : ∀ {P : Prop}, s.hears = true → P := fun hh =>
    absurd (hdeaf.symm.trans hh) (by decide)
  cases he with
  | quiet hq hs => exact fun _ => hst.same (hq noSide) hs
  | clientData data hd =>
    refine fun _ => hst.note rfl rfl (hd.elim .inr fun hu => ?_) rfl rfl
    cases hst with
    | idle hw => exact .inr hw.tunnel
    | asked hw => exact .inr hw.tunnel
    | tunnel ht =>
      obtain ⟨c, hcu, -⟩ := ht.upstream
      exact absurd (hu.symm.trans hcu) (by simp)
    | closed hcl => exact absurd hcl hc
  | upstreamData data hh _ => exact hnever hh
  | tunnelUp c data ht hu =>
    intro _
    cases hst with
    | idle hw => exact absurd (hw.tunnel.symm.trans ht) (by decide)
    | asked hw => exact absurd (hw.tunnel.symm.trans ht) (by decide)
    | tunnel hp => exact hp.sends hu data
    | closed hcl => exact absurd hcl hc
  | tunnelDown data ht hd =>
    intro _
    cases hst with
    | idle hw => exact absurd (hw.tunnel.symm.trans ht) (by decide)
    | asked hw => exact absurd (hw.tunnel.symm.trans ht) (by decide)
    | tunnel hp => exact hp.returns hd
    | closed hcl => exact absurd hcl hc
  | clientErrno errno => exact fun _ => hst.codecs { s.clientCodec_ with errno := errno } _
  | upstreamErrno errno => exact fun _ => hst.codecs _ { s.upstreamCodec_ with errno := errno }
  | parserThrows => trivial
  | request ev codec req hh => exact hst.request ha hc hh
  | requestBody piece => exact hst.requestBody piece
  | clientParsed ev codec emissions hb hh hr =>
    exact fun _ => (hst.codecs codec _).note rfl rfl (.inl rfl) rfl
      (congrArg Ledger.erred (clientParsed_books s.ledger hb))
  | response ev codec resp hh _ => exact hnever hh
  | responseBody piece hh => exact hnever hh
  | responseComplete hh => exact hnever hh
  | upstreamParsed ev codec emissions hh _ _ _ _ => exact hnever hh
  | badRequest => exact fun _ => .closed (close_closed _ _)
  | connected fd hfd =>
    obtain ⟨e, hfde, hcb⟩ := Option.map_eq_some_iff.mp hfd
    cases hst with
    | idle hw free => exact absurd hcb (free fd e hfde)
    | asked hw one connect request clean =>
      set s₁ : Session := { s with loop_ := s.loop_.remove fd } with hs₁
      have hw₁ : Waiting s₁ :=
        ⟨hw.live, hw.certGen, hw.mitm, hw.tunnel, hw.unlinked, hw.silent⟩
      have hb₁ : Booked s₁ := (hw.booked ha).same rfl rfl rfl rfl rfl rfl rfl rfl rfl rfl
      exact Ends.mono (hw₁.connected (accounted_ok hb₁) (one.remove hfd) connect request clean)
        (fun s' hs _ => hs) fun _ => id
    | tunnel ht => exact absurd hcb (ht.free fd e hfde)
    | closed hcl => exact absurd hcl hc
  | handshake id t ht _ _ =>
    have htls : s.tls = [] := by
      cases hst with
      | idle hw => exact (hw.booked ha).pointers.tls_nil hw.mitm
      | asked hw => exact (hw.booked ha).pointers.tls_nil hw.mitm
      | tunnel hp => exact hp.tls
      | closed hcl => exact absurd hcl hc
    exact absurd ht (by simp [htls])
  | destroyed => trivial

/-- The stage of a session that does not intercept at the end of a run. -/
theorem sessionRun_tunnel (w : World) (fd : Fd) (payloadInspector : Bool)
    (events : List SessionEvent) :
    Ends (sessionRun w (.ok (start fd false payloadInspector)) events)
      (fun s => Accounted s ∧ (LoneConnect s.log → TunnelStage s)) fun _ => True := by
  have hempty : NoConnects (({} : KqueueLoop).openFd fd) := fun _ _ he => absurd he (by simp)
  have hstart : TunnelStage (start fd false payloadInspector) :=
    .idle ⟨rfl, rfl, rfl, rfl, rfl, rfl⟩
      (hempty.mono (({ socket_ := fd, wired := true } : Connection).startRead_noNew _)) fun _ => rfl
  refine sessionRun_effects (fun s r hs he => ?_)
    ⟨accounted_ok (start_booked fd false payloadInspector), fun _ => hstart⟩ events
  exact Ends.mono ((effect_accounted hs.1 he).and (effect_tunnel hs.1 hs.2 he)) (fun _ => id)
    fun _ _ => trivial

end Session

open Session

/-- In every run of a session that does not intercept and whose only request is
a CONNECT, for which the parser reports no body: once it is connected and while
the session is open, the upstream has been handed what the client has sent after
its head, and the client the 200 line and what the upstream has sent, exactly
when the client had sent its head and nothing else when the connect completed. -/
theorem tunnel_transparent_iff {w : World} {fd : Fd} {payloadInspector : Bool}
    {events : List SessionEvent} {s : Session}
    (hrun : sessionRun w (.ok (start fd false payloadInspector)) events = .ok s)
    (hopen : s.closed_ = false) {req : HttpRequest} (hreq : requests s.log = [req])
    (hc : req.method = .CONNECT) (hbody : chunks s.log = [])
    (hup : s.log.any Note.isConnected = true) {head rest : Bytes}
    (hsent : clientBytes s.log = head ++ rest) :
    (s.upstreamStream = rest ∧ s.clientStream = established ++ upstreamBytes s.log) ↔
      early s.log = head := by
  have hstage := sessionRun_tunnel w fd payloadInspector events
  rw [hrun] at hstage
  have hlone : LoneConnect s.log :=
    ⟨by simp [hreq], fun req' hm => by rw [hreq, List.mem_singleton] at hm; exact hm ▸ hc, hbody⟩
  have hsplit : early s.log ++ late s.log = head ++ rest := (early_append_late s.log).trans hsent
  cases hstage.2 hlone with
  | idle hw => exact absurd (hup.symm.trans hw.unlinked) (by decide)
  | asked hw => exact absurd (hup.symm.trans hw.unlinked) (by decide)
  | closed hcl => exact absurd (hopen.symm.trans hcl) (by decide)
  | tunnel ht =>
    constructor
    · rintro ⟨hrest, -⟩
      rw [ht.up] at hrest
      rw [hrest] at hsplit
      exact List.append_cancel_right hsplit
    · intro hhead
      rw [hhead] at hsplit
      exact ⟨ht.up.trans (List.append_cancel_left hsplit), ht.down⟩

/-- A head for a tunnel, with what follows it in the same read. -/
def tunnelHead (more : Bytes) : SessionEvent :=
  received 7 (text "CONNECT h:1 HTTP/1.1\r\n\r\n" ++ more)
    (requestEvents [text "h:1"] [] { method := text "CONNECT" })

/-- A client that waits for the 200 line, and an upstream that answers it. -/
def patientClient : List SessionEvent :=
  [tunnelHead [], .ready 10 { fired := ⟨false, true⟩ }, received 7 (text "y") [],
    received 10 (text "z") []]

theorem tunnel_transparent_patient :
    let s := (sessionRun slowWorld (.ok (start 7 false false)) patientClient).session
    (s.upstreamStream = text "y" ∧ s.clientStream = established ++ upstreamBytes s.log) ↔
      early s.log = text "CONNECT h:1 HTTP/1.1\r\n\r\n" :=
  @tunnel_transparent_iff slowWorld 7 false patientClient _ (ok_session (by decide +kernel))
    (by decide +kernel)
    ((requests (sessionRun slowWorld (.ok (start 7 false false)) patientClient).session.log).headD {})
    (by decide +kernel) (by decide +kernel) (by decide +kernel) (by decide +kernel) _ _
    (by decide +kernel)

/-- Bytes that come with the head are lost, also where the connect is made at once. -/
theorem tunnel_loses_early_bytes :
    let s := (sessionRun promptWorld (.ok (start 7 false false))
      [tunnelHead (text "x"), received 7 (text "y") []]).session
    s.closed_ = false ∧ s.log.any Note.isConnected = true ∧ s.isTunnel_ = true ∧
      (HttpWire.readHead (clientBytes s.log)).map Prod.snd = some (text "xy") ∧
      s.upstreamStream = text "y" := by
  decide +kernel

end DeepSeer
