import DeepSeer.SessionActs
import DeepSeer.SharedLoops

/-!
A session on a shared table does what it would do on a table of its own. Two sessions run
side by side, which differ in the table alone, and every handler keeps them so.
-/
namespace DeepSeer

open ByteMemory ByteText PairedRuns KqueueLoop

namespace Session

/-- The descriptors that the session holds. -/
structure Holds (D : Fd → Bool) (client upstream : Option Connection) (tls : List TlsConnection)
    (connecting : Fd) : Prop where
  client : ∀ c, client = some c → D c.socket_ = true
  upstream : ∀ c, upstream = some c → D c.socket_ = true
  tls : ∀ (id : Nat) t, tls[id]? = some t → D t.socket_ = true
  connecting : D connecting = true
  invalid : D kInvalidFd = true

/-- The session holds descriptors of `D` only. -/
abbrev Inside (D : Fd → Bool) (s : Session) : Prop :=
  Holds D s.client_ s.upstream_ s.tls s.connectingSocket_

def overlaid (s : Session) (outer : OuterLoop) (D : Fd → Bool) : Session :=
  { s with loop_ := s.loop_.overlay outer D }

/-- The second session is the first one on the shared table. -/
structure Shares (outer : OuterLoop) (D : Fd → Bool) (s t : Session) : Prop where
  same : t = s.overlaid outer D
  inside : s.Inside D

/-- They end so, or crash at the same point. -/
abbrev Together (outer : OuterLoop) (D : Fd → Bool) : Outcome → Outcome → Prop :=
  Alike (Shares outer D) fun e e' => e'.fault = e.fault ∧ Shares outer D e.state e'.state

variable {outer : OuterLoop} {D : Fd → Bool} {s t : Session} {w : World}

theorem Shares.crash (h : Shares outer D s t) (fault : Fault) :
    Together outer D (s.crash fault) (t.crash fault) := ⟨rfl, h⟩

theorem Shares.note (h : Shares outer D s t) (n : Note) : Shares outer D (s.note n) (t.note n) := by
  obtain ⟨rfl, hin⟩ := h
  exact ⟨rfl, hin⟩

@[simp] theorem overlaid_loop : (s.overlaid outer D).loop_ = s.loop_.overlay outer D := rfl
@[simp] theorem overlaid_client : (s.overlaid outer D).client_ = s.client_ := rfl
@[simp] theorem overlaid_upstream : (s.overlaid outer D).upstream_ = s.upstream_ := rfl
@[simp] theorem overlaid_tls : (s.overlaid outer D).tls = s.tls := rfl
@[simp] theorem overlaid_tlsClient : (s.overlaid outer D).tlsClient_ = s.tlsClient_ := rfl
@[simp] theorem overlaid_tlsUpstream : (s.overlaid outer D).tlsUpstream_ = s.tlsUpstream_ := rfl
@[simp] theorem overlaid_connecting :
    (s.overlaid outer D).connectingSocket_ = s.connectingSocket_ := rfl
@[simp] theorem overlaid_closed : (s.overlaid outer D).closed_ = s.closed_ := rfl
@[simp] theorem overlaid_isTlsMitm : (s.overlaid outer D).isTlsMitm_ = s.isTlsMitm_ := rfl
@[simp] theorem overlaid_isTunnel : (s.overlaid outer D).isTunnel_ = s.isTunnel_ := rfl

theorem Inside.setClient (h : s.Inside D) {c : Connection} (hc : D c.socket_ = true) :
    Holds D (some c) s.upstream_ s.tls s.connectingSocket_ := by
  refine ⟨fun d hd => ?_, h.upstream, h.tls, h.connecting, h.invalid⟩
  cases hd
  exact hc

theorem Inside.setUpstream (h : s.Inside D) {c : Connection} (hc : D c.socket_ = true) :
    Holds D s.client_ (some c) s.tls s.connectingSocket_ := by
  refine ⟨h.client, fun d hd => ?_, h.tls, h.connecting, h.invalid⟩
  cases hd
  exact hc

theorem Inside.setTls (h : s.Inside D) (id : Nat) {c : TlsConnection} (hc : D c.socket_ = true) :
    Holds D s.client_ s.upstream_ (s.tls.set id c) s.connectingSocket_ := by
  refine ⟨h.client, h.upstream, fun j d hd => ?_, h.connecting, h.invalid⟩
  rw [List.getElem?_set] at hd
  split at hd
  · split at hd
    · cases hd
      exact hc
    · exact absurd hd (by simp)
  · exact h.tls j d hd

/-- A closed connection has given up its descriptor. -/
theorem closed_inside (hinvalid : D kInvalidFd = true) {c : Connection} (hc : D c.socket_ = true)
    (l : KqueueLoop) : D (c.close l).1.socket_ = true := by
  unfold Connection.close
  split
  · exact hc
  · exact hinvalid

theorem tls_closed_inside (hinvalid : D kInvalidFd = true) {c : TlsConnection}
    (hc : D c.socket_ = true) (l : KqueueLoop) : D (c.close l).1.socket_ = true := by
  unfold TlsConnection.close
  split
  · exact hc
  · exact hinvalid

theorem Shares.closeClient (h : Shares outer D s t) :
    Shares outer D s.closeClient t.closeClient := by
  obtain ⟨rfl, hin⟩ := h
  unfold Session.closeClient
  rw [overlaid_client, overlaid_loop]
  cases hc : s.client_ with
  | none => exact ⟨rfl, hin⟩
  | some c =>
    dsimp only
    rw [c.close_overlay s.loop_ (hin.client c hc)]
    exact ⟨rfl, hin.setClient (closed_inside hin.invalid (hin.client c hc) s.loop_)⟩

theorem Shares.closeUpstream (h : Shares outer D s t) :
    Shares outer D s.closeUpstream t.closeUpstream := by
  obtain ⟨rfl, hin⟩ := h
  unfold Session.closeUpstream
  rw [overlaid_upstream, overlaid_loop]
  cases hc : s.upstream_ with
  | none => exact ⟨rfl, hin⟩
  | some c =>
    dsimp only
    rw [c.close_overlay s.loop_ (hin.upstream c hc)]
    exact ⟨rfl, hin.setUpstream (closed_inside hin.invalid (hin.upstream c hc) s.loop_)⟩

/-- A TLS connection and the table are replaced. -/
theorem Shares.setTls (h : Shares outer D s t) (id : Nat) {c : TlsConnection} (l : KqueueLoop)
    (hc : D c.socket_ = true) :
    Shares outer D (s.setTls id c l) (t.setTls id c (l.overlay outer D)) := by
  obtain ⟨rfl, hin⟩ := h
  exact ⟨rfl, hin.setTls id hc⟩

theorem Shares.closeTls (h : Shares outer D s t) (id : Nat) :
    Shares outer D (s.closeTls id) (t.closeTls id) := by
  have h' := h
  obtain ⟨rfl, hin⟩ := h
  unfold Session.closeTls
  rw [overlaid_tls, overlaid_loop]
  cases hc : s.tls[id]? with
  | none => exact ⟨rfl, hin⟩
  | some c =>
    dsimp only
    rw [c.close_overlay s.loop_ (hin.tls id c hc)]
    exact h'.setTls id _ (tls_closed_inside hin.invalid (hin.tls id c hc) s.loop_)

theorem Shares.closeTlsAt (h : Shares outer D s t) (pointer : Option Nat) :
    Shares outer D (s.closeTlsAt pointer) (t.closeTlsAt pointer) := by
  cases pointer with
  | none => exact h
  | some id => exact h.closeTls id

theorem Shares.closeConnecting (h : Shares outer D s t) :
    Shares outer D s.closeConnecting t.closeConnecting := by
  obtain ⟨rfl, hin⟩ := h
  unfold Session.closeConnecting
  rw [overlaid_connecting, overlaid_loop]
  split
  · exact ⟨rfl, hin⟩
  · rw [overlay_remove s.loop_ hin.connecting, overlay_closeFd _ hin.connecting]
    exact ⟨rfl, hin.client, hin.upstream, hin.tls, hin.invalid, hin.invalid⟩

theorem Shares.close (h : Shares outer D s t) (cause : CloseCause) :
    Shares outer D (s.close cause) (t.close cause) := by
  obtain ⟨rfl, hin⟩ := h
  unfold Session.close
  rw [overlaid_closed]
  split
  · exact ⟨rfl, hin⟩
  · have hclosed : Shares outer D ({ s with closed_ := true }.note (.closed cause))
        ({ s.overlaid outer D with closed_ := true }.note (.closed cause)) := ⟨rfl, hin⟩
    obtain ⟨heq, hin'⟩ := hclosed.closeConnecting.closeClient.closeUpstream
    dsimp only at heq ⊢
    rw [heq]
    have h' : Shares outer D _ _ := ⟨rfl, hin'⟩
    exact (h'.closeTlsAt _).closeTlsAt _

theorem Shares.afterClientFlush (h : Shares outer D s t) {c : Connection}
    (hc : D c.socket_ = true) (l : KqueueLoop) (flushed : Connection.Flushed) :
    Shares outer D (s.afterClientFlush (c, l, flushed))
      (t.afterClientFlush (c, l.overlay outer D, flushed)) := by
  obtain ⟨rfl, hin⟩ := h
  have hset : Shares outer D { s with client_ := some c, loop_ := l }
      { s.overlaid outer D with client_ := some c, loop_ := l.overlay outer D } :=
    ⟨rfl, hin.setClient hc⟩
  cases flushed with
  | settled => exact hset
  | failed =>
    unfold Session.afterClientFlush
    dsimp only
    split
    · exact (hset.close .clientError).closeClient
    · exact hset.closeClient

theorem Shares.afterUpstreamFlush (h : Shares outer D s t) {c : Connection}
    (hc : D c.socket_ = true) (l : KqueueLoop) (flushed : Connection.Flushed) :
    Shares outer D (s.afterUpstreamFlush (c, l, flushed))
      (t.afterUpstreamFlush (c, l.overlay outer D, flushed)) := by
  obtain ⟨rfl, hin⟩ := h
  have hset : Shares outer D { s with upstream_ := some c, loop_ := l }
      { s.overlaid outer D with upstream_ := some c, loop_ := l.overlay outer D } :=
    ⟨rfl, hin.setUpstream hc⟩
  cases flushed with
  | settled => exact hset
  | failed =>
    unfold Session.afterUpstreamFlush
    dsimp only
    split
    · exact (hset.close .upstreamError).closeUpstream
    · exact hset.closeUpstream

/-- The sessions after a write, and the buffer that it leaves. -/
def WriteShares (outer : OuterLoop) (D : Fd → Bool) (r r' : Session × Buffer) : Prop :=
  Shares outer D r.1 r'.1 ∧ r'.2 = r.2

/-- A write keeps the descriptor. -/
theorem write_socket (answer : Nat → SendAnswer) (c : Connection) (data : Buffer)
    (l : KqueueLoop) : (c.write answer data l).1.socket_ = c.socket_ := by
  unfold Connection.write
  split
  · rfl
  · exact (Connection.flushNow_link answer _ l).socket

theorem writeText_socket (answer : Nat → SendAnswer) (c : Connection) (data : Bytes)
    (l : KqueueLoop) : (c.writeText answer data l).1.socket_ = c.socket_ := by
  unfold Connection.writeText
  split
  · rfl
  · exact (Connection.flushNow_link answer _ l).socket

theorem Shares.writeClient (h : Shares outer D s t) {c : Connection} (hc : s.client_ = some c)
    (data : Buffer) :
    WriteShares outer D (s.writeClient w c data) (t.writeClient w c data) := by
  have hD := h.inside.client c hc
  have hsame := h.same
  unfold Session.writeClient
  rw [hsame, overlaid_loop, c.write_overlay w.clientSend data s.loop_ hD]
  rw [← hsame]
  exact ⟨h.afterClientFlush ((write_socket _ c data _).symm ▸ hD) _ _, rfl⟩

theorem Shares.writeUpstream (h : Shares outer D s t) {c : Connection}
    (hc : s.upstream_ = some c) (data : Buffer) :
    WriteShares outer D (s.writeUpstream w c data) (t.writeUpstream w c data) := by
  have hD := h.inside.upstream c hc
  have hsame := h.same
  unfold Session.writeUpstream
  rw [hsame, overlaid_loop, c.write_overlay _ data s.loop_ hD]
  rw [← hsame]
  exact ⟨h.afterUpstreamFlush ((write_socket _ c data _).symm ▸ hD) _ _, rfl⟩

/-- Writing keeps the descriptor, or closes. -/
theorem tls_doWrite_inside (hinvalid : D kInvalidFd = true) {c : TlsConnection}
    (hc : D c.socket_ = true) (answer : Nat → SslWriteAnswer) (id : Nat) (l : KqueueLoop) :
    D (c.doWrite answer id l).1.socket_ = true := by
  have hsocket := TlsConnection.writeLoop_socket answer c (c.writeBuf_.length + 1)
  unfold TlsConnection.doWrite
  split
  · exact hc
  · split
    · next hr =>
      rw [hr] at hsocket
      exact hsocket ▸ hc
    · next hr =>
      rw [hr] at hsocket
      exact tls_closed_inside hinvalid (hsocket ▸ hc) l
    · next hr =>
      rw [hr] at hsocket
      split <;> exact hsocket ▸ hc

theorem tls_write_inside (hinvalid : D kInvalidFd = true) {c : TlsConnection}
    (hc : D c.socket_ = true) (answer : Nat → SslWriteAnswer) (id : Nat) (data : Buffer)
    (l : KqueueLoop) : D (c.write answer id data l).1.socket_ = true := by
  unfold TlsConnection.write
  split
  · exact hc
  · exact tls_doWrite_inside hinvalid (c := { c with
      writeBuf_ := (c.writeBuf_.move data).1, written := c.written ++ data.linearize })
      hc answer id l

theorem Shares.writeTls (h : Shares outer D s t) (id : Nat) (data : Buffer) :
    WriteShares outer D (s.writeTls w id data) (t.writeTls w id data) := by
  have hsame := h.same
  unfold Session.writeTls
  rw [hsame, overlaid_tls, overlaid_loop, ← hsame]
  cases hc : s.tls[id]? with
  | none => exact ⟨h, rfl⟩
  | some c =>
    have hD := h.inside.tls id c hc
    dsimp only
    rw [c.write_overlay (w.sslWrite id) id data s.loop_ hD]
    exact ⟨h.setTls id _ (tls_write_inside h.inside.invalid hD _ id data _), rfl⟩

theorem Shares.writeClientOpen (h : Shares outer D s t) {c : Connection}
    (hc : s.client_ = some c) (data : Buffer) : WriteShares outer D
      (if c.connected then s.writeClient w c data else (s, data))
      (if c.connected then t.writeClient w c data else (t, data)) := by
  split
  · exact h.writeClient hc data
  · exact ⟨h, rfl⟩

theorem Shares.writeToClient (h : Shares outer D s t) (data : Buffer) :
    WriteShares outer D (s.writeToClient w data) (t.writeToClient w data) := by
  have hsame := h.same
  unfold Session.writeToClient
  rw [hsame, overlaid_isTlsMitm, overlaid_tlsClient, overlaid_client, ← hsame]
  cases s.isTlsMitm_ with
  | false =>
    cases hc : s.client_ with
    | none => exact ⟨h, rfl⟩
    | some c => exact h.writeClientOpen hc data
  | true =>
    cases s.tlsClient_ with
    | none =>
      cases hc : s.client_ with
      | none => exact ⟨h, rfl⟩
      | some c => exact h.writeClientOpen hc data
    | some id => exact h.writeTls id data

theorem Shares.writeUpstreamOpen (h : Shares outer D s t) {c : Connection}
    (hc : s.upstream_ = some c) (data : Buffer) : WriteShares outer D
      (if c.connected then s.writeUpstream w c data else (s, data))
      (if c.connected then t.writeUpstream w c data else (t, data)) := by
  split
  · exact h.writeUpstream hc data
  · exact ⟨h, rfl⟩

theorem Shares.writeToUpstream (h : Shares outer D s t) (data : Buffer) :
    WriteShares outer D (s.writeToUpstream w data) (t.writeToUpstream w data) := by
  have hsame := h.same
  unfold Session.writeToUpstream
  rw [hsame, overlaid_isTlsMitm, overlaid_tlsUpstream, overlaid_upstream, ← hsame]
  cases s.isTlsMitm_ with
  | false =>
    cases hc : s.upstream_ with
    | none => exact ⟨h, rfl⟩
    | some c => exact h.writeUpstreamOpen hc data
  | true =>
    cases s.tlsUpstream_ with
    | none =>
      cases hc : s.upstream_ with
      | none => exact ⟨h, rfl⟩
      | some c => exact h.writeUpstreamOpen hc data
    | some id => exact h.writeTls id data

theorem Shares.answer (h : Shares outer D s t) (resp : HttpResponse) (n : Note) :
    Shares outer D (s.answer w resp n) (t.answer w resp n) := by
  have hsame : t.reachesClient = s.reachesClient := by rw [h.same]; rfl
  unfold Session.answer
  dsimp only
  rw [hsame]
  split
  · exact ((h.note n).writeToClient _).1
  · exact (h.writeToClient _).1

theorem Shares.sendPending (h : Shares outer D s t) :
    Shares outer D (s.sendPending w) (t.sendPending w) := by
  have hsame : t.pendingBody_ = s.pendingBody_ := by rw [h.same]; rfl
  obtain ⟨hwrite, hleft⟩ := h.writeToUpstream (w := w) s.pendingBody_
  unfold Session.sendPending
  dsimp only
  rw [hsame, hleft]
  obtain ⟨heq, hin⟩ := hwrite
  rw [heq]
  exact ⟨rfl, hin⟩

theorem Shares.onRequestBody (h : Shares outer D s t) (body : Buffer) :
    Shares outer D (s.onRequestBody w body) (t.onRequestBody w body) := by
  obtain ⟨rfl, hin⟩ := h
  unfold Session.onRequestBody
  split
  · exact ⟨rfl, hin⟩
  · have hmoved : Shares outer D { s with pendingBody_ := (s.pendingBody_.move body).1 }
        { s.overlaid outer D with pendingBody_ := (s.pendingBody_.move body).1 } := ⟨rfl, hin⟩
    exact hmoved.sendPending

theorem Shares.onResponse (h : Shares outer D s t) (resp : HttpResponse) :
    Shares outer D (s.onResponse w resp) (t.onResponse w resp) := by
  have hmitm : t.isTlsMitm_ = s.isTlsMitm_ := by rw [h.same, overlaid_isTlsMitm]
  have hlink : t.link = s.link := by rw [h.same]; rfl
  unfold Session.onResponse
  rw [hmitm, hlink]
  exact h.answer _ _

theorem Shares.onResponseBody (h : Shares outer D s t) (body : Buffer) :
    Shares outer D (s.onResponseBody w body) (t.onResponseBody w body) := by
  obtain ⟨rfl, hin⟩ := h
  set collected := body.slices.foldl (fun b slice => b.add slice.data) s.responseBody_ with hc
  have hkept : Shares outer D
      (if s.payloadInspector_ ∧ s.responseBody_.length < kMaxInspectBytes then
        { s with responseBody_ := collected }
      else s)
      (if s.payloadInspector_ ∧ s.responseBody_.length < kMaxInspectBytes then
        { s.overlaid outer D with responseBody_ := collected }
      else s.overlaid outer D) := by
    split <;> exact ⟨rfl, hin⟩
  unfold Session.onResponseBody
  dsimp only
  split
  · exact hkept
  · exact (hkept.writeToClient body).1

theorem Shares.onResponseComplete (h : Shares outer D s t) :
    Shares outer D s.onResponseComplete t.onResponseComplete := by
  obtain ⟨rfl, hin⟩ := h
  have hnoted : Shares outer D
      (if s.payloadInspector_ ∧ s.responseBody_.empty = false then
        s.note (.inspected s.responseBody_.linearize s.currentRequest_.url)
      else s)
      (if s.payloadInspector_ ∧ s.responseBody_.empty = false then
        (s.overlaid outer D).note (.inspected s.responseBody_.linearize s.currentRequest_.url)
      else s.overlaid outer D) := by
    split <;> exact ⟨rfl, hin⟩
  have hreset : ∀ {s t : Session}, Shares outer D s t → Shares outer D
      (let s := { s with pendingBody_ := {}, responseBody_ := {} }
        if s.isTlsMitm_ then s else s.close .responseComplete)
      (let t := { t with pendingBody_ := {}, responseBody_ := {} }
        if t.isTlsMitm_ then t else t.close .responseComplete) := by
    rintro s _ ⟨rfl, hin⟩
    have hempty : Shares outer D { s with pendingBody_ := {}, responseBody_ := {} }
        { s.overlaid outer D with pendingBody_ := {}, responseBody_ := {} } := ⟨rfl, hin⟩
    dsimp only
    rw [overlaid_isTlsMitm]
    split
    · exact hempty
    · exact hempty.close .responseComplete
  exact hreset hnoted

theorem Shares.afterWriteText (h : Shares outer D s t) {c : Connection} (hc : s.client_ = some c)
    (data : Bytes) : Shares outer D
      (s.afterClientFlush (c.writeText w.clientSend data s.loop_))
      (t.afterClientFlush (c.writeText w.clientSend data t.loop_)) := by
  have hD := h.inside.client c hc
  have hloop : t.loop_ = s.loop_.overlay outer D := by rw [h.same, overlaid_loop]
  rw [hloop, c.writeText_overlay w.clientSend data s.loop_ hD]
  exact h.afterClientFlush ((writeText_socket _ c data _).symm ▸ hD) _ _

theorem Shares.writeEstablished (h : Shares outer D s t) :
    Together outer D (s.writeEstablished w) (t.writeEstablished w) := by
  have hsame : t.client_ = s.client_ := by rw [h.same, overlaid_client]
  unfold Session.writeEstablished
  rw [hsame]
  cases hc : s.client_ with
  | none => exact h.crash _
  | some c => exact h.afterWriteText hc established

theorem startRead_socket (c : Connection) (l : KqueueLoop) :
    (c.startRead l).1.socket_ = c.socket_ := by
  unfold Connection.startRead
  split <;> rfl

theorem stopRead_socket (c : Connection) (l : KqueueLoop) :
    (c.stopRead l).1.socket_ = c.socket_ := by
  unfold Connection.stopRead
  split <;> rfl

theorem Shares.stopClientRead (h : Shares outer D s t) :
    Together outer D s.stopClientRead t.stopClientRead := by
  obtain ⟨rfl, hin⟩ := h
  unfold Session.stopClientRead
  rw [overlaid_client, overlaid_loop]
  cases hc : s.client_ with
  | none => exact Shares.crash ⟨rfl, hin⟩ _
  | some c =>
    have hD := hin.client c hc
    dsimp only
    rw [c.stopRead_overlay s.loop_ hD]
    exact ⟨rfl, hin.setClient ((stopRead_socket c _).symm ▸ hD)⟩

theorem Shares.setupUpstreamCallbacks (h : Shares outer D s t) :
    Together outer D s.setupUpstreamCallbacks t.setupUpstreamCallbacks := by
  obtain ⟨rfl, hin⟩ := h
  unfold Session.setupUpstreamCallbacks
  rw [overlaid_upstream]
  cases hc : s.upstream_ with
  | none => exact Shares.crash ⟨rfl, hin⟩ _
  | some c => exact ⟨rfl, hin.setUpstream (c := { c with wired := true }) (hin.upstream c hc)⟩

theorem Shares.startUpstreamRead (h : Shares outer D s t) :
    Together outer D s.startUpstreamRead t.startUpstreamRead := by
  obtain ⟨rfl, hin⟩ := h
  unfold Session.startUpstreamRead
  rw [overlaid_upstream, overlaid_loop]
  cases hc : s.upstream_ with
  | none => exact Shares.crash ⟨rfl, hin⟩ _
  | some c =>
    have hD := hin.upstream c hc
    dsimp only
    rw [c.startRead_overlay s.loop_ hD]
    exact ⟨rfl, hin.setUpstream ((startRead_socket c _).symm ▸ hD)⟩

theorem Shares.prepareUpstream (h : Shares outer D s t) :
    Together outer D s.prepareUpstream t.prepareUpstream := by
  have hsame : t.isTlsMitm_ = s.isTlsMitm_ := by rw [h.same, overlaid_isTlsMitm]
  unfold Session.prepareUpstream
  rw [hsame]
  split
  · exact h
  · exact h.setupUpstreamCallbacks.bind fun _ _ h => h.startUpstreamRead

theorem Shares.sendRequest (h : Shares outer D s t) :
    Shares outer D (s.sendRequest w) (t.sendRequest w) := by
  obtain ⟨rfl, hin⟩ := h
  have hrequest : Shares outer D
      { s.note (.forwarded s.currentRequest_ s.link) with
        currentRequest_.url := originForm s.currentRequest_.url }
      { (s.overlaid outer D).note (.forwarded s.currentRequest_ s.link) with
        currentRequest_.url := originForm s.currentRequest_.url } := ⟨rfl, hin⟩
  have hpending : ∀ {s t : Session}, Shares outer D s t → Shares outer D
      (if s.pendingBody_.empty then s else s.sendPending w)
      (if t.pendingBody_.empty then t else t.sendPending w) := by
    intro s t h
    have hsame : t.pendingBody_ = s.pendingBody_ := by rw [h.same]; rfl
    rw [hsame]
    split
    · exact h
    · exact h.sendPending
  exact hpending (hrequest.writeToUpstream _).1

theorem Shares.forwardRequest (h : Shares outer D s t) :
    Together outer D (s.forwardRequest w) (t.forwardRequest w) :=
  h.prepareUpstream.bind fun _ _ h => h.sendRequest

theorem Shares.wireTls (h : Shares outer D s t) (pointer : Option Nat) :
    Together outer D (s.wireTls pointer) (t.wireTls pointer) := by
  have hsame : t.tls = s.tls := by rw [h.same, overlaid_tls]
  have hloop : t.loop_ = s.loop_.overlay outer D := by rw [h.same, overlaid_loop]
  cases pointer with
  | none => exact h.crash _
  | some id =>
    unfold Session.wireTls
    dsimp only
    rw [hsame, hloop]
    cases hc : s.tls[id]? with
    | none => exact h.crash _
    | some c => exact h.setTls id (c := { c with wired := true }) _ (h.inside.tls id c hc)

theorem tls_startRead_socket (c : TlsConnection) (id : Nat) (l : KqueueLoop) :
    (c.startRead id l).1.socket_ = c.socket_ := by
  unfold TlsConnection.startRead
  split <;> rfl

theorem Shares.startTlsRead (h : Shares outer D s t) (pointer : Option Nat) :
    Together outer D (s.startTlsRead pointer) (t.startTlsRead pointer) := by
  have hsame : t.tls = s.tls := by rw [h.same, overlaid_tls]
  have hloop : t.loop_ = s.loop_.overlay outer D := by rw [h.same, overlaid_loop]
  cases pointer with
  | none => exact h.crash _
  | some id =>
    unfold Session.startTlsRead
    dsimp only
    rw [hsame, hloop]
    cases hc : s.tls[id]? with
    | none => exact h.crash _
    | some c =>
      have hD := h.inside.tls id c hc
      dsimp only
      rw [c.startRead_overlay id s.loop_ hD]
      exact h.setTls id _ ((tls_startRead_socket c id _).symm ▸ hD)

theorem Shares.tlsClient (h : Shares outer D s t) : t.tlsClient_ = s.tlsClient_ := by
  rw [h.same, overlaid_tlsClient]

theorem Shares.tlsUpstream (h : Shares outer D s t) : t.tlsUpstream_ = s.tlsUpstream_ := by
  rw [h.same, overlaid_tlsUpstream]

theorem Shares.onClientHandshake (h : Shares outer D s t) :
    Together outer D s.onClientHandshake t.onClientHandshake := by
  have hcodecs : Shares outer D
      { s with clientCodec_ := { type := .request }, upstreamCodec_ := { type := .response } }
      { t with clientCodec_ := { type := .request }, upstreamCodec_ := { type := .response } } := by
    obtain ⟨rfl, hin⟩ := h
    exact ⟨rfl, hin⟩
  have hwire : ∀ {s t : Session} {p p' : Option Nat}, Shares outer D s t → p' = p →
      Together outer D (s.wireTls p) (t.wireTls p') := fun h hp => hp ▸ h.wireTls _
  have hread : ∀ {s t : Session} {p p' : Option Nat}, Shares outer D s t → p' = p →
      Together outer D (s.startTlsRead p) (t.startTlsRead p') := fun h hp => hp ▸ h.startTlsRead _
  refine (hwire hcodecs hcodecs.tlsClient).bind fun _ _ h => ?_
  refine (hwire h h.tlsUpstream).bind fun _ _ h => ?_
  exact (hread h h.tlsClient).bind fun _ _ h => hread h h.tlsUpstream

theorem tls_handshake_inside (hinvalid : D kInvalidFd = true) {c : TlsConnection}
    (hc : D c.socket_ = true) (answer : Nat → HandshakeAnswer) (id : Nat) (l : KqueueLoop) :
    D (c.continueHandshake answer id l).1.socket_ = true := by
  unfold TlsConnection.continueHandshake
  split
  · exact hc
  · dsimp only
    split
    · exact hc
    · split
      · exact hc
      · exact tls_closed_inside hinvalid (c := { c with handshakes := c.handshakes + 1 }) hc l

theorem Shares.handshakeStep (h : Shares outer D s t) (id : Nat) :
    Shares outer D (s.handshakeStep w id).1 (t.handshakeStep w id).1 ∧
      (t.handshakeStep w id).2 = (s.handshakeStep w id).2 := by
  have hsame : t.tls = s.tls := by rw [h.same, overlaid_tls]
  have hloop : t.loop_ = s.loop_.overlay outer D := by rw [h.same, overlaid_loop]
  unfold Session.handshakeStep
  rw [hsame, hloop]
  cases hc : s.tls[id]? with
  | none => exact ⟨h, rfl⟩
  | some c =>
    have hD := h.inside.tls id c hc
    dsimp only
    rw [c.continueHandshake_overlay (w.handshake id) id s.loop_ hD]
    exact ⟨h.setTls id _ (tls_handshake_inside h.inside.invalid hD _ id _), rfl⟩

theorem Shares.clientHandshake (h : Shares outer D s t) (id : Nat) :
    Together outer D (s.clientHandshake w id) (t.clientHandshake w id) := by
  obtain ⟨hstep, houtcome⟩ := h.handshakeStep (w := w) id
  unfold Session.clientHandshake
  rcases hs : s.handshakeStep w id with ⟨s', outcome⟩
  rcases ht : t.handshakeStep w id with ⟨t', outcome'⟩
  rw [hs, ht] at hstep houtcome
  obtain rfl : outcome' = outcome := houtcome
  cases outcome' with
  | nothing => exact hstep
  | complete => exact hstep.onClientHandshake
  | failed => exact hstep.close .handshake

/-- A new TLS connection takes over a descriptor. -/
theorem Holds.makeTls {client upstream : Option Connection} {tls : List TlsConnection}
    {connecting : Fd} (h : Holds D client upstream tls connecting) {c : TlsConnection}
    (hc : D c.socket_ = true) : Holds D client upstream (tls ++ [c]) connecting := by
  refine ⟨h.client, h.upstream, fun id d hd => ?_, h.connecting, h.invalid⟩
  rcases List.mem_append.mp (List.mem_of_getElem? hd) with hin | hin
  · obtain ⟨j, hj⟩ := List.getElem?_of_mem hin
    exact h.tls j d hj
  · rw [List.mem_singleton.mp hin]
    exact hc

theorem Holds.dropClient {client upstream : Option Connection} {tls : List TlsConnection}
    {connecting : Fd} (h : Holds D client upstream tls connecting) :
    Holds D none upstream tls connecting :=
  ⟨fun _ hd => absurd hd (by simp), h.upstream, h.tls, h.connecting, h.invalid⟩

theorem Holds.dropUpstream {client upstream : Option Connection} {tls : List TlsConnection}
    {connecting : Fd} (h : Holds D client upstream tls connecting) :
    Holds D client none tls connecting :=
  ⟨h.client, fun _ hd => absurd hd (by simp), h.tls, h.connecting, h.invalid⟩

theorem Shares.onUpstreamHandshake (h : Shares outer D s t) (hostname : Bytes) :
    Together outer D (s.onUpstreamHandshake w hostname) (t.onUpstreamHandshake w hostname) := by
  unfold Session.onUpstreamHandshake
  split
  · obtain ⟨rfl, hin⟩ := h
    rw [overlaid_client]
    cases hc : s.client_ with
    | none => exact Shares.crash ⟨rfl, hin⟩ _
    | some c =>
      have hD := hin.client c hc
      dsimp only [Connection.releaseSocket]
      rw [overlaid_loop, overlay_remove s.loop_ hD]
      exact Shares.clientHandshake ⟨rfl, hin.dropClient.makeTls hD⟩ _
  · exact h.close .certificate

theorem Shares.upstreamHandshake (h : Shares outer D s t) (id : Nat) (hostname : Bytes) :
    Together outer D (s.upstreamHandshake w id hostname) (t.upstreamHandshake w id hostname) := by
  obtain ⟨hstep, houtcome⟩ := h.handshakeStep (w := w) id
  unfold Session.upstreamHandshake
  rcases hs : s.handshakeStep w id with ⟨s', outcome⟩
  rcases ht : t.handshakeStep w id with ⟨t', outcome'⟩
  rw [hs, ht] at hstep houtcome
  obtain rfl : outcome' = outcome := houtcome
  cases outcome' with
  | nothing => exact hstep
  | complete => exact hstep.onUpstreamHandshake hostname
  | failed => exact hstep.close .handshake

theorem Shares.continueHandshake (h : Shares outer D s t) (id : Nat) :
    Together outer D (s.continueHandshake w id) (t.continueHandshake w id) := by
  have hsame : t.tls = s.tls := by rw [h.same, overlaid_tls]
  unfold Session.continueHandshake
  rw [hsame]
  rcases s.tls[id]?.map TlsConnection.callback with _ | hostname | _
  · exact h
  · exact h.upstreamHandshake id hostname
  · exact h.clientHandshake id

theorem Shares.dropTls (h : Shares outer D s t) (pointer : Option Nat) :
    Shares outer D (s.dropTls pointer) (t.dropTls pointer) := by
  have hsame : t.tls = s.tls := by rw [h.same, overlaid_tls]
  have hloop : t.loop_ = s.loop_.overlay outer D := by rw [h.same, overlaid_loop]
  cases pointer with
  | none => exact h
  | some id =>
    unfold Session.dropTls
    dsimp only
    rw [hsame, hloop]
    cases hc : s.tls[id]? with
    | none => exact h
    | some c =>
      dsimp only
      rw [overlay_entry s.loop_ (h.inside.tls id c hc)]
      split
      · exact h
      · exact h.closeTls id

theorem Shares.startTlsMitm (h : Shares outer D s t) (hostname : Bytes) :
    Together outer D (s.startTlsMitm w hostname) (t.startTlsMitm w hostname) := by
  have hmitm : Shares outer D { s with isTlsMitm_ := true } { t with isTlsMitm_ := true } := by
    obtain ⟨rfl, hin⟩ := h
    exact ⟨rfl, hin⟩
  refine hmitm.writeEstablished.bind fun _ _ h => h.stopClientRead.bind fun s _ h => ?_
  obtain ⟨rfl, hin⟩ := h
  rw [overlaid_upstream]
  cases hc : s.upstream_ with
  | none => exact Shares.crash ⟨rfl, hin⟩ _
  | some c =>
    have hD := hin.upstream c hc
    dsimp only [Connection.releaseSocket]
    rw [overlaid_loop, overlay_remove s.loop_ hD]
    exact (Shares.dropTls ⟨rfl, hin.dropUpstream.makeTls hD⟩ _).upstreamHandshake _ _

theorem Shares.startTunnel (h : Shares outer D s t) :
    Together outer D (s.startTunnel w) (t.startTunnel w) := by
  have h' := h
  obtain ⟨rfl, hin⟩ := h
  have htunnel : Shares outer D { s with isTunnel_ := true }
      { s.overlaid outer D with isTunnel_ := true } := ⟨rfl, hin⟩
  unfold Session.startTunnel
  rw [show (s.overlaid outer D).certGen_ = s.certGen_ from rfl]
  split
  · exact h'.startTlsMitm _
  · refine (htunnel.writeEstablished (w := w)).bind fun _ _ h => ?_
    exact h.setupUpstreamCallbacks.bind fun _ _ h => h.startUpstreamRead

theorem Shares.wrapUpstream (h : Shares outer D s t) :
    Shares outer D s.wrapUpstream t.wrapUpstream := by
  obtain ⟨heq, hin⟩ := h.closeUpstream
  have hconnecting := h.inside.connecting
  obtain ⟨rfl, hin₀⟩ := h
  unfold Session.wrapUpstream
  dsimp only
  rw [heq]
  exact ⟨rfl, hin.client, fun c hc => by cases hc; exact hconnecting, hin.tls, hin.invalid,
    hin.invalid⟩

theorem Shares.onUpstreamConnected (h : Shares outer D s t) :
    Together outer D (s.onUpstreamConnected w) (t.onUpstreamConnected w) := by
  have hwrap : Shares outer D (s.note (.connected s.isTlsMitm_)).wrapUpstream
      (t.note (.connected t.isTlsMitm_)).wrapUpstream := by
    have hsame : t.isTlsMitm_ = s.isTlsMitm_ := by rw [h.same, overlaid_isTlsMitm]
    rw [hsame]
    exact (h.note _).wrapUpstream
  have hclosed : t.closed_ = s.closed_ := by rw [h.same, overlaid_closed]
  unfold Session.onUpstreamConnected
  dsimp only
  rw [hclosed]
  split
  · exact h
  · have hisConnect : (t.note (.connected t.isTlsMitm_)).wrapUpstream.isConnect_ =
        (s.note (.connected s.isTlsMitm_)).wrapUpstream.isConnect_ := by
      rw [hwrap.same]
      rfl
    rw [hisConnect]
    split
    · exact hwrap.startTunnel
    · exact hwrap.forwardRequest

/-- The sockets that the kernel gives to the session are in `D`. -/
def Deals (D : Fd → Bool) (w : World) : Prop :=
  ∀ k fd, w.createSocket k = some fd → D fd = true ∧ fd ≠ kInvalidFd

theorem Shares.replaceConnecting (h : Shares outer D s t) {fd : Fd} (hfd : D fd = true)
    (hvalid : fd ≠ kInvalidFd) :
    Shares outer D (s.replaceConnecting fd) (t.replaceConnecting fd) := by
  obtain ⟨rfl, hin⟩ := h
  have hstray : (s.overlaid outer D).stray = s.stray := by
    unfold Session.stray
    rw [overlaid_closed, overlaid_connecting, overlaid_loop, overlay_entry s.loop_ hin.connecting]
  unfold Session.replaceConnecting
  rw [hstray, overlaid_connecting, overlaid_loop, overlay_closeFd s.loop_ hin.connecting]
  refine ⟨?_, hin.client, hin.upstream, hin.tls, hfd, hin.invalid⟩
  split
  · rw [overlay_openFd s.loop_ hfd hvalid]
    rfl
  · rw [overlay_openFd _ hfd hvalid]
    rfl

theorem Shares.connectUpstream (hw : Deals D w) (h : Shares outer D s t) (host : Bytes)
    (port : Nat) :
    Together outer D (s.connectUpstream w host port) (t.connectUpstream w host port) := by
  have hsockets : t.sockets = s.sockets := by rw [h.same]; rfl
  have hnext : Shares outer D { s with sockets := s.sockets + 1 }
      { t with sockets := s.sockets + 1 } := by
    obtain ⟨rfl, hin⟩ := h
    exact ⟨rfl, hin⟩
  unfold Session.connectUpstream
  dsimp only
  rw [hsockets]
  split
  · exact h.crash _
  · cases hfd : w.createSocket s.sockets with
    | none => exact hnext.answer _ _
    | some fd =>
      obtain ⟨hD, hvalid⟩ := hw _ _ hfd
      have hreplaced := hnext.replaceConnecting hD hvalid
      dsimp only
      cases w.connect s.sockets with
      | fails => exact hreplaced.answer _ _
      | connected => exact hreplaced.onUpstreamConnected
      | inProgress =>
        obtain ⟨heq, hin⟩ := hreplaced
        dsimp only
        rw [heq, overlaid_loop, overlay_watch _ hD]
        exact ⟨rfl, hin⟩

theorem Shares.handleConnect (hw : Deals D w) (h : Shares outer D s t) (req : HttpRequest) :
    Together outer D (s.handleConnect w req) (t.handleConnect w req) := by
  unfold Session.handleConnect
  cases connectTarget req.url with
  | none => exact h.crash _
  | some target =>
    have hhost : Shares outer D { s with connectHostname_ := target.1 }
        { t with connectHostname_ := target.1 } := by
      obtain ⟨rfl, hin⟩ := h
      exact ⟨rfl, hin⟩
    exact hhost.connectUpstream hw _ _

theorem Shares.onRequest (hw : Deals D w) (h : Shares outer D s t) (req : HttpRequest) :
    Together outer D (s.onRequest w req) (t.onRequest w req) := by
  obtain ⟨rfl, hin⟩ := h
  have hrequest : Shares outer D { s.note (.request req) with currentRequest_ := req }
      { (s.overlaid outer D).note (.request req) with currentRequest_ := req } := ⟨rfl, hin⟩
  have hconnect : Shares outer D
      { s.note (.request req) with currentRequest_ := req, isConnect_ := true }
      { (s.overlaid outer D).note (.request req) with
        currentRequest_ := req, isConnect_ := true } := ⟨rfl, hin⟩
  have hmitm : ((s.overlaid outer D).note (.request req)).isTlsMitm_ =
      (s.note (.request req)).isTlsMitm_ := rfl
  unfold Session.onRequest
  dsimp only
  rw [hmitm]
  split
  · exact hconnect.handleConnect hw req
  · split
    · exact hrequest.forwardRequest
    · exact hrequest.connectUpstream hw _ _

theorem Shares.clientEmission (hw : Deals D w) (h : Shares outer D s t) (e : Emission) :
    Together outer D (s.clientEmission w e) (t.clientEmission w e) := by
  cases e with
  | request req => exact h.onRequest hw req
  | body data last => exact h.onRequestBody data
  | response resp => exact h
  | messageComplete => exact h

theorem Shares.upstreamEmission (h : Shares outer D s t) (e : Emission) :
    Together outer D (s.upstreamEmission w e) (t.upstreamEmission w e) := by
  cases e with
  | response resp => exact h.onResponse resp
  | body data last => exact h.onResponseBody data
  | messageComplete => exact h.onResponseComplete
  | request req => exact h

theorem Shares.clientEvent (hw : Deals D w) (h : Shares outer D s t) (ev : ParserEvent) :
    Together outer D (s.clientEvent w ev) (t.clientEvent w ev) := by
  have hcodec : t.clientCodec_ = s.clientCodec_ := by rw [h.same]; rfl
  unfold Session.clientEvent
  rw [hcodec]
  rcases s.clientCodec_.handle ev with _ | ⟨codec, emissions⟩
  · exact h.crash _
  · have hnext : Shares outer D ({ s with clientCodec_ := codec }.note (.clientParsed ev))
        ({ t with clientCodec_ := codec }.note (.clientParsed ev)) := by
      obtain ⟨rfl, hin⟩ := h
      exact ⟨rfl, hin⟩
    exact Alike.foldlM (fun _ _ e h => h.clientEmission hw e) emissions hnext

theorem Shares.upstreamEvent (h : Shares outer D s t) (ev : ParserEvent) :
    Together outer D (s.upstreamEvent w ev) (t.upstreamEvent w ev) := by
  have hcodec : t.upstreamCodec_ = s.upstreamCodec_ := by rw [h.same]; rfl
  unfold Session.upstreamEvent
  rw [hcodec]
  rcases s.upstreamCodec_.handle ev with _ | ⟨codec, emissions⟩
  · exact h.crash _
  · have hnext : Shares outer D ({ s with upstreamCodec_ := codec }.note (.upstreamParsed ev))
        ({ t with upstreamCodec_ := codec }.note (.upstreamParsed ev)) := by
      obtain ⟨rfl, hin⟩ := h
      exact ⟨rfl, hin⟩
    exact Alike.foldlM (fun _ _ e h => h.upstreamEmission e) emissions hnext

theorem Shares.decodeClient (hw : Deals D w) (h : Shares outer D s t) (report : ParserReport) :
    Together outer D (s.decodeClient w report) (t.decodeClient w report) := by
  have hcodec : t.clientCodec_ = s.clientCodec_ := by rw [h.same]; rfl
  unfold Session.decodeClient
  rw [hcodec]
  split
  · exact h
  · refine (Alike.foldlM (fun _ _ ev h => h.clientEvent hw ev) report.events h).bind fun s t h => ?_
    obtain ⟨rfl, hin⟩ := h
    exact ⟨rfl, hin⟩

theorem Shares.decodeUpstream (h : Shares outer D s t) (report : ParserReport) :
    Together outer D (s.decodeUpstream w report) (t.decodeUpstream w report) := by
  have hcodec : t.upstreamCodec_ = s.upstreamCodec_ := by rw [h.same]; rfl
  unfold Session.decodeUpstream
  rw [hcodec]
  split
  · exact h
  · refine (Alike.foldlM (fun _ _ ev h => h.upstreamEvent ev) report.events h).bind fun s t h => ?_
    obtain ⟨rfl, hin⟩ := h
    exact ⟨rfl, hin⟩

theorem Shares.clientErrno (h : Shares outer D s t) :
    t.clientCodec_.errno = s.clientCodec_.errno := by
  rw [h.same]
  rfl

theorem Shares.upstreamErrno (h : Shares outer D s t) :
    t.upstreamCodec_.errno = s.upstreamCodec_.errno := by
  rw [h.same]
  rfl

theorem Shares.onClientData (hw : Deals D w) (h : Shares outer D s t) (data : Buffer)
    (report : ParserReport) :
    Together outer D (s.onClientData w data report) (t.onClientData w data report) := by
  have hnote := h.note (.clientData data.linearize)
  have hdecode : Together outer D
      (do
        let s ← (s.note (.clientData data.linearize)).decodeClient w report
        if s.clientCodec_.errno = .failed then
          .ok ((s.sendError w 400 (text "Bad Request")).close .clientParseError)
        else .ok s)
      (do
        let t ← (t.note (.clientData data.linearize)).decodeClient w report
        if t.clientCodec_.errno = .failed then
          .ok ((t.sendError w 400 (text "Bad Request")).close .clientParseError)
        else .ok t) := by
    refine (hnote.decodeClient hw report).bind fun _ _ h => ?_
    rw [h.clientErrno]
    split
    · exact (h.answer _ _).close .clientParseError
    · exact h
  set s₁ := s.note (.clientData data.linearize)
  set t₁ := t.note (.clientData data.linearize)
  have htunnel : t₁.isTunnel_ = s₁.isTunnel_ := by rw [hnote.same, overlaid_isTunnel]
  have hupstream : t₁.upstream_ = s₁.upstream_ := by rw [hnote.same, overlaid_upstream]
  unfold Session.onClientData
  dsimp only
  rw [htunnel, hupstream]
  cases s₁.isTunnel_ with
  | false => exact hdecode
  | true =>
    cases hc : s₁.upstream_ with
    | none => exact hdecode
    | some c => exact (hnote.writeUpstream hc data).1

theorem Shares.onUpstreamData (h : Shares outer D s t) (data : Buffer) (report : ParserReport) :
    Together outer D (s.onUpstreamData w data report) (t.onUpstreamData w data report) := by
  have hnote := h.note (.upstreamData data.linearize)
  have htunnel : (t.note (.upstreamData data.linearize)).isTunnel_ =
      (s.note (.upstreamData data.linearize)).isTunnel_ := by rw [hnote.same, overlaid_isTunnel]
  unfold Session.onUpstreamData
  dsimp only
  rw [htunnel]
  split
  · exact (hnote.writeToClient data).1
  · refine (hnote.decodeUpstream report).bind fun _ _ h => ?_
    rw [h.upstreamErrno]
    split
    · exact h.close .upstreamParseError
    · exact h

/-- A read keeps the descriptor, or closes. -/
theorem handleRead_inside (hinvalid : D kInvalidFd = true) {c : Connection}
    (hc : D c.socket_ = true) (answer : ReadAnswer) (l : KqueueLoop) :
    D (c.handleRead answer l).1.socket_ = true := by
  unfold Connection.handleRead
  split
  · exact hc
  · cases answer with
    | fails => exact hc
    | wouldBlock => exact hc
    | bytes data =>
      dsimp only
      split
      · exact closed_inside hinvalid hc l
      · exact hc

theorem Shares.clientRead (hw : Deals D w) (h : Shares outer D s t) (a : Arrival) :
    Together outer D (s.clientRead w a) (t.clientRead w a) := by
  obtain ⟨rfl, hin⟩ := h
  unfold Session.clientRead
  rw [overlaid_client, overlaid_loop]
  cases hc : s.client_ with
  | none => exact Shares.crash ⟨rfl, hin⟩ _
  | some c =>
    have hD := hin.client c hc
    have hread := handleRead_inside hin.invalid hD a.answer s.loop_
    dsimp only
    rw [c.handleRead_overlay a.answer s.loop_ hD]
    rcases hr : c.handleRead a.answer s.loop_ with ⟨d, l, outcome⟩
    rw [hr] at hread
    have hset : Shares outer D { s with client_ := some d, loop_ := l }
        { s.overlaid outer D with client_ := some d, loop_ := l.overlay outer D } :=
      ⟨rfl, hin.setClient hread⟩
    cases outcome with
    | nothing => exact hset
    | data buf =>
      dsimp only
      split
      · exact hset.onClientData hw buf a.report
      · exact hset
    | closed =>
      dsimp only
      split
      · exact hset.close .clientEnd
      · exact hset
    | failed =>
      dsimp only
      split
      · exact (hset.close .clientError).closeClient
      · exact hset.closeClient

theorem Shares.upstreamRead (h : Shares outer D s t) (id : Nat) (a : Arrival) :
    Together outer D (s.upstreamRead w id a) (t.upstreamRead w id a) := by
  obtain ⟨rfl, hin⟩ := h
  unfold Session.upstreamRead
  rw [overlaid_upstream, overlaid_loop]
  cases hc : s.upstream_ with
  | none => exact Shares.crash ⟨rfl, hin⟩ _
  | some c =>
    have hD := hin.upstream c hc
    have hread := handleRead_inside hin.invalid hD a.answer s.loop_
    dsimp only
    split
    · exact Shares.crash ⟨rfl, hin⟩ _
    rw [c.handleRead_overlay a.answer s.loop_ hD]
    rcases hr : c.handleRead a.answer s.loop_ with ⟨d, l, outcome⟩
    rw [hr] at hread
    have hset : Shares outer D { s with upstream_ := some d, loop_ := l }
        { s.overlaid outer D with upstream_ := some d, loop_ := l.overlay outer D } :=
      ⟨rfl, hin.setUpstream hread⟩
    cases outcome with
    | nothing => exact hset
    | data buf =>
      dsimp only
      split
      · exact hset.onUpstreamData buf a.report
      · exact hset
    | closed =>
      dsimp only
      split
      · exact hset.close .upstreamEnd
      · exact hset
    | failed =>
      dsimp only
      split
      · exact (hset.close .upstreamError).closeUpstream
      · exact hset.closeUpstream

theorem Shares.clientFlush (h : Shares outer D s t) :
    Together outer D (s.clientFlush w) (t.clientFlush w) := by
  have hsame : t.client_ = s.client_ := by rw [h.same, overlaid_client]
  have hloop : t.loop_ = s.loop_.overlay outer D := by rw [h.same, overlaid_loop]
  unfold Session.clientFlush
  rw [hsame, hloop]
  cases hc : s.client_ with
  | none => exact h.crash _
  | some c =>
    have hD := h.inside.client c hc
    dsimp only
    rw [c.handleWrite_overlay w.clientSend s.loop_ hD]
    exact h.afterClientFlush ((Connection.handleWrite_link _ c _).socket.symm ▸ hD) _ _

theorem Shares.upstreamFlush (h : Shares outer D s t) (id : Nat) :
    Together outer D (s.upstreamFlush w id) (t.upstreamFlush w id) := by
  have hsame : t.upstream_ = s.upstream_ := by rw [h.same, overlaid_upstream]
  have hloop : t.loop_ = s.loop_.overlay outer D := by rw [h.same, overlaid_loop]
  unfold Session.upstreamFlush
  rw [hsame, hloop]
  cases hc : s.upstream_ with
  | none => exact h.crash _
  | some c =>
    have hD := h.inside.upstream c hc
    dsimp only
    split
    · exact h.crash _
    rw [c.handleWrite_overlay (w.upstreamSend c.id) s.loop_ hD]
    exact h.afterUpstreamFlush ((Connection.handleWrite_link _ c _).socket.symm ▸ hD) _ _

theorem Shares.connectionReady (hw : Deals D w) (h : Shares outer D s t) (id : Nat) (a : Arrival) :
    Together outer D (s.connectionReady w id a) (t.connectionReady w id a) := by
  have hread : Together outer D (s.connectionReadable w id a) (t.connectionReadable w id a) := by
    unfold Session.connectionReadable
    split
    · split
      · exact h.clientRead hw a
      · exact h.upstreamRead id a
    · exact h
  refine hread.bind fun _ _ h => ?_
  split
  · split
    · exact h.clientFlush
    · exact h.upstreamFlush id
  · exact h

theorem Shares.onTlsData (hw : Deals D w) (h : Shares outer D s t) (c : TlsConnection)
    (report : ParserReport) :
    Together outer D (s.onTlsData w c report) (t.onTlsData w c report) := by
  unfold Session.onTlsData
  split
  · exact h
  · split
    · refine (h.decodeClient hw report).bind fun _ _ h => ?_
      rw [h.clientErrno]
      split
      · exact h.close .clientParseError
      · exact h
    · refine (h.decodeUpstream report).bind fun _ _ h => ?_
      rw [h.upstreamErrno]
      split
      · exact h.close .upstreamParseError
      · exact h

theorem Shares.endTlsRead (h : Shares outer D s t) (id : Nat) (wired : Bool) (err : SslError) :
    Shares outer D (s.endTlsRead id wired err) (t.endTlsRead id wired err) := by
  cases err with
  | wantRead => exact h
  | zeroReturn | syscall =>
    unfold Session.endTlsRead
    dsimp only
    split
    · exact (h.closeTls id).close .tlsEnd
    · exact h.closeTls id
  | wantWrite | ssl => exact h.closeTls id

theorem Shares.tlsRead (hw : Deals D w) (h : Shares outer D s t) (id : Nat) (c : TlsConnection)
    (a : Arrival) : Together outer D (s.tlsRead w id c a) (t.tlsRead w id c a) := by
  unfold Session.tlsRead
  split
  · refine (Alike.foldlM (fun _ _ report h => h.onTlsData hw c report) a.reads h).bind
      fun _ _ h => ?_
    exact h.endTlsRead id c.wired a.readEnd
  · exact h

theorem Shares.tlsReady (hw : Deals D w) (h : Shares outer D s t) (id : Nat) (a : Arrival) :
    Together outer D (s.tlsReady w id a) (t.tlsReady w id a) := by
  have hsame : t.tls = s.tls := by rw [h.same, overlaid_tls]
  unfold Session.tlsReady
  rw [hsame]
  cases s.tls[id]? with
  | none => exact h.crash _
  | some c =>
    dsimp only
    split
    · exact h
    split
    · exact h.continueHandshake id
    refine (h.tlsRead hw id c a).bind fun s t h => ?_
    have hsame : t.tls = s.tls := by rw [h.same, overlaid_tls]
    have hloop : t.loop_ = s.loop_.overlay outer D := by rw [h.same, overlaid_loop]
    rw [hsame, hloop]
    cases hc : s.tls[id]? with
    | none => exact h.crash _
    | some c =>
      have hD := h.inside.tls id c hc
      dsimp only
      split
      · exact h
      rw [c.doWrite_overlay (w.sslWrite id) id s.loop_ hD]
      exact h.setTls id _ (tls_doWrite_inside h.inside.invalid hD _ id _)

/-- An event of one of its descriptors does to the session on the shared table what it
does to the session on its own. -/
theorem Shares.ready (hw : Deals D w) (h : Shares outer D s t) {fd : Fd} (hfd : D fd = true)
    (a : Arrival) : Together outer D (s.ready w fd a) (t.ready w fd a) := by
  have hloop : t.loop_ = s.loop_.overlay outer D := by rw [h.same, overlaid_loop]
  unfold Session.ready
  rw [hloop, overlay_entry s.loop_ hfd]
  cases s.loop_.fdEntries_ fd with
  | none => exact h
  | some entry =>
    dsimp only
    cases entry.callback with
    | connection id => exact h.connectionReady hw id a
    | connect =>
      have hremove : Shares outer D { s with loop_ := s.loop_.remove fd }
          { t with loop_ := (s.loop_.overlay outer D).remove fd } := by
        obtain ⟨rfl, hin⟩ := h
        rw [overlay_remove s.loop_ hfd]
        exact ⟨rfl, hin⟩
      exact hremove.onUpstreamConnected
    | tls id => exact h.tlsReady hw id a

/-- A new session, which knows of one descriptor. -/
theorem start_inside {client : Fd} (hc : D client = true) (hinvalid : D kInvalidFd = true)
    (certGen payloadInspector : Bool) : (start client certGen payloadInspector).Inside D := by
  refine ⟨fun c h => ?_, fun c h => absurd h (by simp [start]), fun id c h => ?_, hinvalid,
    hinvalid⟩
  · cases h
    exact hc
  · exact absurd h (by simp [start])

end Session

end DeepSeer
