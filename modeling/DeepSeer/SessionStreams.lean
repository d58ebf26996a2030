import DeepSeer.SessionPointers

/-!
The streams that a session writes: to the client and to the upstream as the
session chooses them at the time. Data that is handed over while the connection
is open is at the end of its stream, however much of it the socket takes.
-/
namespace DeepSeer

open ByteMemory ByteText FallibleRuns

theorem Connection.write_written (answer : Nat → SendAnswer) {c : Connection}
    (h : c.closed_ = false) (data : Buffer) (loop : KqueueLoop) :
    (c.write answer data loop).1.written = c.written ++ data.linearize := by
  simp only [Connection.write, h, Bool.false_eq_true, if_false]
  exact (Connection.flushNow_link answer _ loop).written

namespace Session

/-- The bytes written so far to the client. -/
def clientStream (s : Session) : Bytes :=
  match s.isTlsMitm_, s.tlsClient_ with
  | true, some id => TlsFlow.stream s.tls id
  | _, _ => (s.client_.map Connection.written).getD []

/-- The bytes written so far to the upstream. -/
def upstreamStream (s : Session) : Bytes :=
  match s.isTlsMitm_, s.tlsUpstream_ with
  | true, some id => TlsFlow.stream s.tls id
  | _, _ => (s.upstream_.map Connection.written).getD []

/-- Whether data handed to `writeToUpstream` goes to an open connection. -/
def reachesUpstream (s : Session) : Bool :=
  match s.isTlsMitm_, s.tlsUpstream_ with
  | true, some id => (s.tls[id]?.map fun t => !t.closed_).getD false
  | _, _ => (s.upstream_.map Connection.connected).getD false

variable {w : World} {D : Side → Prop}

/-- What follows a flush writes nothing. -/
theorem afterClientFlush_loose (w : World) (s : Session) (c : Connection) (loop : KqueueLoop)
    (flushed : Connection.Flushed) : Loose w noSide { s with client_ := some c, loop_ := loop }
      (s.afterClientFlush (c, loop, flushed)) := by
  cases flushed with
  | settled => exact .refl w _ _
  | failed =>
    simp only [afterClientFlush]
    split
    · exact ((quiet_close _ _).trans (quiet_closeClient (.inl (close_closed _ _)))).toLoose
    · next hw => exact (quiet_closeClient (.inr fun d hd => by cases hd; simpa using hw)).toLoose

theorem afterUpstreamFlush_loose (w : World) (s : Session) (c : Connection) (loop : KqueueLoop)
    (flushed : Connection.Flushed) : Loose w noSide { s with upstream_ := some c, loop_ := loop }
      (s.afterUpstreamFlush (c, loop, flushed)) := by
  cases flushed with
  | settled => exact .refl w _ _
  | failed =>
    simp only [afterUpstreamFlush]
    split
    · exact ((quiet_close _ _).trans (quiet_closeUpstream (.inl (close_closed _ _)))).toLoose
    · next hw => exact (quiet_closeUpstream (.inr fun d hd => by cases hd; simpa using hw)).toLoose

/-- A TLS pointer that counts, or none. -/
theorem pointer_cases (mitm : Bool) (pointer : Option Nat) :
    (∃ id, mitm = true ∧ pointer = some id) ∨ mitm = false ∨ pointer = none := by
  cases mitm <;> cases pointer <;> simp

theorem clientStream_tls {s : Session} {id : Nat} (hm : s.isTlsMitm_ = true)
    (hid : s.tlsClient_ = some id) : s.clientStream = TlsFlow.stream s.tls id := by
  simp [clientStream, hm, hid]

theorem clientStream_plain {s : Session} (h : s.isTlsMitm_ = false ∨ s.tlsClient_ = none) :
    s.clientStream = (s.client_.map Connection.written).getD [] := by
  rcases h with h | h <;> simp [clientStream, h]

theorem upstreamStream_tls {s : Session} {id : Nat} (hm : s.isTlsMitm_ = true)
    (hid : s.tlsUpstream_ = some id) : s.upstreamStream = TlsFlow.stream s.tls id := by
  simp [upstreamStream, hm, hid]

theorem upstreamStream_plain {s : Session} (h : s.isTlsMitm_ = false ∨ s.tlsUpstream_ = none) :
    s.upstreamStream = (s.upstream_.map Connection.written).getD [] := by
  rcases h with h | h <;> simp [upstreamStream, h]

theorem reachesClient_tls {s : Session} {id : Nat} (hm : s.isTlsMitm_ = true)
    (hid : s.tlsClient_ = some id) :
    s.reachesClient = true ↔ ∃ t, s.tls[id]? = some t ∧ t.closed_ = false := by
  simp [reachesClient, hm, hid]
  cases s.tls[id]? <;> simp

theorem reachesClient_plain {s : Session} (h : s.isTlsMitm_ = false ∨ s.tlsClient_ = none) :
    s.reachesClient = true ↔ ∃ c, s.client_ = some c ∧ c.closed_ = false := by
  rcases h with h | h <;> cases hc : s.client_ <;> simp [reachesClient, h, hc, Connection.connected]

theorem reachesUpstream_tls {s : Session} {id : Nat} (hm : s.isTlsMitm_ = true)
    (hid : s.tlsUpstream_ = some id) :
    s.reachesUpstream = true ↔ ∃ t, s.tls[id]? = some t ∧ t.closed_ = false := by
  simp [reachesUpstream, hm, hid]
  cases s.tls[id]? <;> simp

theorem reachesUpstream_plain {s : Session} (h : s.isTlsMitm_ = false ∨ s.tlsUpstream_ = none) :
    s.reachesUpstream = true ↔ ∃ c, s.upstream_ = some c ∧ c.closed_ = false := by
  rcases h with h | h <;> cases hc : s.upstream_ <;>
    simp [reachesUpstream, h, hc, Connection.connected]

/-- An open TLS connection of the table takes the data. -/
theorem writeTls_stream (w : World) {s : Session} {id : Nat} {t : TlsConnection}
    (ht : s.tls[id]? = some t) (ho : t.closed_ = false) (data : Buffer) :
    TlsFlow.stream (s.writeTls w id data).1.tls id = TlsFlow.stream s.tls id ++ data.linearize := by
  obtain ⟨hid, -⟩ := List.getElem?_eq_some_iff.mp ht
  have hw := (t.write_kin (w.sslWrite id) id data s.loop_).2 ho
  simp only [writeTls, ht, setTls, TlsFlow.stream, List.getElem?_set_self hid, Option.map_some,
    Option.getD_some]
  exact hw

/-- What reaches the client is at the end of its stream. -/
theorem writeToClient_stream (w : World) {s : Session} (h : s.reachesClient = true)
    (data : Buffer) :
    (s.writeToClient w data).1.clientStream = s.clientStream ++ data.linearize := by
  rcases pointer_cases s.isTlsMitm_ s.tlsClient_ with ⟨id, hm, hid⟩ | hp
  · obtain ⟨t, ht, ho⟩ := (reachesClient_tls hm hid).mp h
    have hwrite : s.writeToClient w data = s.writeTls w id data := by simp [writeToClient, hm, hid]
    have hkeep : (s.writeTls w id data).1.isTlsMitm_ = s.isTlsMitm_ ∧
        (s.writeTls w id data).1.tlsClient_ = s.tlsClient_ := by
      simp only [writeTls, ht]
      exact ⟨rfl, rfl⟩
    rw [hwrite, clientStream_tls (hkeep.1.trans hm) (hkeep.2.trans hid), clientStream_tls hm hid,
      writeTls_stream w ht ho]
  · obtain ⟨c, hc, ho⟩ := (reachesClient_plain hp).mp h
    have hwrite : s.writeToClient w data = s.writeClient w c data := by
      rcases hp with hp | hp <;> simp [writeToClient, hp, hc, Connection.connected, ho]
    have hl := afterClientFlush_loose w s (c.write w.clientSend data s.loop_).1
      (c.write w.clientSend data s.loop_).2.2.1 (c.write w.clientSend data s.loop_).2.2.2
    obtain ⟨d, hd, hm⟩ := rel_forth hl.client rfl
    have hflags := hp.imp hl.isTlsMitm.trans hl.tlsClient.trans
    rw [hwrite, clientStream_plain hp, hc]
    refine (clientStream_plain hflags).trans ?_
    rw [hd]
    exact (hm.silent id).trans (c.write_written w.clientSend ho data s.loop_)

/-- What reaches the upstream is at the end of its stream. -/
theorem writeToUpstream_stream (w : World) {s : Session} (h : s.reachesUpstream = true)
    (data : Buffer) :
    (s.writeToUpstream w data).1.upstreamStream = s.upstreamStream ++ data.linearize := by
  rcases pointer_cases s.isTlsMitm_ s.tlsUpstream_ with ⟨id, hm, hid⟩ | hp
  · obtain ⟨t, ht, ho⟩ := (reachesUpstream_tls hm hid).mp h
    have hwrite : s.writeToUpstream w data = s.writeTls w id data := by
      simp [writeToUpstream, hm, hid]
    have hkeep : (s.writeTls w id data).1.isTlsMitm_ = s.isTlsMitm_ ∧
        (s.writeTls w id data).1.tlsUpstream_ = s.tlsUpstream_ := by
      simp only [writeTls, ht]
      exact ⟨rfl, rfl⟩
    rw [hwrite, upstreamStream_tls (hkeep.1.trans hm) (hkeep.2.trans hid),
      upstreamStream_tls hm hid, writeTls_stream w ht ho]
  · obtain ⟨c, hc, ho⟩ := (reachesUpstream_plain hp).mp h
    have hwrite : s.writeToUpstream w data = s.writeUpstream w c data := by
      rcases hp with hp | hp <;> simp [writeToUpstream, hp, hc, Connection.connected, ho]
    have hl := afterUpstreamFlush_loose w s (c.write (w.upstreamSend c.id) data s.loop_).1
      (c.write (w.upstreamSend c.id) data s.loop_).2.2.1
      (c.write (w.upstreamSend c.id) data s.loop_).2.2.2
    obtain ⟨d, hd, hm⟩ := rel_forth hl.upstream rfl
    have hflags := hp.imp hl.isTlsMitm.trans hl.tlsUpstream.trans
    rw [hwrite, upstreamStream_plain hp, hc]
    refine (upstreamStream_plain hflags).trans ?_
    rw [hd]
    exact (hm.silent id).trans (c.write_written (w.upstreamSend c.id) ho data s.loop_)

/-- An open connection of the table was open before. -/
theorem tls_open_back {s s' : Session} (h : Loose w D s s') {id : Nat} {t' : TlsConnection}
    (ht' : s'.tls[id]? = some t') (ho : t'.closed_ = false) :
    ∃ t, s.tls[id]? = some t ∧ t.closed_ = false := by
  obtain ⟨t, ht, hf⟩ := h.tls.back ht'
  refine ⟨t, ht, ?_⟩
  by_contra hc
  exact absurd (ho.symm.trans (hf.closed (by simpa using hc)).1) (by decide)

theorem connection_open_back {R : Connection → Connection → Prop} {o o' : Option Connection}
    (h : Option.Rel R o o') (hR : ∀ c c', R c c' → c.Kin c') {c' : Connection} (hc' : o' = some c')
    (ho : c'.closed_ = false) : ∃ c, o = some c ∧ c.closed_ = false := by
  obtain ⟨c, hc, hr⟩ := rel_back h hc'
  refine ⟨c, hc, ?_⟩
  by_contra hcl
  exact absurd (ho.symm.trans ((hR c c' hr).closed (by simpa using hcl)).1) (by decide)

theorem Loose.reachesClient {s s' : Session} (h : Loose w D s s')
    (hr : s'.reachesClient = true) : s.reachesClient = true := by
  rcases pointer_cases s.isTlsMitm_ s.tlsClient_ with ⟨id, hm, hid⟩ | hp
  · obtain ⟨t', ht', ho⟩ :=
      (reachesClient_tls (h.isTlsMitm.trans hm) (h.tlsClient.trans hid)).mp hr
    exact (reachesClient_tls hm hid).mpr (tls_open_back h ht' ho)
  · obtain ⟨c', hc', ho⟩ :=
      (reachesClient_plain (hp.imp h.isTlsMitm.trans h.tlsClient.trans)).mp hr
    exact (reachesClient_plain hp).mpr
      (connection_open_back h.client (fun _ _ hm => hm.kin) hc' ho)

theorem Loose.reachesUpstream {s s' : Session} (h : Loose w D s s')
    (hr : s'.reachesUpstream = true) : s.reachesUpstream = true := by
  rcases pointer_cases s.isTlsMitm_ s.tlsUpstream_ with ⟨id, hm, hid⟩ | hp
  · obtain ⟨t', ht', ho⟩ :=
      (reachesUpstream_tls (h.isTlsMitm.trans hm) (h.tlsUpstream.trans hid)).mp hr
    exact (reachesUpstream_tls hm hid).mpr (tls_open_back h ht' ho)
  · obtain ⟨c', hc', ho⟩ :=
      (reachesUpstream_plain (hp.imp h.isTlsMitm.trans h.tlsUpstream.trans)).mp hr
    exact (reachesUpstream_plain hp).mpr
      (connection_open_back h.upstream (fun _ _ hm => hm.kin) hc' ho)

/-- Nothing is written to the upstream where that side is left alone. -/
theorem Loose.upstreamStream {s s' : Session} (h : Loose w D s s') (hD : ¬ D .upstream)
    (htls : ∀ id t, s.tlsUpstream_ = some id → s.tls[id]? = some t → ¬ D t.side) :
    s'.upstreamStream = s.upstreamStream := by
  rcases pointer_cases s.isTlsMitm_ s.tlsUpstream_ with ⟨id, hm, hid⟩ | hp
  · rw [upstreamStream_tls (h.isTlsMitm.trans hm) (h.tlsUpstream.trans hid),
      upstreamStream_tls hm hid]
    exact h.tls.stream_eq fun t ht => htls id t hid ht
  · rw [upstreamStream_plain (hp.imp h.isTlsMitm.trans h.tlsUpstream.trans),
      upstreamStream_plain hp]
    cases hu : s.upstream_ with
    | none => simp [rel_none h.upstream hu]
    | some c =>
      obtain ⟨c', hc', hm⟩ := rel_forth h.upstream hu
      simp [hc', hm.silent hD]

/-- The stream of the upstream only grows. -/
theorem Loose.upstreamStream_grows {s s' : Session} (h : Loose w D s s') :
    s.upstreamStream <+: s'.upstreamStream := by
  rcases pointer_cases s.isTlsMitm_ s.tlsUpstream_ with ⟨id, hm, hid⟩ | hp
  · rw [upstreamStream_tls (h.isTlsMitm.trans hm) (h.tlsUpstream.trans hid),
      upstreamStream_tls hm hid]
    cases ht : s.tls[id]? with
    | none => simp [TlsFlow.stream, ht]
    | some t =>
      obtain ⟨t', ht', hf⟩ := h.tls.forth ht
      simp [TlsFlow.stream, ht, ht', hf.written]
  · rw [upstreamStream_plain (hp.imp h.isTlsMitm.trans h.tlsUpstream.trans),
      upstreamStream_plain hp]
    cases hu : s.upstream_ with
    | none => simp
    | some c =>
      obtain ⟨c', hc', hm⟩ := rel_forth h.upstream hu
      simp [hc', hm.kin.written]

/-- An upstream that can be reached is ready to be written to. -/
theorem prepareUpstream_ok (w : World) {s : Session} (h : s.reachesUpstream = true) :
    ∃ s', s.prepareUpstream = .ok s' ∧ Quiet w noSide s s' ∧ s'.reachesUpstream = true := by
  unfold prepareUpstream
  split
  · exact ⟨s, rfl, .refl w _ s, h⟩
  · next hm =>
    have hplain : s.isTlsMitm_ = false := by simpa using hm
    obtain ⟨c, hc, ho⟩ := (reachesUpstream_plain (.inl hplain)).mp h
    obtain ⟨s', e, q, d, hd, -, hcl⟩ := readUpstream_ok w hc
    exact ⟨s', e, q, (reachesUpstream_plain (.inl (q.isTlsMitm.trans hplain))).mpr
      ⟨d, hd, hcl.trans ho⟩⟩

theorem originForm_oneLine {url : Bytes} (h : 13 ∉ url) : 13 ∉ originForm url := by
  unfold originForm
  split
  · exact h
  · split
    · exact fun hmem => h (List.mem_of_mem_drop hmem)
    · decide

/-- A request head is forwarded with its target in origin form. -/
def forwardedHead (req : HttpRequest) : Bytes :=
  Http1Codec.encodedRequest { req with url := originForm req.url }

/-- The session when the head is written. -/
def headSent (w : World) (s : Session) : Session :=
  let s := s.note (.forwarded s.currentRequest_ s.link)
  let s := { s with currentRequest_.url := originForm s.currentRequest_.url }
  (s.writeToUpstream w (Http1Codec.encodeRequest s.currentRequest_ {})).1

theorem sendRequest_eq (w : World) (s : Session) : s.sendRequest w =
    if (s.headSent w).pendingBody_.empty then s.headSent w else (s.headSent w).sendPending w := rfl

theorem headSent_stream (w : World) {s : Session} (h : s.reachesUpstream = true) :
    (s.headSent w).upstreamStream = s.upstreamStream ++ forwardedHead s.currentRequest_ := by
  have hstream := writeToUpstream_stream w
    (s := { s.note (.forwarded s.currentRequest_ s.link) with
      currentRequest_.url := originForm s.currentRequest_.url }) h
    (Http1Codec.encodeRequest { s.currentRequest_ with url := originForm s.currentRequest_.url } {})
  rw [(Http1Codec.encodeRequest_proper _).2] at hstream
  exact hstream

/-- Forwarding puts the head at the end of the stream, and at most the body that
has arrived after it. -/
theorem forwardRequest_stream (w : World) {s : Session} (h : s.reachesUpstream = true) :
    ∃ s' rest, s.forwardRequest w = .ok s' ∧
      s'.upstreamStream = s.upstreamStream ++ (forwardedHead s.currentRequest_ ++ rest) := by
  obtain ⟨s₁, e₁, q₁, hr₁⟩ := prepareUpstream_ok w h
  have hgrows : (s₁.headSent w).upstreamStream <+: (s₁.sendRequest w).upstreamStream := by
    rw [sendRequest_eq]
    split
    · exact List.prefix_refl _
    · exact (quiet_sendPending (w := w) (toUpstream_any _)).toLoose.upstreamStream_grows
  obtain ⟨rest, hrest⟩ := hgrows
  refine ⟨s₁.sendRequest w, rest, by rw [forwardRequest, e₁]; rfl, ?_⟩
  rw [← hrest, headSent_stream w hr₁, q₁.upstreamStream id fun _ _ _ _ h => h, q₁.currentRequest,
    List.append_assoc]

end Session

end DeepSeer
