import DeepSeer.Exchanges
import DeepSeer.ResponseDelivery
import DeepSeer.Tunnels

/-!
What a session has written is with the kernel or waits in a write buffer, in the order in
which it was written. What is known of the streams that a session writes is known of the
bytes that its sockets have taken.
-/
namespace DeepSeer

open ByteMemory ByteText FallibleRuns

namespace Connection

/-- The kernel has taken a front of what was written, and the rest is in the write buffer. -/
abbrev Carries (c : Connection) : Prop := Accounts c c.written

theorem Accounts.carries {c : Connection} {written : Bytes} (h : Accounts c written)
    (hw : c.written = written) : c.Carries := ⟨h.sound, h.conserved.trans hw.symm⟩

theorem carries_new (id : Nat) (fd : Fd) : ({ id := id, socket_ := fd } : Connection).Carries :=
  ⟨Buffer.represents_empty, rfl⟩

variable {answer : Nat → SendAnswer} {c : Connection}

/-- A change of neither the data nor the buffer. -/
theorem Carries.same (h : c.Carries) {d : Connection} (hb : d.writeBuf_ = c.writeBuf_)
    (ha : d.accepted = c.accepted) (hw : d.written = c.written) : d.Carries :=
  ⟨hb ▸ h.sound, by rw [ha, hb, hw, h.conserved]⟩

theorem Carries.close (h : c.Carries) (loop : KqueueLoop) : (c.close loop).1.Carries := by
  unfold Connection.close
  split
  · exact h
  · exact h.same rfl rfl rfl

theorem Carries.startRead (h : c.Carries) (loop : KqueueLoop) : (c.startRead loop).1.Carries := by
  unfold Connection.startRead
  split
  · exact h
  · exact h.same rfl rfl rfl

theorem Carries.stopRead (h : c.Carries) (loop : KqueueLoop) : (c.stopRead loop).1.Carries := by
  unfold Connection.stopRead
  split
  · exact h
  · exact h.same rfl rfl rfl

theorem Carries.handleWrite (h : c.Carries) (loop : KqueueLoop) :
    (c.handleWrite answer loop).1.Carries :=
  (Accounts.handleWrite h loop).carries (handleWrite_link answer c loop).written

theorem Carries.write (h : c.Carries) {data : Buffer} (hd : data.Represents data.linearize)
    (loop : KqueueLoop) : (c.write answer data loop).1.Carries := by
  cases ho : c.closed_ with
  | true => rwa [(closed_stays ho loop).2.2.2.2.1]
  | false => exact (Accounts.write h ho hd loop).carries (write_written answer ho data loop)

theorem Carries.writeText (h : c.Carries) (data : Bytes) (loop : KqueueLoop) :
    (c.writeText answer data loop).1.Carries := by
  cases ho : c.closed_ with
  | true => rwa [(closed_stays ho loop).2.2.2.2.2.1]
  | false =>
    refine (Accounts.writeText h ho data loop).carries ?_
    simp only [Connection.writeText, ho, Bool.false_eq_true, if_false]
    exact (flushNow_link answer _ loop).written

end Connection

namespace TlsConnection

/-- OpenSSL has taken a front of what was written, and the rest is in the write buffer. -/
structure Carries (t : TlsConnection) : Prop where
  sound : t.writeBuf_.Represents t.writeBuf_.linearize
  conserved : t.accepted ++ t.writeBuf_.linearize = t.written

variable {t : TlsConnection}

/-- A change of neither the data nor the buffer. -/
theorem Carries.same (h : t.Carries) {d : TlsConnection} (hb : d.writeBuf_ = t.writeBuf_)
    (ha : d.accepted = t.accepted) (hw : d.written = t.written) : d.Carries :=
  ⟨hb ▸ h.sound, by rw [ha, hb, hw, h.conserved]⟩

theorem Carries.close (h : t.Carries) (loop : KqueueLoop) : (t.close loop).1.Carries := by
  unfold TlsConnection.close
  split
  · exact h
  · exact h.same rfl rfl rfl

theorem Carries.startRead (h : t.Carries) (id : Nat) (loop : KqueueLoop) :
    (t.startRead id loop).1.Carries := by
  unfold TlsConnection.startRead
  split
  · exact h
  · exact h.same rfl rfl rfl

theorem Carries.continueHandshake (h : t.Carries) (answer : Nat → HandshakeAnswer) (id : Nat)
    (loop : KqueueLoop) : (t.continueHandshake answer id loop).1.Carries := by
  unfold TlsConnection.continueHandshake
  split
  · exact h
  · have hcalled : Carries { t with handshakes := t.handshakes + 1 } := h.same rfl rfl rfl
    dsimp only
    split
    · exact h.same rfl rfl rfl
    · split
      · exact hcalled
      · exact hcalled.close loop

/-- The front of the buffer goes to OpenSSL. -/
theorem Carries.taken (h : t.Carries) {slice : Slice} {rest : List Slice}
    (hs : t.writeBuf_.slices = slice :: rest) {n : Nat} (hn : n ≤ slice.data.length)
    (sslWrites : Nat) : Carries { t with
      sslWrites := sslWrites
      writeBuf_ := t.writeBuf_.drain n
      accepted := t.accepted ++ slice.data.take n } := by
  have hr := Buffer.drain_represents h.sound n
  refine ⟨hr.self, ?_⟩
  dsimp only
  rw [← h.conserved, hr.content, List.append_assoc, Connection.front_slice_content hs,
    List.drop_append_of_le_length hn, ← List.append_assoc (slice.data.take n),
    List.take_append_drop]

theorem Carries.writeLoop (h : t.Carries) (answer : Nat → SslWriteAnswer) (n : Nat) :
    (WhileLoop.loop (writePass answer) n (t, WriteEnd.done) t).1.Carries := by
  refine WhileLoop.loop_kept Carries (fun r : TlsConnection × WriteEnd => r.1.Carries) ?_ ?_ h h
  · intro d d' hd hp
    unfold writePass at hp
    split at hp
    · cases hp
    · split at hp
      · cases hp
      · next slice rest hs =>
        dsimp only at hp
        split at hp
        · cases hp
        · split at hp
          · cases hp
            exact hd.taken hs (Nat.min_le_right _ _) _
          · split at hp <;> cases hp
  · intro d r hd hp
    unfold writePass at hp
    split at hp
    · cases hp
      exact hd
    · split at hp
      · cases hp
        exact hd
      · dsimp only at hp
        split at hp
        · cases hp
          exact hd
        · split at hp
          · cases hp
          · split at hp <;>
            · cases hp
              exact hd.same rfl rfl rfl

theorem Carries.doWrite (h : t.Carries) (answer : Nat → SslWriteAnswer) (id : Nat)
    (loop : KqueueLoop) : (t.doWrite answer id loop).1.Carries := by
  have hloop := h.writeLoop answer (t.writeBuf_.length + 1)
  unfold TlsConnection.doWrite
  split
  · exact h
  · split
    · next he => rwa [he] at hloop
    · next he =>
      rw [he] at hloop
      exact hloop.close loop
    · next he =>
      rw [he] at hloop
      split <;> exact hloop

theorem Carries.write (h : t.Carries) (answer : Nat → SslWriteAnswer) (id : Nat) {data : Buffer}
    (hd : data.Represents data.linearize) (loop : KqueueLoop) :
    (t.write answer id data loop).1.Carries := by
  unfold TlsConnection.write
  split
  · exact h
  · have hr := (Buffer.move_represents h.sound hd).1
    have hmoved : Carries { t with
        writeBuf_ := (t.writeBuf_.move data).1, written := t.written ++ data.linearize } :=
      ⟨hr.self, by
        dsimp only
        rw [hr.content, ← List.append_assoc, h.conserved]⟩
    exact hmoved.doWrite answer id loop

end TlsConnection

namespace Session

/-- The connections of the session carry what was written to them, and the body data that
waits can be written. -/
structure Carried (s : Session) : Prop where
  client : ∀ c, s.client_ = some c → c.Carries
  upstream : ∀ c, s.upstream_ = some c → c.Carries
  tls : ∀ t ∈ s.tls, t.Carries
  pending : s.pendingBody_.Proper

/-- A computation after which the connections carry what was written, however it ends. -/
abbrev CarriedEnd (r : Outcome) : Prop := Ends r Carried fun crash => Carried crash.state

variable {w : World} {s s' : Session}

/-- A change of other members. -/
theorem Carried.same (h : Carried s) (hc : s'.client_ = s.client_)
    (hu : s'.upstream_ = s.upstream_) (ht : s'.tls = s.tls)
    (hp : s'.pendingBody_ = s.pendingBody_) : Carried s' :=
  ⟨by rw [hc]; exact h.client, by rw [hu]; exact h.upstream, by rw [ht]; exact h.tls,
    by rw [hp]; exact h.pending⟩

theorem Carried.note (h : Carried s) (n : Note) : Carried (s.note n) := h.same rfl rfl rfl rfl

theorem Carried.setClient (h : Carried s) {c : Connection} (hc : c.Carries) (loop : KqueueLoop) :
    Carried { s with client_ := some c, loop_ := loop } :=
  ⟨fun d hd => Option.some.inj hd ▸ hc, h.upstream, h.tls, h.pending⟩

theorem Carried.setUpstream (h : Carried s) {c : Connection} (hc : c.Carries)
    (loop : KqueueLoop) : Carried { s with upstream_ := some c, loop_ := loop } :=
  ⟨h.client, fun d hd => Option.some.inj hd ▸ hc, h.tls, h.pending⟩

theorem Carried.setTls (h : Carried s) (id : Nat) {t : TlsConnection} (ht : t.Carries)
    (loop : KqueueLoop) : Carried (s.setTls id t loop) := by
  refine ⟨h.client, h.upstream, fun d hd => ?_, h.pending⟩
  rcases List.mem_or_eq_of_mem_set hd with hold | rfl
  · exact h.tls d hold
  · exact ht

theorem Carried.tlsAt (h : Carried s) {id : Nat} {t : TlsConnection} (ht : s.tls[id]? = some t) :
    t.Carries := h.tls t (List.mem_of_getElem? ht)

theorem Carried.closeClient (h : Carried s) : Carried s.closeClient := by
  unfold Session.closeClient
  split
  · exact h
  · next c hc => exact h.setClient ((h.client c hc).close _) _

theorem Carried.closeUpstream (h : Carried s) : Carried s.closeUpstream := by
  unfold Session.closeUpstream
  split
  · exact h
  · next c hc => exact h.setUpstream ((h.upstream c hc).close _) _

theorem Carried.closeTls (h : Carried s) (id : Nat) : Carried (s.closeTls id) := by
  unfold Session.closeTls
  split
  · exact h
  · next t ht => exact h.setTls id ((h.tlsAt ht).close _) _

theorem Carried.closeTlsAt (h : Carried s) (pointer : Option Nat) :
    Carried (s.closeTlsAt pointer) := by
  cases pointer with
  | none => exact h
  | some id => exact h.closeTls id

theorem Carried.close (h : Carried s) (cause : CloseCause) : Carried (s.close cause) := by
  unfold Session.close
  split
  · exact h
  · have hnoted : Carried ({ s with closed_ := true }.note (.closed cause)) :=
      h.same rfl rfl rfl rfl
    have hconnecting : Carried ({ s with closed_ := true }.note (.closed cause)).closeConnecting := by
      unfold closeConnecting
      split
      · exact hnoted
      · exact hnoted.same rfl rfl rfl rfl
    exact (hconnecting.closeClient.closeUpstream.closeTlsAt _).closeTlsAt _

theorem Carried.afterClientFlush (h : Carried s) {c : Connection} (hc : c.Carries)
    (loop : KqueueLoop) (flushed : Connection.Flushed) :
    Carried (s.afterClientFlush (c, loop, flushed)) := by
  have hset := h.setClient hc loop
  cases flushed with
  | settled => exact hset
  | failed =>
    unfold Session.afterClientFlush
    dsimp only
    split
    · exact (hset.close _).closeClient
    · exact hset.closeClient

theorem Carried.afterUpstreamFlush (h : Carried s) {c : Connection} (hc : c.Carries)
    (loop : KqueueLoop) (flushed : Connection.Flushed) :
    Carried (s.afterUpstreamFlush (c, loop, flushed)) := by
  have hset := h.setUpstream hc loop
  cases flushed with
  | settled => exact hset
  | failed =>
    unfold Session.afterUpstreamFlush
    dsimp only
    split
    · exact (hset.close _).closeUpstream
    · exact hset.closeUpstream

theorem Carried.writeTls (w : World) (h : Carried s) (id : Nat) {data : Buffer}
    (hd : data.Proper) : Carried (s.writeTls w id data).1 := by
  unfold Session.writeTls
  split
  · exact h
  · next t ht => exact h.setTls id ((h.tlsAt ht).write _ id hd.represents _) _

theorem Carried.writeUpstream (w : World) (h : Carried s) {c : Connection}
    (hc : s.upstream_ = some c) {data : Buffer} (hd : data.Proper) :
    Carried (s.writeUpstream w c data).1 :=
  h.afterUpstreamFlush ((h.upstream c hc).write hd.represents _) _ _

theorem Carried.writeToClient (w : World) (h : Carried s) {data : Buffer} (hd : data.Proper) :
    Carried (s.writeToClient w data).1 := by
  unfold Session.writeToClient
  split
  · exact h.writeTls w _ hd
  · split
    · next c hc =>
      split
      · exact h.afterClientFlush ((h.client c hc).write hd.represents _) _ _
      · exact h
    · exact h

theorem Carried.writeToUpstream (w : World) (h : Carried s) {data : Buffer} (hd : data.Proper) :
    Carried (s.writeToUpstream w data).1 := by
  unfold Session.writeToUpstream
  split
  · exact h.writeTls w _ hd
  · split
    · next c hc =>
      split
      · exact h.writeUpstream w hc hd
      · exact h
    · exact h

theorem Carried.answer (w : World) (h : Carried s) (resp : HttpResponse) (n : Note) :
    Carried (s.answer w resp n) := by
  have hproper := (Http1Codec.encodeResponse_proper resp).1
  unfold Session.answer
  dsimp only
  split
  · exact (h.note n).writeToClient w hproper
  · exact h.writeToClient w hproper

theorem Carried.sendPending (w : World) (h : Carried s) : Carried (s.sendPending w) := by
  have hwritten := h.writeToUpstream w h.pending
  exact ⟨hwritten.client, hwritten.upstream, hwritten.tls, (writeToUpstream_left w s h.pending).1⟩

theorem Carried.onRequestBody (w : World) (h : Carried s) {body : Buffer} (hb : body.Proper) :
    Carried (s.onRequestBody w body) := by
  unfold Session.onRequestBody
  split
  · exact h
  · have hmoved : Carried { s with pendingBody_ := (s.pendingBody_.move body).1 } :=
      ⟨h.client, h.upstream, h.tls, (h.pending.move hb).1⟩
    exact hmoved.sendPending w

theorem Carried.onResponseBody (w : World) (h : Carried s) {body : Buffer} (hb : body.Proper) :
    Carried (s.onResponseBody w body) := by
  unfold Session.onResponseBody
  extract_lets s₁
  have hkept : Carried s₁ := by
    unfold s₁
    split
    · exact h.same rfl rfl rfl rfl
    · exact h
  split
  · exact hkept
  · exact hkept.writeToClient w hb

theorem Carried.onResponseComplete (h : Carried s) : Carried s.onResponseComplete := by
  unfold Session.onResponseComplete
  extract_lets s₁ s₂
  have hinspected : Carried s₁ := by
    unfold s₁
    split
    · exact h.note _
    · exact h
  have hcleared : Carried s₂ :=
    ⟨hinspected.client, hinspected.upstream, hinspected.tls, Buffer.proper_empty⟩
  split
  · exact hcleared
  · exact hcleared.close _

end Session

end DeepSeer
