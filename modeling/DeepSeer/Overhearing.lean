import DeepSeer.Exchanges

/-!
What the payload inspector has to do with: the callbacks of the upstream parser,
the body data that the session collects for it and the target that the session
keeps. Every other part of a handler leaves the collected data alone, and keeps
the target in step with the requests in the log.
-/
namespace DeepSeer

open ByteMemory ByteText FallibleRuns

/-- The target that the session keeps: that of the latest request, in origin form
once the request is forwarded. -/
def keptTarget : List Note → Bytes
  | [] => []
  | .request req :: _ => req.url
  | .forwarded req _ :: _ => Session.originForm req.url
  | _ :: log => keptTarget log

/-- Notes of neither a callback of the upstream parser nor a call of the inspector. -/
def Note.unheard : Note → Bool
  | .upstreamParsed _ | .inspected _ _ => false
  | _ => true

/-- Notes that say nothing of the target. -/
def Note.targetless : Note → Bool
  | .request _ | .forwarded _ _ => false
  | _ => true

theorem keptTarget_cons {n : Note} (h : n.targetless = true) (log : List Note) :
    keptTarget (n :: log) = keptTarget log := by
  cases n <;> first | rfl | exact absurd h (by simp [Note.targetless])

namespace Session

/-- Nothing between the two states was for the inspector. -/
structure Unheard (s s' : Session) : Prop where
  body : s'.responseBody_ = s.responseBody_
  inspector : s'.payloadInspector_ = s.payloadInspector_
  log : ∃ notes : List Note, s'.log = notes ++ s.log ∧ notes.all Note.unheard = true
  target : s.currentRequest_.url = keptTarget s.log →
    s'.currentRequest_.url = keptTarget s'.log

/-- A computation that is unheard if it succeeds. -/
abbrev UnheardEnd (s : Session) (r : Outcome) : Prop := Ends r (Unheard s) fun _ => True

/-- A change of parts that do not matter here. -/
theorem Unheard.same {s s' : Session} (hb : s'.responseBody_ = s.responseBody_)
    (hi : s'.payloadInspector_ = s.payloadInspector_) (hl : s'.log = s.log)
    (hr : s'.currentRequest_ = s.currentRequest_) : Unheard s s' :=
  ⟨hb, hi, ⟨[], hl, rfl⟩, fun h => by rw [hr, hl, h]⟩

theorem Unheard.refl (s : Session) : Unheard s s := .same rfl rfl rfl rfl

theorem Unheard.trans {s s' s'' : Session} (h : Unheard s s') (h' : Unheard s' s'') :
    Unheard s s'' := by
  obtain ⟨notes, hl, hn⟩ := h.log
  obtain ⟨notes', hl', hn'⟩ := h'.log
  refine ⟨h'.body.trans h.body, h'.inspector.trans h.inspector, ⟨notes' ++ notes, ?_, ?_⟩,
    fun ht => h'.target (h.target ht)⟩
  · rw [hl', hl, List.append_assoc]
  · rw [List.all_append, hn', hn]
    rfl

theorem Unheard.note {s s' : Session} (h : Unheard s s') {n : Note} (hn : n.unheard = true)
    (ht : n.targetless = true) : Unheard s (s'.note n) := by
  refine h.trans ⟨rfl, rfl, ⟨[n], rfl, by simp [hn]⟩, fun htarget => ?_⟩
  rw [note_log, keptTarget_cons ht]
  exact htarget

theorem UnheardEnd.trans {s s' : Session} {r : Outcome} (h : Unheard s s')
    (h' : UnheardEnd s' r) : UnheardEnd s r :=
  Ends.mono h' (fun _ => h.trans) fun _ => id

theorem UnheardEnd.bind {s : Session} {x : Outcome} {f : Session → Outcome}
    (h : UnheardEnd s x) (hf : ∀ s', UnheardEnd s' (f s')) : UnheardEnd s (x >>= f) :=
  Ends.bind h fun s' hs' => (hf s').trans hs'

theorem unheard_closeClient (s : Session) : Unheard s s.closeClient := by
  unfold closeClient
  split
  · exact .refl s
  · exact .same rfl rfl rfl rfl

theorem unheard_closeUpstream (s : Session) : Unheard s s.closeUpstream := by
  unfold closeUpstream
  split
  · exact .refl s
  · exact .same rfl rfl rfl rfl

theorem unheard_closeTls (s : Session) (id : Nat) : Unheard s (s.closeTls id) := by
  unfold closeTls
  split
  · exact .refl s
  · exact .same rfl rfl rfl rfl

theorem unheard_closeTlsAt (s : Session) (pointer : Option Nat) :
    Unheard s (s.closeTlsAt pointer) := by
  cases pointer with
  | none => exact .refl s
  | some id => exact unheard_closeTls s id

theorem unheard_closeConnecting (s : Session) : Unheard s s.closeConnecting := by
  unfold closeConnecting
  split
  · exact .refl s
  · exact .same rfl rfl rfl rfl

theorem unheard_close (s : Session) (cause : CloseCause) : Unheard s (s.close cause) := by
  unfold close
  split
  · exact .refl s
  · have hflag : Unheard s { s with closed_ := true } := .same rfl rfl rfl rfl
    have hnote := hflag.note (n := .closed cause) rfl rfl
    exact hnote.trans <| (unheard_closeConnecting _).trans <| (unheard_closeClient _).trans <|
      (unheard_closeUpstream _).trans <| (unheard_closeTlsAt _ _).trans (unheard_closeTlsAt _ _)

theorem unheard_fail (s : Session) (wired : Bool) (cause : CloseCause) :
    Unheard s (if wired then s.close cause else s) := by
  split
  · exact unheard_close s cause
  · exact .refl s

theorem unheard_afterClientFlush (s : Session) (c : Connection) (loop : KqueueLoop)
    (flushed : Connection.Flushed) : Unheard s (s.afterClientFlush (c, loop, flushed)) := by
  have hset : Unheard s { s with client_ := some c, loop_ := loop } := .same rfl rfl rfl rfl
  cases flushed with
  | settled => exact hset
  | failed => exact (hset.trans (unheard_fail _ c.wired _)).trans (unheard_closeClient _)

theorem unheard_afterUpstreamFlush (s : Session) (c : Connection) (loop : KqueueLoop)
    (flushed : Connection.Flushed) : Unheard s (s.afterUpstreamFlush (c, loop, flushed)) := by
  have hset : Unheard s { s with upstream_ := some c, loop_ := loop } := .same rfl rfl rfl rfl
  cases flushed with
  | settled => exact hset
  | failed => exact (hset.trans (unheard_fail _ c.wired _)).trans (unheard_closeUpstream _)

variable (w : World)

theorem unheard_writeUpstream (s : Session) (c : Connection) (data : Buffer) :
    Unheard s (s.writeUpstream w c data).1 := unheard_afterUpstreamFlush s _ _ _

theorem unheard_writeTls (s : Session) (id : Nat) (data : Buffer) :
    Unheard s (s.writeTls w id data).1 := by
  unfold writeTls
  split
  · exact .refl s
  · exact .same rfl rfl rfl rfl

theorem unheard_writeToClient (s : Session) (data : Buffer) :
    Unheard s (s.writeToClient w data).1 := by
  unfold writeToClient
  split
  · exact unheard_writeTls w s _ data
  · split
    · split
      · exact unheard_afterClientFlush s _ _ _
      · exact .refl s
    · exact .refl s

theorem unheard_writeToUpstream (s : Session) (data : Buffer) :
    Unheard s (s.writeToUpstream w data).1 := by
  unfold writeToUpstream
  split
  · exact unheard_writeTls w s _ data
  · split
    · split
      · exact unheard_writeUpstream w s _ data
      · exact .refl s
    · exact .refl s

theorem unheard_answer (s : Session) (resp : HttpResponse) {n : Note} (hn : n.unheard = true)
    (ht : n.targetless = true) : Unheard s (s.answer w resp n) := by
  have hnote : Unheard s (if s.reachesClient then s.note n else s) := by
    split
    · exact (Unheard.refl s).note hn ht
    · exact .refl s
  exact hnote.trans (unheard_writeToClient w _ _)

theorem unheard_sendError (s : Session) (status : Nat) (reason : Bytes) :
    Unheard s (s.sendError w status reason) := unheard_answer w s _ rfl rfl

theorem unheard_sendPending (s : Session) : Unheard s (s.sendPending w) :=
  (unheard_writeToUpstream w s s.pendingBody_).trans (.same rfl rfl rfl rfl)

theorem unheard_onRequestBody (s : Session) (body : Buffer) :
    Unheard s (s.onRequestBody w body) := by
  have hmove : Unheard s { s with pendingBody_ := (s.pendingBody_.move body).1 } :=
    .same rfl rfl rfl rfl
  unfold onRequestBody
  split
  · exact .refl s
  · exact hmove.trans (unheard_sendPending w _)

theorem unheard_onResponse (s : Session) (resp : HttpResponse) :
    Unheard s (s.onResponse w resp) := unheard_answer w s _ rfl rfl

theorem unheard_endTlsRead (s : Session) (id : Nat) (wired : Bool) (err : SslError) :
    Unheard s (s.endTlsRead id wired err) := by
  have hend : Unheard s (if wired then (s.closeTls id).close .tlsEnd else s.closeTls id) :=
    (unheard_closeTls s id).trans (unheard_fail _ wired _)
  cases err with
  | wantRead => exact .refl s
  | zeroReturn => exact hend
  | syscall => exact hend
  | wantWrite => exact unheard_closeTls s id
  | ssl => exact unheard_closeTls s id

/-- Forwarding takes the target that is kept into origin form. -/
theorem unheard_sendRequest (s : Session) : Unheard s (s.sendRequest w) := by
  have hforward : Unheard s
      { s.note (.forwarded s.currentRequest_ s.link) with
        currentRequest_.url := originForm s.currentRequest_.url } :=
    ⟨rfl, rfl, ⟨[.forwarded s.currentRequest_ s.link], rfl, rfl⟩, fun _ => rfl⟩
  have hsent : ∀ s' : Session, Unheard s s' → Unheard s
      (if s'.pendingBody_.empty then s' else s'.sendPending w) := by
    intro s' h
    split
    · exact h
    · exact h.trans (unheard_sendPending w s')
  exact hsent _ (hforward.trans (unheard_writeToUpstream w _ _))

theorem unheard_writeEstablished (s : Session) : UnheardEnd s (s.writeEstablished w) := by
  unfold writeEstablished
  split
  · trivial
  · exact unheard_afterClientFlush s _ _ _

theorem unheard_stopClientRead (s : Session) : UnheardEnd s s.stopClientRead := by
  unfold stopClientRead
  split
  · trivial
  · exact Unheard.same rfl rfl rfl rfl

theorem unheard_setupUpstreamCallbacks (s : Session) :
    UnheardEnd s s.setupUpstreamCallbacks := by
  unfold setupUpstreamCallbacks
  split
  · trivial
  · exact Unheard.same rfl rfl rfl rfl

theorem unheard_startUpstreamRead (s : Session) : UnheardEnd s s.startUpstreamRead := by
  unfold startUpstreamRead
  split
  · trivial
  · exact Unheard.same rfl rfl rfl rfl

theorem unheard_forwardRequest (s : Session) : UnheardEnd s (s.forwardRequest w) := by
  have hprepare : UnheardEnd s s.prepareUpstream := by
    unfold prepareUpstream
    split
    · exact Unheard.refl s
    · exact (unheard_setupUpstreamCallbacks s).bind unheard_startUpstreamRead
  exact hprepare.bind fun s => unheard_sendRequest w s

theorem unheard_wireTls (s : Session) (pointer : Option Nat) :
    UnheardEnd s (s.wireTls pointer) := by
  unfold wireTls
  split
  · trivial
  · split
    · trivial
    · exact Unheard.same rfl rfl rfl rfl

theorem unheard_startTlsRead (s : Session) (pointer : Option Nat) :
    UnheardEnd s (s.startTlsRead pointer) := by
  unfold startTlsRead
  split
  · trivial
  · split
    · trivial
    · exact Unheard.same rfl rfl rfl rfl

theorem unheard_onClientHandshake (s : Session) : UnheardEnd s s.onClientHandshake := by
  have hreset : Unheard s { s with
      clientCodec_ := { type := .request }, upstreamCodec_ := { type := .response } } :=
    .same rfl rfl rfl rfl
  exact UnheardEnd.trans hreset <| (unheard_wireTls _ _).bind fun s =>
    (unheard_wireTls s _).bind fun s => (unheard_startTlsRead s _).bind fun s =>
      unheard_startTlsRead s _

theorem unheard_handshakeStep (s : Session) (id : Nat) :
    Unheard s (s.handshakeStep w id).1 := by
  unfold handshakeStep
  split
  · exact .refl s
  · exact .same rfl rfl rfl rfl

theorem unheard_clientHandshake (s : Session) (id : Nat) :
    UnheardEnd s (s.clientHandshake w id) := by
  have hstep := unheard_handshakeStep w s id
  unfold clientHandshake
  split
  · next heq =>
    rw [heq] at hstep
    exact hstep
  · next heq =>
    rw [heq] at hstep
    exact UnheardEnd.trans hstep (unheard_onClientHandshake _)
  · next heq =>
    rw [heq] at hstep
    exact hstep.trans (unheard_close _ _)

theorem unheard_onUpstreamHandshake (s : Session) (hostname : Bytes) :
    UnheardEnd s (s.onUpstreamHandshake w hostname) := by
  unfold onUpstreamHandshake
  split
  · split
    · trivial
    · refine @UnheardEnd.trans _ (Session.makeTls _ _ _ _) _ ?_ (unheard_clientHandshake w _ _)
      exact .same rfl rfl rfl rfl
  · exact unheard_close s _

theorem unheard_upstreamHandshake (s : Session) (id : Nat) (hostname : Bytes) :
    UnheardEnd s (s.upstreamHandshake w id hostname) := by
  have hstep := unheard_handshakeStep w s id
  unfold upstreamHandshake
  split
  · next heq =>
    rw [heq] at hstep
    exact hstep
  · next heq =>
    rw [heq] at hstep
    exact UnheardEnd.trans hstep (unheard_onUpstreamHandshake w _ hostname)
  · next heq =>
    rw [heq] at hstep
    exact hstep.trans (unheard_close _ _)

theorem unheard_continueHandshake (s : Session) (id : Nat) :
    UnheardEnd s (s.continueHandshake w id) := by
  unfold continueHandshake
  split
  · exact Unheard.refl s
  · exact unheard_upstreamHandshake w s id _
  · exact unheard_clientHandshake w s id

theorem unheard_dropTls (s : Session) (pointer : Option Nat) : Unheard s (s.dropTls pointer) := by
  unfold dropTls
  split
  · exact .refl s
  · split
    · exact .refl s
    · split
      · exact .refl s
      · exact unheard_closeTls s _

theorem unheard_startTlsMitm (s : Session) (hostname : Bytes) :
    UnheardEnd s (s.startTlsMitm w hostname) := by
  have hflag : Unheard s { s with isTlsMitm_ := true } := .same rfl rfl rfl rfl
  refine UnheardEnd.trans hflag <| (unheard_writeEstablished w _).bind fun s =>
    (unheard_stopClientRead s).bind fun s => ?_
  split
  · trivial
  · refine UnheardEnd.trans (@Unheard.trans _ (Session.makeTls _ _ _ _) _ ?_ (unheard_dropTls _ _))
      (unheard_upstreamHandshake w _ _ _)
    exact .same rfl rfl rfl rfl

theorem unheard_startTunnel (s : Session) : UnheardEnd s (s.startTunnel w) := by
  unfold startTunnel
  split
  · exact unheard_startTlsMitm w s _
  · have hflag : Unheard s { s with isTunnel_ := true } := .same rfl rfl rfl rfl
    exact UnheardEnd.trans hflag <| (unheard_writeEstablished w _).bind fun s =>
      (unheard_setupUpstreamCallbacks s).bind unheard_startUpstreamRead

theorem unheard_wrapUpstream (s : Session) : Unheard s s.wrapUpstream := by
  unfold wrapUpstream closeUpstream
  split <;> exact .same rfl rfl rfl rfl

theorem unheard_onUpstreamConnected (s : Session) : UnheardEnd s (s.onUpstreamConnected w) := by
  unfold onUpstreamConnected
  split
  · exact Unheard.refl s
  · have hwrap := ((Unheard.refl s).note (n := .connected s.isTlsMitm_) rfl rfl).trans
      (unheard_wrapUpstream _)
    dsimp only
    split
    · exact UnheardEnd.trans hwrap (unheard_startTunnel w _)
    · exact UnheardEnd.trans hwrap (unheard_forwardRequest w _)

theorem unheard_replaceConnecting (s : Session) (fd : Fd) :
    Unheard s (s.replaceConnecting fd) := by
  have hnote : Unheard s (s.note (.opened fd s.stray)) := (Unheard.refl s).note rfl rfl
  exact hnote.trans (.same rfl rfl rfl rfl)

theorem unheard_connectUpstream (s : Session) (host : Bytes) (port : Nat) :
    UnheardEnd s (s.connectUpstream w host port) := by
  have hcount : Unheard s { s with sockets := s.sockets + 1 } := .same rfl rfl rfl rfl
  unfold connectUpstream
  split
  · trivial
  · dsimp only
    split
    · exact hcount.trans (unheard_sendError w _ _ _)
    · next fd hfd =>
      have hreplace := hcount.trans (unheard_replaceConnecting _ fd)
      split
      · exact hreplace.trans (unheard_sendError w _ _ _)
      · exact UnheardEnd.trans hreplace (unheard_onUpstreamConnected w _)
      · exact hreplace.trans (.same rfl rfl rfl rfl)

/-- A request brings the target that is kept from now on. -/
theorem unheard_onRequest (s : Session) (req : HttpRequest) :
    UnheardEnd s (s.onRequest w req) := by
  have hset : Unheard s { s.note (.request req) with currentRequest_ := req } :=
    ⟨rfl, rfl, ⟨[.request req], rfl, rfl⟩, fun _ => rfl⟩
  unfold onRequest
  dsimp only
  split
  · have hconnect : Unheard s
        { s.note (.request req) with currentRequest_ := req, isConnect_ := true } :=
      hset.trans (.same rfl rfl rfl rfl)
    unfold handleConnect
    split
    · trivial
    · have hname : ∀ host : Bytes, Unheard s { s.note (.request req) with
          currentRequest_ := req, isConnect_ := true, connectHostname_ := host } :=
        fun host => hconnect.trans (.same rfl rfl rfl rfl)
      exact UnheardEnd.trans (hname _) (unheard_connectUpstream w _ _ _)
  · split
    · exact UnheardEnd.trans hset (unheard_forwardRequest w _)
    · exact UnheardEnd.trans hset (unheard_connectUpstream w _ _ _)

theorem unheard_clientEvent (s : Session) (ev : ParserEvent) :
    UnheardEnd s (s.clientEvent w ev) := by
  have hnote : ∀ codec : Http1Codec,
      Unheard s ({ s with clientCodec_ := codec }.note (.clientParsed ev)) := by
    intro codec
    have hcodec : Unheard s { s with clientCodec_ := codec } := .same rfl rfl rfl rfl
    exact hcodec.note rfl rfl
  rcases clientEvent_cases w s ev with ⟨-, h⟩ | ⟨codec, req, -, h⟩ | ⟨piece, -, h⟩ |
    ⟨codec, calls, -, -, -, h⟩ <;> rw [h]
  · trivial
  · exact UnheardEnd.trans (hnote codec) (unheard_onRequest w _ req)
  · exact (hnote s.clientCodec_).trans (unheard_onRequestBody w _ _)
  · exact hnote codec

/-- Only the callbacks of the upstream parser are for the inspector. -/
theorem unheard_perform (s : Session) {a : Act} (h : ∀ ev, a ≠ .upstreamEvent ev) :
    UnheardEnd s (s.perform w a) := by
  cases a with
  | clientEvent ev => exact unheard_clientEvent w s ev
  | upstreamEvent ev => exact absurd rfl (h ev)
  | clientErrno errno => exact Unheard.same rfl rfl rfl rfl
  | upstreamErrno errno => exact Unheard.same rfl rfl rfl rfl
  | badRequest => exact (unheard_sendError w s _ _).trans (unheard_close _ _)
  | close cause _ => exact unheard_close s cause
  | clientData data =>
    simp only [perform]
    split
    · exact Unheard.refl s
    · exact (Unheard.refl s).note rfl rfl
  | upstreamData data =>
    simp only [perform]
    split
    · exact (Unheard.refl s).note rfl rfl
    · exact Unheard.refl s
  | tunnelUp data _ =>
    simp only [perform]
    split
    · exact ((Unheard.refl s).note rfl rfl).trans (unheard_writeUpstream w _ _ data)
    · exact Unheard.refl s
  | tunnelDown data _ =>
    simp only [perform]
    split
    · exact ((Unheard.refl s).note rfl rfl).trans (unheard_writeToClient w _ data)
    · exact Unheard.refl s
  | clientEnd =>
    simp only [perform]
    split
    · exact Unheard.refl s
    · exact (unheard_closeClient s).trans (unheard_fail _ _ _)
  | clientFail =>
    simp only [perform]
    split
    · exact Unheard.refl s
    · exact (unheard_fail s _ _).trans (unheard_closeClient _)
  | upstreamEnd =>
    simp only [perform]
    split
    · exact Unheard.refl s
    · exact (unheard_closeUpstream s).trans (unheard_fail _ _ _)
  | upstreamFail =>
    simp only [perform]
    split
    · exact Unheard.refl s
    · exact (unheard_fail s _ _).trans (unheard_closeUpstream _)
  | clientFlush =>
    simp only [perform]
    split
    · exact Unheard.refl s
    · exact unheard_afterClientFlush s _ _ _
  | upstreamFlush =>
    simp only [perform]
    split
    · exact Unheard.refl s
    · exact unheard_afterUpstreamFlush s _ _ _
  | connected fd =>
    simp only [perform]
    split
    · have hremove : Unheard s { s with loop_ := s.loop_.remove fd } := .same rfl rfl rfl rfl
      exact UnheardEnd.trans hremove (unheard_onUpstreamConnected w _)
    · exact Unheard.refl s
  | handshake id =>
    simp only [perform]
    split
    · exact Unheard.refl s
    · split
      · exact unheard_continueHandshake w s id
      · exact Unheard.refl s
  | tlsEnd id wired err => exact unheard_endTlsRead s id wired err
  | tlsFlush id =>
    simp only [perform]
    split
    · exact Unheard.refl s
    · exact Unheard.same rfl rfl rfl rfl
  | destroyed => trivial

end Session

end DeepSeer
