import DeepSeer.SessionFrames

/-!
What moving data and closing add to the log: nothing, or the note of a close.
-/
namespace DeepSeer

open ByteMemory ByteText

namespace Session

/-- Log and flag stay as they are, or the session closes before its exchange is
complete. -/
inductive Shuts (s s' : Session) : Prop
  | kept : s'.log = s.log → s'.closed_ = s.closed_ → Shuts s s'
  | shut (cause : CloseCause) : cause ≠ .responseComplete → s.closed_ = false →
      s'.closed_ = true → s'.log = .closed cause :: s.log → Shuts s s'

theorem Shuts.refl (s : Session) : Shuts s s := .kept rfl rfl

theorem Shuts.trans {s s' s'' : Session} (h : Shuts s s') (h' : Shuts s' s'') : Shuts s s'' := by
  cases h with
  | kept hl hc =>
    cases h' with
    | kept hl' hc' => exact .kept (hl'.trans hl) (hc'.trans hc)
    | shut cause hn ho hc' hl' => exact .shut cause hn (hc.symm.trans ho) hc' (hl ▸ hl')
  | shut cause hn ho hc hl =>
    cases h' with
    | kept hl' hc' => exact .shut cause hn ho (hc'.trans hc) (hl'.trans hl)
    | shut cause' hn' ho' => exact absurd (hc.symm.trans ho') (by decide)

@[simp] theorem closeClient_log (s : Session) : s.closeClient.log = s.log := by
  unfold closeClient
  split <;> rfl

@[simp] theorem closeUpstream_log (s : Session) : s.closeUpstream.log = s.log := by
  unfold closeUpstream
  split <;> rfl

@[simp] theorem closeTls_log (s : Session) (id : Nat) : (s.closeTls id).log = s.log := by
  unfold closeTls
  split <;> rfl

@[simp] theorem closeTlsAt_log (s : Session) (pointer : Option Nat) :
    (s.closeTlsAt pointer).log = s.log := by
  cases pointer with
  | none => rfl
  | some id => exact closeTls_log s id

@[simp] theorem closeConnecting_log (s : Session) : s.closeConnecting.log = s.log := by
  unfold closeConnecting
  split <;> rfl

theorem close_log (s : Session) (cause : CloseCause) :
    (s.close cause).log = if s.closed_ then s.log else .closed cause :: s.log := by
  unfold close
  split
  · rfl
  · simp [note]

theorem shuts_close (s : Session) {cause : CloseCause} (h : cause ≠ .responseComplete) :
    Shuts s (s.close cause) := by
  cases hc : s.closed_ with
  | true => exact .kept (by simp [close_log, hc]) (by simp [hc])
  | false => exact .shut cause h hc (by simp) (by simp [close_log, hc])

theorem shuts_closeClient (s : Session) : Shuts s s.closeClient := .kept (by simp) (by simp)

theorem shuts_closeUpstream (s : Session) : Shuts s s.closeUpstream := .kept (by simp) (by simp)

theorem shuts_closeTls (s : Session) (id : Nat) : Shuts s (s.closeTls id) :=
  .kept (by simp) (by simp)

/-- A failure of a connection, which closes the session where it has callbacks. -/
theorem shuts_fail (s : Session) (wired : Bool) {cause : CloseCause}
    (h : cause ≠ .responseComplete) : Shuts s (if wired then s.close cause else s) := by
  split
  · exact shuts_close s h
  · exact .refl s

theorem shuts_clientEnd (s : Session) (wired : Bool) :
    Shuts s (if wired then s.closeClient.close .clientEnd else s.closeClient) := by
  split
  · exact (shuts_closeClient s).trans (shuts_close _ (by decide))
  · exact shuts_closeClient s

theorem shuts_upstreamEnd (s : Session) (wired : Bool) :
    Shuts s (if wired then s.closeUpstream.close .upstreamEnd else s.closeUpstream) := by
  split
  · exact (shuts_closeUpstream s).trans (shuts_close _ (by decide))
  · exact shuts_closeUpstream s

theorem shuts_afterClientFlush (s : Session) (c : Connection) (loop : KqueueLoop)
    (flushed : Connection.Flushed) : Shuts s (s.afterClientFlush (c, loop, flushed)) := by
  have hset : Shuts s { s with client_ := some c, loop_ := loop } := .kept rfl rfl
  cases flushed with
  | settled => exact hset
  | failed =>
    exact (hset.trans (shuts_fail _ c.wired (by decide))).trans (shuts_closeClient _)

theorem shuts_afterUpstreamFlush (s : Session) (c : Connection) (loop : KqueueLoop)
    (flushed : Connection.Flushed) : Shuts s (s.afterUpstreamFlush (c, loop, flushed)) := by
  have hset : Shuts s { s with upstream_ := some c, loop_ := loop } := .kept rfl rfl
  cases flushed with
  | settled => exact hset
  | failed =>
    exact (hset.trans (shuts_fail _ c.wired (by decide))).trans (shuts_closeUpstream _)

variable (w : World)

theorem shuts_writeUpstream (s : Session) (c : Connection) (data : Buffer) :
    Shuts s (s.writeUpstream w c data).1 := shuts_afterUpstreamFlush s _ _ _

theorem shuts_writeTls (s : Session) (id : Nat) (data : Buffer) :
    Shuts s (s.writeTls w id data).1 := by
  unfold writeTls
  split
  · exact .refl s
  · exact .kept rfl rfl

theorem shuts_writeToClient (s : Session) (data : Buffer) :
    Shuts s (s.writeToClient w data).1 := by
  unfold writeToClient
  split
  · exact shuts_writeTls w s _ data
  · split
    · split
      · exact shuts_afterClientFlush s _ _ _
      · exact .refl s
    · exact .refl s

theorem shuts_writeToUpstream (s : Session) (data : Buffer) :
    Shuts s (s.writeToUpstream w data).1 := by
  unfold writeToUpstream
  split
  · exact shuts_writeTls w s _ data
  · split
    · split
      · exact shuts_writeUpstream w s _ data
      · exact .refl s
    · exact .refl s

theorem shuts_sendPending (s : Session) : Shuts s (s.sendPending w) :=
  (shuts_writeToUpstream w s s.pendingBody_).trans (.kept rfl rfl)

theorem shuts_onRequestBody (s : Session) (body : Buffer) :
    Shuts s (s.onRequestBody w body) := by
  have hmove : Shuts s { s with pendingBody_ := (s.pendingBody_.move body).1 } := .kept rfl rfl
  unfold onRequestBody
  split
  · exact .refl s
  · exact hmove.trans (shuts_sendPending w _)

theorem shuts_onResponseBody (s : Session) (body : Buffer) :
    Shuts s (s.onResponseBody w body) := by
  have hcopy : Shuts s (if s.payloadInspector_ ∧ s.responseBody_.length < kMaxInspectBytes then
      { s with responseBody_ := body.slices.foldl (fun b slice => b.add slice.data) s.responseBody_ }
    else s) := by
    split
    · exact .kept rfl rfl
    · exact .refl s
  unfold onResponseBody
  dsimp only
  split
  · exact hcopy
  · exact hcopy.trans (shuts_writeToClient w _ body)

theorem shuts_endTlsRead (s : Session) (id : Nat) (wired : Bool) (err : SslError) :
    Shuts s (s.endTlsRead id wired err) := by
  have hend : Shuts s (if wired then (s.closeTls id).close .tlsEnd else s.closeTls id) := by
    split
    · exact (shuts_closeTls s id).trans (shuts_close _ (by decide))
    · exact shuts_closeTls s id
  cases err with
  | wantRead => exact .refl s
  | zeroReturn => exact hend
  | syscall => exact hend
  | wantWrite => exact shuts_closeTls s id
  | ssl => exact shuts_closeTls s id

theorem shuts_prepareUpstream {s s' : Session} (h : s.prepareUpstream = .ok s') : Shuts s s' := by
  unfold prepareUpstream setupUpstreamCallbacks startUpstreamRead at h
  split at h
  · cases h
    exact .refl s
  · cases hu : s.upstream_ with
    | none => simp [hu, crash, bind, Except.bind] at h
    | some c =>
      simp only [hu, bind, Except.bind] at h
      cases h
      exact .kept rfl rfl

end Session

end DeepSeer
