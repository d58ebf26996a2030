import DeepSeer.LinkFrames
import DeepSeer.PairedRuns

/-!
A table that is shared. Over the descriptors `D` it is that of one owner, and over all
others a table `outer`. A call of a connection on one of these descriptors does to the
shared table what it does to the owner's, and leaves the rest alone.
-/
namespace DeepSeer

open ByteMemory WhileLoop

/-- The invalid descriptor is no socket and has no filters. -/
structure OuterLoop extends KqueueLoop where
  no_filters : filters kInvalidFd = {}
  no_socket : sockets kInvalidFd = false

namespace KqueueLoop

/-- The first function on the descriptors `p`, and the second one on all others. -/
def blend {α : Type} (p : Fd → Bool) (f g : Fd → α) : Fd → α :=
  fun fd => if p fd then f fd else g fd

/-- The valid ones of the descriptors `D`. -/
def valid (D : Fd → Bool) (fd : Fd) : Bool := D fd && decide (fd ≠ kInvalidFd)

def overlay (l : KqueueLoop) (outer : OuterLoop) (D : Fd → Bool) : KqueueLoop where
  fdEntries_ := blend D l.fdEntries_ outer.fdEntries_
  filters := blend (valid D) l.filters outer.filters
  sockets := blend (valid D) l.sockets outer.sockets

section Blend

variable {α : Type} {p : Fd → Bool} {f g : Fd → α} {fd : Fd}

theorem blend_in (hp : p fd = true) : blend p f g fd = f fd := if_pos hp

theorem blend_out (hp : p fd = false) : blend p f g fd = g fd := if_neg (by simp [hp])

theorem update_blend_in (hp : p fd = true) (a : α) :
    Function.update (blend p f g) fd a = blend p (Function.update f fd a) g := by
  funext other
  by_cases h : other = fd
  · subst h
    simp [blend, hp]
  · simp [blend, h]

/-- An update that says what the second function says already. -/
theorem update_blend_out (hp : p fd = false) {a : α} (ha : g fd = a) (b : α) :
    Function.update (blend p f g) fd a = blend p (Function.update f fd b) g := by
  funext other
  by_cases h : other = fd
  · subst h
    simp [blend, hp, ha]
  · simp [blend, h]

end Blend

variable {outer : OuterLoop} {D : Fd → Bool} {fd : Fd}

theorem valid_in (hD : D fd = true) (hfd : fd ≠ kInvalidFd) : valid D fd = true := by
  simp [valid, hD, hfd]

theorem valid_out (D : Fd → Bool) : valid D kInvalidFd = false := by
  simp [valid]

theorem overlay_entry (l : KqueueLoop) (hD : D fd = true) :
    (l.overlay outer D).fdEntries_ fd = l.fdEntries_ fd := blend_in hD

theorem overlay_filters (l : KqueueLoop) (hD : D fd = true) (hfd : fd ≠ kInvalidFd) :
    (l.overlay outer D).filters fd = l.filters fd := blend_in (valid_in hD hfd)

theorem overlay_filters_invalid (l : KqueueLoop) : (l.overlay outer D).filters kInvalidFd = {} :=
  (blend_out (valid_out D)).trans outer.no_filters

theorem overlay_remove (l : KqueueLoop) (hD : D fd = true) :
    (l.overlay outer D).remove fd = (l.remove fd).overlay outer D := by
  unfold remove
  rw [overlay_entry l hD]
  cases l.fdEntries_ fd with
  | none => rfl
  | some entry =>
    dsimp only
    by_cases hfd : fd = kInvalidFd
    · subst hfd
      rw [overlay_filters_invalid, overlay, overlay, update_blend_in hD]
      exact congrArg (KqueueLoop.mk _ · _) (update_blend_out (valid_out D) outer.no_filters _)
    · rw [overlay_filters l hD hfd, overlay, overlay, update_blend_in hD,
        update_blend_in (valid_in hD hfd)]

theorem overlay_closeFd (l : KqueueLoop) (hD : D fd = true) :
    (l.overlay outer D).closeFd fd = (l.closeFd fd).overlay outer D := by
  unfold closeFd
  rw [overlay, overlay]
  by_cases hfd : fd = kInvalidFd
  · subst hfd
    rw [update_blend_out (valid_out D) outer.no_filters {},
      update_blend_out (valid_out D) outer.no_socket false]
  · rw [update_blend_in (valid_in hD hfd), update_blend_in (valid_in hD hfd)]

theorem overlay_openFd (l : KqueueLoop) (hD : D fd = true) (hfd : fd ≠ kInvalidFd) :
    (l.overlay outer D).openFd fd = (l.openFd fd).overlay outer D := by
  unfold openFd
  rw [overlay, overlay, update_blend_in (valid_in hD hfd)]

theorem overlay_watch (l : KqueueLoop) (hD : D fd = true) (events : IoMask) (cb : IoCallback) :
    (l.overlay outer D).watch fd events cb = (l.watch fd events cb).overlay outer D := by
  unfold watch
  rw [overlay_remove l hD]
  dsimp only
  by_cases hfd : fd = kInvalidFd
  · rw [if_pos hfd, if_pos hfd, overlay, overlay, update_blend_in hD]
  · rw [if_neg hfd, if_neg hfd, overlay_filters _ hD hfd, overlay, overlay, update_blend_in hD,
      update_blend_in (valid_in hD hfd)]

end KqueueLoop

open KqueueLoop

variable {outer : OuterLoop} {l : KqueueLoop} {D : Fd → Bool}

namespace Connection

variable {c : Connection}

theorem updateEvents_overlay (l : KqueueLoop) (hD : D c.socket_ = true) :
    c.updateEvents (l.overlay outer D) = (c.updateEvents l).overlay outer D := by
  unfold updateEvents
  split
  · rfl
  · dsimp only
    split
    · exact overlay_remove l hD
    · exact overlay_watch l hD _ _

theorem startRead_overlay (l : KqueueLoop) (hD : D c.socket_ = true) :
    c.startRead (l.overlay outer D) = ((c.startRead l).1, (c.startRead l).2.overlay outer D) := by
  unfold startRead
  split
  · rfl
  · exact congrArg (Prod.mk _) (updateEvents_overlay (c := { c with reading_ := true }) l hD)

theorem stopRead_overlay (l : KqueueLoop) (hD : D c.socket_ = true) :
    c.stopRead (l.overlay outer D) = ((c.stopRead l).1, (c.stopRead l).2.overlay outer D) := by
  unfold stopRead
  split
  · rfl
  · exact congrArg (Prod.mk _) (updateEvents_overlay (c := { c with reading_ := false }) l hD)

theorem close_overlay (l : KqueueLoop) (hD : D c.socket_ = true) :
    c.close (l.overlay outer D) = ((c.close l).1, (c.close l).2.overlay outer D) := by
  unfold close
  split
  · rfl
  · rw [overlay_remove l hD, overlay_closeFd _ hD]

theorem handleWrite_overlay (answer : Nat → SendAnswer) (l : KqueueLoop) (hD : D c.socket_ = true) :
    c.handleWrite answer (l.overlay outer D) = ((c.handleWrite answer l).1,
      (c.handleWrite answer l).2.1.overlay outer D, (c.handleWrite answer l).2.2) := by
  have hlink := flush_link answer c
  unfold handleWrite
  split
  · rfl
  · rcases hf : c.flush answer with ⟨d, settled | failed⟩
    · rw [hf] at hlink
      dsimp only
      rw [updateEvents_overlay l (hlink.socket ▸ hD)]
    · rfl

theorem flushNow_overlay (answer : Nat → SendAnswer) (l : KqueueLoop) (hD : D c.socket_ = true) :
    c.flushNow answer (l.overlay outer D) = ((c.flushNow answer l).1,
      (c.flushNow answer l).2.1.overlay outer D, (c.flushNow answer l).2.2) := by
  unfold flushNow
  dsimp only
  rw [updateEvents_overlay l hD]
  split
  · rfl
  · exact handleWrite_overlay answer _ hD

theorem write_overlay (answer : Nat → SendAnswer) (data : Buffer) (l : KqueueLoop)
    (hD : D c.socket_ = true) :
    c.write answer data (l.overlay outer D) =
      ((c.write answer data l).1, (c.write answer data l).2.1,
        (c.write answer data l).2.2.1.overlay outer D, (c.write answer data l).2.2.2) := by
  unfold write
  split
  · rfl
  · dsimp only
    rw [flushNow_overlay (c := { c with
      writeBuf_ := (c.writeBuf_.move data).1, written := c.written ++ data.linearize }) answer l hD]

theorem writeText_overlay (answer : Nat → SendAnswer) (data : Bytes) (l : KqueueLoop)
    (hD : D c.socket_ = true) :
    c.writeText answer data (l.overlay outer D) = ((c.writeText answer data l).1,
      (c.writeText answer data l).2.1.overlay outer D, (c.writeText answer data l).2.2) := by
  unfold writeText
  split
  · rfl
  · exact flushNow_overlay (c := { c with
      writeBuf_ := c.writeBuf_.add data, written := c.written ++ data }) answer l hD

theorem handleRead_overlay (answer : ReadAnswer) (l : KqueueLoop) (hD : D c.socket_ = true) :
    c.handleRead answer (l.overlay outer D) = ((c.handleRead answer l).1,
      (c.handleRead answer l).2.1.overlay outer D, (c.handleRead answer l).2.2) := by
  unfold handleRead
  split
  · rfl
  · cases answer with
    | fails => rfl
    | wouldBlock => rfl
    | bytes data =>
      dsimp only
      rw [close_overlay l hD]
      split <;> rfl

end Connection

namespace TlsConnection

variable {t : TlsConnection}

theorem close_overlay (l : KqueueLoop) (hD : D t.socket_ = true) :
    t.close (l.overlay outer D) = ((t.close l).1, (t.close l).2.overlay outer D) := by
  unfold close
  split
  · rfl
  · rw [overlay_remove l hD, overlay_closeFd _ hD]

theorem continueHandshake_overlay (answer : Nat → HandshakeAnswer) (id : Nat) (l : KqueueLoop)
    (hD : D t.socket_ = true) :
    t.continueHandshake answer id (l.overlay outer D) = ((t.continueHandshake answer id l).1,
      (t.continueHandshake answer id l).2.1.overlay outer D,
      (t.continueHandshake answer id l).2.2) := by
  unfold continueHandshake
  split
  · rfl
  · dsimp only
    split
    · rfl
    · split
      · rw [watchForSsl, watchForSsl, overlay_watch l hD]
      · rw [close_overlay (t := { t with handshakes := t.handshakes + 1 }) l hD]

theorem startRead_overlay (id : Nat) (l : KqueueLoop) (hD : D t.socket_ = true) :
    t.startRead id (l.overlay outer D) =
      ((t.startRead id l).1, (t.startRead id l).2.overlay outer D) := by
  unfold startRead
  split
  · rfl
  · rw [overlay_watch l hD]

/-- The write loop leaves the descriptor alone. -/
theorem writeLoop_socket (answer : Nat → SslWriteAnswer) (t : TlsConnection) (n : Nat) :
    (loop (writePass answer) n (t, WriteEnd.done) t).1.socket_ = t.socket_ := by
  refine loop_kept (fun d : TlsConnection => d.socket_ = t.socket_)
    (fun r : TlsConnection × WriteEnd => r.1.socket_ = t.socket_) ?_ ?_ rfl rfl
  · intro d d' hd hp
    unfold writePass at hp
    split at hp
    · exact absurd hp (by simp)
    · split at hp
      · exact absurd hp (by simp)
      · dsimp only at hp
        split at hp
        · exact absurd hp (by simp)
        · split at hp
          · simp only [Pass.again.injEq] at hp
            exact hp ▸ hd
          · split at hp <;> exact absurd hp (by simp)
  · intro d r hd hp
    unfold writePass at hp
    split at hp
    · simp only [Pass.leave.injEq] at hp
      exact hp ▸ hd
    · split at hp
      · simp only [Pass.leave.injEq] at hp
        exact hp ▸ hd
      · dsimp only at hp
        split at hp
        · simp only [Pass.leave.injEq] at hp
          exact hp ▸ hd
        · split at hp
          · exact absurd hp (by simp)
          · split at hp <;>
            · simp only [Pass.leave.injEq] at hp
              exact hp ▸ hd

theorem doWrite_overlay (answer : Nat → SslWriteAnswer) (id : Nat) (l : KqueueLoop)
    (hD : D t.socket_ = true) :
    t.doWrite answer id (l.overlay outer D) =
      ((t.doWrite answer id l).1, (t.doWrite answer id l).2.overlay outer D) := by
  have hsocket := writeLoop_socket answer t (t.writeBuf_.length + 1)
  unfold doWrite
  split
  · rfl
  · rcases hr : loop (writePass answer) (t.writeBuf_.length + 1) (t, WriteEnd.done) t with
      ⟨d, done | err | failed⟩
    · rw [hr] at hsocket
      dsimp only
      rw [overlay_watch l (hsocket ▸ hD)]
      split <;> rfl
    · rw [hr] at hsocket
      dsimp only
      rw [watchForSsl, watchForSsl, overlay_watch l (hsocket ▸ hD)]
    · rw [hr] at hsocket
      exact close_overlay l (hsocket ▸ hD)

theorem write_overlay (answer : Nat → SslWriteAnswer) (id : Nat) (data : Buffer) (l : KqueueLoop)
    (hD : D t.socket_ = true) :
    t.write answer id data (l.overlay outer D) = ((t.write answer id data l).1,
      (t.write answer id data l).2.1, (t.write answer id data l).2.2.overlay outer D) := by
  unfold write
  split
  · rfl
  · dsimp only
    rw [doWrite_overlay (t := { t with
      writeBuf_ := (t.writeBuf_.move data).1, written := t.written ++ data.linearize })
      answer id l hD]

end TlsConnection

end DeepSeer
