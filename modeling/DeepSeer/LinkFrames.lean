import DeepSeer.ConnectionWrites
import DeepSeer.TlsConnection

/-!
What the calls of its owner make of a connection and of the watch table: no
connect is awaited that was not, and identity, callbacks and the data that was
taken stay with the connection.
-/
namespace DeepSeer

open ByteMemory

namespace KqueueLoop

/-- Every connect that is awaited in the second table was in the first. -/
def NoNewConnects (l l' : KqueueLoop) : Prop :=
  ∀ fd e, l'.fdEntries_ fd = some e → e.callback = .connect → l.fdEntries_ fd = some e

theorem NoNewConnects.refl (l : KqueueLoop) : NoNewConnects l l := fun _ _ h _ => h

theorem NoNewConnects.trans {l l' l'' : KqueueLoop} (h : NoNewConnects l l')
    (h' : NoNewConnects l' l'') : NoNewConnects l l'' :=
  fun fd e he hc => h fd e (h' fd e he hc) hc

theorem remove_noNew (l : KqueueLoop) (fd : Fd) : NoNewConnects l (l.remove fd) := by
  intro other e he _
  by_cases h : other = fd
  · subst h
    simp at he
  · rwa [remove_other l h] at he

theorem openFd_noNew (l : KqueueLoop) (fd : Fd) : NoNewConnects l (l.openFd fd) :=
  fun _ _ he _ => he

theorem closeFd_noNew (l : KqueueLoop) (fd : Fd) : NoNewConnects l (l.closeFd fd) :=
  fun _ _ he _ => he

theorem watch_noNew (l : KqueueLoop) (fd : Fd) (events : IoMask) {cb : IoCallback}
    (hcb : cb ≠ .connect) : NoNewConnects l (l.watch fd events cb) := by
  intro other e he hc
  by_cases h : other = fd
  · subst h
    rw [watch_entry] at he
    simp only [Option.some.injEq] at he
    subst he
    exact absurd hc hcb
  · rwa [watch_other l events cb h] at he

end KqueueLoop

open KqueueLoop

namespace Connection

/-- What the calls of its owner make of a connection. Data is written to it only
where `P` holds, and `D` is what the owner promises of the buffers it writes. -/
inductive Moves (P : Prop) (D : Buffer → Prop) (answer : Nat → SendAnswer) :
    Connection → Connection → Prop
  | refl (c : Connection) : Moves P D answer c c
  | close {c d : Connection} (loop : KqueueLoop) :
      Moves P D answer c d → Moves P D answer c (d.close loop).1
  | startRead {c d : Connection} (loop : KqueueLoop) :
      Moves P D answer c d → Moves P D answer c (d.startRead loop).1
  | stopRead {c d : Connection} (loop : KqueueLoop) :
      Moves P D answer c d → Moves P D answer c (d.stopRead loop).1
  | wire {c d : Connection} : Moves P D answer c d → Moves P D answer c { d with wired := true }
  | write {c d : Connection} (data : Buffer) (loop : KqueueLoop) :
      P → D data → Moves P D answer c d → Moves P D answer c (d.write answer data loop).1
  | writeText {c d : Connection} (data : Bytes) (loop : KqueueLoop) :
      P → Moves P D answer c d → Moves P D answer c (d.writeText answer data loop).1
  | flush {c d : Connection} (loop : KqueueLoop) :
      Moves P D answer c d → Moves P D answer c (d.handleWrite answer loop).1

variable {P : Prop} {D : Buffer → Prop} {answer : Nat → SendAnswer}

theorem Moves.trans {c d e : Connection} (h : Moves P D answer c d) (h' : Moves P D answer d e) :
    Moves P D answer c e := by
  induction h' with
  | refl => exact h
  | close loop _ ih => exact .close loop ih
  | startRead loop _ ih => exact .startRead loop ih
  | stopRead loop _ ih => exact .stopRead loop ih
  | wire _ ih => exact .wire ih
  | write data loop hp hd _ ih => exact .write data loop hp hd ih
  | writeText data loop hp _ ih => exact .writeText data loop hp ih
  | flush loop _ ih => exact .flush loop ih

theorem Moves.mono {Q : Prop} (hpq : P → Q) {c d : Connection} (h : Moves P D answer c d) :
    Moves Q D answer c d := by
  induction h with
  | refl => exact .refl c
  | close loop _ ih => exact .close loop ih
  | startRead loop _ ih => exact .startRead loop ih
  | stopRead loop _ ih => exact .stopRead loop ih
  | wire _ ih => exact .wire ih
  | write data loop hp hd _ ih => exact .write data loop (hpq hp) hd ih
  | writeText data loop hp _ ih => exact .writeText data loop (hpq hp) ih
  | flush loop _ ih => exact .flush loop ih

theorem updateEvents_noNew (c : Connection) (loop : KqueueLoop) :
    NoNewConnects loop (c.updateEvents loop) := by
  unfold updateEvents
  split
  · exact .refl loop
  · dsimp only
    split
    · exact remove_noNew loop _
    · exact watch_noNew loop _ _ (by simp)

theorem close_noNew (c : Connection) (loop : KqueueLoop) :
    NoNewConnects loop (c.close loop).2 := by
  unfold close
  split
  · exact .refl loop
  · exact (remove_noNew loop _).trans (closeFd_noNew _ _)

theorem startRead_noNew (c : Connection) (loop : KqueueLoop) :
    NoNewConnects loop (c.startRead loop).2 := by
  unfold startRead
  split
  · exact .refl loop
  · exact updateEvents_noNew _ loop

theorem stopRead_noNew (c : Connection) (loop : KqueueLoop) :
    NoNewConnects loop (c.stopRead loop).2 := by
  unfold stopRead
  split
  · exact .refl loop
  · exact updateEvents_noNew _ loop

theorem handleWrite_noNew (answer : Nat → SendAnswer) (c : Connection) (loop : KqueueLoop) :
    NoNewConnects loop (c.handleWrite answer loop).2.1 := by
  unfold handleWrite
  split
  · exact .refl loop
  · split
    · exact .refl loop
    · exact updateEvents_noNew _ loop

theorem flushNow_noNew (answer : Nat → SendAnswer) (c : Connection) (loop : KqueueLoop) :
    NoNewConnects loop (c.flushNow answer loop).2.1 := by
  unfold flushNow
  dsimp only
  split
  · exact updateEvents_noNew c loop
  · exact (updateEvents_noNew c loop).trans (handleWrite_noNew answer c _)

theorem write_noNew (answer : Nat → SendAnswer) (c : Connection) (data : Buffer)
    (loop : KqueueLoop) : NoNewConnects loop (c.write answer data loop).2.2.1 := by
  unfold write
  split
  · exact .refl loop
  · exact flushNow_noNew answer _ loop

theorem writeText_noNew (answer : Nat → SendAnswer) (c : Connection) (data : Bytes)
    (loop : KqueueLoop) : NoNewConnects loop (c.writeText answer data loop).2.1 := by
  unfold writeText
  split
  · exact .refl loop
  · exact flushNow_noNew answer _ loop

/-- What the calls of its owner cannot take from a connection. -/
structure Kin (c d : Connection) : Prop where
  id : d.id = c.id
  wired : c.wired = true → d.wired = true
  written : c.written <+: d.written
  closed : c.closed_ = true → d.closed_ = true ∧ d.written = c.written

theorem SameLink.kin {c d : Connection} (h : SameLink c d) : Kin c d :=
  ⟨h.id, fun hw => h.wired.trans hw, h.written ▸ List.prefix_refl _,
    fun hc => ⟨h.closed.trans hc, h.written⟩⟩

theorem Kin.trans {c d e : Connection} (h : Kin c d) (h' : Kin d e) : Kin c e :=
  ⟨h'.id.trans h.id, fun hw => h'.wired (h.wired hw), h.written.trans h'.written, fun hc =>
    ⟨(h'.closed (h.closed hc).1).1, (h'.closed (h.closed hc).1).2.trans (h.closed hc).2⟩⟩

theorem write_kin (answer : Nat → SendAnswer) (c : Connection) (data : Buffer)
    (loop : KqueueLoop) : Kin c (c.write answer data loop).1 := by
  unfold write
  split
  · next hc => exact ⟨rfl, fun hw => hw, List.prefix_refl _, fun hc => ⟨hc, rfl⟩⟩
  · next hc =>
    have hl := flushNow_link answer { c with
      writeBuf_ := (c.writeBuf_.move data).1, written := c.written ++ data.linearize } loop
    exact ⟨hl.id, fun hw => hl.wired.trans hw, hl.written ▸ List.prefix_append _ _,
      fun ht => absurd ht hc⟩

theorem writeText_kin (answer : Nat → SendAnswer) (c : Connection) (data : Bytes)
    (loop : KqueueLoop) : Kin c (c.writeText answer data loop).1 := by
  unfold writeText
  split
  · next hc => exact ⟨rfl, fun hw => hw, List.prefix_refl _, fun hc => ⟨hc, rfl⟩⟩
  · next hc =>
    have hl := flushNow_link answer { c with
      writeBuf_ := c.writeBuf_.add data, written := c.written ++ data } loop
    exact ⟨hl.id, fun hw => hl.wired.trans hw, hl.written ▸ List.prefix_append _ _,
      fun ht => absurd ht hc⟩

theorem Moves.kin {c d : Connection} (h : Moves P D answer c d) : Kin c d := by
  induction h with
  | refl => exact (SameLink.refl c).kin
  | close loop _ ih =>
    refine ih.trans ?_
    unfold Connection.close
    split
    · exact (SameLink.refl _).kin
    · exact ⟨rfl, fun hw => hw, List.prefix_refl _, fun _ => ⟨rfl, rfl⟩⟩
  | startRead loop _ ih =>
    refine ih.trans ?_
    unfold Connection.startRead
    split <;> exact ⟨rfl, fun hw => hw, List.prefix_refl _, fun hc => ⟨hc, rfl⟩⟩
  | stopRead loop _ ih =>
    refine ih.trans ?_
    unfold Connection.stopRead
    split <;> exact ⟨rfl, fun hw => hw, List.prefix_refl _, fun hc => ⟨hc, rfl⟩⟩
  | wire _ ih => exact ih.trans ⟨rfl, fun _ => rfl, List.prefix_refl _, fun hc => ⟨hc, rfl⟩⟩
  | write data loop _ _ _ ih => exact ih.trans (write_kin answer _ data loop)
  | writeText data loop _ _ ih => exact ih.trans (writeText_kin answer _ data loop)
  | flush loop _ ih => exact ih.trans (handleWrite_link answer _ loop).kin

@[simp] theorem startRead_closed (c : Connection) (loop : KqueueLoop) :
    (c.startRead loop).1.closed_ = c.closed_ := by
  unfold Connection.startRead
  split <;> rfl

@[simp] theorem startRead_wired (c : Connection) (loop : KqueueLoop) :
    (c.startRead loop).1.wired = c.wired := by
  unfold Connection.startRead
  split <;> rfl

@[simp] theorem stopRead_closed (c : Connection) (loop : KqueueLoop) :
    (c.stopRead loop).1.closed_ = c.closed_ := by
  unfold Connection.stopRead
  split <;> rfl

@[simp] theorem close_written (c : Connection) (loop : KqueueLoop) :
    (c.close loop).1.written = c.written := by
  unfold Connection.close
  split <;> rfl

/-- Where nothing may be written, nothing is. -/
theorem Moves.silent (hp : ¬ P) {c d : Connection} (h : Moves P D answer c d) :
    d.written = c.written := by
  induction h with
  | refl => rfl
  | close loop _ ih => rw [close_written, ih]
  | startRead loop _ ih =>
    unfold Connection.startRead
    split <;> exact ih
  | stopRead loop _ ih =>
    unfold Connection.stopRead
    split <;> exact ih
  | wire _ ih => exact ih
  | write data loop hp' _ _ _ => exact absurd hp' hp
  | writeText data loop hp' _ _ => exact absurd hp' hp
  | flush loop _ ih => exact (handleWrite_link answer _ loop).written.trans ih

end Connection

namespace TlsConnection

/-- What writing and closing cannot take from a TLS connection. -/
structure Kin (t t' : TlsConnection) : Prop where
  isServer : t'.isServer_ = t.isServer_
  callback : t'.callback = t.callback
  handshakeDone : t'.handshakeDone_ = t.handshakeDone_
  wired : t'.wired = t.wired
  written : t.written <+: t'.written
  closed : t.closed_ = true → t'.closed_ = true ∧ t'.written = t.written

theorem Kin.refl (t : TlsConnection) : Kin t t :=
  ⟨rfl, rfl, rfl, rfl, List.prefix_refl _, fun hc => ⟨hc, rfl⟩⟩

theorem Kin.trans {t t' t'' : TlsConnection} (h : Kin t t') (h' : Kin t' t'') : Kin t t'' :=
  ⟨h'.isServer.trans h.isServer, h'.callback.trans h.callback,
    h'.handshakeDone.trans h.handshakeDone, h'.wired.trans h.wired, h.written.trans h'.written,
    fun hc => ⟨(h'.closed (h.closed hc).1).1,
      (h'.closed (h.closed hc).1).2.trans (h.closed hc).2⟩⟩

theorem close_kin (t : TlsConnection) (loop : KqueueLoop) : Kin t (t.close loop).1 := by
  unfold close
  split
  · exact .refl t
  · exact ⟨rfl, rfl, rfl, rfl, List.prefix_refl _, fun _ => ⟨rfl, rfl⟩⟩

@[simp] theorem close_written (t : TlsConnection) (loop : KqueueLoop) :
    (t.close loop).1.written = t.written := by
  unfold close
  split <;> rfl

theorem close_noNew (t : TlsConnection) (loop : KqueueLoop) :
    NoNewConnects loop (t.close loop).2 := by
  unfold close
  split
  · exact .refl loop
  · exact (remove_noNew loop _).trans (closeFd_noNew _ _)

/-- A TLS connection that was moved on by its owner, written to only where `P`
holds. -/
structure Flows (P : Prop) (t t' : TlsConnection) : Prop extends Kin t t' where
  silent : ¬ P → t'.written = t.written

theorem Flows.refl (P : Prop) (t : TlsConnection) : Flows P t t := ⟨.refl t, fun _ => rfl⟩

/-- Two TLS connections that differ in the writing only. -/
structure SameLink (t t' : TlsConnection) : Prop where
  kin : Kin t t'
  closed : t'.closed_ = t.closed_
  written : t'.written = t.written

theorem SameLink.flushed {t d : TlsConnection} (h : SameLink t d) (sslWrites : Nat)
    (accepted : Bytes) (writeBuf : Buffer) : SameLink t { d with
      sslWrites := sslWrites, accepted := accepted, writeBuf_ := writeBuf } :=
  ⟨⟨h.kin.isServer, h.kin.callback, h.kin.handshakeDone, h.kin.wired, h.kin.written, h.kin.closed⟩,
    h.closed, h.written⟩

/-- The write loop changes only what writing changes. -/
theorem writeLoop_link (answer : Nat → SslWriteAnswer) (t : TlsConnection) (n : Nat) :
    SameLink t (WhileLoop.loop (writePass answer) n (t, WriteEnd.done) t).1 := by
  have hrefl : SameLink t t := ⟨.refl t, rfl, rfl⟩
  refine WhileLoop.loop_kept (SameLink t) (fun r : TlsConnection × WriteEnd => SameLink t r.1)
    ?_ ?_ hrefl hrefl
  · intro d d' hd hp
    unfold writePass at hp
    split at hp
    · exact absurd hp (by simp)
    · split at hp
      · exact absurd hp (by simp)
      · dsimp only at hp
        split at hp
        · exact absurd hp (by simp)
        · split at hp
          · simp only [WhileLoop.Pass.again.injEq] at hp
            exact hp ▸ hd.flushed _ _ _
          · split at hp <;> exact absurd hp (by simp)
  · intro d r hd hp
    unfold writePass at hp
    split at hp
    · simp only [WhileLoop.Pass.leave.injEq] at hp
      exact hp ▸ hd
    · split at hp
      · simp only [WhileLoop.Pass.leave.injEq] at hp
        exact hp ▸ hd
      · dsimp only at hp
        split at hp
        · simp only [WhileLoop.Pass.leave.injEq] at hp
          exact hp ▸ hd
        · split at hp
          · exact absurd hp (by simp)
          · split at hp <;>
            · simp only [WhileLoop.Pass.leave.injEq] at hp
              exact hp ▸ hd.flushed _ _ _

theorem doWrite_kin (answer : Nat → SslWriteAnswer) (t : TlsConnection) (id : Nat)
    (loop : KqueueLoop) : Kin t (t.doWrite answer id loop).1 ∧
      (t.doWrite answer id loop).1.written = t.written := by
  have hl := writeLoop_link answer t (t.writeBuf_.length + 1)
  unfold doWrite
  split
  · exact ⟨.refl t, rfl⟩
  · split
    · next he => rw [he] at hl; exact ⟨hl.kin, hl.written⟩
    · next d he =>
      rw [he] at hl
      exact ⟨hl.kin.trans (close_kin d loop), (close_written d loop).trans hl.written⟩
    · next he =>
      rw [he] at hl
      split <;> exact ⟨hl.kin, hl.written⟩

theorem doWrite_noNew (answer : Nat → SslWriteAnswer) (t : TlsConnection) (id : Nat)
    (loop : KqueueLoop) : NoNewConnects loop (t.doWrite answer id loop).2 := by
  unfold doWrite
  split
  · exact .refl loop
  · split
    · exact watch_noNew loop _ _ (by simp)
    · exact close_noNew _ loop
    · split
      · exact watch_noNew loop _ _ (by simp)
      · exact .refl loop

/-- A write takes the data exactly when the connection is open. -/
theorem write_kin (answer : Nat → SslWriteAnswer) (t : TlsConnection) (id : Nat) (data : Buffer)
    (loop : KqueueLoop) : Kin t (t.write answer id data loop).1 ∧
      (t.closed_ = false →
        (t.write answer id data loop).1.written = t.written ++ data.linearize) := by
  unfold write
  split
  · next hc => exact ⟨.refl t, fun ho => absurd (hc.symm.trans ho) (by decide)⟩
  · next hc =>
    obtain ⟨hk, hw⟩ := doWrite_kin answer { t with
      writeBuf_ := (t.writeBuf_.move data).1, written := t.written ++ data.linearize } id loop
    exact ⟨⟨hk.isServer, hk.callback, hk.handshakeDone, hk.wired,
      (List.prefix_append _ _).trans hk.written, fun ht => absurd ht hc⟩, fun _ => hw⟩

theorem write_noNew (answer : Nat → SslWriteAnswer) (t : TlsConnection) (id : Nat) (data : Buffer)
    (loop : KqueueLoop) : NoNewConnects loop (t.write answer id data loop).2.2 := by
  unfold write
  split
  · exact .refl loop
  · exact doWrite_noNew answer _ id loop

/-- What a handshake and the callbacks set after it leave of the connection. -/
structure Advances (t t' : TlsConnection) : Prop where
  isServer : t'.isServer_ = t.isServer_
  callback : t'.callback = t.callback
  written : t'.written = t.written
  closed : t.closed_ = true → t'.closed_ = true
  handshakeDone : t.handshakeDone_ = true → t'.handshakeDone_ = true

/-- A step of the handshake. -/
structure Handshaken (t t' : TlsConnection) (outcome : HandshakeOutcome) : Prop
    extends Advances t t' where
  wired : t'.wired = t.wired
  complete : outcome = .complete → t'.handshakeDone_ = true

theorem wire_advances (t : TlsConnection) : Advances t { t with wired := true } :=
  ⟨rfl, rfl, rfl, fun h => h, fun h => h⟩

theorem startRead_advances (t : TlsConnection) (id : Nat) (loop : KqueueLoop) :
    Advances t (t.startRead id loop).1 ∧ NoNewConnects loop (t.startRead id loop).2 := by
  unfold startRead
  split
  · exact ⟨⟨rfl, rfl, rfl, fun h => h, fun h => h⟩, .refl loop⟩
  · exact ⟨⟨rfl, rfl, rfl, fun h => h, fun h => h⟩, watch_noNew loop _ _ (by simp)⟩

theorem continueHandshake_spec (answer : Nat → HandshakeAnswer) (t : TlsConnection) (id : Nat)
    (loop : KqueueLoop) :
    Handshaken t (t.continueHandshake answer id loop).1 (t.continueHandshake answer id loop).2.2 ∧
      NoNewConnects loop (t.continueHandshake answer id loop).2.1 := by
  unfold continueHandshake
  by_cases hc : t.closed_ = true
  · rw [if_pos hc]
    exact ⟨⟨⟨rfl, rfl, rfl, fun h => h, fun h => h⟩, rfl, by simp⟩, .refl loop⟩
  · rw [if_neg hc]
    dsimp only
    split
    · exact ⟨⟨⟨rfl, rfl, rfl, fun h => h, fun _ => rfl⟩, rfl, fun _ => rfl⟩, .refl loop⟩
    · split
      · exact ⟨⟨⟨rfl, rfl, rfl, fun h => h, fun h => h⟩, rfl, by simp⟩,
          watch_noNew loop _ _ (by simp)⟩
      · have hk := close_kin { t with handshakes := t.handshakes + 1 } loop
        exact ⟨⟨⟨hk.isServer, hk.callback, close_written _ loop, fun h => (hk.closed h).1,
          fun h => hk.handshakeDone.trans h⟩, hk.wired, by simp⟩, close_noNew _ loop⟩

end TlsConnection

end DeepSeer
