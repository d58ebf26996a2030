import DeepSeer.LinkFrames

/-!
What the calls of a connection make of the watch table, told by the descriptor that
the connection holds. It watches no other descriptor, and it holds one until it is
closed, which drops the watch and the socket.
-/
namespace DeepSeer

open ByteMemory WhileLoop

namespace KqueueLoop

/-- What an object with the callback `cb` makes of the table. It held the descriptor
`o` before and holds `o'` after. -/
structure Acted (cb : IoCallback) (o : Option Fd) (l : KqueueLoop) (o' : Option Fd)
    (l' : KqueueLoop) : Prop where
  held : o' = o ∨ o' = none
  entries : ∀ fd e, l'.fdEntries_ fd = some e →
    l.fdEntries_ fd = some e ∧ (o' = o ∨ o ≠ some fd) ∨ o' = some fd ∧ e.callback = cb
  sockets : ∀ fd, l'.sockets fd = true → l.sockets fd = true ∧ (o' = o ∨ o ≠ some fd)

theorem Acted.refl (cb : IoCallback) (o : Option Fd) (l : KqueueLoop) : Acted cb o l o l where
  held := .inl rfl
  entries := fun _ _ h => .inl ⟨h, .inl rfl⟩
  sockets := fun _ h => ⟨h, .inl rfl⟩

/-- What was kept or not held is kept or not held over two steps. -/
theorem kept_trans {o o' o'' : Option Fd} {fd : Fd} (h : o' = o ∨ o ≠ some fd)
    (h' : o'' = o' ∨ o' ≠ some fd) : o'' = o ∨ o ≠ some fd := by
  rcases h with rfl | h
  · exact h'
  · exact .inr h

theorem Acted.trans {cb : IoCallback} {o o' o'' : Option Fd} {l l' l'' : KqueueLoop}
    (h : Acted cb o l o' l') (h' : Acted cb o' l' o'' l'') : Acted cb o l o'' l'' where
  held := by
    rcases h'.held with rfl | hnone
    · exact h.held
    · exact .inr hnone
  entries := by
    intro fd e he
    rcases h'.entries fd e he with ⟨he', hkept'⟩ | hnew
    · rcases h.entries fd e he' with ⟨he, hkept⟩ | ⟨hheld, hcb⟩
      · exact .inl ⟨he, kept_trans hkept hkept'⟩
      · exact .inr ⟨(hkept'.resolve_right fun hne => hne hheld).trans hheld, hcb⟩
    · exact .inr hnew
  sockets := by
    intro fd hs
    obtain ⟨hs', hkept'⟩ := h'.sockets fd hs
    obtain ⟨hs, hkept⟩ := h.sockets fd hs'
    exact ⟨hs, kept_trans hkept hkept'⟩

theorem remove_sockets (l : KqueueLoop) (fd : Fd) : (l.remove fd).sockets = l.sockets := by
  unfold remove
  split <;> rfl

theorem remove_entries {l : KqueueLoop} {fd other : Fd} {e : FdEntry}
    (h : (l.remove fd).fdEntries_ other = some e) : other ≠ fd ∧ l.fdEntries_ other = some e := by
  by_cases heq : other = fd
  · subst heq
    simp at h
  · rw [remove_other l heq] at h
    exact ⟨heq, h⟩

theorem remove_acted (cb : IoCallback) (o : Option Fd) (l : KqueueLoop) (fd : Fd) :
    Acted cb o l o (l.remove fd) where
  held := .inl rfl
  entries := fun _ _ h => .inl ⟨(remove_entries h).2, .inl rfl⟩
  sockets := fun other h => ⟨by rwa [remove_sockets] at h, .inl rfl⟩

theorem watch_acted (cb : IoCallback) (l : KqueueLoop) (fd : Fd) (events : IoMask) :
    Acted cb (some fd) l (some fd) (l.watch fd events cb) where
  held := .inl rfl
  entries := by
    intro other e he
    by_cases heq : other = fd
    · subst heq
      rw [watch_entry, Option.some.injEq] at he
      exact .inr ⟨rfl, he ▸ rfl⟩
    · rw [watch_other l events cb heq] at he
      exact .inl ⟨he, .inl rfl⟩
  sockets := by
    intro other hs
    have hsame : (l.watch fd events cb).sockets = l.sockets := remove_sockets l fd
    rw [hsame] at hs
    exact ⟨hs, .inl rfl⟩

/-- The end of a descriptor: its watch is removed, and it is closed. -/
theorem drop_acted (cb : IoCallback) (l : KqueueLoop) (fd : Fd) :
    Acted cb (some fd) l none ((l.remove fd).closeFd fd) where
  held := .inr rfl
  entries := by
    intro other e he
    rw [closeFd_entries] at he
    obtain ⟨hne, he⟩ := remove_entries he
    exact .inl ⟨he, .inr fun heq => hne (Option.some.inj heq).symm⟩
  sockets := by
    intro other hs
    by_cases heq : other = fd
    · subst heq
      simp [closeFd] at hs
    · simp only [closeFd, Function.update_of_ne heq, remove_sockets] at hs
      exact ⟨hs, .inr fun h => heq (Option.some.inj h).symm⟩

end KqueueLoop

open KqueueLoop

namespace Connection

/-- The descriptor of a connection that is not closed. -/
def held (c : Connection) : Option Fd := if c.closed_ then none else some c.socket_

theorem held_open {c : Connection} (h : c.closed_ = false) : c.held = some c.socket_ := by
  simp [held, h]

theorem held_closed {c : Connection} (h : c.closed_ = true) : c.held = none := by
  simp [held, h]

theorem SameLink.held {c c' : Connection} (h : SameLink c c') : c'.held = c.held := by
  rw [Connection.held, Connection.held, h.closed, h.socket]

/-- What a call of a connection makes of it and of the table. -/
structure Calls (c : Connection) (l : KqueueLoop) (c' : Connection) (l' : KqueueLoop) :
    Prop where
  id : c'.id = c.id
  acted : Acted (.connection c.id) c.held l c'.held l'
  dead : c'.closed_ = true → c.closed_ = true ∧ c'.socket_ = c.socket_ ∨
    c'.socket_ = kInvalidFd

theorem Calls.refl (c : Connection) (l : KqueueLoop) : Calls c l c l :=
  ⟨rfl, .refl _ _ _, fun h => .inl ⟨h, rfl⟩⟩

theorem Calls.trans {c c' c'' : Connection} {l l' l'' : KqueueLoop} (h : Calls c l c' l')
    (h' : Calls c' l' c'' l'') : Calls c l c'' l'' := by
  refine ⟨h'.id.trans h.id, h.acted.trans (h.id ▸ h'.acted), fun hc => ?_⟩
  rcases h'.dead hc with ⟨hc', hs'⟩ | hinvalid
  · rcases h.dead hc' with ⟨hc, hs⟩ | hinvalid
    · exact .inl ⟨hc, hs'.trans hs⟩
    · exact .inr (hs'.trans hinvalid)
  · exact .inr hinvalid

/-- A change of other members. -/
theorem Calls.link {c c' : Connection} (h : SameLink c c') (l : KqueueLoop) : Calls c l c' l :=
  ⟨h.id, h.held ▸ .refl _ _ _, fun hc => .inl ⟨h.closed.symm.trans hc, h.socket⟩⟩

theorem Calls.setReading (c : Connection) (l : KqueueLoop) (reading : Bool) :
    Calls c l { c with reading_ := reading } l :=
  ⟨rfl, .refl _ _ _, fun h => .inl ⟨h, rfl⟩⟩

theorem Calls.queue (c : Connection) (l : KqueueLoop) (writeBuf : Buffer) (written : Bytes) :
    Calls c l { c with writeBuf_ := writeBuf, written := written } l :=
  ⟨rfl, .refl _ _ _, fun h => .inl ⟨h, rfl⟩⟩

theorem calls_updateEvents (c : Connection) (l : KqueueLoop) : Calls c l c (c.updateEvents l) := by
  refine ⟨rfl, ?_, fun h => .inl ⟨h, rfl⟩⟩
  unfold updateEvents
  split
  · exact .refl _ _ _
  · next ho =>
    dsimp only
    split
    · exact remove_acted _ _ l _
    · rw [held_open (by simpa using ho)]
      exact watch_acted _ l _ _

theorem calls_close (c : Connection) (l : KqueueLoop) : Calls c l (c.close l).1 (c.close l).2 := by
  unfold close
  split
  · exact .refl c l
  · next ho =>
    refine ⟨rfl, ?_, fun _ => .inr rfl⟩
    rw [held_open (c := c) (by simpa using ho)]
    exact drop_acted _ l _

theorem calls_startRead (c : Connection) (l : KqueueLoop) :
    Calls c l (c.startRead l).1 (c.startRead l).2 := by
  unfold startRead
  split
  · exact .refl c l
  · exact (Calls.setReading c l true).trans (calls_updateEvents _ l)

theorem calls_stopRead (c : Connection) (l : KqueueLoop) :
    Calls c l (c.stopRead l).1 (c.stopRead l).2 := by
  unfold stopRead
  split
  · exact .refl c l
  · exact (Calls.setReading c l false).trans (calls_updateEvents _ l)

variable (answer : Nat → SendAnswer)

theorem calls_handleWrite (c : Connection) (l : KqueueLoop) :
    Calls c l (c.handleWrite answer l).1 (c.handleWrite answer l).2.1 := by
  have hlink := flush_link answer c
  unfold handleWrite
  split
  · exact .refl c l
  · split
    · next hf =>
      rw [hf] at hlink
      exact .link hlink l
    · next hf =>
      rw [hf] at hlink
      exact (Calls.link hlink l).trans (calls_updateEvents _ l)

theorem calls_flushNow (c : Connection) (l : KqueueLoop) :
    Calls c l (c.flushNow answer l).1 (c.flushNow answer l).2.1 := by
  unfold flushNow
  dsimp only
  split
  · exact calls_updateEvents c l
  · exact (calls_updateEvents c l).trans (calls_handleWrite answer c _)

theorem calls_write (c : Connection) (data : Buffer) (l : KqueueLoop) :
    Calls c l (c.write answer data l).1 (c.write answer data l).2.2.1 := by
  unfold write
  split
  · exact .refl c l
  · exact (Calls.queue c l _ _).trans (calls_flushNow answer _ l)

theorem calls_writeText (c : Connection) (data : Bytes) (l : KqueueLoop) :
    Calls c l (c.writeText answer data l).1 (c.writeText answer data l).2.1 := by
  unfold writeText
  split
  · exact .refl c l
  · exact (Calls.queue c l _ _).trans (calls_flushNow answer _ l)

end Connection

namespace TlsConnection

/-- The descriptor of a TLS connection that is not closed. -/
def held (t : TlsConnection) : Option Fd := if t.closed_ then none else some t.socket_

theorem held_open {t : TlsConnection} (h : t.closed_ = false) : t.held = some t.socket_ := by
  simp [held, h]

/-- What a call of a TLS connection makes of the table. -/
abbrev Calls (id : Nat) (t : TlsConnection) (l : KqueueLoop) (t' : TlsConnection)
    (l' : KqueueLoop) : Prop := Acted (.tls id) t.held l t'.held l'

theorem calls_close (id : Nat) (t : TlsConnection) (l : KqueueLoop) :
    Calls id t l (t.close l).1 (t.close l).2 := by
  unfold close
  split
  · exact .refl _ _ l
  · next ho =>
    rw [Calls, held_open (t := t) (by simpa using ho)]
    exact drop_acted _ l _

theorem calls_watchForSsl (id : Nat) {t : TlsConnection} (h : t.closed_ = false)
    (err : SslError) (l : KqueueLoop) : Calls id t l t (t.watchForSsl id err l) := by
  rw [Calls, held_open h]
  exact watch_acted _ l _ _

theorem calls_continueHandshake (answer : Nat → HandshakeAnswer) (id : Nat) (t : TlsConnection)
    (l : KqueueLoop) :
    Calls id t l (t.continueHandshake answer id l).1 (t.continueHandshake answer id l).2.1 := by
  unfold continueHandshake
  split
  · exact .refl _ _ l
  · next ho =>
    dsimp only
    split
    · exact .refl _ _ l
    · split
      · exact calls_watchForSsl id (t := { t with handshakes := t.handshakes + 1 })
          (by simpa using ho) _ l
      · exact calls_close id { t with handshakes := t.handshakes + 1 } l

theorem calls_startRead (id : Nat) (t : TlsConnection) (l : KqueueLoop) :
    Calls id t l (t.startRead id l).1 (t.startRead id l).2 := by
  unfold startRead
  split
  · exact .refl _ _ l
  · next ho =>
    simp only [not_or, Bool.not_eq_true] at ho
    have hheld : held { t with reading_ := true } = some t.socket_ := held_open ho.1
    rw [Calls, hheld, held_open ho.1]
    exact watch_acted _ l _ _

/-- The write loop leaves the descriptor alone. -/
theorem writeLoop_held (answer : Nat → SslWriteAnswer) (t : TlsConnection) (n : Nat) :
    (loop (writePass answer) n (t, WriteEnd.done) t).1.held = t.held := by
  refine loop_kept (fun d : TlsConnection => d.held = t.held)
    (fun r : TlsConnection × WriteEnd => r.1.held = t.held) ?_ ?_ rfl rfl
  · intro d d' hd hp
    unfold writePass at hp
    split at hp
    · exact absurd hp (by simp)
    · split at hp
      · exact absurd hp (by simp)
      · dsimp only at hp
        split at hp
        · exact absurd hp (by simp)
        · split at hp
          · simp only [Pass.again.injEq] at hp
            exact hp ▸ hd
          · split at hp <;> exact absurd hp (by simp)
  · intro d r hd hp
    unfold writePass at hp
    split at hp
    · simp only [Pass.leave.injEq] at hp
      exact hp ▸ hd
    · split at hp
      · simp only [Pass.leave.injEq] at hp
        exact hp ▸ hd
      · dsimp only at hp
        split at hp
        · simp only [Pass.leave.injEq] at hp
          exact hp ▸ hd
        · split at hp
          · exact absurd hp (by simp)
          · split at hp <;>
            · simp only [Pass.leave.injEq] at hp
              exact hp ▸ hd

theorem calls_doWrite (answer : Nat → SslWriteAnswer) (id : Nat) (t : TlsConnection)
    (l : KqueueLoop) :
    Calls id t l (t.doWrite answer id l).1 (t.doWrite answer id l).2 := by
  have hheld := writeLoop_held answer t (t.writeBuf_.length + 1)
  have hlink := writeLoop_link answer t (t.writeBuf_.length + 1)
  unfold doWrite
  split
  · exact .refl _ _ l
  · next ho =>
    have hopen : t.closed_ = false := by simpa using ho
    split
    · next d err he =>
      rw [he] at hheld hlink
      rw [Calls, ← hheld]
      exact calls_watchForSsl id (hlink.closed.trans hopen) err l
    · next d he =>
      rw [he] at hheld
      rw [Calls, ← hheld]
      exact calls_close id d l
    · next d he =>
      rw [he] at hheld hlink
      rw [Calls, ← hheld]
      split
      · rw [held_open (hlink.closed.trans hopen)]
        exact watch_acted _ l _ _
      · exact .refl _ _ l

theorem calls_write (answer : Nat → SslWriteAnswer) (id : Nat) (t : TlsConnection)
    (data : Buffer) (l : KqueueLoop) :
    Calls id t l (t.write answer id data l).1 (t.write answer id data l).2.2 := by
  unfold write
  split
  · exact .refl _ _ l
  · exact calls_doWrite answer id { t with
      writeBuf_ := (t.writeBuf_.move data).1, written := t.written ++ data.linearize } l

end TlsConnection

end DeepSeer
