import DeepSeer.TlsSteps

/-!
The end of a TLS handshake. It is reported by one of two callbacks, which the
session gives the release of its contexts to. Every handshake that is due comes
before its end, and the steps that are no handshake leave it where it is.
-/
namespace DeepSeer

open ByteMemory Schedules

def TlsAct.starts : TlsAct → Bool
  | .call (.startHandshake _ _) => true
  | _ => false

/-- One of the two callbacks of the handshake is called. -/
def TlsNote.endsHandshake : TlsNote → Bool
  | .invoked .handshakeComplete _ _ | .invoked .handshakeError _ _ => true
  | _ => false

/-- The completion is reported after a handshake that has succeeded, and a failure
on a connection that is closed and no longer watched; neither after the other
one, nor after the user has closed the connection. -/
def HandshakeRight : TlsNote → List TlsNote → Prop
  | .invoked .handshakeComplete _ _, earlier =>
    .ssl (.handshake .done) ∈ earlier ∧ .closed ∉ earlier ∧
      earlier.countP TlsNote.endsHandshake = 0
  | .invoked .handshakeError closed watched, earlier =>
    closed = true ∧ watched = false ∧ .closed ∉ earlier ∧
      earlier.countP TlsNote.endsHandshake = 0
  | _, _ => True

theorem handshakeRight_other {n : TlsNote} (h : n.endsHandshake = false)
    (earlier : List TlsNote) : HandshakeRight n earlier := by
  cases n with
  | ssl c => trivial
  | closed => trivial
  | invoked cb closed watched =>
    cases cb with
    | handshakeComplete => cases h
    | handshakeError => cases h
    | onData data => trivial
    | onClose => trivial
    | onError err => trivial

theorem handshakeRight_ends {n : TlsNote} {earlier : List TlsNote} (h : HandshakeRight n earlier)
    (hn : n.endsHandshake = true) : earlier.countP TlsNote.endsHandshake = 0 := by
  cases n with
  | ssl c => cases hn
  | closed => cases hn
  | invoked cb closed watched =>
    cases cb with
    | handshakeComplete => exact h.2.2
    | handshakeError => exact h.2.2.2
    | onData data => cases hn
    | onClose => cases hn
    | onError err => cases hn

theorem ends_once {trace : List TlsNote} (h : Throughout HandshakeRight trace) :
    trace.countP TlsNote.endsHandshake ≤ 1 := by
  induction trace with
  | nil => exact Nat.zero_le 1
  | cons n earlier ih =>
    rw [List.countP_cons]
    split
    · next hn =>
      have hzero := handshakeRight_ends h.1 hn
      omega
    · exact ih h.2

namespace TlsRun

/-- Nothing of the handshake has happened between two states. -/
structure Aside (s s' : TlsRun) : Prop where
  notes : ∃ notes, s'.trace = notes ++ s.trace ∧
    ∀ n ∈ notes, n.endsHandshake = false ∧ n ≠ .closed
  complete : s'.onHandshakeComplete_ = s.onHandshakeComplete_
  error : s'.onHandshakeError_ = s.onHandshakeError_
  done : s'.conn.handshakeDone_ = s.conn.handshakeDone_
  closed : s.conn.closed_ = true → s'.conn.closed_ = true

/-- A change of the rest of the state. -/
theorem Aside.same {s s' : TlsRun} (ht : s'.trace = s.trace)
    (hc : s'.onHandshakeComplete_ = s.onHandshakeComplete_)
    (he : s'.onHandshakeError_ = s.onHandshakeError_)
    (hd : s'.conn.handshakeDone_ = s.conn.handshakeDone_)
    (hclosed : s'.conn.closed_ = s.conn.closed_) : Aside s s' :=
  ⟨⟨[], ht, by simp⟩, hc, he, hd, hclosed.trans⟩

theorem Aside.refl (s : TlsRun) : Aside s s := .same rfl rfl rfl rfl rfl

theorem Aside.trans {s s' s'' : TlsRun} (h : Aside s s') (h' : Aside s' s'') : Aside s s'' :=
  ⟨notes_trans h.notes h'.notes, h'.complete.trans h.complete, h'.error.trans h.error,
    h'.done.trans h.done, fun hc => h'.closed (h.closed hc)⟩

theorem aside_note (s : TlsRun) {n : TlsNote} (hn : n.endsHandshake = false) (hc : n ≠ .closed) :
    Aside s (s.note n) :=
  ⟨⟨[n], rfl, by simpa using ⟨hn, hc⟩⟩, rfl, rfl, rfl, fun h => h⟩

theorem aside_ssl (s : TlsRun) (c : SslCall) : Aside s (s.note (.ssl c)) :=
  aside_note s rfl (by simp)

theorem aside_invoke (s : TlsRun) (set : Bool) {cb : TlsCallback}
    (hcb : ∀ closed watched, (TlsNote.invoked cb closed watched).endsHandshake = false) :
    Aside s (s.invoke set cb) := by
  unfold invoke
  split
  · exact (aside_note s (hcb _ _) (by simp)).trans (.same rfl rfl rfl rfl rfl)
  · exact .refl s

theorem aside_shut (s : TlsRun) : Aside s s.shut := by
  refine ⟨⟨[], rfl, by simp⟩, rfl, rfl, ?_, fun _ => shut_closed s⟩
  unfold shut TlsConnection.close
  split <;> rfl

theorem aside_setConn (s : TlsRun) {conn : TlsConnection}
    (hd : conn.handshakeDone_ = s.conn.handshakeDone_) (hc : conn.closed_ = s.conn.closed_) :
    Aside s (s.setConn conn) :=
  .same rfl rfl rfl hd hc

theorem aside_called (s : TlsRun) (c : SslCall) {conn : TlsConnection}
    (hd : conn.handshakeDone_ = s.conn.handshakeDone_) (hc : conn.closed_ = s.conn.closed_) :
    Aside s (s.called c conn) :=
  (aside_ssl s c).trans (aside_setConn _ hd hc)

theorem aside_resume (s : TlsRun) (rest : List Frame) : Aside s (s.resume rest) :=
  .same rfl rfl rfl rfl rfl

theorem aside_doWrite (s : TlsRun) : Aside s s.doWrite := by
  unfold doWrite
  split
  · exact .refl s
  · exact .same rfl rfl rfl rfl rfl

theorem aside_append (s : TlsRun) (writeBuf : Buffer) (data : Bytes) :
    Aside s (s.append writeBuf data) := by
  unfold append
  split
  · exact .refl s
  · apply Aside.trans _ (aside_doWrite _)
    exact aside_setConn s rfl rfl

theorem aside_startRead (s : TlsRun) : Aside s s.startRead := by
  by_cases hc : s.conn.closed_ = true ∨ s.conn.handshakeDone_ = false
  · rw [startRead_closed hc]
    exact .refl s
  · simp only [not_or, Bool.not_eq_true, Bool.not_eq_false] at hc
    rw [startRead_open hc.1 hc.2]
    exact .same rfl rfl rfl rfl rfl

theorem aside_afterRead (s : TlsRun) (rest : List Frame) (answer : SslReadAnswer) :
    Aside s (s.afterRead rest answer) := by
  have hnote := aside_ssl s (.read answer)
  have hshut := (hnote.trans (aside_shut _)).trans (aside_resume _ rest)
  unfold afterRead
  cases answer with
  | bytes first more => exact hnote.trans (aside_invoke _ _ fun _ _ => rfl)
  | stops err =>
    cases err with
    | wantRead => exact hnote.trans (aside_resume _ rest)
    | wantWrite => exact hshut.trans (aside_invoke _ _ fun _ _ => rfl)
    | zeroReturn => exact hshut.trans (aside_invoke _ _ fun _ _ => rfl)
    | syscall => exact hshut.trans (aside_invoke _ _ fun _ _ => rfl)
    | ssl => exact hshut.trans (aside_invoke _ _ fun _ _ => rfl)

theorem aside_afterWrite (s : TlsRun) (rest : List Frame) (data : Bytes)
    (answer : SslWriteAnswer) : Aside s (s.afterWrite rest data answer) := by
  have hcalled : Aside s (s.called (.write data answer)
      { s.conn with sslWrites := s.conn.sslWrites + 1 }) :=
    aside_called s _ rfl rfl
  unfold afterWrite
  cases answer with
  | accepts more => exact hcalled.trans (.same rfl rfl rfl rfl rfl)
  | stops err =>
    dsimp only
    split
    · exact hcalled.trans (.same rfl rfl rfl rfl rfl)
    · exact ((hcalled.trans (aside_shut _)).trans (aside_resume _ rest)).trans
        (aside_invoke _ _ fun _ _ => rfl)

theorem aside_afterWrites (s : TlsRun) (rest : List Frame) : Aside s (s.afterWrites rest) := by
  unfold afterWrites
  split <;> exact .same rfl rfl rfl rfl rfl

theorem aside_afterReads (s : TlsRun) (rest : List Frame) : Aside s (s.afterReads rest) := by
  unfold afterReads
  split
  · exact aside_resume s rest
  · exact (aside_resume s rest).trans (aside_doWrite _)

/-- No handshake is due next. -/
def NotShaking (s : TlsRun) : Prop := s.stack.head? ≠ some .shaking

theorem Settled.notShaking {s : TlsRun} (h : Settled s) : NotShaking s := by
  intro hs
  have := h.passive .shaking (List.mem_of_mem_head? hs)
  cases this

theorem notShaking_doWrite {s : TlsRun} (h : NotShaking s) : NotShaking s.doWrite := by
  unfold doWrite
  split
  · exact h
  · simp [NotShaking, enter]

theorem notShaking_append {s : TlsRun} (h : NotShaking s) (writeBuf : Buffer) (data : Bytes) :
    NotShaking (s.append writeBuf data) := by
  unfold append
  split
  · exact h
  · exact notShaking_doWrite h

theorem Due.notShaking {s : TlsRun} {rest : List Frame} (h : Due s .writing rest) :
    NotShaking s := by
  simp [NotShaking, h.stack]

/-- How far the handshake is after `starts` calls of `startHandshake`. -/
structure Handshaking (starts : Nat) (s : TlsRun) : Prop where
  fresh : starts = 0 → s.onHandshakeComplete_ = false ∧ s.onHandshakeError_ = false ∧
    s.trace.countP TlsNote.endsHandshake = 0
  right : Throughout HandshakeRight s.trace
  ended : s.trace.countP TlsNote.endsHandshake ≠ 0 →
    s.conn.handshakeDone_ = true ∨ s.conn.closed_ = true
  due : ¬ NotShaking s → s.trace.countP TlsNote.endsHandshake = 0
  closed : .closed ∈ s.trace → s.conn.closed_ = true

theorem handshaking_new (fd : Fd) (id : Nat) (isServer : Bool) (callback : HandshakeCallback)
    (loop : KqueueLoop) : Handshaking 0 (new fd id isServer callback loop) where
  fresh := fun _ => ⟨rfl, rfl, rfl⟩
  right := trivial
  ended := fun h => absurd rfl h
  due := fun _ => rfl
  closed := by simp [new]

theorem Aside.ends {s s' : TlsRun} (h : Aside s s') :
    s'.trace.countP TlsNote.endsHandshake = s.trace.countP TlsNote.endsHandshake := by
  obtain ⟨notes, ht, hn⟩ := h.notes
  have hzero : notes.countP TlsNote.endsHandshake = 0 := by
    apply List.countP_eq_zero.mpr
    intro n hmem
    simp [(hn n hmem).1]
  rw [ht, List.countP_append, hzero, Nat.zero_add]

theorem Handshaking.aside {starts : Nat} {s s' : TlsRun} (h : Handshaking starts s)
    (ha : Aside s s') (hdue : NotShaking s') : Handshaking starts s' := by
  have hends := ha.ends
  obtain ⟨notes, ht, hn⟩ := ha.notes
  constructor
  · intro hstarts
    obtain ⟨hc, he, hzero⟩ := h.fresh hstarts
    exact ⟨ha.complete.trans hc, ha.error.trans he, hends.trans hzero⟩
  · rw [ht]
    apply h.right.append
    intro later n between heq
    exact handshakeRight_other (hn n (by simp [heq])).1 _
  · intro hne
    rw [hends] at hne
    rcases h.ended hne with hd | hc
    · exact .inl (ha.done.trans hd)
    · exact .inr (ha.closed hc)
  · exact fun hs => absurd hdue hs
  · intro hmem
    rw [ht] at hmem
    rcases List.mem_append.mp hmem with hmem | hmem
    · exact absurd rfl (hn _ hmem).2
    · exact ha.closed (h.closed hmem)

/-- A handshake becomes due where none has ended. -/
theorem Handshaking.continueHandshake {starts : Nat} {s : TlsRun} (h : Handshaking starts s)
    (hdone : s.conn.closed_ = false → s.trace.countP TlsNote.endsHandshake = 0) :
    Handshaking starts s.continueHandshake := by
  unfold TlsRun.continueHandshake
  split
  · exact h
  · next ho => exact ⟨h.fresh, h.right, h.ended, fun _ => hdone (by simpa using ho), h.closed⟩

/-- The handshake has ended with the call of a callback. -/
theorem Handshaking.invoke {starts : Nat} {s : TlsRun} (h : Handshaking starts s) {set : Bool}
    {cb : TlsCallback} (hstarted : set = true → starts ≠ 0)
    (hright : set = true → HandshakeRight (.invoked cb s.conn.closed_ s.watched) s.trace)
    (hover : s.conn.handshakeDone_ = true ∨ s.conn.closed_ = true) :
    Handshaking starts (s.invoke set cb) := by
  unfold TlsRun.invoke
  split
  · next hset =>
    refine ⟨fun h0 => absurd h0 (hstarted hset), ⟨hright hset, h.right⟩, fun _ => hover, ?_, ?_⟩
    · intro hs
      exact absurd (by simp [NotShaking, enter]) hs
    · intro hmem
      rcases List.mem_cons.mp hmem with heq | hmem
      · cases heq
      · exact h.closed hmem
  · exact h

theorem Handshaking.afterHandshake {starts : Nat} {s : TlsRun} (h : Handshaking starts s)
    {rest : List Frame} (hd : Due s .shaking rest) (answer : HandshakeAnswer) :
    Handshaking starts (s.afterHandshake rest answer) := by
  have hzero : s.trace.countP TlsNote.endsHandshake = 0 :=
    h.due (by simp [NotShaking, hd.stack])
  have huser : .closed ∉ s.trace := fun hmem =>
    absurd (hd.isOpen.symm.trans (h.closed hmem)) (by decide)
  have hsettled : Settled ((s.called (.handshake answer)
      { s.conn with handshakes := s.conn.handshakes + 1 }).resume rest) :=
    hd.settled.same rfl rfl rfl rfl rfl rfl rfl
  have hcalled : Handshaking starts ((s.called (.handshake answer)
      { s.conn with handshakes := s.conn.handshakes + 1 }).resume rest) := by
    apply h.aside _ hsettled.notShaking
    apply Aside.trans _ (aside_resume _ rest)
    exact aside_called s _ rfl rfl
  have hnone : (TlsNote.ssl (.handshake answer) :: s.trace).countP TlsNote.endsHandshake = 0 := by
    rw [List.countP_cons_of_neg (by simp [TlsNote.endsHandshake]), hzero]
  have hopen : .closed ∉ TlsNote.ssl (.handshake answer) :: s.trace := by simpa using huser
  unfold TlsRun.afterHandshake
  cases answer with
  | done =>
    apply Handshaking.invoke
    · exact ⟨hcalled.fresh, hcalled.right, fun hne => absurd hnone hne, fun _ => hnone,
        hcalled.closed⟩
    · rintro hset rfl
      exact absurd (hset.symm.trans (h.fresh rfl).1) (by decide)
    · exact fun _ => ⟨List.mem_cons_self, hopen, hnone⟩
    · exact .inl rfl
  | stops err =>
    dsimp only
    split
    · exact hcalled.aside (.same rfl rfl rfl rfl rfl)
        (hsettled.watchForSsl hd.isOpen err).notShaking
    · have hshut := hcalled.aside (aside_shut _) hsettled.shut.notShaking
      have hunwatched := hsettled.shut.unwatched (shut_closed _)
      apply Handshaking.invoke
      · exact ⟨fun h0 => ⟨(h.fresh h0).1, rfl, hnone⟩, hshut.right, fun hne => absurd hnone hne,
          fun _ => hnone, hshut.closed⟩
      · rintro hset rfl
        exact absurd (hset.symm.trans (h.fresh rfl).2.1) (by decide)
      · intro _
        refine ⟨shut_closed _, ?_, hopen, hnone⟩
        simpa [watched, setHandshake] using hunwatched
      · exact .inr (shut_closed _)

theorem Handshaking.handleIo {starts : Nat} {s : TlsRun} (h : Handshaking starts s) :
    Handshaking starts s.handleIo := by
  unfold TlsRun.handleIo
  split
  · exact h
  · next ho =>
    split
    · next hd =>
      apply h.continueHandshake
      intro _
      by_contra hne
      rcases h.ended hne with hdone | hclosed
      · exact absurd (hd.symm.trans hdone) (by decide)
      · exact ho hclosed
    · split
      · have haside : Aside s (s.enter .flushing).doRead := by
          unfold doRead
          split <;> exact .same rfl rfl rfl rfl rfl
        apply h.aside haside
        unfold doRead
        split <;> simp [NotShaking, enter]
      · exact h.aside (.same rfl rfl rfl rfl rfl) (by simp [NotShaking, enter])

theorem Handshaking.step {starts : Nat} {s s' : TlsRun} {a : TlsAct} (h : Handshaking starts s)
    (hsane : Sane s) (hone : a.starts = true → starts = 0) (hstep : s.step a = some s') :
    Handshaking (if a.starts then 1 else starts) s' := by
  cases step_stepped hstep with
  | call c hu =>
    have hs := hsane.userTurn hu
    cases c with
    | setCallbacks d c e => exact h.aside (.same rfl rfl rfl rfl rfl) hs.notShaking
    | startHandshake c e =>
      obtain ⟨-, -, hzero⟩ := h.fresh (hone rfl)
      change Handshaking 1 _
      apply Handshaking.continueHandshake
      · exact ⟨fun h0 => absurd h0 (by decide), h.right, h.ended, fun _ => hzero, h.closed⟩
      · exact fun _ => hzero
    | startRead => exact h.aside (aside_startRead s) hs.startRead.notShaking
    | write data => exact h.aside (aside_append s _ _) (notShaking_append hs.notShaking _ _)
    | writeText data => exact h.aside (aside_append s _ _) (notShaking_append hs.notShaking _ _)
    | close =>
      have hshut := h.aside (aside_shut s) hs.shut.notShaking
      refine ⟨hshut.fresh, ⟨trivial, hshut.right⟩, fun _ => .inr (shut_closed s), ?_,
        fun _ => shut_closed s⟩
      exact fun hd => absurd hs.shut.notShaking hd
  | returns cb rest hs =>
    exact h.aside (aside_resume s rest) ((hsane.settled hs rfl).resume hs).notShaking
  | io hs hr => exact h.handleIo
  | handshake answer rest hs => exact h.afterHandshake (hsane.due hs rfl) answer
  | read answer rest hs =>
    exact h.aside (aside_afterRead s rest answer)
      ((hsane.settled hs rfl).afterRead hs answer).notShaking
  | write answer rest data hs ho =>
    apply h.aside (aside_afterWrite s rest data answer)
    rcases (hsane.due hs rfl).afterWrite data answer with hset | hd
    · exact hset.notShaking
    · exact hd.notShaking
  | reads rest hs =>
    apply h.aside (aside_afterReads s rest)
    have hrest := ((hsane.settled hs rfl).resume hs).notShaking
    unfold afterReads
    split
    · exact hrest
    · exact notShaking_doWrite hrest
  | writes rest hs ho =>
    exact h.aside (aside_afterWrites s rest) ((hsane.due hs rfl).afterWrites).notShaking

theorem handshaking_run {starts : Nat} {s s' : TlsRun} {actions : List TlsAct}
    (h : Handshaking starts s) (hsane : Sane s)
    (hone : starts + actions.countP TlsAct.starts ≤ 1) (hrun : run step s actions = some s') :
    Throughout HandshakeRight s'.trace := by
  induction actions generalizing starts s with
  | nil =>
    cases hrun
    exact h.right
  | cons a rest ih =>
    obtain ⟨t, hstep, hrest⟩ := run_cons hrun
    rw [List.countP_cons] at hone
    apply ih (h.step hsane _ hstep) (hsane.step hstep) _ hrest
    · intro ha
      rw [if_pos ha] at hone
      omega
    · cases ha : a.starts with
      | true =>
        simp only [ha, if_true] at hone ⊢
        omega
      | false => simpa [ha] using hone

end TlsRun

open TlsRun

/-- In every run with one call of `startHandshake`, whatever OpenSSL answers and
the user does, at most one callback of the handshake is called, once, and rightly. -/
theorem handshake_ends_once (fd : Fd) (id : Nat) (isServer : Bool) (callback : HandshakeCallback)
    (loop : KqueueLoop) (actions : List TlsAct) (hone : actions.countP TlsAct.starts ≤ 1)
    {s : TlsRun} (hrun : run step (new fd id isServer callback loop) actions = some s) :
    s.trace.countP TlsNote.endsHandshake ≤ 1 ∧ Throughout HandshakeRight s.trace := by
  have hright := handshaking_run (handshaking_new fd id isServer callback loop)
    (.inl (settled_new fd id isServer callback loop)) (by omega) hrun
  exact ⟨ends_once hright, hright⟩

/-- A handshake that waits for the peer, fails, and has its error handler close
the connection. -/
theorem handshake_ends_once_failed : ∃ s,
    run step (new 7 0 true .client {}) [.call (.startHandshake true true),
      .sslHandshake (.stops .wantRead), .io, .sslHandshake (.stops .ssl), .call .close,
      .returns] = some s ∧
    s.trace.countP TlsNote.endsHandshake ≤ 1 := by
  obtain ⟨s, hs⟩ := Option.isSome_iff_exists.mp
    (show (run step (new 7 0 true .client {}) [.call (.startHandshake true true),
      .sslHandshake (.stops .wantRead), .io, .sslHandshake (.stops .ssl), .call .close,
      .returns]).isSome = true by decide)
  exact ⟨s, hs, (handshake_ends_once 7 0 true .client {} _ (by decide) hs).1⟩

end DeepSeer
