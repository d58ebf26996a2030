import DeepSeer.TlsWrites

/-!
The waits of a TLS connection. Where OpenSSL wants the descriptor to become
readable or writable the class watches for it and retries. Four places replace
the whole registration; a write that waits is lost at the one that does not look
at it, and `doRead` knows only one of the two wants.
-/
namespace DeepSeer

open ByteMemory Schedules

/-- The registration covers what OpenSSL wants. -/
def SslError.Wanted (err : SslError) (events : IoMask) : Prop :=
  (err = .wantRead → events.readable = true) ∧ (err = .wantWrite → events.writable = true)

/-- The want that a call of OpenSSL answers with. -/
def TlsAct.wants : TlsAct → Option SslError
  | .sslHandshake (.stops err) | .sslRead (.stops err) | .sslWrite (.stops err) =>
    if err.waits then some err else none
  | _ => none

namespace TlsRun

/-- The registration of the connection covers what is wanted. -/
def WatchedFor (s : TlsRun) (err : SslError) : Prop :=
  ∃ events, s.loop.fdEntries_ s.fd = some ⟨events, .tls s.id⟩ ∧ err.Wanted events

/-- A want is no failure: the connection stays open and is watched for what is
wanted, and the call of OpenSSL is all that happens. -/
def KeepsWaiting (s s' : TlsRun) (err : SslError) : Prop :=
  s.conn.closed_ = false →
    s'.conn.closed_ = false ∧ s'.WatchedFor err ∧ ∃ c, s'.trace = .ssl c :: s.trace

theorem watchForSsl_watched {s : TlsRun} (hs : s.conn.socket_ = s.fd) (err : SslError) :
    (s.watchForSsl err).WatchedFor err := by
  have hentry := KqueueLoop.watch_entry s.loop s.conn.socket_
    ⟨err == .wantRead || s.conn.reading_, err == .wantWrite⟩ (.tls s.id)
  rw [hs] at hentry
  refine ⟨⟨err == .wantRead || s.conn.reading_, err == .wantWrite⟩, ?_, ?_, ?_⟩
  · rwa [watchForSsl, TlsConnection.watchForSsl, hs]
  · rintro rfl
    rfl
  · rintro rfl
    rfl

theorem ReadWatched.wanted {s : TlsRun} (h : s.ReadWatched) : s.WatchedFor .wantRead := by
  obtain ⟨events, he, hr⟩ := h
  exact ⟨events, he, fun _ => hr, fun hw => by cases hw⟩

/-- A want of a handshake is waited for. -/
theorem Due.handshake_waits {s : TlsRun} {rest : List Frame} (h : Due s .shaking rest)
    {err : SslError} (he : err.waits = true) :
    KeepsWaiting s (s.afterHandshake rest (.stops err)) err := by
  intro ho
  have hs : s.conn.socket_ = s.fd := h.settled.socket h.isOpen
  simp only [TlsRun.afterHandshake, he, if_true]
  exact ⟨ho, watchForSsl_watched hs err, _, rfl⟩

/-- A want of a write is waited for. -/
theorem Due.write_waits {s : TlsRun} {rest : List Frame} (h : Due s .writing rest) (data : Bytes)
    {err : SslError} (he : err.waits = true) :
    KeepsWaiting s (s.afterWrite rest data (.stops err)) err := by
  intro ho
  have hs : s.conn.socket_ = s.fd := h.settled.socket h.isOpen
  simp only [TlsRun.afterWrite, he, if_true]
  exact ⟨ho, watchForSsl_watched hs err, _, rfl⟩

/-- A want of a read is waited for if it is for reading, and fails otherwise. -/
theorem Settled.read_waits_iff {s : TlsRun} (h : Settled s) {rest : List Frame}
    (hs : s.stack = .reading :: rest) {err : SslError} (he : err.waits = true) :
    KeepsWaiting s (s.afterRead rest (.stops err)) err ↔
      ¬ (s.conn.closed_ = false ∧ err = .wantWrite) := by
  cases err with
  | wantRead =>
    refine iff_of_true (fun ho => ?_) (by simp)
    have hreads : s.conn.reading_ = true := h.reads (by rw [hs]; exact List.mem_cons_self)
    exact ⟨ho, ReadWatched.wanted (h.watches ho hreads), _, rfl⟩
  | wantWrite =>
    constructor
    · rintro hk ⟨ho, -⟩
      have hopen := (hk ho).1
      have hclosed : (s.afterRead rest (.stops .wantWrite)).conn.closed_ = true := by
        unfold TlsRun.afterRead TlsRun.invoke
        dsimp only
        split <;> exact shut_closed (s.note (.ssl (.read (.stops .wantWrite))))
      exact absurd (hopen.symm.trans hclosed) (by decide)
    · intro hn ho
      exact absurd ⟨ho, rfl⟩ hn
  | zeroReturn => cases he
  | syscall => cases he
  | ssl => cases he

end TlsRun

open TlsRun

/-- Wherever a run is, a want of OpenSSL is waited for, unless it is the want of
an `SSL_read` for writing on an open connection. -/
theorem want_waited_for_iff (fd : Fd) (id : Nat) (isServer : Bool) (callback : HandshakeCallback)
    (loop : KqueueLoop) (actions : List TlsAct) {s s' : TlsRun}
    (hrun : run step (new fd id isServer callback loop) actions = some s) {a : TlsAct}
    {err : SslError} (hwants : a.wants = some err) (hstep : s.step a = some s') :
    KeepsWaiting s s' err ↔ ¬ (s.conn.closed_ = false ∧ a = .sslRead (.stops .wantWrite)) := by
  have hsane : Sane s := sane_run hrun
  cases step_stepped hstep with
  | handshake answer rest hs =>
    cases answer with
    | done => cases hwants
    | stops e =>
      obtain ⟨he, heq⟩ := Option.ite_none_right_eq_some.mp hwants
      cases heq
      exact iff_of_true ((hsane.due hs rfl).handshake_waits he) (by simp)
  | write answer rest data hs ho =>
    cases answer with
    | accepts more => cases hwants
    | stops e =>
      obtain ⟨he, heq⟩ := Option.ite_none_right_eq_some.mp hwants
      cases heq
      exact iff_of_true ((hsane.due hs rfl).write_waits data he) (by simp)
  | read answer rest hs =>
    cases answer with
    | bytes first more => cases hwants
    | stops e =>
      obtain ⟨he, heq⟩ := Option.ite_none_right_eq_some.mp hwants
      cases heq
      rw [(hsane.settled hs rfl).read_waits_iff hs he]
      simp
  | call c hu => cases hwants
  | returns cb rest hs => cases hwants
  | io hs hr => cases hwants
  | reads rest hs => cases hwants
  | writes rest hs ho => cases hwants

theorem want_waited_for_read : ∃ s s',
    run step (new 7 0 true .client {}) (reads ++ [.io]) = some s ∧
    s.step (.sslRead (.stops .wantRead)) = some s' ∧ KeepsWaiting s s' .wantRead := by
  refine ⟨_, _, rfl, rfl, ?_⟩
  apply (want_waited_for_iff 7 0 true .client {} (reads ++ [.io]) rfl
    (a := .sslRead (.stops .wantRead)) rfl rfl).mpr
  rintro ⟨-, ha⟩
  cases ha

/-- An `SSL_read` that wants to write closes the connection with an error. -/
theorem read_want_write_fails : ∃ s s',
    run step (new 7 0 true .client {}) (reads ++ [.io]) = some s ∧
    s.step (.sslRead (.stops .wantWrite)) = some s' ∧ s.conn.closed_ = false ∧
    s'.conn.closed_ = true ∧ s'.trace.head? = some (.invoked (.onError .readError) true false) ∧
    ¬ KeepsWaiting s s' .wantWrite := by
  refine ⟨_, _, rfl, rfl, rfl, rfl, rfl, ?_⟩
  rw [want_waited_for_iff 7 0 true .client {} (reads ++ [.io]) rfl
    (a := .sslRead (.stops .wantWrite)) rfl rfl]
  exact fun hn => hn ⟨rfl, rfl⟩

namespace TlsRun

/-- An open connection has a write that waits for the descriptor to become writable. -/
def BlockedOnWrite (s : TlsRun) : Prop :=
  s.conn.closed_ = false ∧ (lastWrite s.trace).map Prod.snd = some (.stops .wantWrite)

instance (s : TlsRun) : Decidable s.BlockedOnWrite := by
  unfold BlockedOnWrite
  infer_instance

/-- Reading is not started while a write waits for the descriptor to become writable. -/
def StartsFree (s : TlsRun) : TlsAct → Prop
  | .call .startRead => ¬ s.BlockedOnWrite
  | _ => True

instance (s : TlsRun) (a : TlsAct) : Decidable (s.StartsFree a) := by
  unfold StartsFree
  split <;> infer_instance

/-- What the connection waits for it is watched for, while no call is active. -/
def RetriesWatched (s : TlsRun) : Prop :=
  s.conn.closed_ = false → s.stack = [] →
    (s.conn.writeBuf_.empty = false → ∀ err,
      (lastWrite s.trace).map Prod.snd = some (.stops err) → err.waits = true →
      s.WatchedFor err) ∧
    (s.conn.reading_ = true → s.WatchedFor .wantRead)

/-- After the handshake, a write that waits is watched for at all times. -/
structure Awaits (s : TlsRun) : Prop where
  done : s.conn.handshakeDone_ = true
  notShaking : NotShaking s
  waits : s.conn.closed_ = false → ∀ err,
    (lastWrite s.trace).map Prod.snd = some (.stops err) → err.waits = true → s.WatchedFor err

/-- A step that leaves the registration of an open connection alone. -/
theorem Awaits.keep {s s' : TlsRun} (h : Awaits s) (ha : Aside s s') (hs : NotShaking s')
    (hlast : lastWrite s'.trace = lastWrite s.trace)
    (hloop : s'.conn.closed_ = false → s'.fd = s.fd ∧ s'.id = s.id ∧ s'.loop = s.loop) :
    Awaits s' := by
  refine ⟨ha.done.trans h.done, hs, fun ho err hw he => ?_⟩
  have hbefore : s.conn.closed_ = false := by
    cases hc : s.conn.closed_ with
    | false => rfl
    | true => exact absurd (ho.symm.trans (ha.closed hc)) (by decide)
  rw [hlast] at hw
  obtain ⟨hfd, hid, hl⟩ := hloop ho
  have hwatched := h.waits hbefore err hw he
  rwa [WatchedFor, hfd, hid, hl]

theorem Unwritten.lastWrite {s s' : TlsRun} (h : Unwritten s s') :
    DeepSeer.lastWrite s'.trace = DeepSeer.lastWrite s.trace := by
  obtain ⟨notes, ht, hn⟩ := h.notes
  rw [ht, lastWrite_append hn]

theorem Awaits.startRead {s : TlsRun} (h : Awaits s) (hs : Settled s)
    (hfree : ¬ s.BlockedOnWrite) : Awaits s.startRead := by
  refine ⟨(aside_startRead s).done.trans h.done, hs.startRead.notShaking,
    fun ho err hlast he => ?_⟩
  by_cases hc : s.conn.closed_ = true
  · rw [startRead_closed (.inl hc)] at ho
    exact absurd (hc.symm.trans ho) (by decide)
  · have hopen : s.conn.closed_ = false := by simpa using hc
    have hread : s.startRead.WatchedFor .wantRead := by
      apply ReadWatched.wanted
      apply hs.startRead.watches ho
      rw [startRead_open hopen h.done]
      rfl
    cases err with
    | wantRead => exact hread
    | wantWrite => exact absurd ⟨hopen, hlast⟩ hfree
    | zeroReturn => cases he
    | syscall => cases he
    | ssl => cases he

theorem append_keeps (s : TlsRun) (writeBuf : Buffer) (data : Bytes) :
    (s.append writeBuf data).fd = s.fd ∧ (s.append writeBuf data).id = s.id ∧
      (s.append writeBuf data).loop = s.loop := by
  unfold append doWrite
  split
  · exact ⟨rfl, rfl, rfl⟩
  · split <;> exact ⟨rfl, rfl, rfl⟩

theorem Awaits.append {s : TlsRun} (h : Awaits s) (writeBuf : Buffer) (data : Bytes) :
    Awaits (s.append writeBuf data) :=
  h.keep (aside_append s writeBuf data) (notShaking_append h.notShaking writeBuf data)
    (by rw [append_trace]) fun _ => append_keeps s writeBuf data

theorem invoke_keeps (s : TlsRun) (set : Bool) (cb : TlsCallback) :
    (s.invoke set cb).fd = s.fd ∧ (s.invoke set cb).id = s.id ∧
      (s.invoke set cb).loop = s.loop ∧ (s.invoke set cb).conn = s.conn := by
  unfold invoke
  split <;> exact ⟨rfl, rfl, rfl, rfl⟩

/-- A callback on a connection that has just been closed. -/
theorem invoke_shut (s : TlsRun) (rest : List Frame) (set : Bool) (cb : TlsCallback) :
    ((s.shut.resume rest).invoke set cb).conn.closed_ = true := by
  rw [(invoke_keeps _ set cb).2.2.2]
  exact shut_closed s

theorem afterRead_keeps {s : TlsRun} (rest : List Frame) (answer : SslReadAnswer)
    (ho : (s.afterRead rest answer).conn.closed_ = false) :
    (s.afterRead rest answer).fd = s.fd ∧ (s.afterRead rest answer).id = s.id ∧
      (s.afterRead rest answer).loop = s.loop := by
  have hshut : ∀ (set : Bool) (cb : TlsCallback), (((s.note (.ssl (.read answer))).shut.resume
      rest).invoke set cb).conn.closed_ ≠ false := by
    intro set cb
    rw [invoke_shut]
    decide
  unfold afterRead at ho ⊢
  cases answer with
  | bytes first more =>
    obtain ⟨hfd, hid, hloop, -⟩ := invoke_keeps (s.note (.ssl (.read (.bytes first more))))
      s.onData_ (.onData ((first :: more).take kBufSize))
    exact ⟨hfd, hid, hloop⟩
  | stops err =>
    cases err with
    | wantRead => exact ⟨rfl, rfl, rfl⟩
    | wantWrite => exact absurd ho (hshut _ _)
    | zeroReturn => exact absurd ho (hshut _ _)
    | syscall => exact absurd ho (hshut _ _)
    | ssl => exact absurd ho (hshut _ _)

theorem Awaits.handleIo {s : TlsRun} (h : Awaits s) : Awaits s.handleIo := by
  have hdone := h.done
  by_cases hc : s.conn.closed_ = true
  · rw [TlsRun.handleIo, if_pos hc]
    exact h
  · have hread : (s.enter .flushing).doRead = (s.enter .flushing).enter .reading := by
      rw [doRead, if_neg]
      exact hc
    rw [TlsRun.handleIo, if_neg hc, if_neg (by simp [hdone])]
    split
    · rw [hread]
      exact ⟨hdone, by simp [NotShaking, enter], h.waits⟩
    · exact ⟨hdone, by simp [NotShaking, enter], h.waits⟩

theorem Awaits.afterWrite {s : TlsRun} (h : Awaits s) {rest : List Frame}
    (hd : Due s .writing rest) (data : Bytes) (answer : SslWriteAnswer) :
    Awaits (s.afterWrite rest data answer) := by
  refine ⟨(aside_afterWrite s rest data answer).done.trans h.done, ?_, fun ho err hlast he => ?_⟩
  · rcases hd.afterWrite data answer with hs | hd'
    · exact hs.notShaking
    · exact hd'.notShaking
  · cases answer with
    | accepts more => cases hlast
    | stops e =>
      by_cases hwaits : e.waits = true
      · have hsame : e = err := by
          simp only [TlsRun.afterWrite, hwaits, if_true] at hlast
          have := Option.some.inj hlast
          cases this
          rfl
        subst hsame
        exact (hd.write_waits data hwaits hd.isOpen).2.1
      · exfalso
        simp only [TlsRun.afterWrite, hwaits, Bool.false_eq_true, if_false] at ho
        rw [invoke_shut] at ho
        cases ho

theorem Awaits.afterWrites {s : TlsRun} (h : Awaits s) {written : Bytes}
    (hcons : Conserves s written) {rest : List Frame} (hd : Due s .writing rest)
    (hnone : s.offer = none) : Awaits (s.afterWrites rest) := by
  refine ⟨(aside_afterWrites s rest).done.trans h.done, hd.afterWrites.notShaking,
    fun _ err hlast he => ?_⟩
  -- nothing that was refused is left where nothing is offered
  exfalso
  rw [(unwritten_afterWrites s rest).lastWrite] at hlast
  obtain ⟨⟨before, answer⟩, hw, ha⟩ := Option.map_eq_some_iff.mp hlast
  cases ha
  have hrefused : refused s.trace = some before := by
    rw [refused, hw]
    simp [he]
  obtain ⟨hne, hfront⟩ := hcons.front hd.isOpen before hrefused
  obtain ⟨data, ho, -⟩ := hcons.offer hne hfront
  cases hnone.symm.trans ho

theorem Awaits.step {s s' : TlsRun} {written : Bytes} {a : TlsAct} (h : Awaits s)
    (hsane : Sane s) (hcons : Conserves s written) (hnew : a.starts = false)
    (hfree : s.StartsFree a) (hstep : s.step a = some s') : Awaits s' := by
  cases step_stepped hstep with
  | call c hu =>
    have hs := hsane.userTurn hu
    cases c with
    | setCallbacks d c e => exact ⟨h.done, h.notShaking, h.waits⟩
    | startHandshake c e => cases hnew
    | startRead => exact h.startRead hs hfree
    | write data => exact h.append _ _
    | writeText data => exact h.append _ _
    | close =>
      refine ⟨(aside_shut s).done.trans h.done, hs.shut.notShaking, fun ho => ?_⟩
      exact absurd ((shut_closed s).symm.trans ho) (by decide)
  | returns cb rest hs =>
    exact ⟨h.done, ((hsane.settled hs rfl).resume hs).notShaking, h.waits⟩
  | io hs hr => exact h.handleIo
  | handshake answer rest hs => exact absurd (by simp [hs]) h.notShaking
  | read answer rest hs =>
    exact h.keep (aside_afterRead s rest answer)
      ((hsane.settled hs rfl).afterRead hs answer).notShaking
      (unwritten_afterRead s rest answer).lastWrite (afterRead_keeps rest answer)
  | write answer rest data hs ho => exact h.afterWrite (hsane.due hs rfl) data answer
  | reads rest hs =>
    have hrest := ((hsane.settled hs rfl).resume hs).notShaking
    unfold afterReads
    split
    · exact ⟨h.done, hrest, h.waits⟩
    · have hpop : Awaits (s.resume rest) := ⟨h.done, hrest, h.waits⟩
      exact hpop.keep (aside_doWrite _) (notShaking_doWrite hrest)
        (unwritten_doWrite _).lastWrite fun _ => by
          unfold doWrite
          split <;> exact ⟨rfl, rfl, rfl⟩
  | writes rest hs ho => exact h.afterWrites hcons (hsane.due hs rfl) ho

theorem awaits_run {s s' : TlsRun} {written : Bytes} {actions : List TlsAct} (h : Awaits s)
    (hsane : Sane s) (hcons : Conserves s written) (hnew : ∀ a ∈ actions, a.starts = false)
    (hfree : Along step StartsFree s actions) (hrun : run step s actions = some s') :
    Awaits s' ∧ Sane s' := by
  induction actions generalizing s written with
  | nil =>
    cases hrun
    exact ⟨h, hsane⟩
  | cons a rest ih =>
    obtain ⟨t, hstep, hrest⟩ := run_cons hrun
    obtain ⟨ha, hnew⟩ := List.forall_mem_cons.mp hnew
    exact ih (h.step hsane hcons ha hfree.1 hstep) (hsane.step hstep) (hcons.step hsane hstep)
      hnew (hfree.2 t hstep) hrest

end TlsRun

/-- From where the user has the turn after the handshake, with nothing written
before, in every run in which reading is not started while a write waits for the
descriptor to become writable: what waits is watched for. -/
theorem retries_watched (fd : Fd) (id : Nat) (isServer : Bool) (callback : HandshakeCallback)
    (loop : KqueueLoop) {before actions : List TlsAct} {s s' : TlsRun}
    (hbefore : run step (new fd id isServer callback loop) before = some s)
    (hdone : s.conn.handshakeDone_ = true) (hturn : s.userTurn = true)
    (hnone : lastWrite s.trace = none) (hnew : ∀ a ∈ actions, a.starts = false)
    (hfree : Along step StartsFree s actions) (hrun : run step s actions = some s') :
    RetriesWatched s' := by
  have hsane : Sane s := sane_run hbefore
  have hcons := conserves_run (conserves_new fd id isServer callback loop)
    (.inl (settled_new fd id isServer callback loop)) hbefore
  have hstart : Awaits s := by
    refine ⟨hdone, (hsane.userTurn hturn).notShaking, fun _ err hw => ?_⟩
    rw [hnone] at hw
    cases hw
  obtain ⟨hawaits, hsane'⟩ := awaits_run hstart hsane hcons hnew hfree hrun
  intro ho hidle
  constructor
  · exact fun _ => hawaits.waits ho
  · exact fun hr => ((hsane'.idle hidle).watches ho hr).wanted

/-- A write that is refused, and refused again when the descriptor is ready. -/
def refusedTwice : List TlsAct :=
  [.call (.writeText [1]), .sslWrite (.stops .wantWrite), .io, .sslRead (.stops .wantRead),
    .proceed, .sslWrite (.stops .wantWrite)]

theorem retries_watched_twice : ∃ s s',
    run step (new 7 0 true .client {}) reads = some s ∧ run step s refusedTwice = some s' ∧
    RetriesWatched s' := by
  refine ⟨_, _, rfl, rfl, ?_⟩
  exact @retries_watched 7 0 true .client {} reads refusedTwice _ _ rfl rfl rfl rfl (by decide)
    (by simp [refusedTwice, Along, StartsFree]) rfl

/-- `startRead` watches for reading alone, whatever else the connection waits for. -/
theorem TlsRun.startRead_forgets {s : TlsRun} (hs : s.conn.socket_ = s.fd)
    (hopen : s.conn.closed_ = false) (hdone : s.conn.handshakeDone_ = true) :
    ¬ s.startRead.WatchedFor .wantWrite := by
  rintro ⟨events, he, -, hw⟩
  have hentry := KqueueLoop.watch_entry s.loop s.conn.socket_ ⟨true, false⟩ (.tls s.id)
  rw [hs] at hentry
  rw [startRead_open hopen hdone] at he
  simp only at he
  rw [hs] at he
  cases hentry.symm.trans he
  exact absurd (hw rfl) (by decide)

/-- Started while a write waits, reading takes the write's registration away. -/
theorem blocked_write_forgotten : ∃ s s',
    run step (new 7 0 true .client {}) reads = some s ∧ s.conn.handshakeDone_ = true ∧
    s.userTurn = true ∧ lastWrite s.trace = none ∧
    run step s [.call (.writeText [1]), .sslWrite (.stops .wantWrite), .call .startRead] = some s' ∧
    s'.conn.closed_ = false ∧ s'.stack = [] ∧ s'.conn.writeBuf_.empty = false ∧
    ¬ RetriesWatched s' := by
  refine ⟨_, _, rfl, rfl, rfl, rfl, rfl, rfl, rfl, rfl, ?_⟩
  intro h
  obtain ⟨events, he, -, hw⟩ := (h rfl rfl).1 rfl .wantWrite rfl rfl
  cases he
  exact absurd (hw rfl) (by decide)

end DeepSeer
