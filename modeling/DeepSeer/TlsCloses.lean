import DeepSeer.TlsHandshakes

/-!
What a TLS connection still does after its user has closed it. Every function
of the class asks whether the connection is closed when it is entered, but the
loop of `doRead` does not ask again after its callback.
-/
namespace DeepSeer

open ByteMemory Schedules

/-- After a call of `close` by the user there are only more of them. -/
def SilentAfterClose (n : TlsNote) (earlier : List TlsNote) : Prop :=
  .closed ∈ earlier → n = .closed

instance (n : TlsNote) (earlier : List TlsNote) : Decidable (SilentAfterClose n earlier) := by
  unfold SilentAfterClose
  infer_instance

namespace TlsRun

/-- The user does not close the connection inside the loop of `doRead`. -/
def ClosesOutside (s : TlsRun) : TlsAct → Prop
  | .call .close => .reading ∉ s.stack
  | _ => True

instance (s : TlsRun) (a : TlsAct) : Decidable (s.ClosesOutside a) := by
  unfold ClosesOutside
  split <;> infer_instance

/-- A connection that its user has closed is closed and in no loop. -/
structure Hushed (s : TlsRun) : Prop where
  silent : Throughout SilentAfterClose s.trace
  closed : .closed ∈ s.trace → s.conn.closed_ = true ∧ .reading ∉ s.stack

theorem hushed_new (fd : Fd) (id : Nat) (isServer : Bool) (callback : HandshakeCallback)
    (loop : KqueueLoop) : Hushed (new fd id isServer callback loop) where
  silent := trivial
  closed := by simp [new]

/-- Notes that are no call of `close` before one has come. -/
theorem Hushed.noted {s s' : TlsRun} (h : Hushed s) (hs : .closed ∉ s.trace)
    (hn : ∃ notes, s'.trace = notes ++ s.trace ∧ .closed ∉ notes) : Hushed s' := by
  obtain ⟨notes, ht, hc⟩ := hn
  have hnone : .closed ∉ s'.trace := by
    rw [ht]
    exact fun hmem => (List.mem_append.mp hmem).elim hc hs
  refine ⟨?_, fun hmem => absurd hmem hnone⟩
  rw [ht]
  apply h.silent.append
  intro later n between heq hmem
  rcases List.mem_append.mp hmem with hmem | hmem
  · exact absurd (by simp [heq, hmem]) hc
  · exact absurd hmem hs

theorem Aside.noted {s s' : TlsRun} (h : Aside s s') :
    ∃ notes, s'.trace = notes ++ s.trace ∧ .closed ∉ notes := by
  obtain ⟨notes, ht, hn⟩ := h.notes
  exact ⟨notes, ht, fun hmem => (hn _ hmem).2 rfl⟩

theorem invoke_noted (s : TlsRun) (set : Bool) (cb : TlsCallback) :
    ∃ notes, (s.invoke set cb).trace = notes ++ s.trace ∧ .closed ∉ notes := by
  unfold invoke
  split
  · exact ⟨[.invoked cb s.conn.closed_ s.watched], rfl, by simp⟩
  · exact ⟨[], rfl, by simp⟩

theorem afterHandshake_noted (s : TlsRun) (rest : List Frame) (answer : HandshakeAnswer) :
    ∃ notes, (s.afterHandshake rest answer).trace = notes ++ s.trace ∧ .closed ∉ notes := by
  have hcall : ∀ (s' : TlsRun) (set : Bool) (cb : TlsCallback),
      s'.trace = .ssl (.handshake answer) :: s.trace →
      ∃ notes, (s'.invoke set cb).trace = notes ++ s.trace ∧ .closed ∉ notes := by
    intro s' set cb ht
    obtain ⟨notes, hi, hc⟩ := invoke_noted s' set cb
    exact ⟨notes ++ [.ssl (.handshake answer)], by rw [hi, ht]; simp, by simp [hc]⟩
  unfold afterHandshake
  cases answer with
  | done => exact hcall _ _ _ rfl
  | stops err =>
    dsimp only
    split
    · exact ⟨[.ssl (.handshake (.stops err))], rfl, by simp⟩
    · exact hcall _ _ _ rfl

/-- Only the call of `close` is noted as one. -/
theorem step_noted {s s' : TlsRun} {a : TlsAct} (ha : a ≠ .call .close)
    (hstep : s.step a = some s') : ∃ notes, s'.trace = notes ++ s.trace ∧ .closed ∉ notes := by
  cases step_stepped hstep with
  | call c hu =>
    have hc : c ≠ .close := fun heq => ha (by rw [heq])
    exact ⟨[], call_trace hc, by simp⟩
  | returns cb rest hs => exact ⟨[], rfl, by simp⟩
  | io hs hr => exact ⟨[], handleIo_trace s, by simp⟩
  | handshake answer rest hs => exact afterHandshake_noted s rest answer
  | read answer rest hs => exact (aside_afterRead s rest answer).noted
  | write answer rest data hs ho => exact (aside_afterWrite s rest data answer).noted
  | reads rest hs => exact (aside_afterReads s rest).noted
  | writes rest hs ho => exact (aside_afterWrites s rest).noted

/-- The calls of the user on a closed connection. -/
theorem call_closed {s : TlsRun} (h : s.conn.closed_ = true) {c : TlsCall} (hc : c ≠ .close) :
    (s.call c).conn = s.conn ∧ (s.call c).stack = s.stack := by
  cases c with
  | setCallbacks d c e => exact ⟨rfl, rfl⟩
  | startHandshake c e => simp [call, continueHandshake, setHandshake, h]
  | startRead => simp [call, startRead_closed (.inl h)]
  | write data => simp [call, append, h]
  | writeText data => simp [call, append, h]
  | close => exact absurd rfl hc

/-- A connection that its user has closed is called on to no effect. -/
theorem Hushed.step_closed {s s' : TlsRun} {a : TlsAct} (h : Hushed s) (hsane : Sane s)
    (hmem : .closed ∈ s.trace) (hstep : s.step a = some s') : Hushed s' := by
  obtain ⟨hclosed, hreading⟩ := h.closed hmem
  have hdue : ∀ {f : Frame} {rest : List Frame}, s.stack = f :: rest → f.passive = true := by
    intro f rest hs
    cases hf : f.passive with
    | true => rfl
    | false =>
      have hd := hsane.due hs hf
      exact absurd (hd.isOpen.symm.trans hclosed) (by decide)
  have hquiet : ∀ {s' : TlsRun}, s'.trace = s.trace → s'.conn.closed_ = true →
      (∀ f ∈ s'.stack, f ∈ s.stack) → Hushed s' := by
    intro s' ht hc hstack
    exact ⟨ht ▸ h.silent, fun _ => ⟨hc, fun hr => hreading (hstack _ hr)⟩⟩
  cases step_stepped hstep with
  | call c hu =>
    by_cases hc : c = .close
    · subst hc
      exact ⟨⟨fun _ => rfl, h.silent⟩, fun _ => ⟨shut_closed s, hreading⟩⟩
    · obtain ⟨hconn, hstack⟩ := call_closed hclosed hc
      exact hquiet (call_trace hc) (hconn ▸ hclosed) fun f hf => hstack ▸ hf
  | returns cb rest hs =>
    exact hquiet rfl hclosed fun f hf => by rw [hs]; exact List.mem_cons_of_mem _ hf
  | io hs hr =>
    have hsame : s.handleIo = s := by simp [handleIo, hclosed]
    rw [hsame]
    exact h
  | handshake answer rest hs => cases hdue hs
  | read answer rest hs => exact absurd (by rw [hs]; exact List.mem_cons_self) hreading
  | write answer rest data hs ho => cases hdue hs
  | reads rest hs =>
    have hsame : s.afterReads rest = s.resume rest := by
      have hc : (s.resume rest).conn.closed_ = true := hclosed
      simp [afterReads, doWrite, hc]
    rw [hsame]
    exact hquiet rfl hclosed fun f hf => by rw [hs]; exact List.mem_cons_of_mem _ hf
  | writes rest hs ho => cases hdue hs

theorem Hushed.step {s s' : TlsRun} {a : TlsAct} (h : Hushed s) (hsane : Sane s)
    (ha : s.ClosesOutside a) (hstep : s.step a = some s') : Hushed s' := by
  by_cases hmem : .closed ∈ s.trace
  · exact h.step_closed hsane hmem hstep
  · by_cases hc : a = .call .close
    · subst hc
      cases step_stepped hstep with
      | call c hu => exact ⟨⟨fun _ => rfl, h.silent⟩, fun _ => ⟨shut_closed s, ha⟩⟩
    · exact h.noted hmem (step_noted hc hstep)

end TlsRun

open TlsRun

/-- In every run in which the user does not close the connection inside the loop
of `doRead`, nothing follows a call of `close`: no call of OpenSSL and no callback. -/
theorem silent_after_close (fd : Fd) (id : Nat) (isServer : Bool) (callback : HandshakeCallback)
    (loop : KqueueLoop) (actions : List TlsAct)
    (hclose : Along step ClosesOutside (new fd id isServer callback loop) actions) {s : TlsRun}
    (hrun : run step (new fd id isServer callback loop) actions = some s) :
    Throughout SilentAfterClose s.trace := by
  have hinv := run_invariant (fun s => Hushed s ∧ Sane s)
    (fun s a s' hi ha hstep => ⟨hi.1.step hi.2 ha hstep, hi.2.step hstep⟩)
    ⟨hushed_new fd id isServer callback loop,
      .inl (settled_new fd id isServer callback loop)⟩ hclose hrun
  exact hinv.1.silent

/-- A handshake at once, after which the connection reads. -/
def reads : List TlsAct :=
  [.call (.setCallbacks true true true), .call (.startHandshake true true), .sslHandshake .done,
    .call .startRead, .returns]

/-- Closed in the end of stream callback, a connection is left alone. -/
theorem silent_after_close_ended : ∃ s,
    run step (new 7 0 true .client {}) (reads ++ [.io, .sslRead (.stops .zeroReturn),
      .call .close, .returns, .proceed]) = some s ∧ Throughout SilentAfterClose s.trace := by
  obtain ⟨s, hs⟩ := Option.isSome_iff_exists.mp
    (show (run step (new 7 0 true .client {}) (reads ++ [.io, .sslRead (.stops .zeroReturn),
      .call .close, .returns, .proceed])).isSome = true by decide)
  exact ⟨s, hs, silent_after_close 7 0 true .client {} _ (by decide) hs⟩

/-- Closed in a data callback, it reads again and calls the data callback again. -/
theorem closed_connection_reads : ∃ s,
    run step (new 7 0 true .client {}) (reads ++ [.io, .sslRead (.bytes 97 []), .call .close,
      .returns, .sslRead (.bytes 98 [])]) = some s ∧
    s.trace.take 3 = [.invoked (.onData [98]) true false, .ssl (.read (.bytes 98 [])), .closed] ∧
    ¬ Throughout SilentAfterClose s.trace := by
  exact ⟨_, rfl, by decide, by decide⟩

namespace TlsRun

theorem returns_run {s : TlsRun} {cbs : List TlsCallback} {rest : List Frame}
    (hs : s.stack = cbs.map .user ++ rest) :
    run step s (List.replicate cbs.length .returns) = some (s.resume rest) := by
  induction cbs generalizing s with
  | nil =>
    have hsame : s.resume rest = s := by rw [← show s.stack = rest from hs]; rfl
    rw [hsame]
    rfl
  | cons cb cbs ih =>
    have hstep : s.step .returns = some (s.resume (cbs.map .user ++ rest)) := by
      simp [step, hs]
    rw [List.length_cons, List.replicate_succ, run, hstep]
    exact ih rfl

theorem afterRead_trace (s : TlsRun) (rest : List Frame) (answer : SslReadAnswer) :
    ∃ later, (s.afterRead rest answer).trace = later ++ .ssl (.read answer) :: s.trace := by
  have hcall : ∀ (s' : TlsRun) (set : Bool) (cb : TlsCallback),
      s'.trace = .ssl (.read answer) :: s.trace →
      ∃ later, (s'.invoke set cb).trace = later ++ .ssl (.read answer) :: s.trace := by
    intro s' set cb ht
    obtain ⟨notes, hi, -⟩ := invoke_noted s' set cb
    exact ⟨notes, by rw [hi, ht]⟩
  unfold afterRead
  cases answer with
  | bytes first more => exact hcall _ _ _ rfl
  | stops err =>
    cases err with
    | wantRead => exact ⟨[], rfl⟩
    | wantWrite => exact hcall _ _ _ rfl
    | zeroReturn => exact hcall _ _ _ rfl
    | syscall => exact hcall _ _ _ rfl
    | ssl => exact hcall _ _ _ rfl

end TlsRun

/-- Wherever the user closes the connection inside the loop of `doRead`, the next
thing that happens once the callbacks have returned is another `SSL_read`. -/
theorem closed_inside_reads {s : TlsRun} {cbs : List TlsCallback} {rest : List Frame}
    (hne : cbs ≠ []) (hs : s.stack = cbs.map .user ++ .reading :: rest) (answer : SslReadAnswer) :
    ∃ s', run step s (.call .close :: (List.replicate cbs.length .returns ++
      [.sslRead answer])) = some s' ∧ ¬ Throughout SilentAfterClose s'.trace := by
  have hturn : s.userTurn = true := by
    cases cbs with
    | nil => exact absurd rfl hne
    | cons cb cbs => simp [userTurn, hs]
  have hclose : s.step (.call .close) = some (s.shut.note .closed) := by
    simp [step, hturn, call]
  have hreturn : run step (s.shut.note .closed) (List.replicate cbs.length .returns) =
      some ((s.shut.note .closed).resume (.reading :: rest)) := returns_run hs
  have hread : ((s.shut.note .closed).resume (.reading :: rest)).step (.sslRead answer) =
      some (((s.shut.note .closed).resume (.reading :: rest)).afterRead rest answer) := rfl
  refine ⟨((s.shut.note .closed).resume (.reading :: rest)).afterRead rest answer, ?_, ?_⟩
  · rw [run, hclose]
    exact run_append hreturn (by rw [run, hread]; rfl)
  · intro hright
    obtain ⟨later, ht⟩ :=
      afterRead_trace ((s.shut.note .closed).resume (.reading :: rest)) rest answer
    rw [ht] at hright
    have := hright.at List.mem_cons_self
    cases this

end DeepSeer
