import DeepSeer.ByteText
import DeepSeer.ConnectionSteps

/-!
The terminal callbacks of a plain connection. It is closed before `onClose_` runs, but
`onError_` runs before the close, so a callback that writes can meet another failure. The
callbacks that have run are counted against the error callbacks that are still running.
-/
namespace DeepSeer

open ByteMemory ByteText Schedules WhileLoop

/-- `onClose_` and `onError_` say that there is nothing more to come. -/
def ConnectionCallback.terminal : ConnectionCallback → Bool
  | .onClose | .onError _ => true
  | .onData _ => false

namespace ConnectionFrame

/-- The frames that a callback can find below it. -/
def passive : ConnectionFrame → Bool
  | .receiving | .sending => false
  | .handling | .user _ => true

/-- An `onError_` callback is running. -/
def erring : ConnectionFrame → Bool
  | .user (.onError _) => true
  | _ => false

end ConnectionFrame

namespace ConnectionRun

/-- How many terminal callbacks have run. -/
def terminals (s : ConnectionRun) : Nat := s.invoked.countP ConnectionCallback.terminal

/-- How many `onError_` callbacks are running. -/
def erring (s : ConnectionRun) : Nat := s.stack.countP ConnectionFrame.erring

/-- No send fails in a write that is made inside of an `onError_` callback. -/
def Orderly (s : ConnectionRun) : ConnectionAct → Prop
  | .send .fails => s.onError_ = true → s.stack.any ConnectionFrame.erring = false
  | _ => True

instance (s : ConnectionRun) (a : ConnectionAct) : Decidable (s.Orderly a) := by
  unfold Orderly
  split <;> infer_instance

/-- While the connection is open, the terminal callbacks that have run are those that are
still running. -/
structure Once (s : ConnectionRun) : Prop where
  running : s.conn.closed_ = false → s.terminals = s.erring
  once : s.terminals ≤ 1

/-- Between two calls of the socket. -/
structure Calm (s : ConnectionRun) : Prop extends Once s where
  passive : ∀ f ∈ s.stack, f.passive = true

/-- A call of the socket is due, which is on an open connection, and no callback waits for
the end of a read. -/
structure Due (s : ConnectionRun) (f : ConnectionFrame) (rest : List ConnectionFrame) : Prop
    extends Once s where
  stack : s.stack = f :: rest
  active : f.passive = false
  isOpen : s.conn.closed_ = false
  below : ∀ g ∈ rest, g.passive = true
  alone : f = .receiving → rest.countP ConnectionFrame.erring = 0

def Sane (s : ConnectionRun) : Prop := Calm s ∨ ∃ f rest, Due s f rest

theorem calm_new (fd : Fd) (id : Nat) (loop : KqueueLoop) : Calm (new fd id loop) where
  running _ := rfl
  once := Nat.zero_le 1
  passive := by simp [new]

/-- A change that leaves alone what is counted. -/
theorem Once.same {s s' : ConnectionRun} (h : Once s) (hclosed : s'.conn.closed_ = s.conn.closed_)
    (hterminals : s'.terminals = s.terminals) (herring : s'.erring = s.erring) : Once s' where
  running ho := by
    rw [hterminals, herring]
    exact h.running (hclosed.symm.trans ho)
  once := hterminals ▸ h.once

/-- A closed connection has nothing to come any more. -/
theorem Once.closed {s s' : ConnectionRun} (h : Once s) (hclosed : s'.conn.closed_ = true)
    (hterminals : s'.terminals = s.terminals) : Once s' where
  running ho := absurd (ho.symm.trans hclosed) (by decide)
  once := hterminals ▸ h.once

theorem Calm.same {s s' : ConnectionRun} (h : Calm s) (hclosed : s'.conn.closed_ = s.conn.closed_)
    (hinvoked : s'.invoked = s.invoked) (hstack : s'.stack = s.stack) : Calm s' where
  toOnce := h.toOnce.same hclosed (by rw [terminals, hinvoked, terminals])
    (by rw [erring, hstack, erring])
  passive := hstack ▸ h.passive

theorem Calm.closed {s s' : ConnectionRun} (h : Calm s) (hclosed : s'.conn.closed_ = true)
    (hinvoked : s'.invoked = s.invoked) (hstack : ∀ f ∈ s'.stack, f ∈ s.stack) : Calm s' where
  toOnce := h.toOnce.closed hclosed (by rw [terminals, hinvoked, terminals])
  passive f hf := h.passive f (hstack f hf)

theorem shut_closed (s : ConnectionRun) : s.shut.conn.closed_ = true := by
  unfold shut Connection.close
  split
  · assumption
  · rfl

theorem Calm.shut {s : ConnectionRun} (h : Calm s) : Calm s.shut :=
  h.closed (shut_closed s) rfl fun _ hf => hf

/-- A frame that is not an `onError_` counts for nothing. -/
theorem erring_cons {f : ConnectionFrame} (hf : f.erring = false) (rest : List ConnectionFrame) :
    (f :: rest).countP ConnectionFrame.erring = rest.countP ConnectionFrame.erring :=
  List.countP_cons_of_neg (by simp [hf])

/-- A call of the socket becomes due. -/
theorem Calm.enter {s : ConnectionRun} (h : Calm s) (ho : ¬ s.conn.closed_ = true)
    {f : ConnectionFrame} (hactive : f.passive = false) (hf : f.erring = false)
    (halone : f = .receiving → s.erring = 0) : Sane (s.enter f) := by
  refine .inr ⟨f, s.stack, ⟨?_, rfl, hactive, Bool.eq_false_iff.mpr ho, h.passive, halone⟩⟩
  exact h.toOnce.same rfl rfl (erring_cons hf _)

/-- Frames that are popped may have been running `onError_` on a closed connection only. -/
theorem Calm.resume {s : ConnectionRun} (h : Calm s) {f : ConnectionFrame}
    {rest : List ConnectionFrame} (hs : s.stack = f :: rest) (hf : f.erring = false) :
    Calm (s.resume rest) where
  running ho := by
    have hcount : (s.resume rest).erring = s.erring := by
      rw [erring, erring, hs, erring_cons hf]
      rfl
    rw [hcount]
    exact h.running ho
  once := h.once
  passive g hg := h.passive g (by rw [hs]; exact List.mem_cons_of_mem f hg)

theorem Calm.handleWrite {s : ConnectionRun} (h : Calm s) : Sane s.handleWrite := by
  unfold ConnectionRun.handleWrite
  split
  · exact .inl h
  · next ho => exact h.enter ho rfl rfl (by simp)

theorem Calm.handleRead {s : ConnectionRun} (h : Calm s) (hzero : s.erring = 0) :
    Sane s.handleRead := by
  unfold ConnectionRun.handleRead
  split
  · exact .inl h
  · next ho => exact h.enter ho rfl rfl fun _ => hzero

theorem Calm.append {s : ConnectionRun} (h : Calm s) (writeBuf : Buffer) (data : Bytes) :
    Sane (s.append writeBuf data) := by
  unfold ConnectionRun.append
  split
  · exact .inl h
  · dsimp only
    split
    · exact .inl (h.same rfl rfl rfl)
    · exact Calm.handleWrite (h.same rfl rfl rfl)

theorem Calm.call {s : ConnectionRun} (h : Calm s) (c : UserCall) : Sane (s.call c) := by
  cases c with
  | setCallbacks d c e => exact .inl (h.same rfl rfl rfl)
  | startRead =>
    refine .inl (h.same ?_ rfl rfl)
    simp only [ConnectionRun.call, link, setLoop, setConn, Connection.startRead]
    split <;> rfl
  | stopRead =>
    refine .inl (h.same ?_ rfl rfl)
    simp only [ConnectionRun.call, link, setLoop, setConn, Connection.stopRead]
    split <;> rfl
  | write data => exact h.append _ _
  | writeText data => exact h.append _ _
  | shutdownWrite => exact .inl h
  | close => exact .inl h.shut
  | releaseSocket => exact .inl (h.closed rfl rfl fun _ hf => hf)

theorem Calm.returned {s : ConnectionRun} (h : Calm s) {cb : ConnectionCallback}
    {rest : List ConnectionFrame} (hs : s.stack = .user cb :: rest) :
    Calm (s.returned rest cb) := by
  cases cb with
  | onData data => exact h.resume hs rfl
  | onClose => exact h.resume hs rfl
  | onError err =>
    refine h.closed (shut_closed _) rfl fun f hf => ?_
    rw [hs]
    exact List.mem_cons_of_mem _ hf

theorem Calm.handleIo {s : ConnectionRun} (h : Calm s) (hs : s.stack = []) (fired : IoMask) :
    Sane (s.handleIo fired) := by
  have hflush : Calm (if fired.writable then s.enter .handling else s) ∧
      (if fired.writable then s.enter .handling else s).erring = 0 := by
    split
    · refine ⟨⟨?_, ?_⟩, by simp [erring, ConnectionRun.enter, hs, ConnectionFrame.erring]⟩
      · exact h.toOnce.same rfl rfl (erring_cons rfl _)
      · simp [ConnectionRun.enter, hs, ConnectionFrame.passive]
    · exact ⟨h, by simp [erring, hs]⟩
  unfold ConnectionRun.handleIo
  generalize (if fired.writable then s.enter .handling else s) = s' at hflush ⊢
  obtain ⟨hcalm, hzero⟩ := hflush
  dsimp only
  split
  · exact hcalm.handleRead hzero
  · exact .inl hcalm

/-- A terminal callback of a connection on which none has run yet. -/
theorem calm_invoke {s : ConnectionRun} (hpassive : ∀ f ∈ s.stack, f.passive = true)
    (hzero : s.terminals = 0) (herring : s.erring = 0) (set : Bool) {cb : ConnectionCallback}
    (hcb : cb = .onClose → s.conn.closed_ = true) : Calm (s.invoke set cb) := by
  unfold ConnectionRun.invoke
  split
  · have hcount : ∀ {b : Bool}, (if b = true then 1 else 0) ≤ 1 := by
      intro b
      split <;> omega
    simp only [terminals, erring] at hzero herring
    refine ⟨⟨fun ho => ?_, ?_⟩, ?_⟩
    · simp only [terminals, erring, List.countP_cons, hzero, herring]
      cases cb with
      | onData data => rfl
      | onClose => exact absurd (ho.symm.trans (hcb rfl)) (by decide)
      | onError err => rfl
    · simp only [terminals, List.countP_cons, hzero, Nat.zero_add]
      exact hcount
    · intro f hf
      rcases List.mem_cons.mp hf with rfl | hf
      · rfl
      · exact hpassive f hf
  · exact ⟨⟨fun _ => hzero.trans herring.symm, by omega⟩, hpassive⟩

theorem calm_fail {s : ConnectionRun} (hpassive : ∀ f ∈ s.stack, f.passive = true)
    (hzero : s.terminals = 0) (herring : s.erring = 0) (err : SocketError) :
    Calm (s.fail err) := by
  unfold ConnectionRun.fail
  split
  · exact calm_invoke hpassive hzero herring true (by simp)
  · have hcalm : Calm s := ⟨⟨fun _ => hzero.trans herring.symm, by omega⟩, hpassive⟩
    exact hcalm.shut

theorem Due.afterRecv {s : ConnectionRun} {rest : List ConnectionFrame}
    (h : Due s .receiving rest) (answer : ReadAnswer) : Calm (s.afterRecv rest answer) := by
  have hnone : s.erring = 0 := by
    rw [erring, h.stack, erring_cons rfl]
    exact h.alone rfl
  have hzero : s.terminals = 0 := (h.running h.isOpen).trans hnone
  have hrest : rest.countP ConnectionFrame.erring = 0 := h.alone rfl
  unfold ConnectionRun.afterRecv
  rcases s.conn.handleRead_cases answer s.loop with hr | ⟨buf, -, hr⟩ | hr | hr <;> rw [hr]
  · exact ⟨⟨fun _ => hzero.trans hrest.symm, h.once⟩, h.below⟩
  · exact calm_invoke (s := (s.link (s.conn, s.loop)).resume rest) h.below hzero hrest _ (by simp)
  · exact calm_invoke (s := s.shut.resume rest) h.below hzero hrest _ fun _ => shut_closed s
  · exact calm_fail (s := (s.link (s.conn, s.loop)).resume rest) h.below hzero hrest _

theorem Due.afterPass {s : ConnectionRun} {rest : List ConnectionFrame} (h : Due s .sending rest)
    {answer : SendAnswer} (ha : s.Orderly (.send answer) ∨ s.offer = none) :
    Sane (s.afterPass rest answer) := by
  have hcount : rest.countP ConnectionFrame.erring = s.erring := by
    rw [erring, h.stack, erring_cons rfl]
  rcases s.afterPass_cases rest answer with ⟨conn, heq, hc, -⟩ | ⟨conn, heq, hc, -⟩ |
    ⟨conn, heq, hc, rfl, ho⟩ <;> rw [heq]
  · exact .inl ⟨h.toOnce.same hc rfl hcount, h.below⟩
  · exact .inr ⟨.sending, rest, h.toOnce.same hc rfl rfl, h.stack, rfl, hc.trans h.isOpen, h.below,
      h.alone⟩
  · have horderly : s.onError_ = true → s.stack.any ConnectionFrame.erring = false :=
      ha.resolve_right ho
    cases hset : s.onError_ with
    | true =>
      have hzero : s.erring = 0 := by
        have hnone := horderly hset
        simpa [erring, List.countP_eq_zero] using hnone
      have hterminals : s.terminals = 0 := (h.running h.isOpen).trans hzero
      exact .inl (calm_fail (s := (s.setConn conn).resume rest) h.below hterminals
        (hcount.trans hzero) _)
    | false =>
      have hcalm : Calm ((s.setConn conn).resume rest) :=
        ⟨h.toOnce.same hc rfl hcount, h.below⟩
      have hfail : ((s.setConn conn).resume rest).fail .writeError =
          ((s.setConn conn).resume rest).shut := if_neg (by simp [resume, setConn, hset])
      rw [hfail]
      exact .inl hcalm.shut

theorem Sane.calm {s : ConnectionRun} (h : Sane s) {f : ConnectionFrame}
    {rest : List ConnectionFrame} (hs : s.stack = f :: rest) (hf : f.passive = true) : Calm s := by
  rcases h with h | ⟨g, rest', h⟩
  · exact h
  · have hfg : f = g := (List.cons.inj (hs.symm.trans h.stack)).1
    exact absurd (hf.symm.trans (hfg ▸ h.active)) (by decide)

theorem Sane.idle {s : ConnectionRun} (h : Sane s) (hs : s.stack = []) : Calm s := by
  rcases h with h | ⟨g, rest', h⟩
  · exact h
  · cases hs.symm.trans h.stack

theorem Sane.userTurn {s : ConnectionRun} (h : Sane s) (hu : s.userTurn = true) : Calm s := by
  rcases userTurn_cases hu with hs | ⟨cb, rest, hs⟩
  · exact h.idle hs
  · exact h.calm hs rfl

theorem Sane.due {s : ConnectionRun} (h : Sane s) {f : ConnectionFrame}
    {rest : List ConnectionFrame} (hs : s.stack = f :: rest) (hf : f.passive = false) :
    Due s f rest := by
  rcases h with h | ⟨g, rest', h⟩
  · have hpassive := h.passive f (by rw [hs]; exact List.mem_cons_self)
    exact absurd (hf.symm.trans hpassive) (by decide)
  · obtain ⟨rfl, rfl⟩ := List.cons.inj (hs.symm.trans h.stack)
    exact h

theorem Sane.once {s : ConnectionRun} (h : Sane s) : s.terminals ≤ 1 := by
  rcases h with h | ⟨f, rest, h⟩
  · exact h.toOnce.once
  · exact h.toOnce.once

theorem Sane.step {s s' : ConnectionRun} {a : ConnectionAct} (h : Sane s) (ha : s.Orderly a)
    (hstep : s.step a = some s') : Sane s' := by
  cases step_stepped hstep with
  | call c hu => exact (h.userTurn hu).call c
  | returns cb rest hs => exact .inl ((h.calm hs rfl).returned hs)
  | io fired hs hr => exact (h.idle hs).handleIo hs fired
  | recv answer rest hs => exact .inl ((h.due hs rfl).afterRecv answer)
  | reads rest hs => exact ((h.calm hs rfl).resume hs rfl).handleWrite
  | send answer rest hs ho => exact (h.due hs rfl).afterPass (.inl ha)
  | sends rest hs ho => exact (h.due hs rfl).afterPass (.inr ho)

/-- A failure inside of `onError_` calls it again. -/
theorem Sane.twice {s s' : ConnectionRun} {a : ConnectionAct} (h : Sane s) (ha : ¬ s.Orderly a)
    (hstep : s.step a = some s') : ¬ s'.terminals ≤ 1 := by
  cases step_stepped hstep with
  | send answer rest hs ho =>
    cases answer with
    | accepts n => exact absurd trivial ha
    | wouldBlock => exact absurd trivial ha
    | fails =>
      have hdue := h.due hs rfl
      simp only [Orderly, Classical.not_imp, Bool.not_eq_false] at ha
      obtain ⟨hset, hany⟩ := ha
      have hrunning : 0 < s.erring := by
        rw [erring, List.countP_pos_iff]
        exact List.any_eq_true.mp hany
      have hterminals := hdue.running hdue.isOpen
      have hagain : (s.afterPass rest .fails).terminals = s.terminals + 1 := by
        rcases s.afterPass_cases rest .fails with ⟨conn, -, -, hnone⟩ | ⟨conn, -, -, more, hf⟩ |
          ⟨conn, heq, -, -, -⟩
        · rcases hnone with hnone | hf
          · exact absurd hnone ho
          · cases hf
        · cases hf
        · have hfail : ((s.setConn conn).resume rest).fail .writeError =
              ((s.setConn conn).resume rest).invoke true (.onError .writeError) := if_pos hset
          rw [heq, hfail]
          exact List.countP_cons_of_pos rfl
      omega
  | _ => exact absurd trivial ha

/-- A callback that has run stays so. -/
theorem step_terminals {s s' : ConnectionRun} {a : ConnectionAct} (hstep : s.step a = some s') :
    s.terminals ≤ s'.terminals :=
  (step_invoked hstep).sublist.countP_le

end ConnectionRun

open ConnectionRun

/-- Over the whole life of a connection at most one terminal callback runs, and at most
once, exactly where no send fails in a write that is made inside of `onError_`. -/
theorem terminal_once_iff (fd : Fd) (id : Nat) (loop : KqueueLoop) (acts : List ConnectionAct)
    {s : ConnectionRun} (hrun : run step (new fd id loop) acts = some s) :
    s.terminals ≤ 1 ↔ Along step Orderly (new fd id loop) acts := by
  apply run_iff_along (I := Sane) (P := fun s => s.terminals ≤ 1) (fun s h => h.once)
    (fun s a s' h ha hstep => h.step ha hstep) (fun s a s' h ha hstep => h.twice ha hstep)
    _ (.inl (calm_new fd id loop)) hrun
  intro s a s' hlost hstep hle
  exact hlost (Nat.le_trans (step_terminals hstep) hle)

/-- A connection with all callbacks that reads. -/
def listens : List ConnectionAct := [.call (.setCallbacks true true true), .call .startRead]

/-- The peer closes the connection, and the callback writes to it. -/
theorem terminal_once_iff_closed : ∃ s,
    run step (new 5 0 {}) (listens ++ [.io ⟨true, false⟩, .recv (.bytes []),
      .call (.writeText (text "bye")), .returns]) = some s ∧ s.terminals ≤ 1 := by
  obtain ⟨s, hs⟩ := Option.isSome_iff_exists.mp
    (show (run step (new 5 0 {}) (listens ++ [.io ⟨true, false⟩, .recv (.bytes []),
      .call (.writeText (text "bye")), .returns])).isSome = true by decide)
  exact ⟨s, hs, (terminal_once_iff 5 0 {} _ hs).mpr (by decide)⟩

/-- A read fails, the error callback writes, and the write fails: `onError_` is called inside
of itself. -/
theorem error_inside_error : ∃ s,
    run step (new 5 0 {}) (listens ++ [.io ⟨true, false⟩, .recv .fails,
      .call (.writeText (text "bye")), .send .fails, .returns, .returns]) = some s ∧
    s.invoked = [.onError .writeError, .onError .readError] ∧ ¬ s.terminals ≤ 1 :=
  ⟨_, rfl, by decide, by decide⟩

end DeepSeer
