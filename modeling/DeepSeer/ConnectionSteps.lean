import DeepSeer.ConnectionWrites
import DeepSeer.Schedules

/-!
A plain connection one call of its socket at a time. Its callbacks run in the middle of
its functions and may call it again, so what its active calls have still to do is a stack
of frames, the innermost first. The user has the turn while no call is active or a
callback is running.
-/
namespace DeepSeer

open ByteMemory WhileLoop Schedules

/-- The codes of the errors that `onError_` gets. -/
inductive SocketError where
  | readError | writeError
  deriving DecidableEq, Repr

inductive ConnectionCallback where
  | onData (data : Bytes)
  | onClose
  | onError (err : SocketError)
  deriving DecidableEq, Repr

/-- What an active call has still to do. -/
inductive ConnectionFrame where
  /-- `handleRead` before it reads. -/
  | receiving
  /-- The registered callback behind `handleRead`. -/
  | handling
  /-- The head of the loop of `handleWrite`. -/
  | sending
  /-- A callback of the user. -/
  | user (cb : ConnectionCallback)
  deriving DecidableEq, Repr

/-- The calls of the user. A callback that is passed may be empty. -/
inductive UserCall where
  | setCallbacks (onData onClose onError : Bool)
  | startRead
  | stopRead
  | write (data : Buffer.Sound)
  | writeText (data : Bytes)
  | shutdownWrite
  | close
  | releaseSocket

inductive ConnectionAct where
  | call (c : UserCall)
  | returns
  | io (fired : IoMask)
  | recv (answer : ReadAnswer)
  | send (answer : SendAnswer)
  | proceed

/-- A connection that was made for the descriptor `fd`, its callbacks as far as they are
set, the loop, the active calls, and the callbacks that have run, the latest first. -/
structure ConnectionRun where
  fd : Fd
  conn : Connection
  loop : KqueueLoop
  onData_ : Bool := false
  onClose_ : Bool := false
  onError_ : Bool := false
  stack : List ConnectionFrame := []
  invoked : List ConnectionCallback := []

namespace ConnectionRun

def new (fd : Fd) (id : Nat) (loop : KqueueLoop) : ConnectionRun where
  fd := fd
  conn := { id := id, socket_ := fd }
  loop := loop

def setConn (s : ConnectionRun) (conn : Connection) : ConnectionRun := { s with conn := conn }

def setLoop (s : ConnectionRun) (loop : KqueueLoop) : ConnectionRun := { s with loop := loop }

/-- What an operation has made of the connection and the loop. -/
def link (s : ConnectionRun) (r : Connection × KqueueLoop) : ConnectionRun :=
  (s.setConn r.1).setLoop r.2

/-- A call or a callback begins. -/
def enter (s : ConnectionRun) (f : ConnectionFrame) : ConnectionRun :=
  { s with stack := f :: s.stack }

/-- It ends, and the frames below go on. -/
def resume (s : ConnectionRun) (rest : List ConnectionFrame) : ConnectionRun :=
  { s with stack := rest }

/-- A callback runs if it is set. -/
def invoke (s : ConnectionRun) (set : Bool) (cb : ConnectionCallback) : ConnectionRun :=
  if set then { s with stack := .user cb :: s.stack, invoked := cb :: s.invoked } else s

/-- `close()`, by whomever. -/
def shut (s : ConnectionRun) : ConnectionRun := s.link (s.conn.close s.loop)

/-- The error branches: the callback if there is one, and a close behind it. -/
def fail (s : ConnectionRun) (err : SocketError) : ConnectionRun :=
  if s.onError_ then s.invoke true (.onError err) else s.shut

/-- `handleRead` up to its call of the socket. -/
def handleRead (s : ConnectionRun) : ConnectionRun :=
  if s.conn.closed_ then s else s.enter .receiving

/-- `handleWrite` up to its loop. -/
def handleWrite (s : ConnectionRun) : ConnectionRun :=
  if s.conn.closed_ then s else s.enter .sending

/-- The two `write`s, with the buffer after the data has been appended. -/
def append (s : ConnectionRun) (writeBuf : Buffer) (data : Bytes) : ConnectionRun :=
  if s.conn.closed_ then s
  else
    let conn := { s.conn with writeBuf_ := writeBuf, written := s.conn.written ++ data }
    let s := s.link (conn, conn.updateEvents s.loop)
    if writeBuf.empty then s else s.handleWrite

/-- A half close is a matter of the kernel alone. -/
def call (s : ConnectionRun) : UserCall → ConnectionRun
  | .setCallbacks d c e => { s with onData_ := d, onClose_ := c, onError_ := e }
  | .startRead => s.link (s.conn.startRead s.loop)
  | .stopRead => s.link (s.conn.stopRead s.loop)
  | .write data => s.append (s.conn.writeBuf_.move data.1).1 data.1.linearize
  | .writeText data => s.append (s.conn.writeBuf_.add data) data
  | .shutdownWrite => s
  | .close => s.shut
  | .releaseSocket => s.link (s.conn.releaseSocket s.loop).2

/-- Behind a callback; behind `onError_` comes the close. -/
def returned (s : ConnectionRun) (rest : List ConnectionFrame) : ConnectionCallback → ConnectionRun
  | .onError _ => (s.resume rest).shut
  | .onData _ | .onClose => s.resume rest

/-- The callback that `updateEvents` registers. -/
def handleIo (s : ConnectionRun) (fired : IoMask) : ConnectionRun :=
  let s := if fired.writable then s.enter .handling else s
  if fired.readable then s.handleRead else s

/-- `handleRead` with the answer of the socket. -/
def afterRecv (s : ConnectionRun) (rest : List ConnectionFrame) (answer : ReadAnswer) :
    ConnectionRun :=
  let r := s.conn.handleRead answer s.loop
  let s := (s.link (r.1, r.2.1)).resume rest
  match r.2.2 with
  | .nothing => s
  | .data buf => s.invoke s.onData_ (.onData buf.linearize)
  | .closed => s.invoke s.onClose_ .onClose
  | .failed => s.fail .readError

/-- What the socket is offered at the head of the loop of `handleWrite`. -/
def offer (s : ConnectionRun) : Option Bytes :=
  if s.conn.writeBuf_.empty then none
  else
    match s.conn.writeBuf_.slices with
    | [] => none
    | slice :: _ => if slice.data = [] then none else some slice.data

/-- One pass of the loop of `handleWrite`, and what follows the loop. -/
def afterPass (s : ConnectionRun) (rest : List ConnectionFrame) (answer : SendAnswer) :
    ConnectionRun :=
  match Connection.flushPass (fun _ => answer) s.conn with
  | .again conn => s.setConn conn
  | .leave (conn, .settled) => (s.link (conn, conn.updateEvents s.loop)).resume rest
  | .leave (conn, .failed) => ((s.setConn conn).resume rest).fail .writeError

def userTurn (s : ConnectionRun) : Bool :=
  match s.stack with
  | [] | .user _ :: _ => true
  | _ => false

/-- The event loop calls the callback that is registered for the descriptor. -/
def registered (s : ConnectionRun) : Bool :=
  decide ((s.loop.fdEntries_ s.fd).map FdEntry.callback = some (.connection s.conn.id))

/-- A pass that offers nothing makes no call of the socket, whose answer is then idle. -/
def step (s : ConnectionRun) (a : ConnectionAct) : Option ConnectionRun :=
  match a, s.stack with
  | .call c, _ => if s.userTurn then some (s.call c) else none
  | .returns, .user cb :: rest => some (s.returned rest cb)
  | .io fired, [] => if s.registered then some (s.handleIo fired) else none
  | .recv answer, .receiving :: rest => some (s.afterRecv rest answer)
  | .proceed, .handling :: rest => some (s.resume rest).handleWrite
  | .send answer, .sending :: rest =>
    if s.offer = none then none else some (s.afterPass rest answer)
  | .proceed, .sending :: rest =>
    if s.offer = none then some (s.afterPass rest .wouldBlock) else none
  | _, _ => none

@[simp] theorem handleWrite_invoked (s : ConnectionRun) : s.handleWrite.invoked = s.invoked := by
  unfold handleWrite
  split <;> rfl

@[simp] theorem handleWrite_conn (s : ConnectionRun) : s.handleWrite.conn = s.conn := by
  unfold handleWrite
  split <;> rfl

@[simp] theorem handleRead_invoked (s : ConnectionRun) : s.handleRead.invoked = s.invoked := by
  unfold handleRead
  split <;> rfl

@[simp] theorem handleRead_conn (s : ConnectionRun) : s.handleRead.conn = s.conn := by
  unfold handleRead
  split <;> rfl

@[simp] theorem append_invoked (s : ConnectionRun) (writeBuf : Buffer) (data : Bytes) :
    (s.append writeBuf data).invoked = s.invoked := by
  unfold append
  split
  · rfl
  · dsimp only
    split
    · rfl
    · rw [handleWrite_invoked]
      rfl

theorem call_invoked (s : ConnectionRun) (c : UserCall) : (s.call c).invoked = s.invoked := by
  cases c with
  | write data => exact append_invoked s _ _
  | writeText data => exact append_invoked s _ _
  | _ => rfl

theorem returned_invoked (s : ConnectionRun) (rest : List ConnectionFrame)
    (cb : ConnectionCallback) : (s.returned rest cb).invoked = s.invoked := by
  cases cb <;> rfl

theorem handleIo_invoked (s : ConnectionRun) (fired : IoMask) :
    (s.handleIo fired).invoked = s.invoked := by
  unfold handleIo
  split <;> split <;> simp [enter]

theorem handleIo_conn (s : ConnectionRun) (fired : IoMask) : (s.handleIo fired).conn = s.conn := by
  unfold handleIo
  split <;> split <;> simp [enter]

theorem invoke_invoked (s : ConnectionRun) (set : Bool) (cb : ConnectionCallback) :
    s.invoked <:+ (s.invoke set cb).invoked := by
  unfold invoke
  split
  · exact List.suffix_cons cb s.invoked
  · exact List.suffix_refl _

@[simp] theorem invoke_conn (s : ConnectionRun) (set : Bool) (cb : ConnectionCallback) :
    (s.invoke set cb).conn = s.conn := by
  unfold invoke
  split <;> rfl

theorem fail_invoked (s : ConnectionRun) (err : SocketError) :
    s.invoked <:+ (s.fail err).invoked := by
  unfold fail
  split
  · exact invoke_invoked s true _
  · exact List.suffix_refl _

/-- What a step does, one case for each place in the code. -/
inductive Stepped (s : ConnectionRun) : ConnectionAct → ConnectionRun → Prop
  | call (c : UserCall) : s.userTurn = true → Stepped s (.call c) (s.call c)
  | returns (cb : ConnectionCallback) (rest : List ConnectionFrame) :
      s.stack = .user cb :: rest → Stepped s .returns (s.returned rest cb)
  | io (fired : IoMask) :
      s.stack = [] → s.registered = true → Stepped s (.io fired) (s.handleIo fired)
  | recv (answer : ReadAnswer) (rest : List ConnectionFrame) :
      s.stack = .receiving :: rest → Stepped s (.recv answer) (s.afterRecv rest answer)
  | reads (rest : List ConnectionFrame) :
      s.stack = .handling :: rest → Stepped s .proceed (s.resume rest).handleWrite
  | send (answer : SendAnswer) (rest : List ConnectionFrame) :
      s.stack = .sending :: rest → s.offer ≠ none →
      Stepped s (.send answer) (s.afterPass rest answer)
  | sends (rest : List ConnectionFrame) :
      s.stack = .sending :: rest → s.offer = none →
      Stepped s .proceed (s.afterPass rest .wouldBlock)

theorem step_stepped {s s' : ConnectionRun} {a : ConnectionAct} (h : s.step a = some s') :
    Stepped s a s' := by
  unfold step at h
  split at h
  · next c =>
    obtain ⟨hu, hh⟩ := Option.ite_none_right_eq_some.mp h
    cases hh
    exact .call c hu
  · next cb rest hs =>
    cases h
    exact .returns cb rest hs
  · next fired hs =>
    obtain ⟨hr, hh⟩ := Option.ite_none_right_eq_some.mp h
    cases hh
    exact .io fired hs hr
  · next answer rest hs =>
    cases h
    exact .recv answer rest hs
  · next rest hs =>
    cases h
    exact .reads rest hs
  · next answer rest hs =>
    obtain ⟨ho, hh⟩ := Option.ite_none_left_eq_some.mp h
    cases hh
    exact .send answer rest hs ho
  · next rest hs =>
    obtain ⟨ho, hh⟩ := Option.ite_none_right_eq_some.mp h
    cases hh
    exact .sends rest hs ho
  · cases h

/-- What a pass of the loop of `handleWrite` leads to: the end of the loop, because there is
nothing to offer or the socket is full, another pass, or the error branch. -/
theorem afterPass_cases (s : ConnectionRun) (rest : List ConnectionFrame) (answer : SendAnswer) :
    (∃ conn : Connection,
      s.afterPass rest answer = (s.link (conn, conn.updateEvents s.loop)).resume rest ∧
      conn.closed_ = s.conn.closed_ ∧ (s.offer = none ∨ answer = .wouldBlock)) ∨
    (∃ conn : Connection, s.afterPass rest answer = s.setConn conn ∧
      conn.closed_ = s.conn.closed_ ∧ ∃ more, answer = .accepts more) ∨
    (∃ conn : Connection,
      s.afterPass rest answer = ((s.setConn conn).resume rest).fail .writeError ∧
      conn.closed_ = s.conn.closed_ ∧ answer = .fails ∧ s.offer ≠ none) := by
  unfold afterPass Connection.flushPass
  by_cases he : s.conn.writeBuf_.empty = true
  · rw [if_pos he]
    exact .inl ⟨s.conn, rfl, rfl, .inl (if_pos he)⟩
  · rw [if_neg he]
    cases hs : s.conn.writeBuf_.slices with
    | nil => exact .inl ⟨s.conn, rfl, rfl, .inl (by simp [offer, he, hs])⟩
    | cons slice more =>
      by_cases hdata : slice.data = []
      · simp only [hdata, if_true]
        exact .inl ⟨_, rfl, rfl, .inl (by simp [offer, he, hs, hdata])⟩
      · have hoffer : s.offer ≠ none := by simp [offer, he, hs, hdata]
        simp only [if_neg hdata]
        cases answer with
        | fails => exact .inr (.inr ⟨_, rfl, rfl, rfl, hoffer⟩)
        | wouldBlock => exact .inl ⟨_, rfl, rfl, .inr rfl⟩
        | accepts n => exact .inr (.inl ⟨_, rfl, rfl, n, rfl⟩)

theorem afterPass_invoked (s : ConnectionRun) (rest : List ConnectionFrame) (answer : SendAnswer) :
    s.invoked <:+ (s.afterPass rest answer).invoked := by
  rcases s.afterPass_cases rest answer with ⟨conn, heq, -⟩ | ⟨conn, heq, -⟩ | ⟨conn, heq, -⟩ <;>
    rw [heq]
  · exact List.suffix_refl _
  · exact List.suffix_refl _
  · exact fail_invoked ((s.setConn conn).resume rest) _

/-- The callbacks that have run before are those that had run. -/
theorem step_invoked {s s' : ConnectionRun} {a : ConnectionAct} (hstep : s.step a = some s') :
    s.invoked <:+ s'.invoked := by
  cases step_stepped hstep with
  | call c hu => simp only [call_invoked, List.suffix_refl]
  | returns cb rest hs => simp only [returned_invoked, List.suffix_refl]
  | io fired hs hr => simp only [handleIo_invoked, List.suffix_refl]
  | recv answer rest hs =>
    unfold afterRecv
    dsimp only
    change ((s.link ((s.conn.handleRead answer s.loop).1,
      (s.conn.handleRead answer s.loop).2.1)).resume rest).invoked <:+ _
    split
    · exact List.suffix_refl _
    · exact invoke_invoked _ _ _
    · exact invoke_invoked _ _ _
    · exact fail_invoked _ _
  | reads rest hs =>
    rw [handleWrite_invoked]
    exact List.suffix_refl _
  | send answer rest hs ho => exact afterPass_invoked s rest answer
  | sends rest hs ho => exact afterPass_invoked s rest .wouldBlock

theorem userTurn_cases {s : ConnectionRun} (h : s.userTurn = true) :
    s.stack = [] ∨ ∃ cb rest, s.stack = .user cb :: rest := by
  unfold userTurn at h
  split at h
  · next hs => exact .inl hs
  · next cb rest hs => exact .inr ⟨cb, rest, hs⟩
  · cases h

/-!
Where the callbacks return at once, a call of the user and an event on the descriptor come
to what the operations of the connection compute from them.
-/

/-- Some run leads to this connection and this loop, with no call active. -/
def Settles (s : ConnectionRun) (r : Connection × KqueueLoop) : Prop :=
  ∃ acts t, run step s acts = some t ∧ (t.conn, t.loop) = r ∧ t.stack = []

theorem settles_now {s : ConnectionRun} (hs : s.stack = []) : Settles s (s.conn, s.loop) :=
  ⟨[], s, rfl, rfl, hs⟩

theorem Settles.after {s s' : ConnectionRun} {acts : List ConnectionAct}
    {r : Connection × KqueueLoop} (h : Settles s' r) (hrun : run step s acts = some s') :
    Settles s r := by
  obtain ⟨more, t, hmore, hr, hs⟩ := h
  exact ⟨acts ++ more, t, run_append hrun hmore, hr, hs⟩

theorem run_single {s s' : ConnectionRun} {a : ConnectionAct} (h : s.step a = some s') :
    run step s [a] = some s' := by
  rw [run, h]
  rfl

theorem Settles.step {s s' : ConnectionRun} {a : ConnectionAct} {r : Connection × KqueueLoop}
    (h : Settles s' r) (hstep : s.step a = some s') : Settles s r :=
  h.after (run_single hstep)

theorem onData_settles {s : ConnectionRun} (hs : s.stack = []) (set : Bool) (data : Bytes) :
    Settles (s.invoke set (.onData data)) (s.conn, s.loop) := by
  cases set with
  | false => exact settles_now hs
  | true => exact ⟨[.returns], _, rfl, rfl, hs⟩

theorem onClose_settles {s : ConnectionRun} (hs : s.stack = []) (set : Bool) :
    Settles (s.invoke set .onClose) (s.conn, s.loop) := by
  cases set with
  | false => exact settles_now hs
  | true => exact ⟨[.returns], _, rfl, rfl, hs⟩

/-- With or without an `onError_` the connection is closed behind an error. -/
theorem fail_settles {s : ConnectionRun} (hs : s.stack = []) (err : SocketError) :
    Settles (s.fail err) (s.conn.close s.loop) := by
  unfold fail
  split
  · exact ⟨[.returns], _, rfl, rfl, hs⟩
  · exact ⟨[], s.shut, rfl, rfl, hs⟩

/-- What follows the loop of `handleWrite`. -/
def flushed (s : ConnectionRun) (rest : List ConnectionFrame) :
    Connection × Connection.Flushed → ConnectionRun
  | (conn, .settled) => (s.link (conn, conn.updateEvents s.loop)).resume rest
  | (conn, .failed) => ((s.setConn conn).resume rest).fail .writeError

theorem afterPass_again {s : ConnectionRun} (rest : List ConnectionFrame) {answer : SendAnswer}
    {conn : Connection} (h : Connection.flushPass (fun _ => answer) s.conn = .again conn) :
    s.afterPass rest answer = s.setConn conn := by
  rw [afterPass, h]

theorem afterPass_leave {s : ConnectionRun} (rest : List ConnectionFrame) {answer : SendAnswer}
    {r : Connection × Connection.Flushed}
    (h : Connection.flushPass (fun _ => answer) s.conn = .leave r) :
    s.afterPass rest answer = s.flushed rest r := by
  obtain ⟨conn, how⟩ := r
  rw [afterPass, h]
  cases how <;> rfl

/-- Where nothing is offered, no answer is asked for. -/
theorem afterPass_idle {s : ConnectionRun} (h : s.offer = none) (rest : List ConnectionFrame)
    (answer : SendAnswer) : s.afterPass rest answer = s.afterPass rest .wouldBlock := by
  have hpass : Connection.flushPass (fun _ => answer) s.conn =
      Connection.flushPass (fun _ => .wouldBlock) s.conn := by
    unfold offer at h
    unfold Connection.flushPass
    split
    · rfl
    · next hne =>
      rw [if_neg hne] at h
      cases hs : s.conn.writeBuf_.slices with
      | nil => rfl
      | cons slice more =>
        rw [hs] at h
        by_cases hdata : slice.data = []
        · simp only [hdata, if_true]
        · simp only [if_neg hdata, reduceCtorEq] at h
  rw [afterPass, hpass, afterPass]

/-- A pass of the loop is a step, whatever the socket answers if it is asked. -/
theorem pass_step {s : ConnectionRun} {rest : List ConnectionFrame}
    (hs : s.stack = .sending :: rest) (answer : SendAnswer) : ∃ a, s.step a = some (s.afterPass rest answer) := by
  by_cases ho : s.offer = none
  · refine ⟨.proceed, ?_⟩
    rw [afterPass_idle ho]
    simp only [step, hs, if_pos ho]
  · refine ⟨.send answer, ?_⟩
    simp only [step, hs, if_neg ho]

/-- The steps of the loop of `handleWrite` make up its iteration. -/
theorem sending_run {answer : Nat → SendAnswer} {s : ConnectionRun} {rest : List ConnectionFrame}
    (hs : s.stack = .sending :: rest) {n : Nat} {r : Connection × Connection.Flushed}
    (h : iterate (Connection.flushPass answer) n s.conn = some r) :
    ∃ acts, run step s acts = some (s.flushed rest r) := by
  induction n generalizing s with
  | zero => cases h
  | succ n ih =>
    obtain ⟨a, ha⟩ := pass_step hs (answer s.conn.sends)
    have hsame : Connection.flushPass (fun _ => answer s.conn.sends) s.conn =
        Connection.flushPass answer s.conn := rfl
    cases hp : Connection.flushPass answer s.conn with
    | again conn =>
      rw [iterate_again hp] at h
      obtain ⟨acts, hacts⟩ := ih (s := s.setConn conn) hs h
      rw [afterPass_again rest (hsame.trans hp)] at ha
      refine ⟨a :: acts, ?_⟩
      rw [run, ha]
      exact hacts
    | leave r' =>
      rw [iterate_leave hp] at h
      cases h
      rw [afterPass_leave rest (hsame.trans hp)] at ha
      exact ⟨[a], run_single ha⟩

theorem handleWrite_settles (answer : Nat → SendAnswer) {s : ConnectionRun} (hs : s.stack = [])
    (hsound : s.conn.writeBuf_.Represents s.conn.writeBuf_.linearize) :
    Settles s.handleWrite (afterFlush (s.conn.handleWrite answer s.loop)) := by
  unfold handleWrite Connection.handleWrite
  split
  · exact settles_now hs
  · obtain ⟨n, hn⟩ := Connection.flushEnds_of_sound answer hsound
    have hstack : (s.enter .sending).stack = [.sending] := congrArg _ hs
    obtain ⟨acts, hacts⟩ := sending_run hstack hn
    apply Settles.after _ hacts
    generalize s.conn.flush answer = r
    obtain ⟨conn, how⟩ := r
    cases how with
    | settled => exact settles_now rfl
    | failed => exact fail_settles (s := ((s.enter .sending).setConn conn).resume []) rfl _

theorem append_settles (answer : Nat → SendAnswer) {s : ConnectionRun} (hs : s.stack = [])
    (ho : s.conn.closed_ = false) {writeBuf : Buffer} (data : Bytes)
    (hsound : writeBuf.Represents writeBuf.linearize) :
    Settles (s.append writeBuf data) (afterFlush (Connection.flushNow answer
      { s.conn with writeBuf_ := writeBuf, written := s.conn.written ++ data } s.loop)) := by
  unfold append Connection.flushNow
  simp only [ho, Bool.false_eq_true, if_false]
  split
  · exact settles_now hs
  · exact handleWrite_settles answer (s := s.link _) hs hsound

theorem handleRead_settles {s : ConnectionRun} (hs : s.stack = []) (answer : ReadAnswer) :
    Settles s.handleRead (afterRead (s.conn.handleRead answer s.loop)) := by
  by_cases hc : s.conn.closed_ = true
  · rw [handleRead, if_pos hc, Connection.handleRead, if_pos hc]
    exact settles_now hs
  · have hrecv : s.handleRead.step (.recv answer) =
        some ((s.enter .receiving).afterRecv [] answer) := by
      rw [handleRead, if_neg hc, ← hs]
      rfl
    apply Settles.step _ hrecv
    unfold afterRecv
    dsimp only
    have hsame : (s.enter .receiving).conn.handleRead answer (s.enter .receiving).loop =
        s.conn.handleRead answer s.loop := rfl
    rw [hsame]
    rcases s.conn.handleRead_cases answer s.loop with heq | ⟨buf, -, heq⟩ | heq | heq <;> rw [heq]
    · exact settles_now rfl
    · exact onData_settles rfl _ _
    · exact onClose_settles rfl _
    · exact fail_settles rfl _

theorem readable_settles {s : ConnectionRun} (hs : s.stack = []) (hr : s.registered = true)
    (answer : ReadAnswer) : Settles s (afterRead (s.conn.handleRead answer s.loop)) := by
  apply (handleRead_settles hs answer).step (a := .io ⟨true, false⟩)
  simp [step, hs, hr, handleIo]

theorem writable_settles (answer : Nat → SendAnswer) {s : ConnectionRun} (hs : s.stack = [])
    (hr : s.registered = true)
    (hsound : s.conn.writeBuf_.Represents s.conn.writeBuf_.linearize) :
    Settles s (afterFlush (s.conn.handleWrite answer s.loop)) := by
  have hio : s.step (.io ⟨false, true⟩) = some (s.enter .handling) := by
    simp [step, hs, hr, handleIo]
  have hproceed : (s.enter .handling).step .proceed = some s.handleWrite := by
    simp [step, enter, resume]
  exact ((handleWrite_settles answer hs hsound).step hproceed).step hio

/-- The calls that come from the loop. -/
def fired : ConnectionCall → Bool
  | .readable _ | .writable => true
  | .write _ | .writeText _ | .startRead | .stopRead => false

/-- What an operation of the connection computes, a run of its steps comes to. -/
theorem call_settles (answer : Nat → SendAnswer) {s : ConnectionRun} (hs : s.stack = [])
    (hsound : s.conn.writeBuf_.Represents s.conn.writeBuf_.linearize) (c : ConnectionCall)
    (hr : fired c = true → s.conn.closed_ = false → s.registered = true) :
    Settles s (callConnection answer (s.conn, s.loop) c) := by
  have huser : s.userTurn = true := by rw [userTurn, hs]
  have hcall : ∀ u : UserCall, s.step (.call u) = some (s.call u) := by
    intro u
    simp only [step, if_pos huser]
  cases hc : s.conn.closed_ with
  | true =>
    rw [callConnection_closed hc]
    exact settles_now hs
  | false =>
    cases c with
    | write data =>
      have hmoved := (Buffer.move_represents hsound data.2).1.self
      have hsettles := (append_settles answer hs hc data.1.linearize hmoved).step
        (hcall (.write data))
      simpa [callConnection, Connection.write, hc] using hsettles
    | writeText data =>
      have hadded := (Buffer.add_represents hsound data).self
      have hsettles := (append_settles answer hs hc data hadded).step (hcall (.writeText data))
      simpa [callConnection, Connection.writeText, hc] using hsettles
    | startRead => exact (settles_now (s := s.call .startRead) hs).step (hcall .startRead)
    | stopRead => exact (settles_now (s := s.call .stopRead) hs).step (hcall .stopRead)
    | readable answer => exact readable_settles hs (hr rfl hc) answer
    | writable => exact writable_settles answer hs (hr rfl hc) hsound

end ConnectionRun

end DeepSeer
