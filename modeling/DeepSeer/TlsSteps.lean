import DeepSeer.BufferString
import DeepSeer.Schedules
import DeepSeer.TlsConnection

/-!
A TLS connection one call of OpenSSL at a time. Its callbacks run in the middle
of its functions and may call it again, so what its active calls have still to
do is a stack of frames, the innermost first. The user has the turn while no
call is active or a callback is running. Whatever happens is noted in a trace,
the latest first, with the answers of OpenSSL as the choices of the run.
-/
namespace DeepSeer

open ByteMemory Schedules

/-- The size of the block that `doRead` passes to `SSL_read`. -/
def kBufSize : Nat := 16384

/-- The answer to `SSL_read`: some bytes, at most as many as fit, or an error. -/
inductive SslReadAnswer where
  | bytes (first : UInt8) (more : Bytes)
  | stops (err : SslError)
  deriving DecidableEq, Repr

/-- A call of OpenSSL with its answer; a write with what it was offered. -/
inductive SslCall where
  | handshake (answer : HandshakeAnswer)
  | read (answer : SslReadAnswer)
  | write (offer : Bytes) (answer : SslWriteAnswer)
  deriving DecidableEq, Repr

/-- The codes of the errors that `onErrorCb_` gets. -/
inductive TlsError where
  | readError | writeError
  deriving DecidableEq, Repr

inductive TlsCallback where
  | onData (data : Bytes)
  | onClose
  | onError (err : TlsError)
  | handshakeComplete
  | handshakeError
  deriving DecidableEq, Repr

/-- What an observer of the connection sees: its calls of OpenSSL, its callbacks
with the state in which they are called, and the calls of `close` by the user. -/
inductive TlsNote where
  | ssl (call : SslCall)
  | invoked (cb : TlsCallback) (closed watched : Bool)
  | closed
  deriving DecidableEq, Repr

/-- What an active call has still to do. -/
inductive Frame where
  /-- `continueHandshake` before its `SSL_do_handshake`. -/
  | shaking
  /-- The head of the loop of `doRead`. -/
  | reading
  /-- `handleIo` behind `doRead`. -/
  | flushing
  /-- The head of the loop of `doWrite`. -/
  | writing
  /-- A callback of the user. -/
  | user (cb : TlsCallback)
  deriving DecidableEq, Repr

/-- The calls of the user. A callback that is passed may be empty. -/
inductive TlsCall where
  | setCallbacks (onData onClose onError : Bool)
  | startHandshake (onComplete onError : Bool)
  | startRead
  | write (data : Buffer.Sound)
  | writeText (data : Bytes)
  | close

inductive TlsAct where
  | call (c : TlsCall)
  | returns
  | io
  | sslHandshake (answer : HandshakeAnswer)
  | sslRead (answer : SslReadAnswer)
  | sslWrite (answer : SslWriteAnswer)
  | proceed

/-- Whether the class retries after the error instead of failing. -/
def SslError.waits : SslError → Bool
  | .wantRead | .wantWrite => true
  | .zeroReturn | .syscall | .ssl => false

/-- Every note of a trace is right by the notes before it. -/
def Throughout (right : TlsNote → List TlsNote → Prop) : List TlsNote → Prop
  | [] => True
  | n :: earlier => right n earlier ∧ Throughout right earlier

instance decidableThroughout {right : TlsNote → List TlsNote → Prop}
    [∀ n earlier, Decidable (right n earlier)] (trace : List TlsNote) :
    Decidable (Throughout right trace) :=
  match trace with
  | [] => .isTrue trivial
  | n :: earlier =>
    have : Decidable (Throughout right earlier) := decidableThroughout earlier
    inferInstanceAs (Decidable (right n earlier ∧ Throughout right earlier))

theorem Throughout.append {right : TlsNote → List TlsNote → Prop} {notes earlier : List TlsNote}
    (h : Throughout right earlier)
    (hnotes : ∀ later n between, notes = later ++ n :: between → right n (between ++ earlier)) :
    Throughout right (notes ++ earlier) := by
  induction notes with
  | nil => exact h
  | cons n notes ih =>
    constructor
    · exact hnotes [] n notes rfl
    · apply ih
      intro later m between heq
      exact hnotes (n :: later) m between (by rw [heq, List.cons_append])

theorem Throughout.at {right : TlsNote → List TlsNote → Prop} {later earlier : List TlsNote}
    {n : TlsNote} (h : Throughout right (later ++ n :: earlier)) : right n earlier := by
  induction later with
  | nil => exact h.1
  | cons m later ih => exact ih h.2

/-- A connection that was made for the descriptor `fd`, its callbacks as far as
they are set, the loop, the active calls and the trace. -/
structure TlsRun where
  fd : Fd
  id : Nat
  conn : TlsConnection
  loop : KqueueLoop
  onData_ : Bool := false
  onClose_ : Bool := false
  onErrorCb_ : Bool := false
  onHandshakeComplete_ : Bool := false
  onHandshakeError_ : Bool := false
  stack : List Frame := []
  trace : List TlsNote := []

/-- Notes of one kind on top of notes of the same kind. -/
theorem notes_trans {P : TlsNote → Prop} {trace trace' trace'' : List TlsNote}
    (h : ∃ notes, trace' = notes ++ trace ∧ ∀ n ∈ notes, P n)
    (h' : ∃ notes, trace'' = notes ++ trace' ∧ ∀ n ∈ notes, P n) :
    ∃ notes, trace'' = notes ++ trace ∧ ∀ n ∈ notes, P n := by
  obtain ⟨notes, rfl, hn⟩ := h
  obtain ⟨notes', rfl, hn'⟩ := h'
  refine ⟨notes' ++ notes, (List.append_assoc _ _ _).symm, fun n hmem => ?_⟩
  rcases List.mem_append.mp hmem with hmem | hmem
  · exact hn' n hmem
  · exact hn n hmem

namespace TlsRun

def new (fd : Fd) (id : Nat) (isServer : Bool) (callback : HandshakeCallback)
    (loop : KqueueLoop) : TlsRun where
  fd := fd
  id := id
  conn := { socket_ := fd, isServer_ := isServer, callback := callback }
  loop := loop

def note (s : TlsRun) (n : TlsNote) : TlsRun := { s with trace := n :: s.trace }

def setConn (s : TlsRun) (conn : TlsConnection) : TlsRun := { s with conn := conn }

/-- A call or a callback begins. -/
def enter (s : TlsRun) (f : Frame) : TlsRun := { s with stack := f :: s.stack }

/-- It ends, and the frames below go on. -/
def resume (s : TlsRun) (rest : List Frame) : TlsRun := { s with stack := rest }

def watched (s : TlsRun) : Bool := (s.loop.fdEntries_ s.fd).isSome

/-- A callback runs if it is set. -/
def invoke (s : TlsRun) (set : Bool) (cb : TlsCallback) : TlsRun :=
  if set then (s.note (.invoked cb s.conn.closed_ s.watched)).enter (.user cb) else s

/-- `close()`, by whomever. -/
def shut (s : TlsRun) : TlsRun :=
  { s with conn := (s.conn.close s.loop).1, loop := (s.conn.close s.loop).2 }

def watch (s : TlsRun) (events : IoMask) : TlsRun :=
  { s with loop := s.loop.watch s.conn.socket_ events (.tls s.id) }

def watchForSsl (s : TlsRun) (err : SslError) : TlsRun :=
  { s with loop := s.conn.watchForSsl s.id err s.loop }

/-- `continueHandshake` up to its call. -/
def continueHandshake (s : TlsRun) : TlsRun := if s.conn.closed_ then s else s.enter .shaking

/-- `doRead` up to its loop. -/
def doRead (s : TlsRun) : TlsRun := if s.conn.closed_ then s else s.enter .reading

/-- `doWrite` up to its loop. -/
def doWrite (s : TlsRun) : TlsRun := if s.conn.closed_ then s else s.enter .writing

def startRead (s : TlsRun) : TlsRun :=
  { s with
    conn := (s.conn.startRead s.id s.loop).1
    loop := (s.conn.startRead s.id s.loop).2 }

/-- `write(Buffer&)` and `write(string_view)`, with the buffer after the data
has been appended. -/
def append (s : TlsRun) (writeBuf : Buffer) (data : Bytes) : TlsRun :=
  if s.conn.closed_ then s
  else
    (s.setConn { s.conn with writeBuf_ := writeBuf, written := s.conn.written ++ data }).doWrite

def setHandshake (s : TlsRun) (onComplete onError : Bool) : TlsRun :=
  { s with onHandshakeComplete_ := onComplete, onHandshakeError_ := onError }

def call (s : TlsRun) : TlsCall → TlsRun
  | .setCallbacks d c e => { s with onData_ := d, onClose_ := c, onErrorCb_ := e }
  | .startHandshake c e => (s.setHandshake c e).continueHandshake
  | .startRead => s.startRead
  | .write data => s.append (s.conn.writeBuf_.move data.1).1 data.1.linearize
  | .writeText data => s.append (s.conn.writeBuf_.add data) data
  | .close => s.shut.note .closed

def handleIo (s : TlsRun) : TlsRun :=
  if s.conn.closed_ then s
  else if s.conn.handshakeDone_ = false then s.continueHandshake
  else if s.conn.reading_ then (s.enter .flushing).doRead
  else s.enter .flushing

/-- What `SSL_write` is offered at the head of the loop of `doWrite`. -/
def offer (s : TlsRun) : Option Bytes :=
  if s.conn.writeBuf_.empty then none
  else
    match s.conn.writeBuf_.slices with
    | [] => none
    | slice :: _ => if slice.data = [] then none else some slice.data

/-- The state behind a call of OpenSSL. -/
def called (s : TlsRun) (c : SslCall) (conn : TlsConnection) : TlsRun :=
  (s.note (.ssl c)).setConn conn

/-- `continueHandshake` behind `SSL_do_handshake`. The error callback is moved out
before it is called. -/
def afterHandshake (s : TlsRun) (rest : List Frame) (answer : HandshakeAnswer) : TlsRun :=
  let conn := { s.conn with handshakes := s.conn.handshakes + 1 }
  let s := (s.called (.handshake answer) conn).resume rest
  match answer with
  | .done =>
    (s.setConn { conn with handshakeDone_ := true }).invoke s.onHandshakeComplete_
      .handshakeComplete
  | .stops err =>
    if err.waits then s.watchForSsl err
    else (s.shut.setHandshake s.onHandshakeComplete_ false).invoke s.onHandshakeError_
      .handshakeError

/-- `doRead` behind `SSL_read`. Only the first error ends the loop quietly. -/
def afterRead (s : TlsRun) (rest : List Frame) (answer : SslReadAnswer) : TlsRun :=
  let s := s.note (.ssl (.read answer))
  match answer with
  | .bytes first more => s.invoke s.onData_ (.onData ((first :: more).take kBufSize))
  | .stops .wantRead => s.resume rest
  | .stops .zeroReturn | .stops .syscall => (s.shut.resume rest).invoke s.onClose_ .onClose
  | .stops .wantWrite | .stops .ssl =>
    (s.shut.resume rest).invoke s.onErrorCb_ (.onError .readError)

/-- `doWrite` behind `SSL_write`. -/
def afterWrite (s : TlsRun) (rest : List Frame) (data : Bytes) (answer : SslWriteAnswer) :
    TlsRun :=
  let conn := { s.conn with sslWrites := s.conn.sslWrites + 1 }
  let s := s.called (.write data answer) conn
  match answer with
  | .accepts more =>
    let n := min (more + 1) data.length
    s.setConn { conn with
      writeBuf_ := conn.writeBuf_.drain n, accepted := conn.accepted ++ data.take n }
  | .stops err =>
    if err.waits then (s.resume rest).watchForSsl err
    else (s.shut.resume rest).invoke s.onErrorCb_ (.onError .writeError)

/-- The end of `doWrite`. -/
def afterWrites (s : TlsRun) (rest : List Frame) : TlsRun :=
  if s.conn.reading_ then (s.resume rest).watch ⟨true, false⟩ else s.resume rest

/-- The rest of `handleIo`. -/
def afterReads (s : TlsRun) (rest : List Frame) : TlsRun :=
  if s.conn.writeBuf_.empty then s.resume rest else (s.resume rest).doWrite

def userTurn (s : TlsRun) : Bool :=
  match s.stack with
  | [] | .user _ :: _ => true
  | _ => false

/-- The event loop calls the callback that is registered for the descriptor. -/
def registered (s : TlsRun) : Bool :=
  decide ((s.loop.fdEntries_ s.fd).map FdEntry.callback = some (.tls s.id))

def step (s : TlsRun) (a : TlsAct) : Option TlsRun :=
  match a, s.stack with
  | .call c, _ => if s.userTurn then some (s.call c) else none
  | .returns, .user _ :: rest => some (s.resume rest)
  | .io, [] => if s.registered then some s.handleIo else none
  | .sslHandshake answer, .shaking :: rest => some (s.afterHandshake rest answer)
  | .sslRead answer, .reading :: rest => some (s.afterRead rest answer)
  | .sslWrite answer, .writing :: rest => s.offer.map fun data => s.afterWrite rest data answer
  | .proceed, .flushing :: rest => some (s.afterReads rest)
  | .proceed, .writing :: rest => if s.offer = none then some (s.afterWrites rest) else none
  | _, _ => none

@[simp] theorem continueHandshake_trace (s : TlsRun) : s.continueHandshake.trace = s.trace := by
  unfold continueHandshake
  split <;> rfl

@[simp] theorem doRead_trace (s : TlsRun) : s.doRead.trace = s.trace := by
  unfold doRead
  split <;> rfl

@[simp] theorem doWrite_trace (s : TlsRun) : s.doWrite.trace = s.trace := by
  unfold doWrite
  split <;> rfl

@[simp] theorem append_trace (s : TlsRun) (writeBuf : Buffer) (data : Bytes) :
    (s.append writeBuf data).trace = s.trace := by
  unfold append
  split
  · rfl
  · rw [doWrite_trace]
    rfl

@[simp] theorem handleIo_trace (s : TlsRun) : s.handleIo.trace = s.trace := by
  unfold handleIo
  split
  · rfl
  · split
    · exact continueHandshake_trace s
    · split
      · exact doRead_trace _
      · rfl

theorem call_trace {s : TlsRun} {c : TlsCall} (hc : c ≠ .close) : (s.call c).trace = s.trace := by
  cases c with
  | setCallbacks d c e => rfl
  | startHandshake c e => exact continueHandshake_trace _
  | startRead => rfl
  | write data => exact append_trace s _ _
  | writeText data => exact append_trace s _ _
  | close => exact absurd rfl hc

/-- What a step does, one case for each place in the code. -/
inductive Stepped (s : TlsRun) : TlsAct → TlsRun → Prop
  | call (c : TlsCall) : s.userTurn = true → Stepped s (.call c) (s.call c)
  | returns (cb : TlsCallback) (rest : List Frame) :
      s.stack = .user cb :: rest → Stepped s .returns (s.resume rest)
  | io : s.stack = [] → s.registered = true → Stepped s .io s.handleIo
  | handshake (answer : HandshakeAnswer) (rest : List Frame) :
      s.stack = .shaking :: rest → Stepped s (.sslHandshake answer) (s.afterHandshake rest answer)
  | read (answer : SslReadAnswer) (rest : List Frame) :
      s.stack = .reading :: rest → Stepped s (.sslRead answer) (s.afterRead rest answer)
  | write (answer : SslWriteAnswer) (rest : List Frame) (data : Bytes) :
      s.stack = .writing :: rest → s.offer = some data →
      Stepped s (.sslWrite answer) (s.afterWrite rest data answer)
  | reads (rest : List Frame) :
      s.stack = .flushing :: rest → Stepped s .proceed (s.afterReads rest)
  | writes (rest : List Frame) :
      s.stack = .writing :: rest → s.offer = none → Stepped s .proceed (s.afterWrites rest)

theorem step_stepped {s s' : TlsRun} {a : TlsAct} (h : s.step a = some s') : Stepped s a s' := by
  unfold step at h
  split at h
  · next c =>
    obtain ⟨hu, hh⟩ := Option.ite_none_right_eq_some.mp h
    cases hh
    exact .call c hu
  · next cb rest hs =>
    cases h
    exact .returns cb rest hs
  · next hs =>
    obtain ⟨hr, hh⟩ := Option.ite_none_right_eq_some.mp h
    cases hh
    exact .io hs hr
  · next answer rest hs =>
    cases h
    exact .handshake answer rest hs
  · next answer rest hs =>
    cases h
    exact .read answer rest hs
  · next answer rest hs =>
    obtain ⟨data, hd, rfl⟩ := Option.map_eq_some_iff.mp h
    exact .write answer rest data hs hd
  · next rest hs =>
    cases h
    exact .reads rest hs
  · next rest hs =>
    obtain ⟨ho, hh⟩ := Option.ite_none_right_eq_some.mp h
    cases hh
    exact .writes rest hs ho
  · cases h

theorem userTurn_cases {s : TlsRun} (h : s.userTurn = true) :
    s.stack = [] ∨ ∃ cb rest, s.stack = .user cb :: rest := by
  unfold userTurn at h
  split at h
  · next hs => exact .inl hs
  · next cb rest hs => exact .inr ⟨cb, rest, hs⟩
  · cases h

/-- The connection has a readable registration for its descriptor. -/
def ReadWatched (s : TlsRun) : Prop :=
  ∃ events, s.loop.fdEntries_ s.fd = some ⟨events, .tls s.id⟩ ∧ events.readable = true

end TlsRun

/-- The frames that a callback can find below it. -/
def Frame.passive : Frame → Bool
  | .shaking | .writing => false
  | .reading | .flushing | .user _ => true

namespace TlsRun

/-- What holds whenever no call of OpenSSL is due for a handshake or a write: an
open connection has its descriptor, a closed one no registration, and one that
reads is watched for it. -/
structure Settled (s : TlsRun) : Prop where
  passive : ∀ f ∈ s.stack, f.passive = true
  socket : s.conn.closed_ = false → s.conn.socket_ = s.fd
  unwatched : s.conn.closed_ = true → s.loop.fdEntries_ s.fd = none
  reads : .reading ∈ s.stack → s.conn.reading_ = true
  watches : s.conn.closed_ = false → s.conn.reading_ = true → s.ReadWatched

/-- A handshake or a write is due on an open connection only, and on top of a
settled state. -/
structure Due (s : TlsRun) (f : Frame) (rest : List Frame) : Prop where
  stack : s.stack = f :: rest
  active : f.passive = false
  isOpen : s.conn.closed_ = false
  settled : Settled (s.resume rest)

def Sane (s : TlsRun) : Prop := Settled s ∨ ∃ f rest, Due s f rest

theorem settled_new (fd : Fd) (id : Nat) (isServer : Bool) (callback : HandshakeCallback)
    (loop : KqueueLoop) : Settled (new fd id isServer callback loop) where
  passive := by simp [new]
  socket := fun _ => rfl
  unwatched := by simp [new]
  reads := by simp [new]
  watches := by simp [new]

/-- A change that leaves alone what a settled state is about. -/
theorem Settled.same {s s' : TlsRun} (h : Settled s) (hfd : s'.fd = s.fd) (hid : s'.id = s.id)
    (hloop : s'.loop = s.loop) (hstack : s'.stack = s.stack)
    (hsocket : s'.conn.socket_ = s.conn.socket_) (hclosed : s'.conn.closed_ = s.conn.closed_)
    (hreading : s'.conn.reading_ = s.conn.reading_) : Settled s' where
  passive := hstack ▸ h.passive
  socket := by
    rw [hclosed, hsocket, hfd]
    exact h.socket
  unwatched := by
    rw [hclosed, hloop, hfd]
    exact h.unwatched
  reads := by
    rw [hstack, hreading]
    exact h.reads
  watches := by
    rw [ReadWatched, hclosed, hreading, hloop, hfd, hid]
    exact h.watches

theorem Settled.resume {s : TlsRun} (h : Settled s) {f : Frame} {rest : List Frame}
    (hs : s.stack = f :: rest) : Settled (s.resume rest) where
  passive := fun g hg => h.passive g (by rw [hs]; exact List.mem_cons_of_mem f hg)
  socket := h.socket
  unwatched := h.unwatched
  reads := fun hr => h.reads (by rw [hs]; exact List.mem_cons_of_mem f hr)
  watches := h.watches

theorem Settled.enter {s : TlsRun} (h : Settled s) {f : Frame} (hf : f.passive = true)
    (hr : f = .reading → s.conn.reading_ = true) : Settled (s.enter f) where
  passive := by
    intro g hg
    rcases List.mem_cons.mp hg with rfl | hg
    · exact hf
    · exact h.passive g hg
  socket := h.socket
  unwatched := h.unwatched
  reads := by
    intro hmem
    rcases List.mem_cons.mp hmem with heq | hmem
    · exact hr heq.symm
    · exact h.reads hmem
  watches := h.watches

theorem Settled.due {s : TlsRun} (h : Settled s) {f : Frame} (hf : f.passive = false)
    (ho : s.conn.closed_ = false) : Due (s.enter f) f s.stack :=
  ⟨rfl, hf, ho, h.same rfl rfl rfl rfl rfl rfl rfl⟩

theorem Settled.note {s : TlsRun} (h : Settled s) (n : TlsNote) : Settled (s.note n) :=
  h.same rfl rfl rfl rfl rfl rfl rfl

theorem Settled.invoke {s : TlsRun} (h : Settled s) (set : Bool) (cb : TlsCallback) :
    Settled (s.invoke set cb) := by
  unfold TlsRun.invoke
  split
  · exact (h.note _).enter rfl (by simp)
  · exact h

theorem shut_closed (s : TlsRun) : s.shut.conn.closed_ = true := by
  unfold shut TlsConnection.close
  split
  · assumption
  · rfl

theorem shut_reading (s : TlsRun) : s.shut.conn.reading_ = s.conn.reading_ := by
  unfold shut TlsConnection.close
  split <;> rfl

theorem Settled.shut {s : TlsRun} (h : Settled s) : Settled s.shut where
  passive := h.passive
  socket := fun ho => absurd (ho.symm.trans (shut_closed s)) (by decide)
  unwatched := by
    intro _
    by_cases hc : s.conn.closed_ = true
    · simpa [TlsRun.shut, TlsConnection.close, hc] using h.unwatched hc
    · have hsocket := h.socket (by simpa using hc)
      simp [TlsRun.shut, TlsConnection.close, hc, hsocket]
  reads := fun hr => (shut_reading s).trans (h.reads hr)
  watches := fun ho => absurd (ho.symm.trans (shut_closed s)) (by decide)

/-- A registration of an open connection, which may have begun to read. -/
theorem Settled.watch {s s' : TlsRun} (h : Settled s) (ho : s.conn.closed_ = false)
    {events : IoMask} (hfd : s'.fd = s.fd) (hstack : s'.stack = s.stack)
    (hsocket : s'.conn.socket_ = s.conn.socket_) (hclosed : s'.conn.closed_ = s.conn.closed_)
    (hreading : s.conn.reading_ = true → s'.conn.reading_ = true)
    (hloop : s'.loop = s.loop.watch s.conn.socket_ events (.tls s'.id))
    (he : s'.conn.reading_ = true → events.readable = true) : Settled s' where
  passive := hstack ▸ h.passive
  socket := by
    rw [hclosed, hsocket, hfd]
    exact h.socket
  unwatched := fun hc => absurd (ho.symm.trans (hclosed.symm.trans hc)) (by decide)
  reads := by
    rw [hstack]
    exact fun hr => hreading (h.reads hr)
  watches := by
    intro _ hr
    refine ⟨events, ?_, he hr⟩
    rw [hloop, hfd, h.socket ho]
    exact KqueueLoop.watch_entry _ _ _ _

theorem Settled.watchForSsl {s : TlsRun} (h : Settled s) (ho : s.conn.closed_ = false)
    (err : SslError) : Settled (s.watchForSsl err) :=
  h.watch ho rfl rfl rfl rfl (fun hr => hr) rfl fun hr => by
    have hreads : s.conn.reading_ = true := hr
    simp [hreads]

theorem Settled.continueHandshake {s : TlsRun} (h : Settled s) : Sane s.continueHandshake := by
  unfold TlsRun.continueHandshake
  split
  · exact .inl h
  · next ho => exact .inr ⟨_, _, h.due rfl (by simpa using ho)⟩

theorem Settled.doWrite {s : TlsRun} (h : Settled s) : Sane s.doWrite := by
  unfold TlsRun.doWrite
  split
  · exact .inl h
  · next ho => exact .inr ⟨_, _, h.due rfl (by simpa using ho)⟩

theorem Settled.doRead {s : TlsRun} (h : Settled s) (hr : s.conn.reading_ = true) :
    Settled s.doRead := by
  unfold TlsRun.doRead
  split
  · exact h
  · exact h.enter rfl fun _ => hr

theorem Settled.append {s : TlsRun} (h : Settled s) (writeBuf : Buffer) (data : Bytes) :
    Sane (s.append writeBuf data) := by
  unfold TlsRun.append
  split
  · exact .inl h
  · apply Settled.doWrite
    exact h.same rfl rfl rfl rfl rfl rfl rfl

theorem startRead_closed {s : TlsRun}
    (h : s.conn.closed_ = true ∨ s.conn.handshakeDone_ = false) : s.startRead = s := by
  simp [startRead, TlsConnection.startRead, h]

theorem startRead_open {s : TlsRun} (ho : s.conn.closed_ = false)
    (hd : s.conn.handshakeDone_ = true) :
    s.startRead = (s.setConn { s.conn with reading_ := true }).watch ⟨true, false⟩ := by
  simp [startRead, TlsConnection.startRead, ho, hd, setConn, TlsRun.watch]

theorem Settled.startRead {s : TlsRun} (h : Settled s) : Settled s.startRead := by
  by_cases hc : s.conn.closed_ = true ∨ s.conn.handshakeDone_ = false
  · rw [startRead_closed hc]
    exact h
  · simp only [not_or, Bool.not_eq_true, Bool.not_eq_false] at hc
    rw [startRead_open hc.1 hc.2]
    exact h.watch hc.1 rfl rfl rfl rfl (fun _ => rfl) rfl fun _ => rfl

theorem Settled.call {s : TlsRun} (h : Settled s) (c : TlsCall) : Sane (s.call c) := by
  cases c with
  | setCallbacks d c e => exact .inl (h.same rfl rfl rfl rfl rfl rfl rfl)
  | startHandshake c e =>
    apply Settled.continueHandshake
    exact h.same rfl rfl rfl rfl rfl rfl rfl
  | startRead => exact .inl h.startRead
  | write data => exact h.append _ _
  | writeText data => exact h.append _ _
  | close => exact .inl (h.shut.note _)

theorem Settled.handleIo {s : TlsRun} (h : Settled s) : Sane s.handleIo := by
  have hflush := h.enter (f := .flushing) rfl (by simp)
  unfold TlsRun.handleIo
  split
  · exact .inl h
  · split
    · exact h.continueHandshake
    · split
      · next hr => exact .inl (hflush.doRead hr)
      · exact .inl hflush

theorem Settled.afterRead {s : TlsRun} (h : Settled s) {rest : List Frame}
    (hs : s.stack = .reading :: rest) (answer : SslReadAnswer) :
    Settled (s.afterRead rest answer) := by
  have hnote := h.note (.ssl (.read answer))
  have hclosed : Settled ((s.note (.ssl (.read answer))).shut.resume rest) :=
    hnote.shut.resume hs
  unfold TlsRun.afterRead
  cases answer with
  | bytes first more => exact hnote.invoke _ _
  | stops err =>
    cases err with
    | wantRead => exact hnote.resume hs
    | wantWrite => exact hclosed.invoke _ _
    | zeroReturn => exact hclosed.invoke _ _
    | syscall => exact hclosed.invoke _ _
    | ssl => exact hclosed.invoke _ _

theorem Due.afterHandshake {s : TlsRun} {rest : List Frame} (h : Due s .shaking rest)
    (answer : HandshakeAnswer) : Settled (s.afterHandshake rest answer) := by
  have hbefore : Settled ((s.called (.handshake answer)
      { s.conn with handshakes := s.conn.handshakes + 1 }).resume rest) :=
    h.settled.same rfl rfl rfl rfl rfl rfl rfl
  unfold TlsRun.afterHandshake
  cases answer with
  | done =>
    apply Settled.invoke
    exact hbefore.same rfl rfl rfl rfl rfl rfl rfl
  | stops err =>
    dsimp only
    split
    · exact hbefore.watchForSsl h.isOpen err
    · apply Settled.invoke
      exact hbefore.shut.same rfl rfl rfl rfl rfl rfl rfl

theorem Due.afterWrite {s : TlsRun} {rest : List Frame} (h : Due s .writing rest) (data : Bytes)
    (answer : SslWriteAnswer) : Settled (s.afterWrite rest data answer) ∨
      Due (s.afterWrite rest data answer) .writing rest := by
  have hbefore : Settled ((s.called (.write data answer)
      { s.conn with sslWrites := s.conn.sslWrites + 1 }).resume rest) :=
    h.settled.same rfl rfl rfl rfl rfl rfl rfl
  unfold TlsRun.afterWrite
  cases answer with
  | accepts more =>
    exact .inr ⟨h.stack, rfl, h.isOpen, hbefore.same rfl rfl rfl rfl rfl rfl rfl⟩
  | stops err =>
    dsimp only
    split
    · exact .inl (hbefore.watchForSsl h.isOpen err)
    · exact .inl (hbefore.shut.invoke _ _)

theorem Due.afterWrites {s : TlsRun} {rest : List Frame} (h : Due s .writing rest) :
    Settled (s.afterWrites rest) := by
  unfold TlsRun.afterWrites
  split
  · exact h.settled.watch h.isOpen rfl rfl rfl rfl (fun hr => hr) rfl fun _ => rfl
  · exact h.settled

theorem Settled.afterReads {s : TlsRun} (h : Settled s) {rest : List Frame}
    (hs : s.stack = .flushing :: rest) : Sane (s.afterReads rest) := by
  unfold TlsRun.afterReads
  split
  · exact .inl (h.resume hs)
  · exact (h.resume hs).doWrite

/-- A state whose innermost frame is passive is settled. -/
theorem Sane.settled {s : TlsRun} (h : Sane s) {f : Frame} {rest : List Frame}
    (hs : s.stack = f :: rest) (hf : f.passive = true) : Settled s := by
  rcases h with h | ⟨g, rest', h⟩
  · exact h
  · have hfg : f = g := (List.cons.inj (hs.symm.trans h.stack)).1
    exact absurd (hf.symm.trans (hfg ▸ h.active)) (by decide)

theorem Sane.idle {s : TlsRun} (h : Sane s) (hs : s.stack = []) : Settled s := by
  rcases h with h | ⟨g, rest', h⟩
  · exact h
  · cases hs.symm.trans h.stack

theorem Sane.userTurn {s : TlsRun} (h : Sane s) (hu : s.userTurn = true) : Settled s := by
  rcases userTurn_cases hu with hs | ⟨cb, rest, hs⟩
  · exact h.idle hs
  · exact h.settled hs rfl

theorem Sane.due {s : TlsRun} (h : Sane s) {f : Frame} {rest : List Frame}
    (hs : s.stack = f :: rest) (hf : f.passive = false) : Due s f rest := by
  rcases h with h | ⟨g, rest', h⟩
  · have := h.passive f (by rw [hs]; exact List.mem_cons_self)
    exact absurd (hf.symm.trans this) (by decide)
  · obtain ⟨rfl, rfl⟩ := List.cons.inj (hs.symm.trans h.stack)
    exact h

theorem Sane.step {s s' : TlsRun} {a : TlsAct} (h : Sane s) (hstep : s.step a = some s') :
    Sane s' := by
  cases step_stepped hstep with
  | call c hu => exact (h.userTurn hu).call c
  | returns cb rest hs => exact .inl ((h.settled hs rfl).resume hs)
  | io hs hr => exact (h.idle hs).handleIo
  | handshake answer rest hs => exact .inl ((h.due hs rfl).afterHandshake answer)
  | read answer rest hs => exact .inl ((h.settled hs rfl).afterRead hs answer)
  | write answer rest data hs ho =>
    exact ((h.due hs rfl).afterWrite data answer).imp_right fun hd => ⟨_, _, hd⟩
  | reads rest hs => exact (h.settled hs rfl).afterReads hs
  | writes rest hs ho => exact .inl (h.due hs rfl).afterWrites

/-- The invariant holds in every run. -/
theorem sane_run {fd : Fd} {id : Nat} {isServer : Bool} {callback : HandshakeCallback}
    {loop : KqueueLoop} {actions : List TlsAct} {s : TlsRun}
    (hrun : run step (new fd id isServer callback loop) actions = some s) : Sane s := by
  have hstart : Sane (new fd id isServer callback loop) :=
    .inl (settled_new fd id isServer callback loop)
  exact run_kept Sane (fun s a s' hi hs => hi.step hs) hstart hrun

end TlsRun

end DeepSeer
