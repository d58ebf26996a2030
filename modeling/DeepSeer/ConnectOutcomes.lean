import DeepSeer.Exchanges

/-!
What becomes of a connect. The kernel answers when the connect is started, or
reports later that the socket is writable, which it does for a connect that has
failed as well. The handler of the report does not ask for the outcome.
-/
namespace DeepSeer

open ByteMemory ByteText FallibleRuns

inductive ConnectOutcome where
  | succeeded | refused
  deriving DecidableEq, Repr

/-- The outcome as the answer to `connect`, where it is known at once. -/
def ConnectOutcome.answer : ConnectOutcome → ConnectAnswer
  | .succeeded => .connected
  | .refused => .fails

namespace Session

variable {w : World}

/-- A session that goes on with the socket it has connected. -/
def proceed (w : World) (s : Session) : Outcome :=
  let s := (s.note (.connected s.isTlsMitm_)).wrapUpstream
  if s.isConnect_ then s.startTunnel w else s.forwardRequest w

/-- The session `s` learns the outcome of a connect, at once or by a report of
the kernel, and ends in `r`. -/
inductive Learns (w : World) (outcome : ConnectOutcome) : Session → Outcome → Prop
  | atOnce (s : Session) (host : Bytes) (port : Nat) (fd : Fd) :
      w.resolves host port = true → w.createSocket s.sockets = some fd →
      w.connect s.sockets = outcome.answer →
      Learns w outcome ({ s with sockets := s.sockets + 1 }.replaceConnecting fd)
        (s.connectUpstream w host port)
  | later (s : Session) (fd : Fd) (a : Arrival) :
      (s.loop_.fdEntries_ fd).map FdEntry.callback = some .connect →
      Learns w outcome { s with loop_ := s.loop_.remove fd } (s.ready w fd a)

def badGateway : HttpResponse := errorResponse 502 (text "Bad Gateway")

/-- What is due after a connect. One that has succeeded is gone on with. After
one that has failed the client gets the 502 and nothing else, no upstream gets
anything, and then the session closes of its own accord. -/
def Due (w : World) (s : Session) (r : Outcome) : ConnectOutcome → Prop
  | .succeeded => r = s.proceed w
  | .refused => ∃ s' cause, r = .ok s' ∧ s'.closed_ = true ∧ cause ≠ .clientError ∧
      s'.log = .closed cause :: .error 502 :: s.log ∧
      s'.clientStream = s.clientStream ++ Http1Codec.encodedResponse badGateway

theorem onUpstreamConnected_open {s : Session} (h : s.closed_ = false) :
    s.onUpstreamConnected w = s.proceed w := by
  simp [onUpstreamConnected, proceed, h]

/-- Going on notes first that the socket is connected. -/
theorem proceed_noted (w : World) (s : Session) :
    SteadyEnd w (s.note (.connected s.isTlsMitm_)) (s.proceed w) := by
  have hwrap := steady_wrapUpstream w (s.note (.connected s.isTlsMitm_))
  unfold proceed
  dsimp only
  split
  · exact SteadyEnd.trans hwrap (steadily_startTunnel w _).ends
  · exact SteadyEnd.trans hwrap (steadily_forwardRequest w _).ends

/-- Writing to the client closes the session only where the client is lost. -/
theorem writeToClient_log (w : World) (s : Session) (data : Buffer) :
    (s.writeToClient w data).1.log = s.log ∨
      (s.writeToClient w data).1.log = .closed .clientError :: s.log := by
  have hflush : ∀ c loop flushed, (s.afterClientFlush (c, loop, flushed)).log = s.log ∨
      (s.afterClientFlush (c, loop, flushed)).log = .closed .clientError :: s.log := by
    intro c loop flushed
    cases flushed with
    | settled => exact .inl rfl
    | failed =>
      simp only [afterClientFlush, closeClient_log]
      split
      · rw [close_log]
        split
        · exact .inl rfl
        · exact .inr rfl
      · exact .inl rfl
  unfold writeToClient
  split
  · unfold writeTls
    split <;> exact .inl rfl
  · split
    · split
      · exact hflush _ _ _
      · exact .inl rfl
    · exact .inl rfl

/-- An answer of the proxy's own adds its note where it goes to the client, and
the note of a close only where the client is lost. -/
theorem sendError_log (w : World) (s : Session) (status : Nat) (reason : Bytes) :
    ∃ noted : Session, (noted = s ∨ noted = s.note (.error status)) ∧
      ((s.sendError w status reason).log = noted.log ∨
        (s.sendError w status reason).log = .closed .clientError :: noted.log) := by
  refine ⟨if s.reachesClient then s.note (.error status) else s, ?_, writeToClient_log w _ _⟩
  split
  · exact .inr rfl
  · exact .inl rfl

/-- A session that takes a connect for a success does not do what is due after
one that has failed. -/
theorem proceed_not_due (w : World) (s : Session) : ¬ Due w s (s.proceed w) .refused := by
  rintro ⟨s', cause, he, -, -, hlog, -⟩
  have hnoted := proceed_noted w s
  rw [he] at hnoted
  obtain ⟨notes, hnotes⟩ := Steady.log hnoted
  rw [hlog] at hnotes
  have hsame : notes ++ [.connected s.isTlsMitm_] = [.closed cause, .error 502] :=
    (List.append_left_inj s.log).mp (by simpa using hnotes)
  have hlast := congrArg List.getLast? hsame
  simp at hlast

/-- A session that only answers 502 does not do what is due either. -/
theorem sendError_not_due (w : World) (s : Session) :
    ¬ Due w s (.ok (s.sendError w 502 (text "Bad Gateway"))) .refused := by
  rintro ⟨s', cause, he, -, hcause, hlog, -⟩
  cases he
  obtain ⟨noted, hnoted, hsent⟩ := sendError_log w s 502 (text "Bad Gateway")
  have hlen := congrArg List.length hlog
  rcases hnoted with rfl | rfl <;> rcases hsent with hsent | hsent <;>
    rw [hsent] at hlog hlen
  · simp only [List.length_cons] at hlen
    omega
  · simp at hlen
  · simp at hlen
  · simp only [note_log, List.cons.injEq, Note.closed.injEq] at hlog
    exact hcause hlog.1.symm

end Session

open Session

/-- On either path an open session does what is due after a connect exactly when
the connect has succeeded. -/
theorem connect_outcome_due_iff {w : World} {outcome : ConnectOutcome} {s : Session} {r : Outcome}
    (h : Learns w outcome s r) (hopen : s.closed_ = false) :
    Due w s r outcome ↔ outcome = .succeeded := by
  cases outcome with
  | succeeded =>
    refine iff_of_true ?_ rfl
    cases h with
    | atOnce s host port fd hres hfd hcon =>
      have hcon' : w.connect s.sockets = .connected := hcon
      simp only [connectUpstream, hres, hfd, hcon', Bool.true_eq_false, if_false]
      exact onUpstreamConnected_open hopen
    | later s fd a he =>
      obtain ⟨entry, hentry, hcb⟩ := Option.map_eq_some_iff.mp he
      simp only [ready, hentry, hcb]
      exact onUpstreamConnected_open hopen
  | refused =>
    refine iff_of_false ?_ (by decide)
    cases h with
    | atOnce s host port fd hres hfd hcon =>
      have hcon' : w.connect s.sockets = .fails := hcon
      simp only [connectUpstream, hres, hfd, hcon', Bool.true_eq_false, if_false]
      exact sendError_not_due w _
    | later s fd a he =>
      obtain ⟨entry, hentry, hcb⟩ := Option.map_eq_some_iff.mp he
      simp only [ready, hentry, hcb]
      rw [onUpstreamConnected_open hopen]
      exact proceed_not_due w _

theorem connect_outcome_due_prompt :
    let s := start 7 false false
    Due promptWorld ({ s with sockets := 1 }.replaceConnecting 10)
      (s.connectUpstream promptWorld (text "h") 80) .succeeded ↔
        ConnectOutcome.succeeded = .succeeded :=
  connect_outcome_due_iff (.atOnce (start 7 false false) (text "h") 80 10 rfl rfl rfl)
    (by decide +kernel)

/-- A world like the prompt one, but for the connects, which are refused. -/
def refusingWorld : World := { promptWorld with connect := fun _ => .fails }

/-- A client that asks for a tunnel and has no answer to its connect yet. -/
def awaitingTunnel : Session :=
  (sessionRun slowWorld (.ok (start 7 false false))
    [received 7 (text "CONNECT h:1 HTTP/1.1\r\n\r\n")
      (requestEvents [text "h:1"] [] { method := text "CONNECT" })]).session

/-- A connect that is refused at once leaves the session open, and one that is
refused later gives the client the 200 line of a tunnel. -/
theorem refused_connect_goes_on :
    (let s := { start 7 false false with sockets := 1 }.replaceConnecting 10
     let r := (start 7 false false).connectUpstream refusingWorld (text "h") 80
     Learns refusingWorld .refused s r ∧ ¬ Due refusingWorld s r .refused ∧
       .error 502 ∈ r.session.log ∧ r.session.closed_ = false) ∧
    (let s := { awaitingTunnel with loop_ := awaitingTunnel.loop_.remove 10 }
     let r := awaitingTunnel.ready slowWorld 10 { fired := ⟨false, true⟩ }
     Learns slowWorld .refused s r ∧ ¬ Due slowWorld s r .refused ∧
       .error 502 ∉ r.session.log ∧ r.session.clientStream = established) := by
  refine ⟨⟨.atOnce _ _ _ 10 rfl rfl rfl, ?_, by decide +kernel, by decide +kernel⟩,
    ⟨.later _ 10 _ (by decide +kernel), ?_, by decide +kernel, by decide +kernel⟩⟩
  · rintro ⟨s', cause, he, hclosed, -⟩
    have hopen : ((start 7 false false).connectUpstream refusingWorld (text "h") 80).session.closed_
        = false := by decide +kernel
    rw [he] at hopen
    exact absurd (hclosed.symm.trans hopen) (by decide)
  · rintro ⟨s', cause, he, hclosed, -⟩
    have hopen : (awaitingTunnel.ready slowWorld 10 { fired := ⟨false, true⟩ }).session.closed_
        = false := by decide +kernel
    rw [he] at hopen
    exact absurd (hclosed.symm.trans hopen) (by decide)

end DeepSeer
