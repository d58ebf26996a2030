import DeepSeer.ExchangeLog
import DeepSeer.SessionBooks

/-!
The stages of a session that serves its exchanges one after another and that no
CONNECT has changed: it is idle, waits for a connect, is linked to the upstream
of an exchange, or is over. A request that comes while another exchange is in
progress, and a CONNECT, lead out of these stages.
-/
namespace DeepSeer

open ByteMemory ByteText FallibleRuns KqueueLoop

namespace Session

variable {w : World}

/-- No connect is awaited. -/
def NoConnects (l : KqueueLoop) : Prop :=
  ∀ fd e, l.fdEntries_ fd = some e → e.callback ≠ .connect

/-- At most one connect is awaited. -/
def OneConnect (l : KqueueLoop) : Prop :=
  ∀ fd fd' e e', l.fdEntries_ fd = some e → e.callback = .connect →
    l.fdEntries_ fd' = some e' → e'.callback = .connect → fd = fd'

theorem NoConnects.mono {l l' : KqueueLoop} (h : NoConnects l) (hl : NoNewConnects l l') :
    NoConnects l' :=
  fun fd e he hc => h fd e (hl fd e he hc) hc

theorem OneConnect.mono {l l' : KqueueLoop} (h : OneConnect l) (hl : NoNewConnects l l') :
    OneConnect l' :=
  fun fd fd' e e' he hc he' hc' => h fd fd' e e' (hl fd e he hc) hc (hl fd' e' he' hc') hc'

/-- Once the connect that is awaited is taken, there is none. -/
theorem OneConnect.remove {l : KqueueLoop} (h : OneConnect l) {fd : Fd}
    (hfd : (l.fdEntries_ fd).map FdEntry.callback = some .connect) : NoConnects (l.remove fd) := by
  obtain ⟨e, he, hc⟩ := Option.map_eq_some_iff.mp hfd
  intro fd' e' he' hc'
  obtain rfl : fd = fd' := h fd fd' e e' he hc (remove_noNew l fd fd' e' he' hc') hc'
  simp at he'

theorem OneConnect.watch {l : KqueueLoop} (h : NoConnects l) (fd : Fd) (events : IoMask) :
    OneConnect (l.watch fd events .connect) := by
  have honly : ∀ fd' e', (l.watch fd events .connect).fdEntries_ fd' = some e' →
      e'.callback = .connect → fd' = fd := by
    intro fd' e' he' hc'
    by_contra hne
    rw [watch_other l events .connect hne] at he'
    exact h fd' e' he' hc'
  intro fd₁ fd₂ e₁ e₂ h₁ c₁ h₂ c₂
  exact (honly fd₁ e₁ h₁ c₁).trans (honly fd₂ e₂ h₂ c₂).symm

/-- The first head to the client, where it is an answer, came over the link that
the first request was forwarded to. -/
def FirstAnswered (log : List Note) : Prop :=
  ∀ resp link, firstHead log = some (.response resp link) →
    ∃ req, .forwarded req link ∈ log ∧ (requests log).getLast? = some req

/-- The first head to the client is an answer of the proxy's own. -/
def Refused (log : List Note) : Prop := ∃ status, firstHead log = some (.error status)

theorem FirstAnswered.other {log : List Note} (h : FirstAnswered log) {n : Note}
    (hn : n.isHead = false) : FirstAnswered (n :: log) := by
  intro resp link hf
  rw [firstHead_other hn] at hf
  obtain ⟨req, hmem, hlast⟩ := h resp link hf
  refine ⟨req, List.mem_cons_of_mem _ hmem, ?_⟩
  rw [requests_cons, List.getLast?_append, hlast]
  rfl

theorem FirstAnswered.error {log : List Note} (h : FirstAnswered log) (status : Nat) :
    FirstAnswered (.error status :: log) := by
  intro resp link hf
  rw [firstHead_cons] at hf
  cases hlog : firstHead log with
  | none => simp [hlog, Note.isHead] at hf
  | some n =>
    rw [hlog, Option.some_or, Option.some.injEq] at hf
    subst hf
    obtain ⟨req, hmem, hlast⟩ := h resp link hlog
    exact ⟨req, List.mem_cons_of_mem _ hmem, by simpa [Note.req] using hlast⟩

theorem Refused.cons {log : List Note} (h : Refused log) (n : Note) : Refused (n :: log) :=
  h.imp fun _ hf => firstHead_kept hf

/-- Where no answer of an upstream has gone to the client, an answer of the
proxy's own is the first head or comes after one. -/
theorem refused_error {log : List Note} (h : ∀ resp link, .response resp link ∉ log)
    (status : Nat) : Refused (.error status :: log) := by
  cases hlog : firstHead log with
  | none => exact ⟨status, by simp [firstHead_cons, hlog, Note.isHead]⟩
  | some n =>
    obtain ⟨hmem, hhead⟩ := firstHead_mem hlog
    cases n with
    | response resp link => exact absurd hmem (h resp link)
    | error status' => exact ⟨status', firstHead_kept hlog⟩
    | _ => exact absurd hhead (by simp [Note.isHead])

/-- The session has been neither intercepted nor made a tunnel. -/
structure Direct (s : Session) : Prop where
  mitm : s.isTlsMitm_ = false
  tunnel : s.isTunnel_ = false
  connect : s.isConnect_ = false

/-- An open session without an upstream. -/
structure Unlinked (s : Session) : Prop where
  live : s.closed_ = false
  direct : Direct s
  linked : s.ledger.linked = false
  upstreams : s.upstreams = 0
  pending : s.ledger.pending = chunks s.log
  unanswered : s.ledger.answers = []
  heads : ∀ resp link, .response resp link ∉ s.log
  forwards : ∀ req link, .forwarded req link ∉ s.log

/-- The latest request is the only one, or those before it were refused. -/
def Leads (s : Session) (req : HttpRequest) : Prop :=
  ∃ before, requests s.log = req :: before ∧
    (before = [] ∧ s.ledger.erred = false ∨ before ≠ [] ∧ Refused s.log)

/-- An open session with the upstream of one exchange. -/
structure Linked (s : Session) (req : HttpRequest) : Prop where
  live : s.closed_ = false
  direct : Direct s
  linked : s.ledger.linked = true
  once : s.ledger.redialed = false
  free : NoConnects s.loop_
  busy : inProgress s.log = true
  upstreams : s.upstreams = 1
  leads : Leads s req
  forward : .forwarded req (.plain 1) ∈ s.log
  heads : ∀ resp link, .response resp link ∈ s.log → link = .plain 1
  stream : s.ledger.stream = forwardedHead req ++ chunks s.log
  pending : s.ledger.pending = []

/-- A closed session. A complete answer was the proxy's first head to the client
where there was one request. -/
structure Over (s : Session) : Prop where
  shut : s.closed_ = true
  direct : Direct s
  noted : s.ledger.closed = true
  once : s.ledger.redialed = false
  first : FirstAnswered s.log
  settled : .messageComplete ∈ s.ledger.answers → s.ledger.erred = true →
    2 ≤ (requests s.log).length

inductive Stage (s : Session) : Prop
  | idle (h : Unlinked s) (free : NoConnects s.loop_) (still : inProgress s.log = false)
      (first : requests s.log = [] ∧ s.ledger.erred = false ∨
        requests s.log ≠ [] ∧ Refused s.log) : Stage s
  | waiting (req : HttpRequest) (h : Unlinked s) (one : OneConnect s.loop_)
      (busy : inProgress s.log = true) (current : s.currentRequest_ = req)
      (leads : Leads s req) : Stage s
  | linked (req : HttpRequest) (h : Linked s req) : Stage s
  | done (h : Over s) : Stage s
  | left (h : serial s.log = false ∨ ∃ req, .request req ∈ s.log ∧ req.method = .CONNECT) : Stage s

/-- A request for a tunnel among notes. -/
theorem asks_tunnel_mono {log log' : List Note} (h : log ⊆ log')
    (hc : ∃ req, .request req ∈ log ∧ req.method = .CONNECT) :
    ∃ req, .request req ∈ log' ∧ req.method = .CONNECT :=
  hc.imp fun _ hr => ⟨h hr.1, hr.2⟩

/-- What has left the stages does not come back. -/
theorem Steady.left {s s' : Session} (h : Steady w s s')
    (hs : serial s.log = false ∨ ∃ req, .request req ∈ s.log ∧ req.method = .CONNECT) :
    Stage s' := by
  refine .left (hs.imp (fun hn => ?_) (asks_tunnel_mono h.log.subset))
  by_contra hy
  exact absurd (serial_suffix h.log (by simpa using hy)) (by simp [hn])

/-- Moving data and closing, as the stages see it. -/
structure Stays (s s' : Session) : Prop where
  mitm : s'.isTlsMitm_ = s.isTlsMitm_
  tunnel : s'.isTunnel_ = s.isTunnel_
  connect : s'.isConnect_ = s.isConnect_
  current : s'.currentRequest_ = s.currentRequest_
  upstreams : s'.upstreams = s.upstreams
  connects : NoNewConnects s.loop_ s'.loop_
  log : s'.log = s.log ∧ s'.closed_ = s.closed_ ∨
    s.closed_ = false ∧ s'.closed_ = true ∧ ∃ cause, s'.log = .closed cause :: s.log

theorem Loose.isConnect {D : Side → Prop} {s s' : Session} (h : Loose w D s s') :
    s'.isConnect_ = s.isConnect_ := by
  have hs : s'.still.isConnect_ = s.still.isConnect_ := by rw [h.still]
  exact hs

theorem Loose.upstreams {D : Side → Prop} {s s' : Session} (h : Loose w D s s') :
    s'.upstreams = s.upstreams := by
  have hs : s'.still.upstreams = s.still.upstreams := by rw [h.still]
  exact hs

theorem Loose.stays {D : Side → Prop} {s s' : Session} (h : Loose w D s s') (hs : Shuts s s') :
    Stays s s' := by
  refine ⟨h.isTlsMitm, h.isTunnel, h.isConnect, h.currentRequest, h.upstreams, h.connects, ?_⟩
  cases hs with
  | kept hl hc => exact .inl ⟨hl, hc⟩
  | shut cause _ ho hc hl => exact .inr ⟨ho, hc, cause, hl⟩

theorem stays_close (s : Session) (cause : CloseCause) : Stays s (s.close cause) := by
  have hq := (quiet_close (w := promptWorld) (D := noSide) s cause).toLoose
  refine ⟨hq.isTlsMitm, hq.isTunnel, hq.isConnect, hq.currentRequest, hq.upstreams,
    hq.connects, ?_⟩
  cases hc : s.closed_ with
  | true => exact .inl ⟨by simp [close_log, hc], by simp⟩
  | false => exact .inr ⟨rfl, by simp, cause, by simp [close_log, hc]⟩

theorem Stays.direct {s s' : Session} (h : Stays s s') (hs : Direct s) : Direct s' :=
  ⟨h.mitm.trans hs.mitm, h.tunnel.trans hs.tunnel, h.connect.trans hs.connect⟩

theorem Unlinked.first {s : Session} (h : Unlinked s) : FirstAnswered s.log := by
  intro resp link hf
  exact absurd (firstHead_mem hf).1 (h.heads resp link)

theorem Unlinked.once {s : Session} (h : Unlinked s) : s.ledger.redialed = false := by
  by_contra hr
  have hr' : s.ledger.redialed = true := by simpa using hr
  exact absurd ((redialed_linked s.log hr').symm.trans h.linked) (by decide)

theorem Linked.first {s : Session} {req : HttpRequest} (h : Linked s req) :
    FirstAnswered s.log := by
  intro resp link hf
  obtain ⟨before, hreq, ⟨rfl, -⟩ | ⟨-, status, he⟩⟩ := h.leads
  · obtain rfl := h.heads resp link (firstHead_mem hf).1
    exact ⟨req, h.forward, by simp [hreq]⟩
  · simp [he] at hf

/-- A session that closes is over. -/
theorem over_closed {s s' : Session} (h : Stays s s') {cause : CloseCause}
    (hl : s'.log = .closed cause :: s.log) (hc : s'.closed_ = true) (hd : Direct s)
    (once : s.ledger.redialed = false) (first : FirstAnswered s.log)
    (settled : .messageComplete ∈ s.ledger.answers → s.ledger.erred = true →
      2 ≤ (requests s.log).length) : Over s' := by
  have hledger : s'.ledger = s.ledger.note (.closed cause) := by
    rw [Session.ledger, hl]
    rfl
  refine ⟨hc, h.direct hd, ?_, ?_, ?_, ?_⟩
  · rw [hledger]
    rfl
  · rw [hledger]
    exact once
  · rw [hl]
    exact first.other rfl
  · rw [hledger, hl]
    exact settled

theorem Unlinked.settled {s : Session} (h : Unlinked s) :
    .messageComplete ∈ s.ledger.answers → s.ledger.erred = true →
      2 ≤ (requests s.log).length := by
  intro hm
  rw [h.unanswered] at hm
  exact absurd hm List.not_mem_nil

theorem Linked.settled {s : Session} {req : HttpRequest} (h : Linked s req) :
    .messageComplete ∈ s.ledger.answers → s.ledger.erred = true →
      2 ≤ (requests s.log).length := by
  intro _ he
  obtain ⟨before, hreq, ⟨-, hn⟩ | ⟨hne, -⟩⟩ := h.leads
  · exact absurd (he.symm.trans hn) (by decide)
  · rw [hreq]
    have := List.length_pos_of_ne_nil hne
    simp only [List.length_cons]
    omega

theorem Unlinked.stays {s s' : Session} (h : Unlinked s) (hst : Stays s s')
    (hl : s'.log = s.log) (hc : s'.closed_ = s.closed_) : Unlinked s' := by
  have hledger : s'.ledger = s.ledger := by rw [Session.ledger, hl, Session.ledger]
  refine ⟨hc.trans h.live, hst.direct h.direct, ?_, hst.upstreams.trans h.upstreams, ?_, ?_, ?_, ?_⟩
  · rw [hledger]
    exact h.linked
  · rw [hledger, hl]
    exact h.pending
  · rw [hledger]
    exact h.unanswered
  · rw [hl]
    exact h.heads
  · rw [hl]
    exact h.forwards

theorem Linked.stays {s s' : Session} {req : HttpRequest} (h : Linked s req) (hst : Stays s s')
    (hl : s'.log = s.log) (hc : s'.closed_ = s.closed_) : Linked s' req := by
  have hledger : s'.ledger = s.ledger := by rw [Session.ledger, hl, Session.ledger]
  have hleads := h.leads
  rw [Leads, ← hledger, ← hl] at hleads
  refine ⟨hc.trans h.live, hst.direct h.direct, ?_, ?_, h.free.mono hst.connects, ?_,
    hst.upstreams.trans h.upstreams, hleads, ?_, ?_, ?_, ?_⟩
  · rw [hledger]
    exact h.linked
  · rw [hledger]
    exact h.once
  · rw [hl]
    exact h.busy
  · rw [hl]
    exact h.forward
  · rw [hl]
    exact h.heads
  · rw [hledger, hl]
    exact h.stream
  · rw [hledger]
    exact h.pending

theorem Linked.stage {s s' : Session} {req : HttpRequest} (h : Linked s req) (hst : Stays s s') :
    Stage s' := by
  rcases hst.log with ⟨hl, hc⟩ | ⟨-, hc, cause, hl⟩
  · exact .linked req (h.stays hst hl hc)
  · exact .done (over_closed hst hl hc h.direct h.once h.first h.settled)

theorem Over.stays {s s' : Session} (h : Over s) (hst : Stays s s') : Over s' := by
  rcases hst.log with ⟨hl, hc⟩ | ⟨hn, -⟩
  · have hledger : s'.ledger = s.ledger := by rw [Session.ledger, hl, Session.ledger]
    refine ⟨hc.trans h.shut, hst.direct h.direct, ?_, ?_, ?_, ?_⟩
    · rw [hledger]
      exact h.noted
    · rw [hledger]
      exact h.once
    · rw [hl]
      exact h.first
    · rw [hledger, hl]
      exact h.settled
  · exact absurd (h.shut.symm.trans hn) (by decide)

/-- Moving data and closing leave the session in its stage or end it. -/
theorem Stage.stays {s s' : Session} (h : Stage s) (hst : Stays s s') : Stage s' := by
  cases h with
  | idle hu free still first =>
    rcases hst.log with ⟨hl, hc⟩ | ⟨-, hc, cause, hl⟩
    · have hledger : s'.ledger = s.ledger := by rw [Session.ledger, hl, Session.ledger]
      exact .idle (hu.stays hst hl hc) (free.mono hst.connects) (hl ▸ still)
        (by rw [hledger, hl]; exact first)
    · exact .done (over_closed hst hl hc hu.direct hu.once hu.first hu.settled)
  | waiting req hu one busy current leads =>
    rcases hst.log with ⟨hl, hc⟩ | ⟨-, hc, cause, hl⟩
    · have hledger : s'.ledger = s.ledger := by rw [Session.ledger, hl, Session.ledger]
      exact .waiting req (hu.stays hst hl hc) (one.mono hst.connects) (hl ▸ busy)
        (hst.current.trans current) (by rw [Leads, hledger, hl]; exact leads)
    · exact .done (over_closed hst hl hc hu.direct hu.once hu.first hu.settled)
  | linked req hlk => exact hlk.stage hst
  | done ho => exact .done (ho.stays hst)
  | left hleft =>
    rcases hst.log with ⟨hl, -⟩ | ⟨-, -, cause, hl⟩
    · exact .left (by rw [hl]; exact hleft)
    · refine .left ?_
      rw [hl]
      exact hleft.imp id (asks_tunnel_mono (List.subset_cons_self _ _))

/-- Notes of data, of callbacks and of new sockets. -/
def passing : Note → Bool
  | .clientData _ | .upstreamData _ | .clientParsed _ | .upstreamParsed _ | .opened _ _
  | .inspected _ _ => true
  | _ => false

theorem passing_books {n : Note} (h : passing n = true) (l : Ledger) :
    (l.note n).linked = l.linked ∧ (l.note n).redialed = l.redialed ∧
      (l.note n).erred = l.erred ∧ (l.note n).closed = l.closed := by
  cases n with
  | clientParsed ev =>
    cases ev with
    | body piece =>
      simp only [Ledger.note, Ledger.requestBody]
      split
      · exact ⟨rfl, rfl, rfl, rfl⟩
      · split <;> exact ⟨rfl, rfl, rfl, rfl⟩
    | _ => exact ⟨rfl, rfl, rfl, rfl⟩
  | _ => first | exact ⟨rfl, rfl, rfl, rfl⟩ | exact absurd h (by simp [passing])

theorem passing_log {n : Note} (h : passing n = true) (log : List Note) :
    n.isHead = false ∧ requests (n :: log) = requests log ∧
      inProgress (n :: log) = inProgress log ∧ serial (n :: log) = serial log := by
  cases n <;> first
    | exact ⟨rfl, requests_cons _ log, rfl, rfl⟩
    | exact absurd h (by simp [passing])

/-- What waits and what has been sent grow with the pieces of a body. -/
theorem passing_pending {n : Note} (h : passing n = true) {l : Ledger} (hl : l.linked = false)
    (hc : n.callback = none) : (l.note n).pending = l.pending ++ n.chunk := by
  cases n with
  | clientParsed ev =>
    cases ev with
    | body piece =>
      simp only [Ledger.note, Ledger.requestBody, hl, Note.chunk]
      split
      · next hp => simp [hp]
      · simp
    | _ => simp [Ledger.note, Note.chunk]
  | upstreamParsed ev => exact absurd hc (by simp [Note.callback])
  | _ => first | exact (List.append_nil _).symm | exact absurd h (by simp [passing])

/-- Nothing but a callback of the upstream parser is answered. -/
theorem passing_answers {n : Note} (h : passing n = true) (l : Ledger)
    (hc : n.callback = none ∨ l.closed = true) : (l.note n).answers = l.answers := by
  cases n with
  | clientParsed ev =>
    cases ev with
    | body piece =>
      simp only [Ledger.note, Ledger.requestBody]
      split
      · rfl
      · split <;> rfl
    | _ => rfl
  | upstreamParsed ev =>
    rcases hc with hc | hc
    · exact absurd hc (by simp [Note.callback])
    · simp [Ledger.note, Ledger.upstreamParsed, hc]
  | _ => rfl

theorem passing_stream {n : Note} (h : passing n = true) {l : Ledger} (hl : l.linked = true)
    (hp : l.pending = []) :
    (l.note n).stream = l.stream ++ n.chunk ∧ (l.note n).pending = [] := by
  cases n with
  | clientParsed ev =>
    cases ev with
    | body piece =>
      simp only [Ledger.note, Ledger.requestBody, hl, hp, Note.chunk]
      split
      · next hnil => simp [hnil, hp]
      · simp
    | _ => simp [Ledger.note, Note.chunk, hp]
  | upstreamParsed ev => simp [Ledger.note, Ledger.upstreamParsed, Note.chunk, hp]
  | _ => first | exact ⟨(List.append_nil _).symm, hp⟩ | exact absurd h (by simp [passing])

theorem Unlinked.note {s : Session} (h : Unlinked s) {n : Note} (hn : passing n = true)
    (hc : n.callback = none) : Unlinked (s.note n) := by
  obtain ⟨hlinked, -⟩ := passing_books hn s.ledger
  refine ⟨h.live, ⟨h.direct.mitm, h.direct.tunnel, h.direct.connect⟩, hlinked.trans h.linked,
    h.upstreams, ?_, (passing_answers hn _ (.inl hc)).trans h.unanswered, fun resp link hm => ?_,
    fun req link hm => ?_⟩
  · rw [ledger_note, passing_pending hn h.linked hc, h.pending]
    exact (chunks_cons n s.log).symm
  · rcases List.mem_cons.mp hm with rfl | hm
    · exact absurd hn (by simp [passing])
    · exact h.heads resp link hm
  · rcases List.mem_cons.mp hm with rfl | hm
    · exact absurd hn (by simp [passing])
    · exact h.forwards req link hm

theorem Leads.note {s : Session} {req : HttpRequest} (h : Leads s req) {n : Note}
    (hn : passing n = true) : Leads (s.note n) req := by
  obtain ⟨before, hreq, hfirst⟩ := h
  obtain ⟨-, -, herred, -⟩ := passing_books hn s.ledger
  refine ⟨before, (passing_log hn s.log).2.1.trans hreq, hfirst.imp ?_ ?_⟩
  · exact And.imp_right herred.trans
  · exact And.imp_right fun hr => hr.cons n

theorem Linked.note {s : Session} {req : HttpRequest} (h : Linked s req) {n : Note}
    (hn : passing n = true) : Linked (s.note n) req := by
  obtain ⟨hlinked, honce, -⟩ := passing_books hn s.ledger
  obtain ⟨hstream, hpending⟩ := passing_stream hn h.linked h.pending
  obtain ⟨-, -, hbusy, -⟩ := passing_log hn s.log
  refine ⟨h.live, ⟨h.direct.mitm, h.direct.tunnel, h.direct.connect⟩, hlinked.trans h.linked,
    honce.trans h.once, h.free, hbusy.trans h.busy, h.upstreams, h.leads.note hn,
    List.mem_cons_of_mem _ h.forward, fun resp link hm => ?_, ?_, hpending⟩
  · rcases List.mem_cons.mp hm with rfl | hm
    · exact absurd hn (by simp [passing])
    · exact h.heads resp link hm
  · rw [ledger_note, hstream, h.stream, List.append_assoc]
    exact congrArg _ (chunks_cons n s.log).symm

theorem Over.note {s : Session} (h : Over s) {n : Note} (hn : passing n = true ∨ ∃ req, n = .request req) :
    Over (s.note n) := by
  have hbooks : (s.ledger.note n).redialed = s.ledger.redialed ∧
      (s.ledger.note n).erred = s.ledger.erred ∧ (s.ledger.note n).closed = s.ledger.closed := by
    rcases hn with hn | ⟨req, rfl⟩
    · exact (passing_books hn s.ledger).2
    · exact ⟨rfl, rfl, rfl⟩
  have hanswers : (s.ledger.note n).answers = s.ledger.answers := by
    rcases hn with hn | ⟨req, rfl⟩
    · exact passing_answers hn _ (.inr h.noted)
    · rfl
  have hhead : n.isHead = false := by
    rcases hn with hn | ⟨req, rfl⟩
    · exact (passing_log hn []).1
    · rfl
  refine ⟨h.shut, ⟨h.direct.mitm, h.direct.tunnel, h.direct.connect⟩, hbooks.2.2.trans h.noted,
    hbooks.1.trans h.once, h.first.other hhead, fun hm he => ?_⟩
  have hlen := h.settled (hanswers ▸ hm) (hbooks.2.1.symm.trans he)
  simp only [Session.note, requests_cons, List.length_append]
  omega

/-- Notes of data and of callbacks leave the session in its stage. -/
theorem Stage.note {s : Session} (h : Stage s) {n : Note} (hn : passing n = true)
    (hc : s.ledger.linked = false → n.callback = none) : Stage (s.note n) := by
  obtain ⟨-, hreq, hbusy, hserial⟩ := passing_log hn s.log
  cases h with
  | idle hu free still first =>
    refine .idle (hu.note hn (hc hu.linked)) free (hbusy.trans still) (first.imp ?_ ?_)
    · exact And.imp hreq.trans (passing_books hn s.ledger).2.2.1.trans
    · exact And.imp (fun hr hn' => hr (hreq.symm.trans hn')) fun he => he.cons n
  | waiting req hu one busy current leads =>
    exact .waiting req (hu.note hn (hc hu.linked)) one (hbusy.trans busy) current (leads.note hn)
  | linked req hl => exact .linked req (hl.note hn)
  | done ho => exact .done (ho.note (.inl hn))
  | left hl =>
    exact .left (hl.imp hserial.trans (asks_tunnel_mono (List.subset_cons_self _ _)))

theorem Stays.trans {s s' s'' : Session} (h : Stays s s') (h' : Stays s' s'') : Stays s s'' := by
  refine ⟨h'.mitm.trans h.mitm, h'.tunnel.trans h.tunnel, h'.connect.trans h.connect,
    h'.current.trans h.current, h'.upstreams.trans h.upstreams, h.connects.trans h'.connects, ?_⟩
  rcases h.log with ⟨hl, hc⟩ | ⟨ho, hc, cause, hl⟩
  · rcases h'.log with ⟨hl', hc'⟩ | ⟨ho', hc', cause, hl'⟩
    · exact .inl ⟨hl'.trans hl, hc'.trans hc⟩
    · exact .inr ⟨hc.symm.trans ho', hc', cause, hl ▸ hl'⟩
  · rcases h'.log with ⟨hl', hc'⟩ | ⟨ho', -⟩
    · exact .inr ⟨ho, hc'.trans hc, cause, hl'.trans hl⟩
    · exact absurd (hc.symm.trans ho') (by decide)

/-- The books of a direct session that was connected at most once. -/
theorem Direct.booked {s : Session} (h : Direct s) (ha : Accounted s)
    (hr : s.ledger.redialed = false) : Booked s := by
  rcases ha with hn | hn | hb
  · exact absurd (hr.symm.trans hn) (by decide)
  · exact absurd (h.tunnel.symm.trans hn) (by decide)
  · exact hb

/-- The client of a direct session can be reached as long as it is open. -/
theorem Direct.reaches {s : Session} (h : Direct s) (hb : Booked s) :
    s.reachesClient = !s.closed_ := by
  obtain ⟨c, hc, -, hcl⟩ := (hb.down.attached h.mitm).client
  simp [reachesClient, h.mitm, hc, Connection.connected, hcl]

/-- A request whose connect is made now. -/
structure Ready (s : Session) (req : HttpRequest) : Prop where
  booked : Booked s
  unlinked : Unlinked s
  free : NoConnects s.loop_
  busy : inProgress s.log = true
  current : s.currentRequest_ = req
  leads : Leads s req

/-- The proxy's own answer ends the exchange, and closes where it cannot be
written. -/
theorem Ready.refuse {s : Session} {req : HttpRequest} (h : Ready s req) (status : Nat)
    (reason : Bytes) : Stage (s.sendError w status reason) := by
  have hu := h.unlinked
  have hreaches : s.reachesClient = true := by
    rw [hu.direct.reaches h.booked, hu.live]
    rfl
  obtain ⟨before, hreq, -⟩ := h.leads
  simp only [sendError, answer, hreaches, if_true]
  set s₁ := s.note (.error status) with hs₁
  have hu₁ : Unlinked s₁ := by
    refine ⟨hu.live, ⟨hu.direct.mitm, hu.direct.tunnel, hu.direct.connect⟩, hu.linked,
      hu.upstreams, ?_, hu.unanswered, by simpa [hs₁, Session.note] using hu.heads,
      by simpa [hs₁, Session.note] using hu.forwards⟩
    exact hu.pending.trans (by simp [hs₁, Session.note, Note.chunk])
  have hidle : Stage s₁ := by
    refine .idle hu₁ h.free rfl (.inr ⟨?_, refused_error hu.heads status⟩)
    simp [hs₁, Session.note, hreq]
  exact hidle.stays ((quiet_writeToClient (w := w) (toClient_any s₁)
    (Http1Codec.encodeResponse_proper (errorResponse status reason)).1).toLoose.stays
    (shuts_writeToClient w s₁ _))

/-- The request is forwarded over the first link. -/
theorem Ready.connected {s : Session} {req : HttpRequest} (h : Ready s req) :
    Ends (s.onUpstreamConnected w) Stage fun _ => True := by
  have hu := h.unlinked
  obtain ⟨hnone, hm, -⟩ := h.booked.up.waiting hu.linked
  have hwrap := wrapUpstream_none (s := s.note (.connected s.isTlsMitm_)) hnone
  set s₁ := (s.note (.connected s.isTlsMitm_)).wrapUpstream with hs₁
  set c : Connection := { id := s.upstreams + 1, socket_ := s.connectingSocket_ } with hc
  have hplain : s₁.isTlsMitm_ = false := by
    rw [hwrap]
    exact hm
  have hset : s₁.upstream_ = some c := by
    rw [hwrap]
    rfl
  have hconnect : s₁.isConnect_ = false := by
    rw [hwrap]
    exact hu.direct.connect
  have heq := prepareUpstream_plain hplain hset
  unfold onUpstreamConnected
  simp only [hu.live, Bool.false_eq_true, if_false, ← hs₁, hconnect]
  rw [forwardRequest, heq]
  set s₂ : Session := { s₁ with
    upstream_ := some ({ c with wired := true }.startRead s₁.loop_).1
    loop_ := ({ c with wired := true }.startRead s₁.loop_).2 } with hs₂
  set s₃ : Session := { s₂.note (.forwarded s₂.currentRequest_ s₂.link) with
    currentRequest_.url := originForm s₂.currentRequest_.url } with hs₃
  have hcurrent : s₂.currentRequest_ = req := by
    rw [hs₂, hwrap]
    exact h.current
  have hlink : s₂.link = .plain 1 := by
    rw [hs₂, hwrap]
    simp [link, note, hm, hu.upstreams]
  have hlog : s₃.log = .forwarded req (.plain 1) :: .connected s.isTlsMitm_ :: s.log := by
    rw [hs₃]
    simp only [note]
    rw [hcurrent, hlink, hs₂, hwrap]
    rfl
  have hlinked : Linked s₃ req := by
    have hledger : s₃.ledger = { s.ledger with
        linked := true, redialed := s.ledger.linked
        stream := forwardedHead req ++ s.ledger.pending, pending := [] } := by
      rw [Session.ledger, hlog]
      simp [Ledger.note, Session.ledger]
    have hloop : NoNewConnects s.loop_ s₃.loop_ := by
      have hread : NoNewConnects s₁.loop_ s₃.loop_ :=
        ({ c with wired := true } : Connection).startRead_noNew s₁.loop_
      have hsame : s₁.loop_ = s.loop_ := by rw [hwrap, note]
      rwa [hsame] at hread
    refine ⟨?_, ⟨hplain, ?_, hconnect⟩, by rw [hledger], by rw [hledger]; exact hu.linked,
      h.free.mono hloop, ?_, ?_, ?_, ?_, ?_, ?_, by rw [hledger]⟩
    · rw [hs₃, hs₂, hwrap]
      exact hu.live
    · rw [hs₃, hs₂, hwrap]
      exact hu.direct.tunnel
    · rw [hlog]
      exact h.busy
    · rw [hs₃, hs₂, hwrap]
      simp [note, hu.upstreams]
    · obtain ⟨before, hreq, hfirst⟩ := h.leads
      refine ⟨before, ?_, hfirst.imp (And.imp_right fun he => ?_) (And.imp_right fun hr => ?_)⟩
      · rw [hlog]
        simpa [Note.req] using hreq
      · rw [hledger]
        exact he
      · rw [hlog]
        exact (hr.cons _).cons _
    · rw [hlog]
      exact List.mem_cons_self
    · intro resp link hmem
      rw [hlog] at hmem
      simp only [List.mem_cons, reduceCtorEq, false_or] at hmem
      exact absurd hmem (hu.heads resp link)
    · rw [hledger, hlog]
      simp [Note.chunk, hu.pending]
  have hsent : Stays s₃ (s₂.sendRequest w) := by
    have hhead : Stays s₃ (s₂.headSent w) :=
      (quiet_writeToUpstream (w := w) (toUpstream_any s₃) _).toLoose.stays
        (shuts_writeToUpstream w s₃ _)
    rw [sendRequest_eq]
    split
    · exact hhead
    · exact hhead.trans ((quiet_sendPending (w := w) (toUpstream_any _)).toLoose.stays
        (shuts_sendPending w _))
  have hstage : Stage (s₂.sendRequest w) := hlinked.stage hsent
  exact hstage

theorem Ready.replace {s : Session} {req : HttpRequest} (h : Ready s req) (fd : Fd) :
    Ready (s.replaceConnecting fd) req := by
  have hb : Booked (s.replaceConnecting fd) :=
    h.booked.same rfl rfl rfl rfl rfl rfl rfl rfl rfl rfl
  have hu := h.unlinked.note (n := .opened fd s.stray) rfl rfl
  refine ⟨hb, ⟨hu.live, ⟨hu.direct.mitm, hu.direct.tunnel, hu.direct.connect⟩, hu.linked,
    hu.upstreams, hu.pending, hu.unanswered, hu.heads, hu.forwards⟩, ?_, h.busy, h.current,
    h.leads.note (n := .opened fd s.stray) rfl⟩
  refine h.free.mono ?_
  unfold replaceConnecting
  dsimp only
  split
  · exact openFd_noNew _ fd
  · exact (closeFd_noNew _ _).trans (openFd_noNew _ fd)

theorem Ready.count {s : Session} {req : HttpRequest} (h : Ready s req) (k : Nat) :
    Ready { s with sockets := k } req :=
  ⟨h.booked.same rfl rfl rfl rfl rfl rfl rfl rfl rfl rfl,
    ⟨h.unlinked.live, ⟨h.unlinked.direct.mitm, h.unlinked.direct.tunnel, h.unlinked.direct.connect⟩,
      h.unlinked.linked, h.unlinked.upstreams, h.unlinked.pending, h.unlinked.unanswered,
      h.unlinked.heads, h.unlinked.forwards⟩, h.free, h.busy, h.current, h.leads⟩

theorem Ready.connect {s : Session} {req : HttpRequest} (h : Ready s req) (host : Bytes)
    (port : Nat) : Ends (s.connectUpstream w host port) Stage fun _ => True := by
  unfold connectUpstream
  split
  · trivial
  · have hcount := h.count (s.sockets + 1)
    dsimp only
    split
    · exact hcount.refuse 502 _
    · next fd _ =>
      have hnew := hcount.replace fd
      split
      · exact hnew.refuse 502 _
      · exact hnew.connected
      · have hu := hnew.unlinked
        exact Stage.waiting req ⟨hu.live, ⟨hu.direct.mitm, hu.direct.tunnel, hu.direct.connect⟩,
          hu.linked, hu.upstreams, hu.pending, hu.unanswered, hu.heads, hu.forwards⟩
          (.watch hnew.free fd _) hnew.busy hnew.current hnew.leads

/-- A session that is over answers nothing and connects to nothing. -/
theorem Over.connect {s : Session} (h : Over s) (hb : Booked s) (host : Bytes) (port : Nat) :
    Ends (s.connectUpstream w host port) Over fun _ => True := by
  have hmute : ∀ {s' : Session}, Over s' → s'.reachesClient = false → ∀ status reason,
      Over (s'.sendError w status reason) := by
    intro s' hs hr status reason
    simp only [sendError, answer, hr, Bool.false_eq_true, if_false]
    rwa [writeToClient_unreached w hr]
  have hreach : s.reachesClient = false := by
    rw [h.direct.reaches hb, h.shut]
    rfl
  have hcount : Over { s with sockets := s.sockets + 1 } :=
    ⟨h.shut, ⟨h.direct.mitm, h.direct.tunnel, h.direct.connect⟩, h.noted, h.once, h.first,
      h.settled⟩
  unfold connectUpstream
  split
  · trivial
  · dsimp only
    split
    · exact hmute hcount hreach 502 _
    · next fd _ =>
      have hnote := hcount.note (n := .opened fd (stray { s with sockets := s.sockets + 1 }))
        (.inl rfl)
      have hnew : Over (replaceConnecting { s with sockets := s.sockets + 1 } fd) :=
        ⟨hnote.shut, ⟨hnote.direct.mitm, hnote.direct.tunnel, hnote.direct.connect⟩, hnote.noted,
          hnote.once, hnote.first, hnote.settled⟩
      split
      · exact hmute hnew hreach 502 _
      · rw [onUpstreamConnected, if_pos hnew.shut]
        exact hnew
      · exact ⟨hnew.shut, ⟨hnew.direct.mitm, hnew.direct.tunnel, hnew.direct.connect⟩, hnew.noted,
          hnew.once, hnew.first, hnew.settled⟩

theorem onRequest_plain {s : Session} {req : HttpRequest} (hc : req.method ≠ .CONNECT)
    (hm : s.isTlsMitm_ = false) : s.onRequest w req =
      { s.note (.request req) with currentRequest_ := req }.connectUpstream w req.host
        (if req.port = 0 then 80 else req.port) := by
  simp only [onRequest, if_neg hc]
  exact if_neg (by simp [note, hm])

/-- A request starts an exchange, is one too many, or finds the session over. -/
theorem Stage.request {s : Session} (ha : Accounted s) (h : Stage s) (req : HttpRequest) :
    Ends (s.onRequest w req) Stage fun _ => True := by
  have hleft : (serial (s.note (.request req)).log = false ∨
      ∃ req', .request req' ∈ (s.note (.request req)).log ∧ req'.method = .CONNECT) →
      Ends (s.onRequest w req) Stage fun _ => True := fun hl =>
    Ends.mono (steadyEnd_onRequest w s req) (fun _ hs => hs.left hl) fun _ _ => trivial
  by_cases hc : req.method = .CONNECT
  · exact hleft (.inr ⟨req, List.mem_cons_self, hc⟩)
  have hbusy : inProgress s.log = true → Ends (s.onRequest w req) Stage fun _ => True :=
    fun hb => hleft (.inl (by simp [Session.note, serial, hb]))
  cases h with
  | idle hu free still first =>
    have hb := hu.direct.booked ha hu.once
    set s₁ : Session := { s.note (.request req) with currentRequest_ := req } with hs₁
    have hpending : s₁.ledger.pending = chunks s₁.log :=
      hu.pending.trans (by simp [hs₁, Note.chunk])
    have hready : Ready s₁ req := by
      refine ⟨hb.same rfl rfl rfl rfl rfl rfl rfl rfl rfl rfl,
        ⟨hu.live, ⟨hu.direct.mitm, hu.direct.tunnel, hu.direct.connect⟩, hu.linked, hu.upstreams,
          hpending, hu.unanswered, fun resp link hm => ?_, fun req' link hm => ?_⟩, free, rfl, rfl,
        requests s.log, rfl, first.imp id (And.imp_right fun hr => hr.cons _)⟩
      · exact hu.heads resp link (by simpa [hs₁] using hm)
      · exact hu.forwards req' link (by simpa [hs₁] using hm)
    rw [onRequest_plain hc hu.direct.mitm]
    exact hready.connect _ _
  | waiting _ _ _ busy => exact hbusy busy
  | linked _ hl => exact hbusy hl.busy
  | done ho =>
    have hb := ho.direct.booked ha ho.once
    have hnoted := ho.note (n := .request req) (.inr ⟨req, rfl⟩)
    have hset : Over { s.note (.request req) with currentRequest_ := req } :=
      ⟨hnoted.shut, ⟨hnoted.direct.mitm, hnoted.direct.tunnel, hnoted.direct.connect⟩,
        hnoted.noted, hnoted.once, hnoted.first, hnoted.settled⟩
    rw [onRequest_plain hc ho.direct.mitm]
    exact Ends.mono (hset.connect (hb.same rfl rfl rfl rfl rfl rfl rfl rfl rfl rfl) _ _)
      (fun _ => Stage.done) fun _ => id
  | left hl =>
    refine hleft (hl.imp (fun hs => ?_) (asks_tunnel_mono (List.subset_cons_self _ _)))
    simp [Session.note, serial, hs]

/-- Where the session hears its upstream, it has one. -/
theorem Direct.hears_linked {s : Session} (h : Direct s) (hb : Booked s)
    (hh : s.hears = true) : s.ledger.linked = true := by
  by_contra hn
  obtain ⟨hu, -⟩ := hb.up.waiting (by simpa using hn)
  exact absurd ((unlinked_deaf hb.pointers h.mitm hu).symm.trans hh) (by decide)

/-- Only a session with an upstream hears it. -/
theorem Stage.hearing {s : Session} (ha : Accounted s) (h : Stage s) (hh : s.hears = true) :
    (∃ req, Linked s req) ∨ Over s ∨
      serial s.log = false ∨ ∃ req, .request req ∈ s.log ∧ req.method = .CONNECT := by
  have hunlinked : Unlinked s → False := fun hu =>
    absurd ((hu.direct.hears_linked (hu.direct.booked ha hu.once) hh).symm.trans hu.linked)
      (by decide)
  cases h with
  | idle hu => exact (hunlinked hu).elim
  | waiting _ hu => exact (hunlinked hu).elim
  | linked req hl => exact .inl ⟨req, hl⟩
  | done ho => exact .inr (.inl ho)
  | left hl => exact .inr (.inr hl)

/-- A callback of the upstream parser is noted. -/
theorem Stage.heard {s : Session} (ha : Accounted s) (h : Stage s) (hh : s.hears = true)
    (ev : ParserEvent) (codec : Http1Codec) :
    Stage ({ s with upstreamCodec_ := codec }.note (.upstreamParsed ev)) := by
  have hset : Stays s { s with upstreamCodec_ := codec } :=
    ⟨rfl, rfl, rfl, rfl, rfl, .refl _, .inl ⟨rfl, rfl⟩⟩
  rcases h.hearing ha hh with ⟨req, hl⟩ | ho | hl
  · exact .linked req ((hl.stays hset rfl rfl).note rfl)
  · exact .done ((ho.stays hset).note (.inl rfl))
  · exact .left (hl.imp id (asks_tunnel_mono (List.subset_cons_self _ _)))

/-- An answer of the upstream goes to the client, or the session is over. -/
theorem Stage.respond {s : Session} (ha : Accounted s) (h : Stage s) (hh : s.hears = true)
    (ev : ParserEvent) (codec : Http1Codec) (resp : HttpResponse) :
    Stage (({ s with upstreamCodec_ := codec }.note (.upstreamParsed ev)).onResponse w resp) := by
  have hheard := h.heard ha hh ev codec
  set s₁ := { s with upstreamCodec_ := codec }.note (.upstreamParsed ev) with hs₁
  have hwrite : ∀ s₂ : Session, Stage s₂ → ∀ resp',
      Stage (s₂.writeToClient w (Http1Codec.encodeResponse resp' {})).1 := fun s₂ h₂ resp' =>
    h₂.stays ((quiet_writeToClient (w := w) (toClient_any s₂)
      (Http1Codec.encodeResponse_proper resp').1).toLoose.stays (shuts_writeToClient w s₂ _))
  unfold onResponse answer
  refine hwrite _ ?_ _
  split
  · next hr =>
    rcases h.hearing ha hh with ⟨req, hl⟩ | ho | hl
    · have h₁ : Linked s₁ req :=
        (@Linked.stays s { s with upstreamCodec_ := codec } req hl
          ⟨rfl, rfl, rfl, rfl, rfl, .refl _, .inl ⟨rfl, rfl⟩⟩ rfl rfl).note rfl
      have hlink : s₁.link = .plain 1 := by
        simp [link, h₁.direct.mitm, h₁.upstreams]
      obtain ⟨before, hreq, hfirst⟩ := h₁.leads
      refine .linked req ⟨h₁.live, ⟨h₁.direct.mitm, h₁.direct.tunnel, h₁.direct.connect⟩,
        h₁.linked, h₁.once, h₁.free, h₁.busy, h₁.upstreams,
        ⟨before, by simpa [Note.req] using hreq,
          hfirst.imp id (And.imp_right fun hr => hr.cons _)⟩,
        List.mem_cons_of_mem _ h₁.forward, fun resp' link' hm => ?_,
        h₁.stream.trans (by simp [Note.chunk]), h₁.pending⟩
      rcases List.mem_cons.mp hm with heq | hm
      · cases heq
        exact hlink
      · exact h₁.heads resp' link' hm
    · have hb := ho.direct.booked ha ho.once
      have hmute : s.reachesClient = false := by
        rw [ho.direct.reaches hb, ho.shut]
        rfl
      exact absurd ((show s.reachesClient = true from hr).symm.trans hmute) (by decide)
    · refine .left (hl.imp id (asks_tunnel_mono ?_))
      exact List.Subset.trans (List.subset_cons_self _ _) (List.subset_cons_self _ _)
  · exact hheard

/-- The end of an answer is inspected before it settles what waits and closes. -/
theorem onResponseComplete_stays (s : Session) :
    ∃ s₁, (s₁ = s ∨ ∃ payload url, s₁ = s.note (.inspected payload url)) ∧
      Stays s₁ s.onResponseComplete := by
  set s₁ := if s.payloadInspector_ ∧ s.responseBody_.empty = false then
      s.note (.inspected s.responseBody_.linearize s.currentRequest_.url) else s with hs₁
  refine ⟨s₁, ?_, ?_⟩
  · rw [hs₁]
    split
    · exact .inr ⟨_, _, rfl⟩
    · exact .inl rfl
  · have hclear : Stays s₁ { s₁ with pendingBody_ := {}, responseBody_ := {} } :=
      ⟨rfl, rfl, rfl, rfl, rfl, .refl _, .inl ⟨rfl, rfl⟩⟩
    have hclose : ∀ s₂ : Session, Stays s₁ s₂ →
        Stays s₁ (if s₂.isTlsMitm_ then s₂ else s₂.close .responseComplete) := by
      intro s₂ h
      split
      · exact h
      · exact h.trans (stays_close s₂ _)
    exact hclose _ hclear

/-- The refusal of a bad request ends the session. -/
theorem Stage.refuse {s : Session} (ha : Accounted s) (h : Stage s) :
    Stage ((s.sendError w 400 (text "Bad Request")).close .clientParseError) := by
  have hclosed : ∀ s₁ s₂ : Session, Stays s₁ s₂ → s₁.closed_ = false → Direct s₁ →
      s₁.ledger.redialed = false → FirstAnswered s₁.log →
      .messageComplete ∉ s₁.ledger.answers → Stage (s₂.close .clientParseError) := by
    intro s₁ s₂ hst hlive hd honce hfirst hm
    have hall := hst.trans (stays_close s₂ .clientParseError)
    rcases hall.log with ⟨-, hc⟩ | ⟨-, hc, cause, hl⟩
    · exact absurd ((close_closed s₂ _).symm.trans (hc.trans hlive)) (by decide)
    · exact .done (over_closed hall hl hc hd honce hfirst fun hmem => absurd hmem hm)
  have hlive : s.closed_ = false → Direct s → s.ledger.redialed = false →
      FirstAnswered s.log →
      Stage ((s.sendError w 400 (text "Bad Request")).close .clientParseError) := by
    intro hl hd honce hfirst
    have hb := hd.booked ha honce
    have hreaches : s.reachesClient = true := by
      rw [hd.reaches hb, hl]
      rfl
    have hm : ParserEvent.messageComplete ∉ s.ledger.answers := by
      intro hmem
      obtain ⟨before, after, heq⟩ := List.append_of_mem hmem
      exact absurd (((hb.down.plain hd.mitm).ended before after heq).1.symm.trans hl) (by decide)
    simp only [sendError, answer, hreaches, if_true]
    set s₁ := s.note (.error 400) with hs₁
    refine hclosed s₁ _ ((quiet_writeToClient (w := w) (toClient_any s₁)
      (Http1Codec.encodeResponse_proper _).1).toLoose.stays (shuts_writeToClient w s₁ _)) hl
      ⟨hd.mitm, hd.tunnel, hd.connect⟩ honce (hfirst.error 400) hm
  cases h with
  | idle hu => exact hlive hu.live hu.direct hu.once hu.first
  | waiting _ hu => exact hlive hu.live hu.direct hu.once hu.first
  | linked _ hl => exact hlive hl.live hl.direct hl.once hl.first
  | done ho =>
    have hr : s.reachesClient = false := by
      rw [ho.direct.reaches (ho.direct.booked ha ho.once), ho.shut]
      rfl
    simp only [sendError, answer, hr, Bool.false_eq_true, if_false]
    rw [writeToClient_unreached w hr]
    exact .done (ho.stays (stays_close s _))
  | left hl =>
    exact ((steady_answer w s _ rfl).trans (quiet_close (D := anySide) _ _).steady).left hl

/-- Every effect leads from stage to stage. -/
theorem effect_stage {s : Session} {r : Outcome} (ha : Accounted s) (h : Stage s)
    (he : Effect w s r) : Ends r Stage fun _ => True := by
  have hdirect : Unlinked s ∨ (∃ req, Linked s req) ∨ Over s → Direct s ∧ Booked s := by
    rintro (hu | ⟨_, hl⟩ | ho)
    · exact ⟨hu.direct, hu.direct.booked ha hu.once⟩
    · exact ⟨hl.direct, hl.direct.booked ha hl.once⟩
    · exact ⟨ho.direct, ho.direct.booked ha ho.once⟩
  have hsteady := effect_steadily he
  by_cases hl : serial s.log = false ∨ ∃ req, .request req ∈ s.log ∧ req.method = .CONNECT
  · exact Ends.mono hsteady (fun _ hs => hs.left hl) fun _ _ => trivial
  have hstage : Direct s ∧ Booked s := by
    apply hdirect
    cases h with
    | idle hu => exact .inl hu
    | waiting _ hu => exact .inl hu
    | linked req hl => exact .inr (.inl ⟨req, hl⟩)
    | done ho => exact .inr (.inr ho)
    | left hleft => exact absurd hleft hl
  obtain ⟨hd, hb⟩ := hstage
  clear hdirect hsteady
  cases he with
  | quiet hq hs => exact h.stays ((hq noSide).toLoose.stays hs)
  | clientData data _ => exact h.note rfl fun _ => rfl
  | upstreamData data _ _ => exact h.note rfl fun _ => rfl
  | tunnelUp c data ht _ => exact absurd (hd.tunnel.symm.trans ht) (by decide)
  | tunnelDown data ht _ => exact absurd (hd.tunnel.symm.trans ht) (by decide)
  | clientErrno errno => exact h.stays ⟨rfl, rfl, rfl, rfl, rfl, .refl _, .inl ⟨rfl, rfl⟩⟩
  | upstreamErrno errno => exact h.stays ⟨rfl, rfl, rfl, rfl, rfl, .refl _, .inl ⟨rfl, rfl⟩⟩
  | parserThrows => trivial
  | request ev codec req hh =>
    have hset : Stage { s with clientCodec_ := codec } :=
      h.stays ⟨rfl, rfl, rfl, rfl, rfl, .refl _, .inl ⟨rfl, rfl⟩⟩
    have hnoted : Stage ({ s with clientCodec_ := codec }.note (.clientParsed ev)) :=
      hset.note rfl fun _ => rfl
    have hbody : ∀ piece, ev ≠ .body piece := by
      rintro piece rfl
      simp [Http1Codec.handle] at hh
    have hbooked : Booked ({ s with clientCodec_ := codec }.note (.clientParsed ev)) :=
      hb.same (clientParsed_books s.ledger hbody) rfl rfl rfl rfl rfl rfl rfl rfl rfl
    exact hnoted.request (accounted_ok hbooked) req
  | requestBody piece =>
    refine Stage.stays (h.note (n := .clientParsed (.body piece)) rfl fun _ => rfl) ?_
    exact (quiet_onRequestBody (w := w) (toUpstream_any _) _).toLoose.stays
      (shuts_onRequestBody w _ _)
  | clientParsed ev codec emissions _ _ _ =>
    have hset : Stage { s with clientCodec_ := codec } :=
      h.stays ⟨rfl, rfl, rfl, rfl, rfl, .refl _, .inl ⟨rfl, rfl⟩⟩
    exact hset.note rfl fun _ => rfl
  | response ev codec resp hh _ => exact h.respond ha hh ev codec resp
  | responseBody piece hh =>
    exact (h.heard ha hh (.body piece) s.upstreamCodec_).stays
      ((quiet_onResponseBody (w := w) (toClient_any _)
        (Buffer.proper_empty.add piece).1).toLoose.stays (shuts_onResponseBody w _ _))
  | responseComplete hh =>
    have hheard := (h.heard ha hh .messageComplete s.upstreamCodec_).stays
      ((quiet_onResponseBody (w := w) (toClient_any _) Buffer.proper_empty).toLoose.stays
        (shuts_onResponseBody w _ _))
    obtain ⟨s₁, rfl | ⟨payload, url, rfl⟩, hst⟩ := onResponseComplete_stays
      ((s.note (.upstreamParsed .messageComplete)).onResponseBody w {})
    · exact hheard.stays hst
    · exact (hheard.note rfl fun _ => rfl).stays hst
  | upstreamParsed ev codec emissions hh _ _ _ _ => exact h.heard ha hh ev codec
  | badRequest => exact h.refuse ha
  | connected fd hfd =>
    have hremove : Stays s { s with loop_ := s.loop_.remove fd } :=
      ⟨rfl, rfl, rfl, rfl, rfl, remove_noNew _ _, .inl ⟨rfl, rfl⟩⟩
    have hb' : Booked { s with loop_ := s.loop_.remove fd } :=
      hb.same rfl rfl rfl rfl rfl rfl rfl rfl rfl rfl
    obtain ⟨e, hfde, hcb⟩ := Option.map_eq_some_iff.mp hfd
    cases h with
    | idle hu free => exact absurd hcb (free fd e hfde)
    | waiting req hu one busy current leads =>
      have hready : Ready { s with loop_ := s.loop_.remove fd } req :=
        ⟨hb', hu.stays hremove rfl rfl, one.remove hfd, busy, current, leads⟩
      exact hready.connected
    | linked req hlk => exact absurd hcb (hlk.free fd e hfde)
    | done ho =>
      have hshut : { s with loop_ := s.loop_.remove fd }.closed_ = true := ho.shut
      rw [onUpstreamConnected, if_pos hshut]
      exact Stage.done (ho.stays hremove)
    | left hleft => exact absurd hleft hl
  | handshake id t ht _ _ =>
    cases hb.pointers with
    | plain _ _ htls => simp [htls] at ht
    | upgrading hm => exact absurd (hd.mitm.symm.trans hm) (by decide)
    | intercepted hm => exact absurd (hd.mitm.symm.trans hm) (by decide)
  | destroyed => trivial

theorem start_stage (fd : Fd) (certGen payloadInspector : Bool) :
    Stage (start fd certGen payloadInspector) := by
  have hlog : (start fd certGen payloadInspector).log = [] := rfl
  have hbooks : (start fd certGen payloadInspector).ledger = {} := rfl
  refine .idle ⟨rfl, ⟨rfl, rfl, rfl⟩, rfl, rfl, rfl, rfl, by simp [hlog], by simp [hlog]⟩ ?_ rfl
    (.inl ⟨rfl, rfl⟩)
  have hempty : NoConnects (({} : KqueueLoop).openFd fd) := fun _ _ he => absurd he (by simp)
  exact hempty.mono (({ socket_ := fd, wired := true } : Connection).startRead_noNew _)

/-- The stage of a session at the end of a run, with its books. -/
theorem sessionRun_stage (w : World) (fd : Fd) (certGen payloadInspector : Bool)
    (events : List SessionEvent) :
    Ends (sessionRun w (.ok (start fd certGen payloadInspector)) events)
      (fun s => Accounted s ∧ Stage s) fun _ => True := by
  refine sessionRun_effects (fun s r hs he => ?_)
    ⟨accounted_ok (start_booked fd certGen _), start_stage fd certGen _⟩ events
  exact Ends.mono ((effect_accounted hs.1 he).and (effect_stage hs.1 hs.2 he)) (fun _ => id)
    fun _ _ => trivial

end Session

end DeepSeer
