import DeepSeer.FallibleRuns
import DeepSeer.Runs
import DeepSeer.SessionCloses

/-!
Every event of a session is a sequence of acts, each one call of a handler in a
state that its caller has checked. Every act is quiet or one of the few effects
that are not. What the effects keep, a run of the session keeps, and a crash of
the run is the crash of one act.
-/
namespace DeepSeer

open ByteMemory ByteText FallibleRuns

inductive Act where
  | clientEvent (ev : ParserEvent)
  | upstreamEvent (ev : ParserEvent)
  | clientErrno (errno : Errno)
  | upstreamErrno (errno : Errno)
  | badRequest
  | close (cause : CloseCause) (early : cause ≠ .responseComplete)
  | clientData (data : Bytes)
  | upstreamData (data : Bytes)
  | tunnelUp (data : Buffer) (proper : data.Proper)
  | tunnelDown (data : Buffer) (proper : data.Proper)
  | clientEnd
  | clientFail
  | upstreamEnd
  | upstreamFail
  | clientFlush
  | upstreamFlush
  | connected (fd : Fd)
  | handshake (id : Nat)
  | tlsEnd (id : Nat) (wired : Bool) (err : SslError)
  | tlsFlush (id : Nat)
  | destroyed

namespace Session

/-- What an act does. An act whose guard fails does nothing. -/
def perform (w : World) (s : Session) : Act → Outcome
  | .clientEvent ev => s.clientEvent w ev
  | .upstreamEvent ev => if s.hears then s.upstreamEvent w ev else .ok s
  | .clientErrno errno => .ok { s with clientCodec_.errno := errno }
  | .upstreamErrno errno => .ok { s with upstreamCodec_.errno := errno }
  | .badRequest => .ok ((s.sendError w 400 (text "Bad Request")).close .clientParseError)
  | .close cause _ => .ok (s.close cause)
  | .clientData data =>
    match s.isTunnel_, s.upstream_ with
    | true, some _ => .ok s
    | _, _ => .ok (s.note (.clientData data))
  | .upstreamData data =>
    if s.hears ∧ s.isTunnel_ = false then .ok (s.note (.upstreamData data)) else .ok s
  | .tunnelUp data _ =>
    match s.isTunnel_, s.upstream_ with
    | true, some c => .ok ((s.note (.clientData data.linearize)).writeUpstream w c data).1
    | _, _ => .ok s
  | .tunnelDown data _ =>
    if s.isTunnel_ then .ok ((s.note (.upstreamData data.linearize)).writeToClient w data).1
    else .ok s
  | .clientEnd =>
    match s.client_ with
    | none => .ok s
    | some c => .ok (if c.wired then s.closeClient.close .clientEnd else s.closeClient)
  | .clientFail =>
    match s.client_ with
    | none => .ok s
    | some c => .ok (if c.wired then s.close .clientError else s).closeClient
  | .upstreamEnd =>
    match s.upstream_ with
    | none => .ok s
    | some c => .ok (if c.wired then s.closeUpstream.close .upstreamEnd else s.closeUpstream)
  | .upstreamFail =>
    match s.upstream_ with
    | none => .ok s
    | some c => .ok (if c.wired then s.close .upstreamError else s).closeUpstream
  | .clientFlush =>
    match s.client_ with
    | none => .ok s
    | some c => .ok (s.afterClientFlush (c.handleWrite w.clientSend s.loop_))
  | .upstreamFlush =>
    match s.upstream_ with
    | none => .ok s
    | some c => .ok (s.afterUpstreamFlush (c.handleWrite (w.upstreamSend c.id) s.loop_))
  | .connected fd =>
    if (s.loop_.fdEntries_ fd).map FdEntry.callback = some .connect then
      { s with loop_ := s.loop_.remove fd }.onUpstreamConnected w
    else .ok s
  | .handshake id =>
    match s.tls[id]? with
    | none => .ok s
    | some t =>
      if t.closed_ = false ∧ t.handshakeDone_ = false then s.continueHandshake w id else .ok s
  | .tlsEnd id wired err => .ok (s.endTlsRead id wired err)
  | .tlsFlush id =>
    match s.tls[id]? with
    | none => .ok s
    | some t =>
      let (t, loop) := t.doWrite (w.sslWrite id) id s.loop_
      .ok (s.setTls id t loop)
  | .destroyed => s.crash .destroyed

abbrev Acts (w : World) : Session → Outcome → Prop := Comes (perform w)

theorem acts_single (w : World) (s : Session) (a : Act) : Acts w s (s.perform w a) :=
  Comes.single s a

/-- The effect of a parser callback on the client side: an exception, a request,
a piece of a body, or a change of the parse state only. -/
theorem clientEvent_cases (w : World) (s : Session) (ev : ParserEvent) :
    (s.clientCodec_.handle ev = none ∧ s.clientEvent w ev = s.crash .exception) ∨
    (∃ codec req, s.clientCodec_.handle ev = some (codec, [.request req]) ∧
      s.clientEvent w ev =
        ({ s with clientCodec_ := codec }.note (.clientParsed ev)).onRequest w req) ∨
    (∃ piece, ev = .body piece ∧ s.clientEvent w ev =
      .ok ((s.note (.clientParsed ev)).onRequestBody w (({} : Buffer).add piece))) ∨
    (∃ codec emissions, (∀ piece, ev ≠ .body piece) ∧
      s.clientCodec_.handle ev = some (codec, emissions) ∧ (∀ req, .request req ∉ emissions) ∧
      s.clientEvent w ev = .ok ({ s with clientCodec_ := codec }.note (.clientParsed ev))) := by
  cases ev with
  | headersComplete info =>
    by_cases ht : s.clientCodec_.type = .request
    · have hc := Http1Codec.onHeadersComplete_request ht info
      cases hf : Http1Codec.findHost
          (Http1Codec.requestHead s.clientCodec_.finishHeader.currentRequest_ info) with
      | none =>
        have hh : s.clientCodec_.handle (.headersComplete info) = none := by
          simp [Http1Codec.handle, hc, hf]
        exact .inl ⟨hh, by simp [clientEvent, hh]⟩
      | some req =>
        rw [hf, Option.map_some] at hc
        have hh := congrArg (Option.map fun r : Http1Codec × Emission => (r.1, [r.2])) hc
        exact .inr (.inl ⟨_, req, hh, by
          simp only [clientEvent, Http1Codec.handle, hc, Option.map_some, List.foldlM_cons,
            List.foldlM_nil, clientEmission, bind_pure]⟩)
    · have hc := Http1Codec.onHeadersComplete_response ht info
      have hh := congrArg (Option.map fun r : Http1Codec × Emission => (r.1, [r.2])) hc
      refine .inr (.inr (.inr ⟨_, _, by simp, hh, by simp, ?_⟩))
      simp only [clientEvent, Http1Codec.handle, hc, Option.map_some, List.foldlM_cons,
        List.foldlM_nil, clientEmission, bind_pure]
  | body piece => exact .inr (.inr (.inl ⟨piece, rfl, rfl⟩))
  | _ => exact .inr (.inr (.inr ⟨_, _, by simp, rfl, by simp, rfl⟩))

/-- The effect of a parser callback on the upstream side. -/
theorem upstreamEvent_cases (w : World) (s : Session) (ev : ParserEvent) :
    (s.upstreamCodec_.handle ev = none ∧ s.upstreamEvent w ev = s.crash .exception) ∨
    (∃ codec resp, s.upstreamCodec_.handle ev = some (codec, [.response resp]) ∧
      s.upstreamEvent w ev =
        .ok (({ s with upstreamCodec_ := codec }.note (.upstreamParsed ev)).onResponse w resp)) ∨
    (∃ piece, ev = .body piece ∧ s.upstreamEvent w ev =
      .ok ((s.note (.upstreamParsed ev)).onResponseBody w (({} : Buffer).add piece))) ∨
    (ev = .messageComplete ∧ s.upstreamEvent w ev =
      .ok (((s.note (.upstreamParsed ev)).onResponseBody w {}).onResponseComplete)) ∨
    (∃ codec emissions, (∀ piece, ev ≠ .body piece) ∧ ev ≠ .messageComplete ∧
      s.upstreamCodec_.handle ev = some (codec, emissions) ∧
      (∀ resp, .response resp ∉ emissions) ∧
      s.upstreamEvent w ev = .ok ({ s with upstreamCodec_ := codec }.note (.upstreamParsed ev))) := by
  cases ev with
  | headersComplete info =>
    by_cases ht : s.upstreamCodec_.type = .request
    · have hc := Http1Codec.onHeadersComplete_request ht info
      cases hf : Http1Codec.findHost
          (Http1Codec.requestHead s.upstreamCodec_.finishHeader.currentRequest_ info) with
      | none =>
        have hh : s.upstreamCodec_.handle (.headersComplete info) = none := by
          simp [Http1Codec.handle, hc, hf]
        exact .inl ⟨hh, by simp [upstreamEvent, hh]⟩
      | some req =>
        rw [hf, Option.map_some] at hc
        have hh := congrArg (Option.map fun r : Http1Codec × Emission => (r.1, [r.2])) hc
        refine .inr (.inr (.inr (.inr ⟨_, _, by simp, by simp, hh, by simp, ?_⟩)))
        simp only [upstreamEvent, Http1Codec.handle, hc, Option.map_some, List.foldlM_cons,
          List.foldlM_nil, upstreamEmission, bind_pure]
    · have hc := Http1Codec.onHeadersComplete_response ht info
      have hh := congrArg (Option.map fun r : Http1Codec × Emission => (r.1, [r.2])) hc
      refine .inr (.inl ⟨_, _, hh, ?_⟩)
      simp only [upstreamEvent, Http1Codec.handle, hc, Option.map_some, List.foldlM_cons,
        List.foldlM_nil, upstreamEmission, bind_pure]
  | body piece => exact .inr (.inr (.inl ⟨piece, rfl, rfl⟩))
  | messageComplete => exact .inr (.inr (.inr (.inl ⟨rfl, rfl⟩)))
  | _ => exact .inr (.inr (.inr (.inr ⟨_, _, by simp, by simp, rfl, by simp, rfl⟩)))

theorem decodeClient_acts (w : World) (s : Session) (report : ParserReport) :
    Acts w s (s.decodeClient w report) := by
  unfold decodeClient
  split
  · exact .done s
  · exact (Comes.foldlM (fun s ev _ => acts_single w s (.clientEvent ev))
      (fun _ _ _ => ends_trivial _) _ trivial).bind
      fun s => acts_single w s (.clientErrno report.errno)

/-- The upstream keeps its callbacks while its data is parsed. -/
theorem upstreamEvent_hears (w : World) {s : Session} (hs : s.hears = true) (ev : ParserEvent) :
    Ends (s.upstreamEvent w ev) (fun s' => s'.hears = true) fun _ => True := by
  rcases upstreamEvent_cases w s ev with ⟨-, h⟩ | ⟨codec, resp, -, h⟩ | ⟨piece, rfl, h⟩ |
    ⟨rfl, h⟩ | ⟨codec, emissions, -, -, -, -, h⟩ <;> rw [h]
  · trivial
  · refine (quiet_writeToClient (w := w) (toClient_any _)
      (Http1Codec.encodeResponse_proper _).1).toLoose.hears ?_
    split <;> exact hs
  · exact (quiet_onResponseBody (w := w) (toClient_any _)
      (Buffer.proper_empty.add piece).1).toLoose.hears hs
  · exact ((quiet_onResponseBody (w := w) (toClient_any _) Buffer.proper_empty).trans
      (quiet_onResponseComplete trivial _)).toLoose.hears hs
  · exact hs

theorem decodeUpstream_hears (w : World) {s : Session} (hs : s.hears = true)
    (report : ParserReport) :
    Ends (s.decodeUpstream w report) (fun s' => s'.hears = true) fun _ => True := by
  unfold decodeUpstream
  split
  · exact hs
  · exact (Ends.foldlM (fun s ev hs => upstreamEvent_hears w hs ev) _ hs).bind fun _ hs' => hs'

theorem decodeUpstream_acts (w : World) {s : Session} (hs : s.hears = true)
    (report : ParserReport) : Acts w s (s.decodeUpstream w report) := by
  unfold decodeUpstream
  split
  · exact .done s
  · refine (Comes.foldlM (fun s ev hs => ?_) (fun s ev hs => upstreamEvent_hears w hs ev) _
      hs).bind fun s => acts_single w s (.upstreamErrno report.errno)
    have hact := acts_single w s (.upstreamEvent ev)
    simpa only [perform, hs, if_true] using hact

theorem onClientData_acts (w : World) (s : Session) {data : Buffer} (h : data.Proper)
    (report : ParserReport) : Acts w s (s.onClientData w data report) := by
  have hdecode : ∀ s : Session, Acts w s (do
      let s ← s.decodeClient w report
      if s.clientCodec_.errno = .failed then
        .ok ((s.sendError w 400 (text "Bad Request")).close .clientParseError)
      else .ok s) := by
    intro s
    refine (decodeClient_acts w s report).bind fun s => ?_
    split
    · exact acts_single w s .badRequest
    · exact .done s
  have hplain : (∀ c, s.isTunnel_ = true → s.upstream_ = some c → False) →
      s.perform w (.clientData data.linearize) = .ok (s.note (.clientData data.linearize)) := by
    intro hn
    simp only [perform]
  unfold onClientData
  dsimp only
  split
  · next c ht hu =>
    have hact := acts_single w s (.tunnelUp data h)
    simpa only [perform, show s.isTunnel_ = true from ht, show s.upstream_ = some c from hu]
      using hact
  · next hn => exact .act _ (hplain hn) (hdecode _)

theorem onUpstreamData_acts (w : World) {s : Session} {data : Buffer}
    (hs : s.isTunnel_ = false → s.hears = true) (h : data.Proper) (report : ParserReport) :
    Acts w s (s.onUpstreamData w data report) := by
  unfold onUpstreamData
  dsimp only
  split
  · next ht =>
    have hact := acts_single w s (.tunnelDown data h)
    simpa only [perform, show s.isTunnel_ = true from ht, if_true] using hact
  · next ht =>
    have hn : s.isTunnel_ = false := by simpa [note] using ht
    have hplain : s.perform w (.upstreamData data.linearize) =
        .ok (s.note (.upstreamData data.linearize)) := by
      simp only [perform]
      exact if_pos ⟨hs hn, hn⟩
    refine .act _ hplain ?_
    refine (decodeUpstream_acts w (s := s.note (.upstreamData data.linearize)) (hs hn)
      report).bind fun s => ?_
    split
    · exact acts_single w s (.close .upstreamParseError (by decide))
    · exact .done s

theorem clientRead_acts (w : World) (s : Session) (a : Arrival) : Acts w s (s.clientRead w a) := by
  unfold clientRead
  cases hc : s.client_ with
  | none => exact .fails .destroyed rfl
  | some c =>
    have hsame : { s with client_ := some c, loop_ := s.loop_ } = s := by rw [← hc]
    dsimp only
    rcases c.handleRead_cases a.answer s.loop_ with h | ⟨buf, hp, h⟩ | h | h
    · simp only [h, hsame]
      exact .done s
    · simp only [h, hsame]
      split
      · exact onClientData_acts w s hp a.report
      · exact .done s
    · have hact := acts_single w s .clientEnd
      simp only [perform, hc, closeClient] at hact
      have hw : (c.close s.loop_).1.wired = c.wired := by unfold Connection.close; split <;> rfl
      simpa only [h, hw] using hact
    · have hact := acts_single w s .clientFail
      simp only [perform, hc] at hact
      simpa only [h, hsame] using hact

theorem upstreamRead_acts (w : World) (s : Session) (id : Nat) (a : Arrival) :
    Acts w s (s.upstreamRead w id a) := by
  unfold upstreamRead
  cases hc : s.upstream_ with
  | none => exact .fails .destroyed rfl
  | some c =>
    have hsame : { s with upstream_ := some c, loop_ := s.loop_ } = s := by rw [← hc]
    dsimp only
    split
    · exact .fails .destroyed rfl
    rcases c.handleRead_cases a.answer s.loop_ with h | ⟨buf, hp, h⟩ | h | h
    · simp only [h, hsame]
      exact .done s
    · simp only [h, hsame]
      split
      · next hw => exact onUpstreamData_acts w (fun ht => by simp [hears, ht, hc, hw]) hp a.report
      · exact .done s
    · have hact := acts_single w s .upstreamEnd
      simp only [perform, hc, closeUpstream] at hact
      have hw : (c.close s.loop_).1.wired = c.wired := by unfold Connection.close; split <;> rfl
      simpa only [h, hw] using hact
    · have hact := acts_single w s .upstreamFail
      simp only [perform, hc] at hact
      simpa only [h, hsame] using hact

theorem clientFlush_acts (w : World) (s : Session) : Acts w s (s.clientFlush w) := by
  unfold clientFlush
  cases hc : s.client_ with
  | none => exact .fails .destroyed rfl
  | some c =>
    have hact := acts_single w s .clientFlush
    simpa only [perform, hc] using hact

theorem upstreamFlush_acts (w : World) (s : Session) (id : Nat) :
    Acts w s (s.upstreamFlush w id) := by
  unfold upstreamFlush
  cases hc : s.upstream_ with
  | none => exact .fails .destroyed rfl
  | some c =>
    dsimp only
    split
    · exact .fails .destroyed rfl
    · have hact := acts_single w s .upstreamFlush
      simpa only [perform, hc] using hact

theorem connectionReady_acts (w : World) (s : Session) (id : Nat) (a : Arrival) :
    Acts w s (s.connectionReady w id a) := by
  have hread : Acts w s (s.connectionReadable w id a) := by
    unfold connectionReadable
    split
    · split
      · exact clientRead_acts w s a
      · exact upstreamRead_acts w s id a
    · exact .done s
  refine hread.bind fun s => ?_
  split
  · split
    · exact clientFlush_acts w s
    · exact upstreamFlush_acts w s id
  · exact .done s

/-- Data of a TLS upstream with callbacks comes while the session hears it. -/
def HeardFrom (t : TlsConnection) (s : Session) : Prop :=
  t.wired = true → t.isServer_ = false → s.hears = true

theorem onTlsData_acts (w : World) {s : Session} {t : TlsConnection} (h : HeardFrom t s)
    (report : ParserReport) : Acts w s (s.onTlsData w t report) := by
  unfold onTlsData
  split
  · exact .done s
  · next hw =>
    split
    · refine (decodeClient_acts w s report).bind fun s => ?_
      split
      · exact acts_single w s (.close .clientParseError (by decide))
      · exact .done s
    · next hserver =>
      refine (decodeUpstream_acts w (h (by simpa using hw) (by simpa using hserver)) report).bind
        fun s => ?_
      split
      · exact acts_single w s (.close .upstreamParseError (by decide))
      · exact .done s

theorem onTlsData_heard (w : World) {s : Session} {t : TlsConnection} (h : HeardFrom t s)
    (report : ParserReport) : Ends (s.onTlsData w t report) (HeardFrom t) fun _ => True := by
  unfold onTlsData
  split
  · exact h
  · next hw =>
    split
    · next hserver =>
      exact Ends.mono (ends_trivial _)
        (fun s' _ _ hs => absurd (hserver.symm.trans hs) (by decide)) fun _ => id
    · next hserver =>
      refine (decodeUpstream_hears w (h (by simpa using hw) (by simpa using hserver)) report).bind
        fun s hs => ?_
      split
      · exact fun _ _ => (quiet_close (w := w) (D := anySide) s _).toLoose.hears hs
      · exact fun _ _ => hs

theorem tlsReady_acts (w : World) (s : Session) (id : Nat) (a : Arrival) :
    Acts w s (s.tlsReady w id a) := by
  unfold tlsReady
  cases ht : s.tls[id]? with
  | none => exact .fails .destroyed rfl
  | some t =>
    dsimp only
    by_cases hc : t.closed_ = true
    · simp only [hc, if_true]
      exact .done s
    by_cases hd : t.handshakeDone_ = false
    · have hact := acts_single w s (.handshake id)
      simp only [perform, ht, hd, and_true] at hact
      simpa [hc, hd] using hact
    rw [if_neg hc, if_neg hd]
    have hread : Acts w s (s.tlsRead w id t a) := by
      unfold tlsRead
      split
      · have hs : HeardFrom t s := fun hw hserver => by
          simp only [hears, Bool.or_eq_true, List.any_eq_true]
          exact .inr ⟨t, List.mem_of_getElem? ht, by simp [hw, hserver]⟩
        exact (Comes.foldlM (fun s report h => onTlsData_acts w h report)
          (fun s report h => onTlsData_heard w h report) a.reads hs).bind
          fun s => acts_single w s (.tlsEnd id t.wired a.readEnd)
      · exact .done s
    refine hread.bind fun s => ?_
    cases ht' : s.tls[id]? with
    | none => exact .fails .destroyed rfl
    | some t' =>
      dsimp only
      split
      · exact .done s
      · have hact := acts_single w s (.tlsFlush id)
        simpa only [perform, ht'] using hact

/-- A report of the kernel is handled by acts. -/
theorem ready_acts (w : World) (s : Session) (fd : Fd) (a : Arrival) :
    Acts w s (s.ready w fd a) := by
  unfold ready
  cases he : s.loop_.fdEntries_ fd with
  | none => exact .done s
  | some entry =>
    cases hcb : entry.callback with
    | connection id =>
      simp only [hcb]
      exact connectionReady_acts w s id a
    | connect =>
      have hact := acts_single w s (.connected fd)
      simp only [perform, he, Option.map_some, hcb, if_true] at hact
      simpa only [hcb] using hact
    | tls id =>
      simp only [hcb]
      exact tlsReady_acts w s id a

/-- What an act can do. Most acts are quiet; the others are the callbacks of the
parsers, the refusal of a bad request, a connect and a handshake. -/
inductive Effect (w : World) (s : Session) : Outcome → Prop
  | quiet {s' : Session} : (∀ D, Quiet w D s s') → Shuts s s' → Effect w s (.ok s')
  | clientData (data : Bytes) :
      s.isTunnel_ = false ∨ s.upstream_ = none → Effect w s (.ok (s.note (.clientData data)))
  | upstreamData (data : Bytes) :
      s.hears = true → s.isTunnel_ = false → Effect w s (.ok (s.note (.upstreamData data)))
  | tunnelUp (c : Connection) (data : Buffer) :
      s.isTunnel_ = true → s.upstream_ = some c →
      Effect w s (.ok ((s.note (.clientData data.linearize)).writeUpstream w c data).1)
  | tunnelDown (data : Buffer) :
      s.isTunnel_ = true → data.Proper →
      Effect w s (.ok ((s.note (.upstreamData data.linearize)).writeToClient w data).1)
  | clientErrno (errno : Errno) : Effect w s (.ok { s with clientCodec_.errno := errno })
  | upstreamErrno (errno : Errno) : Effect w s (.ok { s with upstreamCodec_.errno := errno })
  | parserThrows : Effect w s (s.crash .exception)
  | request (ev : ParserEvent) (codec : Http1Codec) (req : HttpRequest) :
      s.clientCodec_.handle ev = some (codec, [.request req]) →
      Effect w s (({ s with clientCodec_ := codec }.note (.clientParsed ev)).onRequest w req)
  | requestBody (piece : Bytes) :
      Effect w s (.ok ((s.note (.clientParsed (.body piece))).onRequestBody w
        (({} : Buffer).add piece)))
  | clientParsed (ev : ParserEvent) (codec : Http1Codec) (emissions : List Emission) :
      (∀ piece, ev ≠ .body piece) → s.clientCodec_.handle ev = some (codec, emissions) →
      (∀ req, .request req ∉ emissions) →
      Effect w s (.ok ({ s with clientCodec_ := codec }.note (.clientParsed ev)))
  | response (ev : ParserEvent) (codec : Http1Codec) (resp : HttpResponse) :
      s.hears = true → s.upstreamCodec_.handle ev = some (codec, [.response resp]) →
      Effect w s (.ok (({ s with upstreamCodec_ := codec }.note (.upstreamParsed ev)).onResponse
        w resp))
  | responseBody (piece : Bytes) :
      s.hears = true → Effect w s (.ok ((s.note (.upstreamParsed (.body piece))).onResponseBody w
        (({} : Buffer).add piece)))
  | responseComplete :
      s.hears = true → Effect w s (.ok (((s.note (.upstreamParsed .messageComplete)).onResponseBody w
        {}).onResponseComplete))
  | upstreamParsed (ev : ParserEvent) (codec : Http1Codec) (emissions : List Emission) :
      s.hears = true → (∀ piece, ev ≠ .body piece) → ev ≠ .messageComplete →
      s.upstreamCodec_.handle ev = some (codec, emissions) →
      (∀ resp, .response resp ∉ emissions) →
      Effect w s (.ok ({ s with upstreamCodec_ := codec }.note (.upstreamParsed ev)))
  | badRequest :
      Effect w s (.ok ((s.sendError w 400 (text "Bad Request")).close .clientParseError))
  | connected (fd : Fd) :
      (s.loop_.fdEntries_ fd).map FdEntry.callback = some .connect →
      Effect w s ({ s with loop_ := s.loop_.remove fd }.onUpstreamConnected w)
  | handshake (id : Nat) (t : TlsConnection) :
      s.tls[id]? = some t → t.closed_ = false → t.handshakeDone_ = false →
      Effect w s (s.continueHandshake w id)
  | destroyed : Effect w s (s.crash .destroyed)

theorem effect_refl (w : World) (s : Session) : Effect w s (.ok s) :=
  .quiet (fun D => .refl w D s) (.refl s)

theorem perform_effect (w : World) (s : Session) (a : Act) : Effect w s (s.perform w a) := by
  cases a with
  | clientEvent ev =>
    rcases clientEvent_cases w s ev with ⟨-, h⟩ | ⟨codec, req, hh, h⟩ | ⟨piece, rfl, h⟩ |
      ⟨codec, emissions, hb, hh, hr, h⟩ <;> rw [perform, h]
    · exact .parserThrows
    · exact .request ev codec req hh
    · exact .requestBody piece
    · exact .clientParsed ev codec emissions hb hh hr
  | upstreamEvent ev =>
    by_cases hs : s.hears = true
    case neg =>
      simp only [perform, hs, Bool.false_eq_true, if_false]
      exact effect_refl w s
    rcases upstreamEvent_cases w s ev with ⟨-, h⟩ | ⟨codec, resp, hh, h⟩ | ⟨piece, rfl, h⟩ |
      ⟨rfl, h⟩ | ⟨codec, emissions, hb, hm, hh, hr, h⟩ <;> rw [perform, if_pos hs, h]
    · exact .parserThrows
    · exact .response ev codec resp hs hh
    · exact .responseBody piece hs
    · exact .responseComplete hs
    · exact .upstreamParsed ev codec emissions hs hb hm hh hr
  | clientErrno errno => exact .clientErrno errno
  | upstreamErrno errno => exact .upstreamErrno errno
  | badRequest => exact .badRequest
  | close cause early => exact .quiet (fun D => quiet_close s cause) (shuts_close s early)
  | clientData data =>
    simp only [perform]
    split
    · exact effect_refl w s
    · next hn =>
      refine .clientData data ?_
      cases ht : s.isTunnel_ with
      | false => exact .inl rfl
      | true =>
        cases hu : s.upstream_ with
        | none => exact .inr rfl
        | some c => exact (hn c ht hu).elim
  | upstreamData data =>
    simp only [perform]
    split
    · next h => exact .upstreamData data h.1 h.2
    · exact effect_refl w s
  | tunnelUp data proper =>
    simp only [perform]
    split
    · next ht hu => exact .tunnelUp _ data ht hu
    · exact effect_refl w s
  | tunnelDown data proper =>
    simp only [perform]
    split
    · next ht => exact .tunnelDown data ht proper
    · exact effect_refl w s
  | clientEnd =>
    simp only [perform]
    split
    · exact effect_refl w s
    · next c hc =>
      exact .quiet (fun D => quiet_clientEnd hc) (shuts_clientEnd s c.wired)
  | clientFail =>
    simp only [perform]
    split
    · exact effect_refl w s
    · next c hc =>
      exact .quiet (fun D => quiet_clientFail hc)
        ((shuts_fail s c.wired (by decide)).trans (shuts_closeClient _))
  | upstreamEnd =>
    simp only [perform]
    split
    · exact effect_refl w s
    · next c hc =>
      exact .quiet (fun D => quiet_upstreamEnd hc) (shuts_upstreamEnd s c.wired)
  | upstreamFail =>
    simp only [perform]
    split
    · exact effect_refl w s
    · next c hc =>
      exact .quiet (fun D => quiet_upstreamFail hc)
        ((shuts_fail s c.wired (by decide)).trans (shuts_closeUpstream _))
  | clientFlush =>
    simp only [perform]
    split
    · exact effect_refl w s
    · next hc => exact .quiet (fun D => quiet_clientFlush hc) (shuts_afterClientFlush s _ _ _)
  | upstreamFlush =>
    simp only [perform]
    split
    · exact effect_refl w s
    · next hc => exact .quiet (fun D => quiet_upstreamFlush hc) (shuts_afterUpstreamFlush s _ _ _)
  | connected fd =>
    simp only [perform]
    split
    · next h => exact .connected fd h
    · exact effect_refl w s
  | handshake id =>
    simp only [perform]
    split
    · exact effect_refl w s
    · next t ht =>
      split
      · next h => exact .handshake id t ht h.1 h.2
      · exact effect_refl w s
  | tlsEnd id wired err => 
    exact .quiet (fun D => quiet_endTlsRead s id wired err) (shuts_endTlsRead s id wired err)
  | tlsFlush id =>
    simp only [perform]
    split
    · exact effect_refl w s
    · next t ht =>
      exact .quiet (fun D => quiet_tlsFlush ht) (.kept rfl rfl)
  | destroyed => exact .destroyed

end Session

open Session

/-- A world in which every call succeeds at once with all that it is given. -/
def promptWorld : World where
  resolves _ _ := true
  createSocket k := some (10 + k)
  connect _ := .connected
  clientSend _ := .accepts 65536
  upstreamSend _ _ := .accepts 65536
  handshake _ _ := .done
  sslWrite _ _ := .accepts 65536
  generate _ := true

/-- Bytes that a plain connection reads, with what the parser makes of them. -/
def received (fd : Fd) (data : Bytes) (events : List ParserEvent) : SessionEvent :=
  .ready fd { fired := ⟨true, false⟩, answer := .bytes data, report := ⟨events, .ok⟩ }

/-- The session after a run of events, or the crash that ended the run. -/
def sessionRun (w : World) (r : Outcome) (events : List SessionEvent) : Outcome :=
  Runs.run (sessionStep w) r events

theorem sessionStep_comes (w : World) (s : Session) (e : SessionEvent) :
    Acts w s (sessionStep w (.ok s) e) := by
  cases e with
  | ready fd arrival => exact ready_acts w s fd arrival
  | close => exact acts_single w s (.close .external (by decide))

/-- A run goes on from the session that it starts with, if there is one. -/
theorem sessionRun_bind (w : World) (r : Outcome) (events : List SessionEvent) :
    sessionRun w r events = r >>= fun s => sessionRun w (.ok s) events := by
  cases r with
  | ok s => rfl
  | error crash =>
    induction events with
    | nil => rfl
    | cons e rest ih => exact ih

theorem sessionRun_comes (w : World) (s : Session) (events : List SessionEvent) :
    Acts w s (sessionRun w (.ok s) events) := by
  induction events generalizing s with
  | nil => exact .done s
  | cons e rest ih =>
    have hstep : sessionRun w (.ok s) (e :: rest) =
        sessionStep w (.ok s) e >>= fun s => sessionRun w (.ok s) rest :=
      sessionRun_bind w _ rest
    rw [hstep]
    exact (sessionStep_comes w s e).bind ih

/-- A run of events that succeeds is a run of acts. -/
theorem sessionRun_acts {w : World} {s s' : Session} {events : List SessionEvent}
    (h : sessionRun w (.ok s) events = .ok s') :
    ∃ acts : List Act, acts.foldlM (perform w) s = .ok s' :=
  (h ▸ sessionRun_comes w s events).acts

/-- What every act keeps holds at the end of every run. -/
theorem sessionRun_ends {w : World} {I : Session → Prop} {E : Crash → Prop}
    (hact : ∀ s a, I s → Ends (s.perform w a) I E) {r : Outcome} (h : Ends r I E)
    (events : List SessionEvent) : Ends (sessionRun w r events) I E := by
  rw [sessionRun_bind]
  exact h.bind fun s hs => (sessionRun_comes w s events).ends hact hs

/-- What every effect keeps holds at the end of every run. -/
theorem sessionRun_effects {w : World} {I : Session → Prop} {E : Crash → Prop}
    (h : ∀ s r, I s → Effect w s r → Ends r I E) {s : Session} (hs : I s)
    (events : List SessionEvent) : Ends (sessionRun w (.ok s) events) I E :=
  sessionRun_ends (r := .ok s) (fun s a hi => h s _ hi (perform_effect w s a)) hs events

end DeepSeer
