import DeepSeer.InspectedTargets

/-!
The input of a decode call. The parser may stop before the end of a buffer, when
it pauses, and it takes nothing in any later call; the buffer is drained to its end
all the same. A run of successful calls thus loses nothing exactly where no pause
leaves any bytes behind. The handlers of a session decode as the codec does here.
-/
namespace DeepSeer

open ByteMemory ByteText FallibleRuns Session

/-- What one call of `llhttp_execute` does with the bytes that it is given: its
callbacks and its error number, how many of the bytes it has taken, and what it
has to say of the error. -/
structure Execution where
  report : ParserReport
  consumed : Nat
  errnoName : Bytes := []
  errorReason : Bytes := []
  deriving DecidableEq, Repr

/-- `Error` with the code `ParseError`. -/
structure ParseError where
  message : Bytes
  deriving DecidableEq, Repr

/-- What a decode call leaves: the codec, what its owner is told on the way, and the
result. -/
structure Decoded where
  codec : Http1Codec
  calls : List Emission
  result : Except ParseError Unit

namespace Http1Codec

def parseError (x : Execution) : ParseError :=
  ⟨text "HTTP parse error: " ++ x.errnoName ++ text " (" ++ x.errorReason ++ text ")"⟩

/-- `decode` of a span. There is no result where an exception leaves a callback. -/
def decode (c : Http1Codec) (x : Execution) : Option Decoded :=
  let err := x.report.errno
  let fed := c.feed x.report.events
  fed.2.map fun d =>
    { codec := { d with errno := err }
      calls := fed.1
      result :=
        if err ≠ .ok ∧ err ≠ .paused ∧ err ≠ .pausedUpgrade then .error (parseError x) else .ok () }

/-- `HttpCodec::decode` of a buffer, where the parser does `parse` with the bytes of
the buffer, and the buffer after it. -/
def decodeBuffer (c : Http1Codec) (parse : Bytes → Execution) (buf : Buffer) :
    Option (Decoded × Buffer) :=
  let linear := buf.linearize
  (c.decode (parse linear)).map fun result => (result, buf.drain buf.length)

/-- What llhttp promises of a call: it takes all the bytes if nothing stops it, and
once it has stopped, with an error or for an upgrade, it does so in every later call
at once. -/
structure Possible (c : Http1Codec) (data : Bytes) (x : Execution) : Prop where
  within : x.consumed ≤ data.length
  all : x.report.errno = .ok → x.consumed = data.length
  stuck : c.errno ≠ .ok → x.consumed = 0 ∧ x.report = ⟨[], c.errno⟩

/-- One decode call of a run. -/
structure DecodeCall where
  buf : Buffer
  x : Execution
  decoded : Decoded
  left : Buffer

/-- A run of decode calls, each on a buffer of its own, up to the first exception. -/
inductive Decodes : Http1Codec → List DecodeCall → Http1Codec → Prop
  | done (c : Http1Codec) : Decodes c [] c
  | call {c d : Http1Codec} {rest : List DecodeCall} (k : DecodeCall) (proper : k.buf.Proper)
      (possible : c.Possible k.buf.linearize k.x)
      (returns : c.decodeBuffer (fun _ => k.x) k.buf = some (k.decoded, k.left))
      (after : Decodes k.decoded.codec rest d) : Decodes c (k :: rest) d

/-- A successful call leaves in the buffer what the parser has not taken. -/
def DecodeCall.Keeps (k : DecodeCall) : Prop :=
  k.decoded.result = .ok () → k.left.linearize = k.buf.linearize.drop k.x.consumed

/-- A call does not pause before the end of its buffer, and if the parser was not
ready to begin with, then there is nothing in the buffer. -/
def DecodeCall.Unpaused (errno : Errno) (k : DecodeCall) : Prop :=
  (errno = .ok ∨ k.buf.empty = true) ∧ (k.x.report.errno = .ok ∨ k.x.consumed = k.buf.length)

/-- No call of a run pauses before the end of its buffer or comes with bytes after
a pause. Calls that fail do not count. -/
def Unpaused : Errno → List DecodeCall → Prop
  | _, [] => True
  | errno, k :: rest =>
    (k.x.report.errno = .failed ∨ k.Unpaused errno) ∧ Unpaused k.x.report.errno rest

theorem decode_errno {c : Http1Codec} {x : Execution} {r : Decoded} (h : c.decode x = some r) :
    r.codec.errno = x.report.errno := by
  unfold decode at h
  obtain ⟨d, -, rfl⟩ := Option.map_eq_some_iff.mp h
  rfl

theorem decode_success {c : Http1Codec} {x : Execution} {r : Decoded} (h : c.decode x = some r) :
    r.result = .ok () ↔ x.report.errno ≠ .failed := by
  unfold decode at h
  obtain ⟨d, -, rfl⟩ := Option.map_eq_some_iff.mp h
  cases x.report.errno <;> simp

/-- Whatever the parser does, the buffer is drained to its end. -/
theorem decodeBuffer_spec {c : Http1Codec} {parse : Bytes → Execution} {buf left : Buffer}
    (hb : buf.Proper) {r : Decoded} (h : c.decodeBuffer parse buf = some (r, left)) :
    c.decode (parse buf.linearize) = some r ∧ left.linearize = [] := by
  unfold decodeBuffer at h
  obtain ⟨d, hd, he⟩ := Option.map_eq_some_iff.mp h
  obtain ⟨rfl, rfl⟩ := Prod.mk.inj he
  refine ⟨hd, ?_⟩
  rw [(hb.drain _).2, show buf.length = buf.linearize.length from hb.represents.total,
    List.drop_length]

/-- The parser takes a whole buffer exactly where it is not paused before its end. -/
theorem Possible.consumed_iff {c : Http1Codec} {k : DecodeCall} (hb : k.buf.Proper)
    (h : c.Possible k.buf.linearize k.x) :
    k.x.consumed = k.buf.linearize.length ↔ k.Unpaused c.errno := by
  have hlength : k.buf.length = k.buf.linearize.length := hb.represents.total
  have hempty : k.buf.empty = true ↔ k.buf.linearize = [] := Buffer.empty_iff hb.represents
  rw [DecodeCall.Unpaused, hempty, hlength]
  constructor
  · intro hall
    refine ⟨?_, .inr hall⟩
    by_cases hc : c.errno = .ok
    · exact .inl hc
    · rw [(h.stuck hc).1] at hall
      exact .inr (List.eq_nil_of_length_eq_zero hall.symm)
  · rintro ⟨-, hok | hall⟩
    · exact h.all hok
    · exact hall

/-- One call keeps what the parser has not taken exactly where it takes everything. -/
theorem keeps_iff {c : Http1Codec} {k : DecodeCall} (hb : k.buf.Proper)
    (h : c.Possible k.buf.linearize k.x)
    (hr : c.decodeBuffer (fun _ => k.x) k.buf = some (k.decoded, k.left)) :
    k.Keeps ↔ k.x.report.errno = .failed ∨ k.Unpaused c.errno := by
  obtain ⟨hd, hleft⟩ := decodeBuffer_spec hb hr
  have hall : k.left.linearize = k.buf.linearize.drop k.x.consumed ↔ k.Unpaused c.errno := by
    rw [hleft, ← h.consumed_iff hb, eq_comm, List.drop_eq_nil_iff]
    exact ⟨fun hle => Nat.le_antisymm h.within hle, fun heq => heq.ge⟩
  rw [DecodeCall.Keeps, decode_success hd, hall, or_iff_not_imp_left]

/-- In a run of decode calls every successful call leaves in its buffer what the
parser has not taken exactly where none pauses before the end of its buffer or
comes with bytes after a pause. -/
theorem decodes_keep_iff {c d : Http1Codec} {calls : List DecodeCall} (h : Decodes c calls d) :
    (∀ k ∈ calls, k.Keeps) ↔ Unpaused c.errno calls := by
  induction h with
  | done c => simp [Unpaused]
  | call k proper possible returns after ih =>
    have hnext := decode_errno (decodeBuffer_spec proper returns).1
    rw [List.forall_mem_cons, keeps_iff proper possible returns, ih, hnext, Unpaused]

/-- A request that offers an upgrade. -/
def upgradeOffer : Bytes :=
  text "GET / HTTP/1.1\r\nConnection: Upgrade\r\nUpgrade: h2c\r\n\r\n"

/-- What the parser makes of the offer. -/
def offerEvents : List ParserEvent :=
  requestEvents [text "/"]
    [.whole (text "Connection") (text "Upgrade") (by decide),
      .whole (text "Upgrade") (text "h2c") (by decide)]
    { method := text "GET" } ++ [.messageComplete]

/-- The parser pauses behind the offer. -/
def offerPause : Execution := ⟨⟨offerEvents, .pausedUpgrade⟩, upgradeOffer.length, [], []⟩

def nextRequest : Bytes := text "GET /next HTTP/1.1\r\nHost: h\r\n\r\n"

/-- The parser takes a request to its end. -/
def nextWhole : Execution := ⟨⟨getOf (text "/next"), .ok⟩, nextRequest.length, [], []⟩

/-- A call of a fresh codec. -/
def freshCall (data : Bytes) (x : Execution) (h : (decode { type := .request } x).isSome) :
    DecodeCall where
  buf := ({} : Buffer).add data
  x := x
  decoded := (decode { type := .request } x).get h
  left := (({} : Buffer).add data).drain (({} : Buffer).add data).length

theorem freshCall_decodes {data : Bytes} {x : Execution}
    (h : (decode { type := .request } x).isSome) (possible : Possible { type := .request } data x) :
    Decodes { type := .request } [freshCall data x h] (freshCall data x h).decoded.codec := by
  obtain ⟨hproper, hdata⟩ := Buffer.proper_empty.add data
  have hreturns : decodeBuffer { type := .request } (fun _ => x) (({} : Buffer).add data) =
      some ((freshCall data x h).decoded, (freshCall data x h).left) :=
    congrArg (Option.map _) (Option.some_get h).symm
  exact .call _ hproper (hdata.symm ▸ possible) hreturns (.done _)

theorem decodes_keep_whole :
    (∀ k ∈ [freshCall nextRequest nextWhole (by decide +kernel)], k.Keeps) ↔
      Unpaused .ok [freshCall nextRequest nextWhole (by decide +kernel)] :=
  decodes_keep_iff (c := { type := .request })
    (freshCall_decodes _ ⟨by decide +kernel, by decide +kernel, fun h => absurd rfl h⟩)

end Http1Codec

namespace Session

/-- A computation ends with the codec, or with a crash if there is none. -/
def Follows (codec : Session → Http1Codec) (I : Session → Prop) (c : Option Http1Codec)
    (r : Outcome) : Prop :=
  Ends r (fun s => I s ∧ c = some (codec s)) fun _ => c = none

/-- Callbacks that each do to a codec of the session what they do to any codec. -/
theorem follows_feed {codec : Session → Http1Codec} {I : Session → Prop}
    {f : Session → ParserEvent → Outcome} {P : Emission → Prop}
    (hstep : ∀ s ev, I s →
      (∀ c calls, (codec s).handle ev = some (c, calls) → ∀ e ∈ calls, P e) →
      Follows codec I (((codec s).handle ev).map Prod.fst) (f s ev))
    (events : List ParserEvent) {s : Session} (hs : I s)
    (hp : ∀ e ∈ ((codec s).feed events).1, P e) :
    Follows codec I ((codec s).feed events).2 (events.foldlM f s) := by
  induction events generalizing s with
  | nil => exact ⟨hs, rfl⟩
  | cons ev rest ih =>
    rw [List.foldlM_cons]
    cases hh : (codec s).handle ev with
    | none =>
      have hfeed : (codec s).feed (ev :: rest) = ([], none) := by simp [Http1Codec.feed, hh]
      have hcrash := hstep s ev hs fun c calls heq => by
        rw [hh] at heq
        cases heq
      rw [hh] at hcrash
      rw [hfeed]
      exact hcrash.bind fun s' hs' => absurd hs'.2 (by simp)
    | some r =>
      obtain ⟨c, calls⟩ := r
      have hfeed : (codec s).feed (ev :: rest) =
          (calls ++ (c.feed rest).1, (c.feed rest).2) := by
        simp [Http1Codec.feed, hh]
      rw [hfeed] at hp ⊢
      have hnext := hstep s ev hs fun c' calls' heq e he => by
        rw [hh] at heq
        cases heq
        exact hp e (List.mem_append_left _ he)
      rw [hh] at hnext
      cases hf : f s ev with
      | error crash =>
        rw [hf] at hnext
        exact absurd hnext (by simp [Follows])
      | ok s' =>
        rw [hf] at hnext
        obtain rfl : c = codec s' := Option.some.inj hnext.2
        exact ih hnext.1 fun e he => hp e (List.mem_append_right _ he)

/-- A request in an interception goes on without a change of the codecs. -/
theorem sendRequest_codec (w : World) (s : Session) :
    (s.sendRequest w).clientCodec_ = s.clientCodec_ ∧
      (s.sendRequest w).isTlsMitm_ = s.isTlsMitm_ := by
  have hhead : Loose w anySide { s.note (.forwarded s.currentRequest_ s.link) with
      currentRequest_.url := originForm s.currentRequest_.url } (s.headSent w) :=
    (quiet_writeToUpstream (toUpstream_any _) _).toLoose
  have hrest : Loose w anySide (s.headSent w) (s.sendRequest w) := by
    rw [sendRequest_eq]
    split
    · exact Loose.refl _ _ _
    · exact (quiet_sendPending (toUpstream_any _)).toLoose
  exact ⟨hrest.clientCodec.trans hhead.clientCodec, hrest.isTlsMitm.trans hhead.isTlsMitm⟩

theorem upstreamEvent_follows (w : World) (s : Session) (ev : ParserEvent) :
    Follows upstreamCodec_ (fun _ => True) ((s.upstreamCodec_.handle ev).map Prod.fst)
      (s.upstreamEvent w ev) := by
  rcases upstreamEvent_cases w s ev with ⟨hh, he⟩ | ⟨codec, resp, hh, he⟩ | ⟨piece, rfl, he⟩ |
    ⟨rfl, he⟩ | ⟨codec, calls, -, -, hh, -, he⟩ <;> rw [he]
  · rw [hh]
    rfl
  · rw [hh]
    refine ⟨trivial, congrArg some (Eq.symm ?_)⟩
    unfold onResponse answer
    dsimp only
    split
    · exact (quiet_writeToClient (w := w) (toClient_any _)
        (Http1Codec.encodeResponse_proper _).1).toLoose.upstreamCodec
    · exact (quiet_writeToClient (w := w) (toClient_any _)
        (Http1Codec.encodeResponse_proper _).1).toLoose.upstreamCodec
  · have hquiet : Quiet w anySide (s.note (.upstreamParsed (.body piece))) _ :=
      quiet_onResponseBody (toClient_any _) (pieceBuffer piece).1
    exact ⟨trivial, congrArg some hquiet.toLoose.upstreamCodec.symm⟩
  · have hquiet : Quiet w anySide (s.note (.upstreamParsed .messageComplete)) _ :=
      (quiet_onResponseBody (toClient_any _) Buffer.proper_empty).trans
        (quiet_onResponseComplete (D := anySide) trivial _)
    exact ⟨trivial, congrArg some hquiet.toLoose.upstreamCodec.symm⟩
  · rw [hh]
    exact ⟨trivial, rfl⟩

/-- No request of the calls asks for a tunnel. -/
def PlainCall (e : Emission) : Prop := ∀ req, e = .request req → req.method ≠ .CONNECT

theorem clientEvent_follows (w : World) {s : Session} (hm : s.isTlsMitm_ = true)
    (ev : ParserEvent)
    (hplain : ∀ c calls, s.clientCodec_.handle ev = some (c, calls) → ∀ e ∈ calls, PlainCall e) :
    Follows clientCodec_ (fun s => s.isTlsMitm_ = true) ((s.clientCodec_.handle ev).map Prod.fst)
      (s.clientEvent w ev) := by
  rcases clientEvent_cases w s ev with ⟨hh, he⟩ | ⟨codec, req, hh, he⟩ | ⟨piece, rfl, he⟩ |
    ⟨codec, calls, -, hh, -, he⟩ <;> rw [he]
  · rw [hh]
    rfl
  · rw [hh]
    have hmethod : req.method ≠ .CONNECT :=
      hplain codec _ hh _ (List.mem_singleton.mpr rfl) req rfl
    set s₁ := { s with clientCodec_ := codec }.note (.clientParsed ev) with hs₁
    have hm₁ : s₁.isTlsMitm_ = true := hm
    have hforward : s₁.onRequest w req =
        .ok (({ s₁.note (.request req) with currentRequest_ := req } : Session).sendRequest w) := by
      unfold onRequest forwardRequest prepareUpstream
      simp only [if_neg hmethod, note, hm₁, if_true]
      rfl
    rw [hforward]
    obtain ⟨hcodec, hmitm⟩ := sendRequest_codec w
      { s₁.note (.request req) with currentRequest_ := req }
    exact ⟨hmitm.trans hm, congrArg some hcodec.symm⟩
  · have hquiet : Quiet w anySide (s.note (.clientParsed (.body piece))) _ :=
      quiet_onRequestBody (toUpstream_any _) (({} : Buffer).add piece)
    exact ⟨hquiet.toLoose.isTlsMitm.trans hm, congrArg some hquiet.toLoose.clientCodec.symm⟩
  · rw [hh]
    exact ⟨hm, rfl⟩

/-- The result of a decode call from that of its callbacks. -/
theorem follows_decode {codec : Session → Http1Codec} {I : Session → Prop} {c : Http1Codec}
    {x : Execution} {r : Outcome} {f : Session → Session}
    (h : Follows codec I (c.feed x.report.events).2 r)
    (hf : ∀ s, I s → I (f s) ∧ codec (f s) = { codec s with errno := x.report.errno }) :
    Follows codec I ((c.decode x).map Decoded.codec) (r >>= fun s => .ok (f s)) := by
  have hdecode : (c.decode x).map Decoded.codec =
      (c.feed x.report.events).2.map fun d => { d with errno := x.report.errno } := by
    rw [Http1Codec.decode, Option.map_map]
    rfl
  rw [hdecode]
  cases r with
  | error crash =>
    change (c.feed x.report.events).2 = none at h
    rw [h]
    rfl
  | ok s =>
    obtain ⟨hi, hc⟩ := h
    rw [hc]
    exact ⟨(hf s hi).1, congrArg some (hf s hi).2.symm⟩

theorem follows_stuck {codec : Session → Http1Codec} {I : Session → Prop} {data : Bytes}
    {x : Execution} {s : Session} (hx : (codec s).Possible data x) (hs : I s)
    (hstuck : (codec s).errno ≠ .ok) :
    Follows codec I (((codec s).decode x).map Decoded.codec) (.ok s) := by
  obtain ⟨-, hreport⟩ := hx.stuck hstuck
  refine ⟨hs, ?_⟩
  rw [Http1Codec.decode, hreport]
  rfl

/-- The upstream handlers decode as the codec does by itself. -/
theorem decodeUpstream_follows (w : World) {s : Session} {data : Bytes} {x : Execution}
    (hx : s.upstreamCodec_.Possible data x) :
    Follows upstreamCodec_ (fun _ => True) ((s.upstreamCodec_.decode x).map Decoded.codec)
      (s.decodeUpstream w x.report) := by
  unfold decodeUpstream
  split
  · next hstuck => exact follows_stuck hx trivial hstuck
  · have hfeed : Follows upstreamCodec_ (fun _ => True)
        (s.upstreamCodec_.feed x.report.events).2 (x.report.events.foldlM (upstreamEvent w) s) :=
      follows_feed (P := fun _ => True) (fun s ev _ _ => upstreamEvent_follows w s ev)
        x.report.events trivial fun _ _ => trivial
    exact follows_decode hfeed fun _ _ => ⟨trivial, rfl⟩

/-- So does the client handler of an interception, apart from a `CONNECT` inside of it. -/
theorem decodeClient_follows (w : World) {s : Session} (hm : s.isTlsMitm_ = true) {data : Bytes}
    {x : Execution} (hx : s.clientCodec_.Possible data x)
    (hplain : ∀ e ∈ (s.clientCodec_.feed x.report.events).1, PlainCall e) :
    Follows clientCodec_ (fun s => s.isTlsMitm_ = true)
      ((s.clientCodec_.decode x).map Decoded.codec) (s.decodeClient w x.report) := by
  unfold decodeClient
  split
  · next hstuck => exact follows_stuck hx hm hstuck
  · have hfeed : Follows clientCodec_ (fun s => s.isTlsMitm_ = true)
        (s.clientCodec_.feed x.report.events).2 (x.report.events.foldlM (clientEvent w) s) :=
      follows_feed (fun s ev hs hp => clientEvent_follows w hs ev hp) x.report.events hm hplain
    exact follows_decode hfeed fun _ hs => ⟨hs, rfl⟩

end Session

/-- What comes over TLS from a side whose parser has paused leaves the session as it
was. -/
theorem Session.onTlsData_paused (w : World) {s : Session} {t : TlsConnection}
    (h : (if t.isServer_ then s.clientCodec_ else s.upstreamCodec_).errno = .pausedUpgrade)
    (report : ParserReport) : s.onTlsData w t report = .ok s := by
  unfold onTlsData
  split
  · rfl
  · split at h
    · next hs =>
      have hd : s.decodeClient w report = .ok s := if_pos (by rw [h]; decide)
      rw [if_pos hs, hd]
      exact if_neg (by rw [h]; decide)
    · next hs =>
      have hd : s.decodeUpstream w report = .ok s := if_pos (by rw [h]; decide)
      rw [if_neg hs, hd]
      exact if_neg (by rw [h]; decide)

/-- An interception whose first request offers an upgrade. -/
def offeredUpgrade : List SessionEvent :=
  intercepted ++
  [.ready 7 { fired := ⟨true, false⟩, reads := [⟨Http1Codec.offerEvents, .pausedUpgrade⟩] }]

def offeredSession : Session :=
  (sessionRun waitingWorld (.ok (start 7 true false)) offeredUpgrade).session

/-- A request that comes behind the offer in one buffer is drained unread. In an
interception every later request is lost as well, and nothing is reported. -/
theorem request_behind_offer_drained :
    let data := Http1Codec.upgradeOffer ++ Http1Codec.nextRequest
    let k := Http1Codec.freshCall data Http1Codec.offerPause (by decide +kernel)
    (∃ d, Http1Codec.Decodes { type := .request } [k] d) ∧ k.decoded.result = .ok () ∧
      k.buf.linearize.drop k.x.consumed = Http1Codec.nextRequest ∧ k.left.linearize = [] ∧
      ¬ k.Keeps ∧ (forwardedSince offeredSession.log).map (·.url) = [text "/"] ∧
      offeredSession.closed_ = false ∧
      ∀ (t : TlsConnection) (report : ParserReport), t.isServer_ = true →
        offeredSession.onTlsData waitingWorld t report = .ok offeredSession := by
  have hbuf : (({} : Buffer).add
      (Http1Codec.upgradeOffer ++ Http1Codec.nextRequest)).linearize =
      Http1Codec.upgradeOffer ++ Http1Codec.nextRequest :=
    (Buffer.proper_empty.add _).2
  have hleft : ((Http1Codec.freshCall (Http1Codec.upgradeOffer ++ Http1Codec.nextRequest)
      Http1Codec.offerPause (by decide +kernel)).left).linearize = [] := by
    decide +kernel
  have hrest : (({} : Buffer).add
      (Http1Codec.upgradeOffer ++ Http1Codec.nextRequest)).linearize.drop
        Http1Codec.offerPause.consumed = Http1Codec.nextRequest := by
    rw [hbuf]
    exact List.drop_left
  obtain ⟨hpaused, hurls, hopen⟩ :
      offeredSession.clientCodec_.errno = .pausedUpgrade ∧
        (forwardedSince offeredSession.log).map (·.url) = [text "/"] ∧
        offeredSession.closed_ = false := by
    decide +kernel
  have hpossible : Http1Codec.Possible { type := .request }
      (Http1Codec.upgradeOffer ++ Http1Codec.nextRequest) Http1Codec.offerPause :=
    ⟨by decide, fun h => absurd h (by decide), fun h => absurd rfl h⟩
  refine ⟨⟨_, Http1Codec.freshCall_decodes _ hpossible⟩, rfl, hrest, hleft, fun hkeeps => ?_,
    hurls, hopen, fun t report ht => ?_⟩
  · have hsame := hkeeps rfl
    rw [hleft] at hsame
    exact absurd (hsame.trans hrest) (by decide)
  · exact Session.onTlsData_paused waitingWorld (by rw [if_pos ht, hpaused]) report

end DeepSeer
