import DeepSeer.HeadEvents
import DeepSeer.SessionHistory

/-!
The port texts of a request head. Three splits feed them to a conversion that
throws: of the `Host` header and of the authority of an absolute target at their
first colon, and of a `CONNECT` target at its last one.
-/
namespace DeepSeer

open ByteMemory ByteText FallibleRuns

/-- The text after the colon, where there is one, converts to an `int`. -/
def PortConverts (colon : Option Nat) (s : Bytes) : Prop :=
  ∀ i, colon = some i → (stoi (s.drop (i + 1))).isSome = true

/-- No host is named by the `Host` header. -/
def HostUnnamed (headers : HeaderMap) : Prop :=
  ∀ h, HeaderMap.get headers (text "Host") = some h → h = [] ∨ find 58 h = some 0

/-- Every port text of the head that is looked at converts. -/
structure PortsConvert (url : Bytes) (headers : HeaderMap) (method : HttpMethod) : Prop where
  header : ∀ h, HeaderMap.get headers (text "Host") = some h → PortConverts (find 58 h) h
  target : HostUnnamed headers → ∀ i, findText (text "://") url = some i →
    PortConverts (find 58 (Http1Codec.hostPart url i)) (Http1Codec.hostPart url i)
  connect : method = .CONNECT → PortConverts (rfind 58 url) url

namespace Http1Codec

theorem splitHost_isSome (req : HttpRequest) (h : Bytes) :
    (splitHost req h).isSome = true ↔ PortConverts (find 58 h) h := by
  unfold splitHost PortConverts
  cases find 58 h with
  | none => simp
  | some i => simp

/-- The host that comes out of a split is empty exactly where none is named. -/
theorem splitHost_host {req req' : HttpRequest} {h : Bytes} (hs : splitHost req h = some req') :
    (req'.host = [] ↔ h = [] ∨ find 58 h = some 0) ∧ req'.url = req.url := by
  unfold splitHost at hs
  cases hf : find 58 h with
  | none =>
    simp only [hf, Option.some.injEq] at hs
    subst hs
    simp
  | some i =>
    simp only [hf, Option.map_eq_some_iff] at hs
    obtain ⟨port, -, rfl⟩ := hs
    have hi := (find_some hf).1
    have hne : h ≠ [] := fun hn => by simp [hn] at hi
    simp [hne]

theorem parseHostFromUrl_isSome (req : HttpRequest) (url : Bytes) :
    (parseHostFromUrl req url).isSome = true ↔ ∀ i, findText (text "://") url = some i →
      PortConverts (find 58 (hostPart url i)) (hostPart url i) := by
  unfold parseHostFromUrl
  cases findText (text "://") url with
  | none => simp
  | some i => simp [splitHost_isSome]

/-- A host comes out of a head exactly where its port texts convert. -/
theorem findHost_isSome {req : HttpRequest} (hhost : req.host = []) :
    (findHost req).isSome = true ↔
      (∀ h, HeaderMap.get req.headers (text "Host") = some h → PortConverts (find 58 h) h) ∧
      (HostUnnamed req.headers → ∀ i, findText (text "://") req.url = some i →
        PortConverts (find 58 (hostPart req.url i)) (hostPart req.url i)) := by
  unfold findHost HostUnnamed
  cases hg : HeaderMap.get req.headers (text "Host") with
  | none => simp [hhost, parseHostFromUrl_isSome]
  | some h =>
    have hsplit := splitHost_isSome req h
    cases hs : splitHost req h with
    | none =>
      rw [hs] at hsplit
      simp only [Option.isSome_none, Bool.false_eq_true, false_iff] at hsplit
      simp [hs, hsplit]
    | some req' =>
      rw [hs] at hsplit
      obtain ⟨hempty, hurl⟩ := splitHost_host hs
      by_cases hn : req'.host = []
      · simp [hs, hn, hsplit.mp rfl, parseHostFromUrl_isSome, hurl, hempty.mp hn]
      · simp [hs, hn, hsplit.mp rfl, mt hempty.mpr hn]

end Http1Codec

namespace Session

theorem clientEvent_collects (w : World) (s : Session) {ev : ParserEvent}
    (h : ev.collects = true) : s.clientEvent w ev =
      .ok ({ s with clientCodec_ := s.clientCodec_.absorb ev }.note (.clientParsed ev)) := by
  simp only [clientEvent, Http1Codec.handle_absorb h]
  rfl

/-- Callbacks that collect a head change the codec and the log only. -/
theorem clientEvents_collect (w : World) {events : List ParserEvent}
    (h : events.all ParserEvent.collects = true) (s : Session) :
    events.foldlM (clientEvent w) s = .ok { s with
      clientCodec_ := events.foldl Http1Codec.absorb s.clientCodec_
      log := (events.map Note.clientParsed).reverse ++ s.log } := by
  induction events generalizing s with
  | nil => rfl
  | cons ev rest ih =>
    obtain ⟨hev, hrest⟩ : ev.collects = true ∧ rest.all ParserEvent.collects = true := by
      simpa using h
    rw [List.foldlM_cons, clientEvent_collects w s hev]
    change rest.foldlM (clientEvent w) _ = _
    rw [ih hrest]
    simp [note]

theorem headPieces_collect {start : List ParserEvent}
    (h : start.all ParserEvent.collects = true) (lines : List HeaderLine) :
    (headPieces start lines).all ParserEvent.collects = true := by
  have hlines : ∀ l : HeaderLine, l.events.all ParserEvent.collects = true := fun l => by
    simp [HeaderLine.events, ParserEvent.collects]
  simp [headPieces, h, List.all_flatMap, hlines, ParserEvent.collects]

/-- A request throws exactly as a `CONNECT` to a target without a port that converts. -/
theorem onRequest_throws_iff (w : World) (s : Session) (req : HttpRequest) :
    (s.onRequest w req).fault = some .exception ↔
      req.method = .CONNECT ∧ connectTarget req.url = none := by
  constructor
  · intro h
    by_contra hn
    have hsteady := @steadily_onRequest w s req fun hc ht => hn ⟨hc, ht⟩
    cases hr : s.onRequest w req with
    | ok s' => simp [hr, Outcome.fault] at h
    | error crash =>
      rw [hr] at h hsteady
      exact hsteady.2 (by simpa [Outcome.fault] using h)
  · rintro ⟨hc, ht⟩
    obtain ⟨s', he, -⟩ := onRequest_throws (w := w) (s := s) hc ht
    rw [he]
    rfl

theorem connectTarget_eq_none (url : Bytes) :
    connectTarget url = none ↔ ¬ PortConverts (rfind 58 url) url := by
  unfold connectTarget PortConverts
  cases rfind 58 url with
  | none => simp
  | some i => simp

end Session

open Session Http1Codec

/-- A codec that parses requests and whose parser has not stopped. -/
structure Http1Codec.Parsing (c : Http1Codec) : Prop where
  type : c.type = .request
  errno : c.errno = .ok

/-- Decoding a head comes to looking for the host in it, and then to handling
the request with the host that was found. -/
theorem decodeClient_head (w : World) {s : Session} (h : s.clientCodec_.Parsing)
    (urls : List Bytes) (lines : List HeaderLine) (info : HeadInfo) (errno : Errno) :
    let fault := (s.decodeClient w ⟨requestEvents urls lines info, errno⟩).fault
    (Http1Codec.findHost (describedHead urls lines info) = none ∧ fault = some .exception) ∨
    ∃ (req : HttpRequest) (s' : Session),
      Http1Codec.findHost (describedHead urls lines info) = some req ∧
      fault = (s'.onRequest w req).fault := by
  set s₁ : Session := { s with
    clientCodec_ := (headPieces (urls.map .url) lines).foldl Http1Codec.absorb s.clientCodec_
    log := ((headPieces (urls.map .url) lines).map Note.clientParsed).reverse ++ s.log } with hs₁
  have hpieces : (headPieces (urls.map ParserEvent.url) lines).foldlM (clientEvent w) s = .ok s₁ :=
    clientEvents_collect w (headPieces_collect (by simp [ParserEvent.collects]) lines) s
  have hdecode : (s.decodeClient w ⟨requestEvents urls lines info, errno⟩).fault =
      (s₁.clientEvent w (.headersComplete info)).fault := by
    simp only [decodeClient, h.errno, ne_eq, not_true_eq_false, if_false, requestEvents,
      List.foldlM_append, hpieces]
    change Outcome.fault ((s₁.clientEvent w (.headersComplete info) >>= pure) >>= _) = _
    cases s₁.clientEvent w (.headersComplete info) <;> rfl
  have hcomplete := requestPieces_complete h.type urls lines info
  dsimp only at hcomplete ⊢
  rw [hdecode, clientEvent, Http1Codec.handle, hcomplete]
  cases Http1Codec.findHost (describedHead urls lines info) with
  | none => exact .inl ⟨rfl, rfl⟩
  | some req =>
    simp only [Option.map_some, List.foldlM_cons, List.foldlM_nil, clientEmission, bind_pure]
    exact .inr ⟨req, _, rfl, rfl⟩

/-- Decoding a request head, in any state of the session, ends in an exception
exactly where a port text of the head does not convert. -/
theorem decode_throws_iff (w : World) {s : Session} (h : s.clientCodec_.Parsing)
    (urls : List Bytes) (lines : List HeaderLine) (info : HeadInfo) (errno : Errno) :
    (s.decodeClient w ⟨requestEvents urls lines info, errno⟩).fault = some .exception ↔
      ¬ PortsConvert urls.flatten (headersOf lines) (stringToMethod info.method) := by
  have hhost := @Http1Codec.findHost_isSome (describedHead urls lines info) rfl
  rcases decodeClient_head w h urls lines info errno with ⟨hnone, hf⟩ | ⟨req, s', hsome, hf⟩
  · simp only [hf, true_iff]
    intro hports
    have := hhost.mpr ⟨hports.header, hports.target⟩
    simp [hnone] at this
  · rw [hf, onRequest_throws_iff, connectTarget_eq_none, Http1Codec.findHost_keeps hsome]
    rw [hsome] at hhost
    obtain ⟨hheader, htarget⟩ := hhost.mp rfl
    constructor
    · exact fun ⟨hc, hn⟩ hports => hn (hports.connect hc)
    · intro hports
      by_contra hn
      exact hports ⟨hheader, htarget, fun hc => by_contra fun hp => hn ⟨hc, hp⟩⟩

theorem decode_throws_iff_started :
    ((start 7 false false).decodeClient promptWorld
        ⟨requestEvents [text "/"] [.whole (text "Host") (text "[::1]:80") (by decide)]
          { method := text "GET" }, .ok⟩).fault = some .exception ↔
      ¬ PortsConvert [text "/"].flatten
        (headersOf [.whole (text "Host") (text "[::1]:80") (by decide)])
        (stringToMethod (text "GET")) :=
  decode_throws_iff promptWorld ⟨rfl, rfl⟩ _ _ _ _

/-- A `Host` header that ends with its colon ends the process. -/
theorem empty_port_throws :
    (sessionRun promptWorld (.ok (start 7 false false))
      [received 7 (text "GET / HTTP/1.1\r\nHost: h:\r\n\r\n")
        (requestEvents [text "/"] [.whole (text "Host") (text "h:") (by decide)]
          { method := text "GET" })]).fault = some .exception := by
  decide +kernel

end DeepSeer
