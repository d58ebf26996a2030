import DeepSeer.AnswerStreams
import DeepSeer.Dials

/-!
What an intercepted session has handed to its TLS client. The books begin with
the connect that the interception came from, whatever the session did before.
-/
namespace DeepSeer

open ByteMemory ByteText FallibleRuns Http1Codec

/-- An answer of the proxy's own. -/
def Note.isError : Note → Bool
  | .error _ => true
  | _ => false

/-- The notes since the last connect, the latest first. -/
def sinceConnect (log : List Note) : List Note := log.takeWhile fun n => !n.isConnected

/-- The callbacks of the upstream parser since the last connect. -/
def heardAnswers (log : List Note) : List ParserEvent := callbacks (sinceConnect log)

/-- Whether the proxy has answered itself since then. -/
def answeredItself (log : List Note) : Bool := (sinceConnect log).any Note.isError

theorem sinceConnect_cons {n : Note} (h : n.isConnected = false) (log : List Note) :
    sinceConnect (n :: log) = n :: sinceConnect log := by
  simp [sinceConnect, h]

theorem heardAnswers_cons {n : Note} (h : n.isConnected = false) (log : List Note) :
    heardAnswers (n :: log) = heardAnswers log ++ n.callback.toList := by
  rw [heardAnswers, sinceConnect_cons h, callbacks_cons, heardAnswers]

theorem answeredItself_cons {n : Note} (h : n.isConnected = false) (log : List Note) :
    answeredItself (n :: log) = (n.isError || answeredItself log) := by
  rw [answeredItself, sinceConnect_cons h, List.any_cons, answeredItself]

namespace Session

variable {w : World} {D : Side → Prop}

/-- Notes of moving data and closing are no answers. -/
theorem heard_aside {notes : List Note} (h : notes.all aside = true) (log : List Note) :
    heardAnswers (notes ++ log) = heardAnswers log ∧
      answeredItself (notes ++ log) = answeredItself log := by
  induction notes with
  | nil => exact ⟨rfl, rfl⟩
  | cons n rest ih =>
    rw [List.all_cons, Bool.and_eq_true] at h
    obtain ⟨hh, ha⟩ := ih h.2
    have hn : n.isConnected = false ∧ n.callback = none ∧ n.isError = false := by
      cases n <;> first | exact ⟨rfl, rfl, rfl⟩ | exact absurd h.1 (by simp [aside])
    rw [List.cons_append, heardAnswers_cons hn.1, answeredItself_cons hn.1, hn.2.1, hn.2.2, hh, ha]
    exact ⟨by simp, rfl⟩

theorem Loose.heard {s s' : Session} (h : Loose w D s s') :
    heardAnswers s'.log = heardAnswers s.log ∧ answeredItself s'.log = answeredItself s.log := by
  obtain ⟨notes, ha, hl, -⟩ := h.log
  rw [hl]
  exact heard_aside ha s.log

/-- An intercepted session has handed its TLS client what the callbacks since
the connect make. -/
def Tapped (s : Session) : Prop :=
  s.isTlsMitm_ = true → Handed (heardAnswers s.log) (answeredItself s.log) s

/-- A change of nothing that an interception is about. -/
theorem Tapped.same {s s' : Session} (h : Tapped s) (hm : s'.isTlsMitm_ = s.isTlsMitm_)
    (hl : heardAnswers s'.log = heardAnswers s.log ∧
      answeredItself s'.log = answeredItself s.log) (hc : s'.closed_ = s.closed_)
    (hu : s'.upstream_ = s.upstream_) (ht : s'.tls = s.tls)
    (hcodec : s.closed_ = false → s.hears = true → ∀ answers,
      Replays s.upstreamCodec_ answers → Replays s'.upstreamCodec_ answers) : Tapped s' := by
  intro hm'
  have hh := h (hm.symm.trans hm')
  have hhears : s'.hears = s.hears := by simp [hears, hu, ht, hh.upstream]
  rw [hl.1, hl.2]
  exact ⟨hu.trans hh.upstream, by rw [hc, ht]; exact hh.client, by rw [hhears]; exact hh.deaf,
    fun ho hr => hcodec (hc.symm.trans ho) (hhears.symm.trans hr) _
      (hh.replays (hc.symm.trans ho) (hhears.symm.trans hr)),
    by rw [hhears, ht]; exact hh.done⟩

/-- Moving data that is not for the client. -/
theorem Tapped.quiet {s s' : Session} (h : Tapped s) (hp : Pointers s) (hq : Loose w D s s')
    (hD : ¬ D .client) : Tapped s' := by
  intro hm
  rw [hq.heard.1, hq.heard.2]
  exact (h (hq.isTlsMitm.symm.trans hm)).quiet hq fun _ he _ =>
    ⟨he, hq.tls.stream_eq fun t ht hd => hD (hp.client_side ht ▸ hd)⟩

/-- An answer of the proxy's own. -/
theorem Tapped.sendError {s : Session} (h : Tapped s) (status : Nat) (reason : Bytes) :
    Tapped (s.sendError w status reason) := by
  unfold Session.sendError answer
  dsimp only
  cases hr : s.reachesClient with
  | false =>
    simp only [Bool.false_eq_true, if_false]
    rw [writeToClient_unreached w hr]
    exact h
  | true =>
    simp only [if_true]
    set s₁ := s.note (.error status) with hs₁
    have hq : Loose w anySide s₁ (s₁.writeToClient w
        (Http1Codec.encodeResponse (errorResponse status reason) {})).1 :=
      (quiet_writeToClient (toClient_any s₁) (Http1Codec.encodeResponse_proper _).1).toLoose
    intro hm
    have hh := h (hq.isTlsMitm.symm.trans hm)
    have hn : answeredItself s₁.log = true := by
      rw [hs₁, note_log, answeredItself_cons rfl]
      rfl
    have hheard : heardAnswers s₁.log = heardAnswers s.log := by
      rw [hs₁, note_log, heardAnswers_cons rfl]
      simp [Note.callback]
    have hh₁ : Handed (heardAnswers s.log) (answeredItself s.log) s₁ :=
      ⟨hh.upstream, hh.client, hh.deaf, hh.replays, hh.done⟩
    rw [hq.heard.1, hq.heard.2, hheard, hn]
    exact hh₁.quiet hq fun _ he _ => absurd he (by decide)

/-- A callback of the upstream codec and the data that it hands to the client. -/
theorem Tapped.heard {s s₁ s' : Session} (h : Tapped s) (hp : Pointers s) (hh : s.hears = true)
    {ev : ParserEvent} {codec : Http1Codec} {calls : List Emission}
    (hcodec : s.upstreamCodec_.handle ev = some (codec, calls)) {log : List Note}
    (hl : heardAnswers log = heardAnswers s.log ++ [ev] ∧
      answeredItself log = answeredItself s.log)
    (hs₁ : s₁ = { s with upstreamCodec_ := codec, log := log }) (hq : Loose w D s₁ s')
    (hstream : s.isTlsMitm_ = true → s.reachesClient = true → s'.clientStream =
      s.clientStream ++ calls.flatMap (handed true)) : Tapped s' := by
  intro hm'
  have hm : s.isTlsMitm_ = true := by
    rw [hs₁] at hq
    exact hq.isTlsMitm.symm.trans hm'
  rw [hq.heard.1, hq.heard.2, hs₁]
  rw [hl.1, hl.2]
  exact (h hm).heard hp hm hh hcodec hs₁ hq (hstream hm)

/-- The stream of the client where nothing is written to its side. -/
theorem Loose.clientStream {s s' : Session} (h : Loose w D s s') (hp : Pointers s)
    (hD : ¬ D .client) : s'.clientStream = s.clientStream := by
  rcases pointer_cases s.isTlsMitm_ s.tlsClient_ with ⟨id, hm, hid⟩ | hpl
  · rw [clientStream_tls (h.isTlsMitm.trans hm) (h.tlsClient.trans hid), clientStream_tls hm hid]
    exact h.tls.stream_eq fun t ht hd => hD ((toClient_only hp).tls id t hid ht ▸ hd)
  · rw [clientStream_plain (hpl.imp h.isTlsMitm.trans h.tlsClient.trans), clientStream_plain hpl]
    cases hc : s.client_ with
    | none => simp [rel_none h.client hc]
    | some c =>
      obtain ⟨c', hc', hmv⟩ := rel_forth h.client hc
      simp [hc', hmv.silent hD]

theorem heardAnswers_parsed (ev : ParserEvent) (log : List Note) :
    heardAnswers (.upstreamParsed ev :: log) = heardAnswers log ++ [ev] ∧
      answeredItself (.upstreamParsed ev :: log) = answeredItself log := by
  rw [heardAnswers_cons rfl, answeredItself_cons rfl]
  exact ⟨rfl, rfl⟩

theorem Tapped.response {s : Session} (h : Tapped s) (hp : Pointers s) (hh : s.hears = true)
    {ev : ParserEvent} {codec : Http1Codec} {resp : HttpResponse}
    (hcodec : s.upstreamCodec_.handle ev = some (codec, [.response resp])) :
    Tapped (({ s with upstreamCodec_ := codec }.note (.upstreamParsed ev)).onResponse w resp) := by
  set s₁ := { s with upstreamCodec_ := codec }.note (.upstreamParsed ev) with hs₁
  obtain ⟨s₂, hs₂, hq, -, hstream⟩ := onResponse_spec w (s := s₁) hp resp
  have hcalls : s.isTlsMitm_ = true → s.reachesClient = true →
      (s₁.onResponse w resp).clientStream =
        s.clientStream ++ [Emission.response resp].flatMap (handed true) := by
    intro hm hr
    rw [hstream hr, show s₁.isTlsMitm_ = true from hm]
    simp [handed]
    rfl
  have hparsed := heardAnswers_parsed ev s.log
  rcases hs₂ with rfl | rfl
  · exact h.heard hp hh hcodec hparsed hs₁ hq.toLoose hcalls
  · refine h.heard hp hh hcodec ?_ rfl hq.toLoose hcalls
    rw [heardAnswers_cons rfl, answeredItself_cons rfl]
    exact ⟨by rw [hs₁, note_log, hparsed.1]; exact List.append_nil _, hparsed.2⟩

theorem Tapped.responseBody {s : Session} (h : Tapped s) (hp : Pointers s) (hh : s.hears = true)
    (piece : Bytes) :
    Tapped ((s.note (.upstreamParsed (.body piece))).onResponseBody w (({} : Buffer).add piece)) := by
  set s₁ := s.note (.upstreamParsed (.body piece)) with hs₁
  have hq : Quiet w anySide s₁ (s₁.onResponseBody w (({} : Buffer).add piece)) :=
    quiet_onResponseBody (toClient_any s₁) (pieceBuffer piece).1
  refine @Tapped.heard w anySide s s₁ _ h hp hh (.body piece) s.upstreamCodec_
    [.body (({} : Buffer).add piece) false] rfl _ (heardAnswers_parsed _ _) rfl hq.toLoose
    fun _ hr => ?_
  rw [handed_piece, onResponseBody_stream w (s := s₁) hr]
  rfl

theorem Tapped.responseComplete {s : Session} (h : Tapped s) (hp : Pointers s)
    (hh : s.hears = true) :
    Tapped (((s.note (.upstreamParsed .messageComplete)).onResponseBody w {}).onResponseComplete) := by
  rw [onResponseBody_empty]
  set s₁ := s.note (.upstreamParsed .messageComplete) with hs₁
  have hq : Quiet w (only .upstream) s₁ s₁.onResponseComplete :=
    quiet_onResponseComplete (D := only .upstream) rfl s₁
  have hcalls : [Emission.body {} true, .messageComplete].flatMap (handed true) = [] := by
    simp [handed, Buffer.linearize]
  refine @Tapped.heard w (only .upstream) s s₁ _ h hp hh .messageComplete s.upstreamCodec_
    [.body {} true, .messageComplete] rfl _ (heardAnswers_parsed _ _) rfl hq.toLoose
    fun _ _ => ?_
  rw [hcalls, List.append_nil]
  exact hq.toLoose.clientStream (s := s₁) hp (by simp)

/-- A request head goes to the upstream. -/
theorem Tapped.sendRequest {s : Session} (h : Tapped s) (hp : Pointers s) :
    Tapped (s.sendRequest w) := by
  set s₁ : Session := { s.note (.forwarded s.currentRequest_ s.link) with
    currentRequest_.url := originForm s.currentRequest_.url } with hs₁
  have hp₁ : Pointers s₁ := hp
  have hsent : Quiet w (only .upstream) s₁ (s.sendRequest w) := (sendRequest_quiet w hp).1
  have h₁ : Tapped s₁ := h.same rfl (by
    rw [hs₁, note_log, heardAnswers_cons rfl, answeredItself_cons rfl]
    exact ⟨List.append_nil _, rfl⟩) rfl rfl rfl fun _ _ _ h => h
  exact h₁.quiet hp₁ hsent.toLoose (by simp)

theorem tapped_plain {s : Session} (h : s.isTlsMitm_ = false) : Tapped s :=
  fun hm => absurd (h.symm.trans hm) (by decide)

/-- The books of an interception are right, unless a tunnel or a connect after
its start has changed what they are about. -/
def Taps (s : Session) : Prop := LateConnect s ∨ s.isTunnel_ = true ∨ Tapped s

theorem taps_ok {s : Session} (h : Tapped s) : Taps s := .inr (.inr h)

theorem SteadyEnd.taps {s : Session} {r : Outcome} (h : SteadyEnd w s r)
    (hs : LateConnect s ∨ s.isTunnel_ = true) : Ends r Taps fun _ => True :=
  Ends.mono h (fun _ h => hs.elim (fun hl => .inl (h.late hl)) fun ht => .inr (.inl (h.tunnel ht)))
    fun _ _ => trivial

theorem onUpstreamConnected_taps {s : Session} (h : Tapped s) (hp : Pointers s) :
    Ends (s.onUpstreamConnected w) Taps fun _ => True := by
  unfold onUpstreamConnected
  cases ho : s.closed_ with
  | true => exact taps_ok h
  | false =>
    simp only [Bool.false_eq_true, if_false]
    obtain ⟨km, kc, kt, ktc, ktu⟩ := wrapUpstream_keeps (s.note (.connected s.isTlsMitm_))
    obtain ⟨hlog, -, -⟩ := wrapUpstream_aside (s.note (.connected s.isTlsMitm_))
    set s₁ := (s.note (.connected s.isTlsMitm_)).wrapUpstream with hs₁
    cases hm : s.isTlsMitm_ with
    | true =>
      have hlate : LateConnect s₁ := ⟨by rw [hlog, hm]; exact List.mem_cons_self, km.trans hm⟩
      split
      · exact (steadily_startTunnel w _).ends.taps (.inl hlate)
      · exact (steadily_forwardRequest w _).ends.taps (.inl hlate)
    | false =>
      have hp₁ : Pointers s₁ := by
        rw [Pointers, km, kc, kt, ktc, ktu]
        exact hp
      split
      · unfold startTunnel
        split
        · cases hp with
          | upgrading hm' => exact absurd (hm.symm.trans hm') (by decide)
          | intercepted hm' => exact absurd (hm.symm.trans hm') (by decide)
          | plain _ hc htls htc htu =>
            obtain ⟨s', e, -, hent, hhanded⟩ := startTlsMitm_handed w (s := s₁) (kc.trans hc) rfl
              (kt.trans htls) (ktc.trans htc) (ktu.trans htu) s₁.connectHostname_
            rw [e]
            refine taps_ok fun _ => ?_
            obtain ⟨notes, ha, hl, -⟩ := hent.log
            obtain ⟨hheard, hself⟩ := heard_aside ha s₁.log
            rw [hl, hheard, hself, hlog]
            exact hhanded _
        · exact (steadily_passThrough w { s₁ with isTunnel_ := true }).ends.taps (.inr rfl)
      · obtain ⟨s₂, e₂, q₂, -⟩ := readUpstream_ok w (s := s₁) rfl
        have e₂' : s₁.prepareUpstream = .ok s₂ := by
          simp only [prepareUpstream, km.trans hm, Bool.false_eq_true, if_false]
          exact e₂
        rw [Session.forwardRequest, e₂']
        exact taps_ok ((tapped_plain (q₂.isTlsMitm.trans (km.trans hm))).sendRequest
          (q₂.toLoose.pointers hp₁))

theorem connectUpstream_taps {s : Session} (h : Tapped s) (hp : Pointers s) (host : Bytes)
    (port : Nat) : Ends (s.connectUpstream w host port) Taps fun _ => True := by
  have hopen : ∀ fd stray, heardAnswers (.opened fd stray :: s.log) = heardAnswers s.log ∧
      answeredItself (.opened fd stray :: s.log) = answeredItself s.log := by
    intro fd stray
    rw [heardAnswers_cons rfl, answeredItself_cons rfl]
    exact ⟨List.append_nil _, rfl⟩
  unfold connectUpstream
  split
  · trivial
  · have hcount : Tapped { s with sockets := s.sockets + 1 } :=
      h.same rfl ⟨rfl, rfl⟩ rfl rfl rfl fun _ _ _ h => h
    dsimp only
    split
    · exact taps_ok (hcount.sendError 502 _)
    · next fd _ =>
      have hreplace : Tapped (replaceConnecting { s with sockets := s.sockets + 1 } fd) :=
        h.same rfl (hopen _ _) rfl rfl rfl fun _ _ _ h => h
      split
      · exact taps_ok (hreplace.sendError 502 _)
      · exact onUpstreamConnected_taps hreplace hp
      · exact taps_ok (h.same rfl (hopen _ _) rfl rfl rfl fun _ _ _ h => h)

theorem onRequest_taps {s : Session} (h : Tapped s) (hp : Pointers s) (req : HttpRequest) :
    Ends (s.onRequest w req) Taps fun _ => True := by
  have hnote : heardAnswers (.request req :: s.log) = heardAnswers s.log ∧
      answeredItself (.request req :: s.log) = answeredItself s.log := by
    rw [heardAnswers_cons rfl, answeredItself_cons rfl]
    exact ⟨List.append_nil _, rfl⟩
  unfold onRequest handleConnect
  dsimp only
  split
  · split
    · trivial
    · refine connectUpstream_taps ?_ ?_ _ _
      · exact h.same rfl hnote rfl rfl rfl fun _ _ _ h => h
      · exact hp
  · have hset : Tapped { s.note (.request req) with currentRequest_ := req } :=
      h.same rfl hnote rfl rfl rfl fun _ _ _ h => h
    split
    · next hm =>
      have hprepare : { s.note (.request req) with currentRequest_ := req }.prepareUpstream =
          .ok { s.note (.request req) with currentRequest_ := req } := if_pos hm
      rw [Session.forwardRequest, hprepare]
      exact taps_ok (hset.sendRequest hp)
    · exact connectUpstream_taps hset hp _ _

/-- Every effect keeps the books of an interception right, or loses them to a
tunnel or a late connect. -/
theorem effect_taps {s : Session} {r : Outcome} (h : Tapped s) (hp : Pointers s)
    (he : Effect w s r) : Ends r Taps fun _ => True := by
  have hnote : ∀ {n : Note}, n.isConnected = false → n.callback = none → n.isError = false →
      heardAnswers (n :: s.log) = heardAnswers s.log ∧
        answeredItself (n :: s.log) = answeredItself s.log := by
    intro n hc hb hn
    rw [heardAnswers_cons hc, answeredItself_cons hc, hb, hn]
    exact ⟨List.append_nil _, rfl⟩
  have hsteady := effect_steadily he
  cases he with
  | quiet hq _ => exact taps_ok (h.quiet hp (hq noSide).toLoose fun hD => hD)
  | clientData data _ =>
    exact taps_ok (h.same rfl (hnote rfl rfl rfl) rfl rfl rfl fun _ _ _ h => h)
  | upstreamData data _ _ =>
    exact taps_ok (h.same rfl (hnote rfl rfl rfl) rfl rfl rfl fun _ _ _ h => h)
  | tunnelUp c data ht _ => exact hsteady.taps (.inr ht)
  | tunnelDown data ht _ => exact hsteady.taps (.inr ht)
  | clientErrno errno => exact taps_ok (h.same rfl ⟨rfl, rfl⟩ rfl rfl rfl fun _ _ _ h => h)
  | upstreamErrno errno =>
    exact taps_ok (h.same rfl ⟨rfl, rfl⟩ rfl rfl rfl fun _ _ _ h => h.errno errno)
  | parserThrows => trivial
  | request ev codec req _ =>
    refine onRequest_taps ?_ ?_ req
    · exact h.same rfl (hnote rfl rfl rfl) rfl rfl rfl fun _ _ _ h => h
    · exact hp
  | requestBody piece =>
    have hparsed : Tapped (s.note (.clientParsed (.body piece))) :=
      h.same rfl (hnote rfl rfl rfl) rfl rfl rfl fun _ _ _ h => h
    have hq : Quiet w (only .upstream) (s.note (.clientParsed (.body piece)))
        ((s.note (.clientParsed (.body piece))).onRequestBody w (({} : Buffer).add piece)) :=
      quiet_onRequestBody (toUpstream_only (s := s.note (.clientParsed (.body piece))) hp) _
    exact taps_ok (hparsed.quiet hp hq.toLoose (by simp))
  | clientParsed ev codec emissions _ _ _ =>
    exact taps_ok (h.same rfl (hnote rfl rfl rfl) rfl rfl rfl fun _ _ _ h => h)
  | response ev codec resp hh hc => exact taps_ok (h.response hp hh hc)
  | responseBody piece hh => exact taps_ok (h.responseBody hp hh piece)
  | responseComplete hh => exact taps_ok (h.responseComplete hp hh)
  | upstreamParsed ev codec emissions hh hb hm hc hr =>
    refine taps_ok (h.heard (w := w) (D := anySide) hp hh hc (heardAnswers_parsed ev s.log) rfl
      (.refl w _ _) fun _ _ => ?_)
    rw [handed_nothing hb hm hc hr, List.append_nil]
    rfl
  | badRequest =>
    have hanswer : Tapped (s.sendError w 400 (text "Bad Request")) := h.sendError 400 _
    have hq : Quiet w noSide (s.sendError w 400 (text "Bad Request"))
        ((s.sendError w 400 (text "Bad Request")).close .clientParseError) := quiet_close _ _
    exact taps_ok (hanswer.quiet (answer_pointers w hp _ _) hq.toLoose fun hD => hD)
  | connected fd _ =>
    refine onUpstreamConnected_taps ?_ ?_
    · exact h.same rfl ⟨rfl, rfl⟩ rfl rfl rfl fun _ _ _ h => h
    · exact hp
  | handshake id t ht _ hd =>
    have hm : s.isTlsMitm_ = true := by
      cases hp with
      | plain _ _ htls => simp [htls] at ht
      | upgrading hm => exact hm
      | intercepted hm => exact hm
    obtain ⟨s', e, -, k, hhanded⟩ := (h hm).handshake w hp ht hd
    rw [e]
    refine taps_ok fun _ => ?_
    obtain ⟨notes, ha, hl, -⟩ := k.log
    obtain ⟨hheard, hself⟩ := heard_aside ha s.log
    rw [hl, hheard, hself]
    exact hhanded
  | destroyed => trivial

/-- The books of the interception of every run are right, or lost to a tunnel or
a late connect. -/
theorem sessionRun_taps (w : World) (fd : Fd) (certGen payloadInspector : Bool)
    (events : List SessionEvent) :
    Ends (sessionRun w (.ok (start fd certGen payloadInspector)) events)
      (fun s => LateConnect s ∨ s.isTunnel_ = true ∨ Pointers s ∧ Tapped s) fun _ => True := by
  refine sessionRun_effects (fun s r hs he => ?_)
    (.inr (.inr ⟨start_pointers fd certGen _, tapped_plain rfl⟩)) events
  have hsteady := effect_steadily he
  have hlost : LateConnect s ∨ s.isTunnel_ = true → Ends r
      (fun s => LateConnect s ∨ s.isTunnel_ = true ∨ Pointers s ∧ Tapped s) fun _ => True :=
    fun hs => Ends.mono hsteady
      (fun _ h => hs.elim (fun hl => .inl (h.late hl)) fun ht => .inr (.inl (h.tunnel ht)))
      fun _ _ => trivial
  rcases hs with hl | ht | ⟨hp, h⟩
  · exact hlost (.inl hl)
  · exact hlost (.inr ht)
  · refine Ends.mono ((effect_pointed hp he).and (effect_taps h hp he)) (fun s' h' => ?_)
      fun _ _ => trivial
    rcases h' with ⟨hl | hp', h'⟩
    · exact .inl hl
    · rcases h' with hl | ht | h'
      · exact .inl hl
      · exact .inr (.inl ht)
      · exact .inr (.inr ⟨hp', h'⟩)

end Session

open Session

/-- The TLS client of a reachable session has been handed what the callbacks
since the connect make, while session and client are open and the proxy has not
answered itself. -/
theorem Reachable.tapped {w : World} {s : Session} (h : Reachable w s)
    (hlate : s.log.any Note.lateConnect = false) (htunnel : s.isTunnel_ = false)
    {id : Nat} (hid : s.tlsClient_ = some id) {t : TlsConnection} (ht : s.tls[id]? = some t)
    (ho : s.closed_ = false) (hc : t.closed_ = false) (he : answeredItself s.log = false) :
    t.written = delivered true (heardAnswers s.log) := by
  obtain ⟨fd, certGen, payloadInspector, events, hr⟩ := h
  have hrun := sessionRun_taps w fd certGen payloadInspector events
  rw [hr] at hrun
  rcases hrun with hl | ht' | ⟨hp, htap⟩
  · have hmem : s.log.any Note.lateConnect = true :=
      List.any_eq_true.mpr ⟨.connected true, hl.noted, rfl⟩
    exact absurd (hlate.symm.trans hmem) (by decide)
  · exact absurd (htunnel.symm.trans ht') (by decide)
  · cases hp with
    | plain _ _ _ htc => exact absurd (htc.symm.trans hid) (by simp)
    | upgrading _ _ _ _ _ _ htc => exact absurd (htc.symm.trans hid) (by simp)
    | intercepted hm htls _ _ _ _ htc =>
      obtain rfl : 1 = id := Option.some.inj (htc.symm.trans hid)
      have hclient := (htap hm).client ho he ((shut_eq ht).trans hc)
      rwa [TlsFlow.stream, ht] at hclient

end DeepSeer
