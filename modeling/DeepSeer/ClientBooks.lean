import DeepSeer.UpstreamBooks

/-!
The books of what a session writes to the client: what the callbacks of the
upstream codec make of the answers, as long as the proxy has not answered
itself. On an intercepted session the books begin with the connect.
-/
namespace DeepSeer

open ByteMemory ByteText FallibleRuns Http1Codec

namespace Session

variable {w : World} {D : Side → Prop}

/-- The plain connections have their callbacks and are open as long as the
session is. -/
structure Attached (s : Session) : Prop where
  shut : s.ledger.closed = s.closed_
  client : ∃ c, s.client_ = some c ∧ c.wired = true ∧ c.closed_ = s.closed_
  upstream : s.ledger.linked = true →
    ∃ c, s.upstream_ = some c ∧ c.wired = true ∧ c.closed_ = s.closed_

/-- A plain session has handed its client the answers, up to the end of one. -/
structure PlainAnswers (s : Session) : Prop where
  client : s.ledger.erred = false → s.clientStream = delivered false s.ledger.answers
  replays : s.closed_ = false → Replays s.upstreamCodec_ s.ledger.answers
  ended : ∀ before after, s.ledger.answers = before ++ .messageComplete :: after →
    s.closed_ = true ∧ after = []
  finished : s.ledger.finished = true → .messageComplete ∈ s.ledger.answers

/-- And so has an intercepted one while its client is there. -/
structure MitmAnswers (s : Session) : Prop where
  upstream : s.upstream_ = none
  linked : s.ledger.linked = true
  client : s.closed_ = false → s.ledger.erred = false → TlsFlow.shut s.tls 1 = false →
    TlsFlow.stream s.tls 1 = delivered true s.ledger.answers
  deaf : s.hears = false → s.ledger.answers = []
  replays : s.closed_ = false → s.hears = true → Replays s.upstreamCodec_ s.ledger.answers
  done : s.hears = true → ∀ t ∈ s.tls, t.handshakeDone_ = true

structure BookedDown (s : Session) : Prop where
  shut : s.ledger.closed = true → s.closed_ = true
  unanswered : s.ledger.linked = false → s.ledger.answers = []
  attached : s.isTlsMitm_ = false → Attached s
  plain : s.isTlsMitm_ = false → PlainAnswers s
  mitm : s.isTlsMitm_ = true → MitmAnswers s

theorem Shuts.closes {s s' : Session} (h : Shuts s s') (hs : s.ledger.closed = s.closed_) :
    s'.ledger.closed = s'.closed_ := by
  rcases h.ledger with ⟨hl, hc⟩ | ⟨hl, hc⟩
  · rw [hl, hc, hs]
  · rw [hl, hc]

theorem Shuts.finished {s s' : Session} (h : Shuts s s') :
    s'.ledger.finished = s.ledger.finished := by
  rcases h.ledger with ⟨hl, -⟩ | ⟨hl, -⟩ <;> rw [hl]

theorem Shuts.marks {s s' : Session} (h : Shuts s s')
    (hs : s.ledger.closed = true → s.closed_ = true) :
    s'.ledger.closed = true → s'.closed_ = true := by
  intro hc
  rcases h.ledger with ⟨hl, hc'⟩ | ⟨-, hc'⟩
  · rw [hc']
    exact hs (hl ▸ hc)
  · exact hc'

/-- A connection that is moved on in a quiet way stays attached. -/
theorem attached_moves {P : Prop} {B : Buffer → Prop} {answer : Nat → SendAnswer}
    {s s' : Session} {c c' : Connection} (hm : c.Moves P B answer c') (hw : c.wired = true)
    (hc : c.closed_ = s.closed_) (hstay : s.closed_ = true → s'.closed_ = true)
    (hopen : s'.closed_ = false → c.closed_ = false → c'.closed_ = false)
    (hshut : s.closed_ = false → s'.closed_ = true → c'.closed_ = true) :
    c'.wired = true ∧ c'.closed_ = s'.closed_ := by
  refine ⟨hm.kin.wired hw, ?_⟩
  cases hs : s.closed_ with
  | true => rw [hstay hs, (hm.kin.closed (hc.trans hs)).1]
  | false =>
    cases hs' : s'.closed_ with
    | true => exact hshut hs hs'
    | false => exact hopen hs' (hc.trans hs)

/-- The plain upstream through a quiet change. -/
theorem upstream_quiet {s s' : Session} (hq : Quiet w D s s')
    (h : ∃ c, s.upstream_ = some c ∧ c.wired = true ∧ c.closed_ = s.closed_) :
    ∃ c, s'.upstream_ = some c ∧ c.wired = true ∧ c.closed_ = s'.closed_ := by
  obtain ⟨c, hc, hw, hcl⟩ := h
  obtain ⟨c', hc', hm⟩ := rel_forth hq.upstream hc
  refine ⟨c', hc', attached_moves hm hw hcl hq.closed (fun ho ho' => ?_)
    fun ho hs => (hq.shut ho hs).upstream c' hc'⟩
  exact (hq.upstreamOpen ho (fun d hd => by rw [hc] at hd; cases hd; exact ⟨hw, ho'⟩) c' hc').2

theorem Attached.quiet {s s' : Session} (h : Attached s) (hq : Quiet w D s s')
    (hk : KeepsBooks s s') (hc : s'.ledger.closed = s'.closed_) : Attached s' := by
  refine ⟨hc, ?_, fun hl => upstream_quiet hq (h.upstream (hk.linked.symm.trans hl))⟩
  obtain ⟨c, hc, hw, hcl⟩ := h.client
  obtain ⟨c', hc', hm⟩ := rel_forth hq.client hc
  refine ⟨c', hc', attached_moves hm hw hcl hq.closed (fun ho ho' => ?_)
    fun ho hs => (hq.shut ho hs).client c' hc'⟩
  exact (hq.clientOpen ho (fun d hd => by rw [hc] at hd; cases hd; exact ⟨hw, ho'⟩) c' hc').2

theorem Loose.upstreamCodec {s s' : Session} (h : Loose w D s s') :
    s'.upstreamCodec_ = s.upstreamCodec_ := by
  have hs : s'.still.upstreamCodec_ = s.still.upstreamCodec_ := by rw [h.still]
  exact hs

/-- Where there is no plain upstream, nothing quiet makes the session hear. -/
theorem Loose.hears_back {s s' : Session} (h : Loose w D s s') (hu : s.upstream_ = none)
    (hs : s'.hears = true) : s.hears = true := by
  simp only [Session.hears, rel_none h.upstream hu, hu, Option.any_none, Bool.and_false,
    Bool.false_or, List.any_eq_true] at hs ⊢
  obtain ⟨t', ht', hw⟩ := hs
  obtain ⟨id, hid, rfl⟩ := List.getElem_of_mem ht'
  obtain ⟨t, ht, hf⟩ := h.tls.back (List.getElem?_eq_getElem hid)
  refine ⟨t, List.mem_of_getElem? ht, ?_⟩
  rwa [hf.wired, hf.isServer] at hw

/-- Which TLS connection the session writes answers to. -/
theorem Pointers.client_side {s : Session} (h : Pointers s) {t : TlsConnection}
    (ht : s.tls[1]? = some t) : t.side = .client := by
  cases h with
  | plain _ _ htls => simp [htls] at ht
  | upgrading _ _ htls => simp [htls] at ht
  | intercepted _ htls _ _ _ hclient =>
    rw [htls] at ht
    cases ht
    simp [TlsConnection.side, hclient]

theorem Loose.plainStream {s s' : Session} (h : Loose w D s s') (hm : s.isTlsMitm_ = false)
    (hD : ¬ D .client) : s'.clientStream = s.clientStream := by
  rw [clientStream_plain (.inl (h.isTlsMitm.trans hm)), clientStream_plain (.inl hm)]
  cases hc : s.client_ with
  | none => simp [rel_none h.client hc]
  | some c =>
    obtain ⟨c', hc', hmv⟩ := rel_forth h.client hc
    simp [hc', hmv.silent hD]

/-- A closed client is written nothing more. -/
theorem Loose.shutStream {s s' : Session} (h : Loose w D s s') (hm : s.isTlsMitm_ = false)
    {c : Connection} (hc : s.client_ = some c) (hcl : c.closed_ = true) :
    s'.clientStream = s.clientStream := by
  rw [clientStream_plain (.inl (h.isTlsMitm.trans hm)), clientStream_plain (.inl hm)]
  obtain ⟨c', hc', hmv⟩ := rel_forth h.client hc
  simp [hc', hc, (hmv.kin.closed hcl).2]

theorem Loose.open_back {s s' : Session} (h : Loose w D s s') (id : Nat)
    (hs : TlsFlow.shut s'.tls id = false) : TlsFlow.shut s.tls id = false := by
  cases ho : TlsFlow.shut s.tls id with
  | false => rfl
  | true => exact absurd ((h.tls.shut_stays ho).symm.trans hs) (by decide)

/-- An intercepted session has handed its TLS client what these answers make,
unless the proxy has answered itself. -/
structure Handed (answers : List ParserEvent) (erred : Bool) (s : Session) : Prop where
  upstream : s.upstream_ = none
  client : s.closed_ = false → erred = false → TlsFlow.shut s.tls 1 = false →
    TlsFlow.stream s.tls 1 = delivered true answers
  deaf : s.hears = false → answers = []
  replays : s.closed_ = false → s.hears = true → Replays s.upstreamCodec_ answers
  done : s.hears = true → ∀ t ∈ s.tls, t.handshakeDone_ = true

theorem MitmAnswers.handed {s : Session} (h : MitmAnswers s) :
    Handed s.ledger.answers s.ledger.erred s :=
  ⟨h.upstream, h.client, h.deaf, h.replays, h.done⟩

theorem Handed.mitm {s : Session} (h : Handed s.ledger.answers s.ledger.erred s)
    (hl : s.ledger.linked = true) : MitmAnswers s :=
  ⟨h.upstream, hl, h.client, h.deaf, h.replays, h.done⟩

/-- A session that is closed owes its client nothing. -/
theorem Handed.closed {answers answers' : List ParserEvent} {erred erred' : Bool} {s : Session}
    (h : Handed answers erred s) (hc : s.closed_ = true) (hh : s.hears = true) :
    Handed answers' erred' s :=
  ⟨h.upstream, fun ho => absurd (hc.symm.trans ho) (by decide),
    fun hn => absurd (hh.symm.trans hn) (by decide),
    fun ho => absurd (hc.symm.trans ho) (by decide), h.done⟩

/-- What a quiet change keeps of the answers on an intercepted session, apart
from the stream. -/
theorem Handed.quiet {answers : List ParserEvent} {erred erred' : Bool} {s s' : Session}
    (h : Handed answers erred s) (hq : Loose w D s s')
    (hstream : s'.closed_ = false → erred' = false → TlsFlow.shut s'.tls 1 = false →
      erred = false ∧ TlsFlow.stream s'.tls 1 = TlsFlow.stream s.tls 1) :
    Handed answers erred' s' := by
  refine ⟨rel_none hq.upstream h.upstream, fun ho he hs => ?_, fun hd => ?_, fun ho hh => ?_,
    fun hh t' ht' => ?_⟩
  · obtain ⟨he₀, hst⟩ := hstream ho he hs
    rw [hst]
    exact h.client (hq.stays_open ho) he₀ (hq.open_back 1 hs)
  · apply h.deaf
    by_contra hs
    exact absurd ((hq.hears (by simpa using hs)).symm.trans hd) (by decide)
  · rw [hq.upstreamCodec]
    exact h.replays (hq.stays_open ho) (hq.hears_back h.upstream hh)
  · obtain ⟨id, hid, rfl⟩ := List.getElem_of_mem ht'
    obtain ⟨t, ht, hf⟩ := hq.tls.back (List.getElem?_eq_getElem hid)
    rw [hf.handshakeDone]
    exact h.done (hq.hears_back h.upstream hh) t (List.mem_of_getElem? ht)

theorem MitmAnswers.quiet {s s' : Session} (h : MitmAnswers s) (hq : Loose w D s s')
    (hk : KeepsBooks s s')
    (hstream : s'.closed_ = false → s'.ledger.erred = false → TlsFlow.shut s'.tls 1 = false →
      TlsFlow.stream s'.tls 1 = TlsFlow.stream s.tls 1) : MitmAnswers s' := by
  refine Handed.mitm ?_ (hk.linked.trans h.linked)
  rw [hk.answers]
  exact h.handed.quiet hq fun ho he hs => ⟨hk.erred.symm.trans he, hstream ho he hs⟩

/-- Moving data that is not for the client leaves its books right. -/
theorem BookedDown.frame {s s' : Session} (h : BookedDown s) (hp : Pointers s)
    (hq : Quiet w D s s') (hs : Shuts s s') (hD : ¬ D .client) : BookedDown s' := by
  have hk := hs.books
  refine ⟨hs.marks h.shut, fun hn => ?_, fun hm => ?_, fun hm => ?_, fun hm => ?_⟩
  · rw [hk.answers]
    exact h.unanswered (hk.linked.symm.trans hn)
  · have ha := h.attached (hq.isTlsMitm.symm.trans hm)
    exact ha.quiet hq hk (hs.closes ha.shut)
  · have hm' := hq.isTlsMitm.symm.trans hm
    have hpl := h.plain hm'
    refine ⟨fun he => ?_, fun ho => ?_, fun before after ha => ?_, fun hf => ?_⟩
    · rw [hq.toLoose.plainStream hm' hD, hk.answers]
      exact hpl.client (hk.erred.symm.trans he)
    · rw [hq.toLoose.upstreamCodec, hk.answers]
      exact hpl.replays (hq.stays_open ho)
    · exact (hpl.ended before after (hk.answers.symm.trans ha)).imp_left hq.closed
    · rw [hk.answers]
      exact hpl.finished (hs.finished.symm.trans hf)
  · exact (h.mitm (hq.isTlsMitm.symm.trans hm)).quiet hq.toLoose hk fun _ _ _ =>
      hq.tls.stream_eq fun t ht hd => hD (hp.client_side ht ▸ hd)

/-- Once the proxy has answered itself, the stream to the client is its own. -/
theorem BookedDown.quiet_erred {s s' : Session} (h : BookedDown s) (hq : Quiet w D s s')
    (hs : Shuts s s') (he : s.ledger.erred = true) : BookedDown s' := by
  have hk := hs.books
  have he' : s'.ledger.erred = true := hk.erred.trans he
  refine ⟨hs.marks h.shut, fun hn => ?_, fun hm => ?_, fun hm => ?_, fun hm => ?_⟩
  · rw [hk.answers]
    exact h.unanswered (hk.linked.symm.trans hn)
  · have ha := h.attached (hq.isTlsMitm.symm.trans hm)
    exact ha.quiet hq hk (hs.closes ha.shut)
  · have hpl := h.plain (hq.isTlsMitm.symm.trans hm)
    refine ⟨fun hn => absurd (he'.symm.trans hn) (by decide), fun ho => ?_,
      fun before after ha => ?_, fun hf => ?_⟩
    · rw [hq.toLoose.upstreamCodec, hk.answers]
      exact hpl.replays (hq.stays_open ho)
    · exact (hpl.ended before after (hk.answers.symm.trans ha)).imp_left hq.closed
    · rw [hk.answers]
      exact hpl.finished (hs.finished.symm.trans hf)
  · exact (h.mitm (hq.isTlsMitm.symm.trans hm)).quiet hq.toLoose hk fun _ hn _ =>
      absurd (he'.symm.trans hn) (by decide)

/-- A session that has no upstream yet hears none. -/
theorem unlinked_deaf {s : Session} (hp : Pointers s) (hm : s.isTlsMitm_ = false)
    (hu : s.upstream_ = none) : s.hears = false := by
  cases hp with
  | plain _ _ htls => simp [hears, hu, htls]
  | upgrading hm' => exact absurd (hm.symm.trans hm') (by decide)
  | intercepted hm' => exact absurd (hm.symm.trans hm') (by decide)

/-- An intercepted session that hears the upstream has both TLS connections. -/
theorem Handed.hearing {answers : List ParserEvent} {erred : Bool} {s : Session}
    (h : Handed answers erred s) (hp : Pointers s) (hm : s.isTlsMitm_ = true)
    (hh : s.hears = true) :
    s.tlsClient_ = some 1 ∧ ∃ t, s.tls[1]? = some t := by
  cases hp with
  | plain hm' => exact absurd (hm.symm.trans hm') (by decide)
  | upgrading _ _ htls _ _ hw =>
    simp [hears, h.upstream, htls, hw] at hh
  | intercepted _ htls _ _ _ _ htc _ => exact ⟨htc, _, by rw [htls]; rfl⟩

/-- A callback of the upstream codec of an intercepted session, whose calls are
handed to the client. -/
theorem Handed.heard {answers : List ParserEvent} {erred : Bool} {s s₁ s' : Session}
    (h : Handed answers erred s) (hp : Pointers s) (hm : s.isTlsMitm_ = true)
    (hh : s.hears = true) {ev : ParserEvent} {codec : Http1Codec} {calls : List Emission}
    (hcodec : s.upstreamCodec_.handle ev = some (codec, calls)) {log : List Note}
    (hs₁ : s₁ = { s with upstreamCodec_ := codec, log := log }) (hq : Loose w D s₁ s')
    (hstream : s.reachesClient = true → s'.clientStream =
      s.clientStream ++ calls.flatMap (Http1Codec.handed true)) :
    Handed (answers ++ [ev]) erred s' := by
  subst hs₁
  obtain ⟨htc, t, ht⟩ := h.hearing hp hm hh
  have hback : s'.hears = true := hq.hears hh
  refine ⟨rel_none hq.upstream h.upstream, fun ho he hs => ?_,
    fun hd => absurd (hback.symm.trans hd) (by decide), fun ho _ => ?_, fun _ t' ht' => ?_⟩
  · have ho₀ : s.closed_ = false := hq.stays_open ho
    have hs₀ : TlsFlow.shut s.tls 1 = false := hq.open_back 1 hs
    have hreaches : s.reachesClient = true :=
      (reachesClient_tls hm htc).mpr ⟨t, ht, (shut_eq ht).symm.trans hs₀⟩
    have hout := hstream hreaches
    rw [clientStream_tls (hq.isTlsMitm.trans hm) (hq.tlsClient.trans htc),
      clientStream_tls hm htc, h.client ho₀ he hs₀] at hout
    rw [hout, ((h.replays ho₀ hh).handle hcodec).2]
  · rw [hq.upstreamCodec]
    exact ((h.replays (hq.stays_open ho) hh).handle hcodec).1
  · obtain ⟨id, hid, rfl⟩ := List.getElem_of_mem ht'
    obtain ⟨t₀, ht₀, hf⟩ := hq.tls.back (List.getElem?_eq_getElem hid)
    rw [hf.handshakeDone]
    exact h.done hh t₀ (List.mem_of_getElem? ht₀)

/-- What is new to a list that one element was added to stands at its end. -/
theorem last_of_fresh {α : Type} {l before after : List α} {a x : α} (hx : x ∉ l)
    (h : l ++ [a] = before ++ x :: after) : a = x ∧ after = [] := by
  rcases List.eq_nil_or_concat after with rfl | ⟨rest, y, rfl⟩
  · obtain ⟨-, ha⟩ := List.append_inj' h rfl
    exact ⟨List.head_eq_of_cons_eq ha, rfl⟩
  · have hl : l = before ++ x :: rest := by
      have h' : l ++ [a] = (before ++ x :: rest) ++ [y] := by simpa using h
      exact (List.append_inj' h' rfl).1
    exact absurd (by simp [hl]) hx

/-- A callback of the upstream codec whose calls are handed to the client. -/
theorem BookedDown.heard {s s₁ s' : Session} (h : BookedDown s) (hp : Pointers s)
    (hup : s.ledger.linked = false → s.upstream_ = none ∧ s.isTlsMitm_ = false)
    (hh : s.hears = true) {ev : ParserEvent} {codec : Http1Codec} {calls : List Emission}
    (hcodec : s.upstreamCodec_.handle ev = some (codec, calls)) {log : List Note}
    (hlog : Ledger.of log = s.ledger.upstreamParsed ev)
    (hs₁ : s₁ = { s with upstreamCodec_ := codec, log := log })
    (hq : Quiet w D s₁ s') (hk : KeepsBooks s₁ s')
    (hc : s₁.ledger.closed = s₁.closed_ → s'.ledger.closed = s'.closed_)
    (hc' : s'.ledger.closed = true → s'.closed_ = true)
    (hend : s.isTlsMitm_ = false → ev = .messageComplete → s'.closed_ = true)
    (hfin : s'.ledger.finished = true →
      s.ledger.finished = true ∨ s.closed_ = false ∧ ev = .messageComplete)
    (hstream : s.reachesClient = true → s'.clientStream =
      s.clientStream ++ calls.flatMap (handed s.isTlsMitm_)) : BookedDown s' := by
  subst hs₁
  set s₁ := { s with upstreamCodec_ := codec, log := log } with hs₁
  have hbooks : s₁.ledger = s.ledger.upstreamParsed ev := hlog
  have hlinked : s.ledger.linked = true := by
    by_contra hn
    obtain ⟨hu, hm⟩ := hup (by simpa using hn)
    exact absurd ((unlinked_deaf hp hm hu).symm.trans hh) (by decide)
  have hanswers : s'.ledger.answers =
      if s.ledger.closed then s.ledger.answers else s.ledger.answers ++ [ev] := by
    rw [hk.answers, hbooks]
    rfl
  have herred : s'.ledger.erred = s.ledger.erred := by
    rw [hk.erred, hbooks]
    rfl
  have hlinked' : s'.ledger.linked = true := by
    rw [hk.linked, hbooks]
    exact hlinked
  have hclosed₁ : s₁.ledger.closed = s.ledger.closed := by
    rw [hbooks]
    rfl
  have hcodec' : s'.upstreamCodec_ = codec := hq.toLoose.upstreamCodec
  have hmitm : s'.isTlsMitm_ = s.isTlsMitm_ := hq.isTlsMitm
  refine ⟨hc', fun hn => absurd (hlinked'.symm.trans hn) (by decide), fun hm => ?_, fun hm => ?_,
    fun hm => ?_⟩
  · have ha := h.attached (hmitm.symm.trans hm)
    have ha₁ : Attached s₁ := ⟨hclosed₁.trans ha.shut, ha.client, fun _ => ha.upstream hlinked⟩
    exact ha₁.quiet hq hk (hc ha₁.shut)
  · have hm' := hmitm.symm.trans hm
    have ha := h.attached hm'
    have hpl := h.plain hm'
    obtain ⟨c, hcl, -, hopen⟩ := ha.client
    cases ho : s.closed_ with
    | true =>
      rw [ha.shut, ho, if_pos rfl] at hanswers
      refine ⟨fun he => ?_, fun ho' => ?_, fun before after hb => ?_, fun hf => ?_⟩
      · rw [hanswers, hq.toLoose.shutStream (c := c) hm' hcl (hopen.trans ho)]
        exact hpl.client (herred.symm.trans he)
      · exact absurd ((hq.closed ho).symm.trans ho') (by decide)
      · exact (hpl.ended before after (hanswers.symm.trans hb)).imp_left hq.closed
      · rw [hanswers]
        rcases hfin hf with hf | ⟨ho', -⟩
        · exact hpl.finished hf
        · exact absurd (ho.symm.trans ho') (by decide)
    | false =>
      have hreaches : s.reachesClient = true :=
        (reachesClient_plain (.inl hm')).mpr ⟨c, hcl, hopen.trans ho⟩
      have hreplays := hpl.replays ho
      rw [ha.shut, ho, if_neg (by decide)] at hanswers
      obtain ⟨hnext, hmore⟩ := hreplays.handle hcodec
      have hfresh : ParserEvent.messageComplete ∉ s.ledger.answers := by
        intro hmem
        obtain ⟨before, after, hb⟩ := List.append_of_mem hmem
        exact absurd ((hpl.ended before after hb).1.symm.trans ho) (by decide)
      refine ⟨fun he => ?_, fun _ => ?_, fun before after hb => ?_, fun hf => ?_⟩
      · rw [hanswers, hmore, hstream hreaches, hm', hpl.client (herred.symm.trans he)]
      · rw [hanswers, hcodec']
        exact hnext
      · rw [hanswers] at hb
        obtain ⟨hev, hafter⟩ := last_of_fresh hfresh hb
        exact ⟨hend hm' hev, hafter⟩
      · rw [hanswers]
        rcases hfin hf with hf | ⟨-, rfl⟩
        · exact List.mem_append_left _ (hpl.finished hf)
        · simp
  · have hm' := hmitm.symm.trans hm
    have ha := h.mitm hm'
    have hnext := ha.handed.heard hp hm' hh hcodec hs₁ hq.toLoose fun hr => by
      rw [hstream hr, hm']
    have hback : s'.hears = true := hq.toLoose.hears hh
    refine Handed.mitm ?_ hlinked'
    rw [hanswers, herred]
    split
    · next hcl => exact hnext.closed (hq.closed (h.shut hcl)) hback
    · exact hnext

end Session

end DeepSeer
