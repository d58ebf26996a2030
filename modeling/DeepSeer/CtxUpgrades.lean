import DeepSeer.CtxReferences
import DeepSeer.SessionActs

/-!
The runs of an interception. While a handshake waits the session owns a reference
of each context that it has made; the callback that ends the handshake drops
them. The references are kept in hand along a run until the session is closed
while a handshake waits.
-/
namespace DeepSeer

open ByteMemory LruLists RefCounts Schedules

namespace Upgrade

def nobody : Side → Nat := fun _ => 0

def upstreamOnly : Side → Nat := fun a => if a = .upstream then 1 else 0

def both : Side → Nat := fun _ => 1

theorem Counted.freeUpstream {s : Upgrade} (h : Counted s upstreamOnly) :
    Counted (s.freeCtx .upstream) nobody :=
  h.freeCtx .upstream (by intro a; cases a <;> rfl)

theorem Counted.freeBoth {s : Upgrade} (h : Counted s both) :
    Counted ((s.freeCtx .client).freeCtx .upstream) nobody := by
  have hclient : Counted (s.freeCtx .client) upstreamOnly :=
    h.freeCtx .client (by intro a; cases a <;> rfl)
  exact hclient.freeUpstream

/-- How far an upgrade has come, with the references that the session owns: none
before it, one while the upstream handshake waits, two while the client
handshake waits, and none when no handshake waits. -/
inductive Stage (s : Upgrade) : (Side → Nat) → Prop
  | idle : (∀ a, s.tls a = none) → s.cached .client = 0 →
      (s.closed_ = true → s.plain .upstream = kInvalidFd) → Stage s nobody
  | upstream : s.closed_ = false → s.waits .upstream = true → s.tls .client = none →
      s.cached .client = 0 → Stage s upstreamOnly
  | client : s.closed_ = false → s.waits .client = true → s.waits .upstream = false →
      (s.tls .upstream).isSome = true → Stage s both
  | settled : (s.tls .upstream).isSome = true → (∀ a, s.waits a = false) → Stage s nobody

/-- An upgrade whose references are in hand. -/
def Fine (s : Upgrade) : Prop := ∃ own, Counted s own ∧ Stage s own

/-- One that owns a reference which nothing will drop. -/
structure Leaks (s : Upgrade) (own : Side → Nat) : Prop where
  counted : Counted s own
  closed : s.closed_ = true
  made : (s.tls .upstream).isSome = true
  idle : ∀ a, s.waits a = false
  owned : own .upstream = 1

theorem fine_settled {s : Upgrade} (h : Counted s nobody) (hmade : (s.tls .upstream).isSome = true)
    (hover : ∀ a, s.waits a = false) : Fine s.close := by
  obtain ⟨hk, -⟩ := kept_close s
  exact ⟨nobody, h.kept hk, .settled ((hk.made _).trans hmade) fun a => hk.waits a (hover a)⟩

theorem fine_clientHandshake (w : World) {s : Upgrade} (h : Counted s both)
    (ho : s.closed_ = false) (hw : s.waits .client = true) (hu : s.waits .upstream = false)
    (hmade : (s.tls .upstream).isSome = true) : Fine (s.clientHandshake w) := by
  have hshaken := shaken_handshakeStep w hw
  unfold clientHandshake
  generalize s.handshakeStep w .client = r at hshaken
  obtain ⟨s₁, outcome⟩ := r
  dsimp only at hshaken ⊢
  have h₁ := h.kept hshaken.kept
  have hmade₁ := (hshaken.kept.made .upstream).trans hmade
  have hu₁ := hshaken.kept.waits _ hu
  cases outcome with
  | nothing =>
    exact ⟨both, h₁, .client (hshaken.closed.trans ho) (by rw [hshaken.waits]; rfl) hu₁ hmade₁⟩
  | complete =>
    have hk := (kept_startRead s₁ .client).trans (kept_startRead _ .upstream)
    refine ⟨nobody, (h₁.kept hk).freeBoth, .settled ((hk.made _).trans hmade₁) fun a => hk.waits a ?_⟩
    cases a with
    | client => rw [hshaken.waits]; rfl
    | upstream => exact hu₁
  | failed =>
    refine fine_settled h₁.freeBoth hmade₁ fun a => ?_
    cases a with
    | client => exact hshaken.waits
    | upstream => exact hu₁

/-- The certificate of the client side goes into the cache, if there is one. -/
theorem Counted.putCertificate {s s' : Upgrade} {own : Side → Nat} (h : Counted s own)
    (hnone : s.cached .client = 0) (hs : s.putCertificate = some s') :
    Counted s' own ∧ s'.tls = s.tls ∧ s'.closed_ = s.closed_ := by
  unfold Upgrade.putCertificate at hs
  split at hs
  · cases hs
    exact ⟨h, rfl, rfl⟩
  · next c hc =>
    obtain ⟨h', htls, hclosed, -⟩ := h.putCtx hc h.apart (fun _ => hnone) hs
    exact ⟨h', htls, hclosed⟩

theorem waits_makeTls (s : Upgrade) (a : Side) (callback : HandshakeCallback) :
    (s.makeTls a callback).waits a = true := by
  simp [waits, makeTls]

theorem makeTls_socket {s : Upgrade} {a : Side} {callback : HandshakeCallback} {t : TlsObject}
    (ht : (s.makeTls a callback).tls a = some t) : t.conn.socket_ = s.plain a := by
  simp only [makeTls, Function.update_self, Option.some.injEq] at ht
  rw [← ht]

theorem makeTls_other {s : Upgrade} {a b : Side} (h : b ≠ a)
    (callback : HandshakeCallback) : (s.makeTls a callback).tls b = s.tls b :=
  Function.update_of_ne h ..

/-- The upstream handshake is over, and the session still owns its context. -/
theorem fine_onUpstreamHandshake (w : World) {s s' : Upgrade} (h : Counted s upstreamOnly)
    (ho : s.closed_ = false) (hu : s.waits .upstream = false)
    (hmade : (s.tls .upstream).isSome = true) (hc : s.tls .client = none)
    (hnone : s.cached .client = 0) (hs : s.onUpstreamHandshake w = some s') : Fine s' := by
  unfold onUpstreamHandshake at hs
  split at hs
  · obtain ⟨s₁, hput, rfl⟩ := Option.map_eq_some_iff.mp hs
    have hnew : Counted (s.newCtx .client) both :=
      h.newCtx .client (by intro a; cases a <;> rfl)
    obtain ⟨h₁, htls, hclosed⟩ := hnew.putCertificate hnone hput
    have hc₁ : s₁.tls .client = none := by rw [htls]; exact hc
    have hother := makeTls_other (s := s₁) (show Side.upstream ≠ .client by decide) .client
    apply fine_clientHandshake w (h₁.makeTls hc₁ .client)
    · exact hclosed.trans ho
    · exact waits_makeTls s₁ .client .client
    · rw [waits, hother, htls]
      exact hu
    · rw [hother, htls]
      exact hmade
  · cases hs
    refine fine_settled h.freeUpstream hmade fun a => ?_
    cases a with
    | client => exact waits_none hc
    | upstream => exact hu

theorem fine_upstreamHandshake (w : World) {s s' : Upgrade} (h : Counted s upstreamOnly)
    (hw : s.waits .upstream = true) (hc : s.tls .client = none) (hnone : s.cached .client = 0)
    (ho : s.closed_ = true → ∀ t, s.tls .upstream = some t → t.conn.socket_ = kInvalidFd)
    (hs : s.upstreamHandshake w = some s') : Fine s' := by
  have hshaken := shaken_handshakeStep w hw
  have hsome : ∃ t, s.tls .upstream = some t := by
    cases ht : s.tls .upstream with
    | none =>
      rw [waits_none ht] at hw
      cases hw
    | some t => exact ⟨t, rfl⟩
  obtain ⟨t, ht⟩ := hsome
  unfold upstreamHandshake at hs
  generalize s.handshakeStep w .upstream = r at hshaken hs
  obtain ⟨s₁, outcome⟩ := r
  dsimp only at hshaken hs
  have h₁ := h.kept hshaken.kept
  have hmade : (s₁.tls .upstream).isSome = true := by rw [hshaken.kept.made, ht]; rfl
  have hc₁ : s₁.tls .client = none := (hshaken.others .client (by decide)).trans hc
  have hnone₁ : s₁.cached .client = 0 := by
    rw [cached, hshaken.kept.certCache, hshaken.kept.ctx]
    exact hnone
  have hopen : outcome ≠ .failed → s₁.closed_ = false := by
    intro hne
    rw [hshaken.closed]
    by_contra hcl
    exact hne (hshaken.invalid t ht (ho (by simpa using hcl) t ht))
  cases outcome with
  | nothing =>
    cases hs
    exact ⟨upstreamOnly, h₁,
      .upstream (hopen (by decide)) (by rw [hshaken.waits]; rfl) hc₁ hnone₁⟩
  | complete =>
    exact fine_onUpstreamHandshake w h₁ (hopen (by decide)) (by rw [hshaken.waits]; rfl) hmade hc₁
      hnone₁ hs
  | failed =>
    cases hs
    refine fine_settled h₁.freeUpstream hmade fun a => ?_
    cases a with
    | client => exact waits_none hc₁
    | upstream => exact hshaken.waits

/-- A change that leaves the handshakes as they are. -/
structure Aside (s s' : Upgrade) : Prop where
  made : ∀ a, (s'.tls a).isSome = (s.tls a).isSome
  waits : ∀ a, s'.waits a = s.waits a
  closed : s'.closed_ = s.closed_
  plain : s'.plain = s.plain
  cached : s'.cached .client ≤ s.cached .client

theorem Stage.aside {s s' : Upgrade} {own : Side → Nat} (h : Stage s own) (ha : Aside s s') :
    Stage s' own := by
  have hnone : ∀ a, s.tls a = none → s'.tls a = none := by
    intro a ht
    have hmade := ha.made a
    rw [ht] at hmade
    simpa using hmade
  cases h with
  | idle hn hc hp =>
    refine .idle (fun a => hnone a (hn a)) (Nat.le_zero.mp (hc ▸ ha.cached)) ?_
    rw [ha.closed, ha.plain]
    exact hp
  | upstream ho hw hn hc =>
    exact .upstream (ha.closed.trans ho) ((ha.waits _).trans hw) (hnone _ hn)
      (Nat.le_zero.mp (hc ▸ ha.cached))
  | client ho hw hu hm =>
    exact .client (ha.closed.trans ho) ((ha.waits _).trans hw) ((ha.waits _).trans hu)
      ((ha.made _).trans hm)
  | settled hm hover => exact .settled ((ha.made _).trans hm) fun a => (ha.waits a).trans (hover a)

theorem aside_closeTls {s : Upgrade} {a : Side} (h : s.waits a = false) :
    Aside s (s.closeTls a) := by
  obtain ⟨hk, hw⟩ := kept_closeTls s a
  have hsame : (s.closeTls a).closed_ = s.closed_ ∧ (s.closeTls a).plain = s.plain ∧
      ∀ b, b ≠ a → (s.closeTls a).tls b = s.tls b := by
    unfold closeTls
    split
    · exact ⟨rfl, rfl, fun _ _ => rfl⟩
    · exact ⟨rfl, rfl, fun b hb => setConn_other s hb _ _⟩
  refine ⟨hk.made, fun b => ?_, hsame.1, hsame.2.1, ?_⟩
  · by_cases hb : b = a
    · rw [hb, hw, h]
    · rw [waits, hsame.2.2 b hb, waits]
  · rw [cached, hk.certCache, hk.ctx, cached]

theorem aside_destroyTls {s : Upgrade} {a : Side} (h : s.waits a = false) :
    Aside s (s.destroyTls a) := by
  have hclose := aside_closeTls h
  have htls : ∀ b, (s.destroyTls a).tls b = ((s.closeTls a).tls b).map fun t =>
      if b = a then { t with ssl_ := false } else t := by
    intro b
    by_cases hb : b = a
    · subst hb
      simp [destroyTls]
    · simp [destroyTls, hb]
  refine ⟨fun b => ?_, fun b => ?_, hclose.closed, hclose.plain, hclose.cached⟩
  · rw [htls, Option.isSome_map]
    exact hclose.made b
  · rw [← hclose.waits b, waits, waits, htls]
    cases (s.closeTls a).tls b with
    | none => rfl
    | some t => by_cases hb : b = a <;> simp [hb]

/-- What another session does with the cache. -/
theorem Counted.useCache {s s' : Upgrade} {own : Side → Nat} (h : Counted s own) {c : CertCache}
    (hc : s.certCache_ = some c) {call : LruCall Bytes SslCtx} (hs : s.useCache c call = some s') :
    Counted s' own ∧ Aside s s' := by
  cases call with
  | get hostname =>
    obtain ⟨⟨c', found⟩, hget, rfl⟩ := Option.map_eq_some_iff.mp hs
    obtain ⟨hmirrors, hholding⟩ := (h.mirrors c hc).get hget
    have hcached : ∀ a, cached { s with certCache_ := some c' } a = s.cached a := fun a => by
      rw [cached, cached, hc]
      exact hholding _
    refine ⟨⟨h.apart, ?_, fun a => ?_, (hcached _).trans h.cachedUpstream,
      (hcached _).trans_le h.cachedClient⟩,
      ⟨fun _ => rfl, fun _ => rfl, rfl, rfl, (hcached _).le⟩⟩
    · rintro _ ⟨⟩
      exact hmirrors
    · rw [hcached]
      exact h.holds a
  | put hostname ctx =>
    rw [Upgrade.useCache] at hs
    split at hs
    · cases hs
    · next hforeign =>
      rw [not_or] at hforeign
      obtain ⟨h', htls, hclosed, hplain, hle⟩ :=
        h.putCtx hc hforeign.1 (fun he => absurd he hforeign.2) hs
      exact ⟨h', ⟨fun a => by rw [htls], fun a => by rw [waits, htls, waits], hclosed, hplain,
        hle hforeign.2⟩⟩

/-- The session is not closed while a handshake waits. -/
def ClosesSettled (s : Upgrade) : UpgradeAct → Prop
  | .close => s.waits .upstream = false ∧ s.waits .client = false
  | _ => True

instance (s : Upgrade) (act : UpgradeAct) : Decidable (s.ClosesSettled act) := by
  unfold ClosesSettled
  split <;> infer_instance

theorem close_plain {s : Upgrade} (h : s.closed_ = false) :
    s.close.plain .upstream = kInvalidFd := by
  have htls : ∀ (s : Upgrade) a, (s.closeTls a).plain = s.plain := by
    intro s a
    unfold closeTls
    split <;> rfl
  rw [close, if_neg (by simp [h]), htls, htls, closePlain]
  split
  · assumption
  · simp

theorem close_closed (s : Upgrade) : s.close.closed_ = true := by
  have htls : ∀ (s : Upgrade) a, (s.closeTls a).closed_ = s.closed_ := by
    intro s a
    unfold closeTls
    split <;> rfl
  have hplain : ∀ (s : Upgrade) a, (s.closePlain a).closed_ = s.closed_ := by
    intro s a
    unfold closePlain
    split <;> rfl
  unfold close
  split
  · assumption
  · rw [htls, htls, hplain, hplain]

theorem close_again {s : Upgrade} (h : s.closed_ = true) : s.close = s := by
  rw [close, if_pos h]

/-- A handshake waits at one stage for each side. -/
theorem Stage.waits_open {s : Upgrade} {own : Side → Nat} (h : Stage s own)
    (hw : ¬ (s.waits .upstream = false ∧ s.waits .client = false)) :
    s.closed_ = false ∧ own .upstream = 1 ∧ (s.tls .upstream).isSome = true := by
  cases h with
  | idle hn _ _ => exact absurd ⟨waits_none (hn _), waits_none (hn _)⟩ hw
  | upstream ho hup _ _ =>
    refine ⟨ho, rfl, ?_⟩
    cases ht : s.tls .upstream with
    | none =>
      rw [waits_none ht] at hup
      cases hup
    | some t => rfl
  | client ho _ _ hm => exact ⟨ho, rfl, hm⟩
  | settled _ hover => exact absurd ⟨hover _, hover _⟩ hw

theorem Fine.start {s s' : Upgrade} (w : World) (h : Fine s) (hn : (s.tls .upstream).isNone = true)
    (hs : s.startTlsMitm w = some s') : Fine s' := by
  obtain ⟨own, hcounted, hstage⟩ := h
  cases hstage with
  | idle htls hnone hplain =>
    have hnew : Counted (s.newCtx .upstream) upstreamOnly :=
      hcounted.newCtx .upstream (by intro a; cases a <;> rfl)
    refine fine_upstreamHandshake w (hnew.makeTls (htls _) _) (waits_makeTls _ _ _) ?_ hnone ?_ hs
    · rw [makeTls_other (by decide)]
      exact htls _
    · exact fun hclosed t ht => (makeTls_socket ht).trans (hplain hclosed)
  | upstream _ hw _ _ =>
    rw [waits_none (by simpa using hn)] at hw
    cases hw
  | client _ _ _ hm =>
    rw [Option.isNone_iff_eq_none.mp hn] at hm
    cases hm
  | settled hm _ =>
    rw [Option.isNone_iff_eq_none.mp hn] at hm
    cases hm

theorem Fine.handleIo {s s' : Upgrade} (w : World) (h : Fine s) {a : Side}
    (hs : s.handleIo w a = some s') : Fine s' := by
  unfold Upgrade.handleIo at hs
  split at hs
  · next hw =>
    obtain ⟨own, hcounted, hstage⟩ := h
    cases hstage with
    | idle htls _ _ =>
      rw [waits_none (htls a)] at hw
      cases hw
    | upstream ho hup hn hnone =>
      cases a with
      | upstream =>
        refine fine_upstreamHandshake w hcounted hw hn hnone (fun hc => ?_) hs
        exact absurd (ho.symm.trans hc) (by decide)
      | client =>
        rw [waits_none hn] at hw
        cases hw
    | client ho hcl hup hm =>
      cases a with
      | upstream => exact absurd (hw.symm.trans hup) (by decide)
      | client =>
        cases hs
        exact fine_clientHandshake w hcounted ho hw hup hm
    | settled _ hover => exact absurd (hw.symm.trans (hover a)) (by decide)
  · cases hs
    exact h

theorem Fine.close {s : Upgrade} (h : Fine s) (hu : s.waits .upstream = false)
    (hc : s.waits .client = false) : Fine s.close := by
  obtain ⟨own, hcounted, hstage⟩ := h
  obtain ⟨hk, -⟩ := kept_close s
  cases hstage with
  | idle htls hnone hplain =>
    refine ⟨nobody, hcounted.kept hk, .idle (fun a => ?_) ?_ fun _ => ?_⟩
    · have hmade := hk.made a
      rw [htls a] at hmade
      simpa using hmade
    · rw [cached, hk.certCache, hk.ctx]
      exact hnone
    · cases ho : s.closed_ with
      | true =>
        rw [close_again ho]
        exact hplain ho
      | false => exact close_plain ho
  | upstream _ hw _ _ => exact absurd (hw.symm.trans hu) (by decide)
  | client _ hw _ _ => exact absurd (hw.symm.trans hc) (by decide)
  | settled hm hover => exact fine_settled hcounted hm hover

/-- Closed while a handshake waits, a session never drops its reference of the
upstream context. -/
theorem Fine.leaks {s : Upgrade} (h : Fine s)
    (hw : ¬ (s.waits .upstream = false ∧ s.waits .client = false)) :
    ∃ own, Leaks s.close own := by
  obtain ⟨own, hcounted, hstage⟩ := h
  obtain ⟨hk, hover⟩ := kept_close s
  obtain ⟨ho, hown, hm⟩ := hstage.waits_open hw
  exact ⟨own, hcounted.kept hk, close_closed s, (hk.made _).trans hm, hover ho, hown⟩

theorem alive_made {s : Upgrade} {a : Side} (h : s.alive a = true) : s.tls a ≠ none := by
  intro hn
  rw [alive, hn] at h
  cases h

theorem Fine.destroy {s : Upgrade} (h : Fine s) {a : Side} (ha : s.alive a = true)
    (hc : s.closed_ = true) : Fine (s.destroyTls a) := by
  obtain ⟨own, hcounted, hstage⟩ := h
  have hw : s.waits a = false := by
    cases hstage with
    | idle htls _ _ => exact absurd (htls a) (alive_made ha)
    | upstream ho _ _ _ => exact absurd (ho.symm.trans hc) (by decide)
    | client ho _ _ _ => exact absurd (ho.symm.trans hc) (by decide)
    | settled _ hover => exact hover a
  exact ⟨own, hcounted.destroyTls ha, hstage.aside (aside_destroyTls hw)⟩

theorem Fine.step {s s' : Upgrade} (w : World) {act : UpgradeAct} (h : Fine s)
    (hallowed : s.ClosesSettled act) (hs : s.step w act = some s') : Fine s' := by
  cases act with
  | start =>
    obtain ⟨hn, hs⟩ := Option.ite_none_right_eq_some.mp hs
    exact h.start w hn hs
  | io a =>
    obtain ⟨-, hs⟩ := Option.ite_none_right_eq_some.mp hs
    exact h.handleIo w hs
  | ends a =>
    obtain ⟨⟨-, hw⟩, hs⟩ := Option.ite_none_right_eq_some.mp hs
    cases hs
    obtain ⟨own, hcounted, hstage⟩ := h
    exact ⟨own, hcounted.kept (kept_closeTls s a).1, hstage.aside (aside_closeTls hw)⟩
  | close =>
    cases hs
    exact h.close hallowed.1 hallowed.2
  | destroy a =>
    obtain ⟨⟨ha, hc⟩, hs⟩ := Option.ite_none_right_eq_some.mp hs
    cases hs
    exact h.destroy ha hc
  | cache call =>
    obtain ⟨c, hc, hs⟩ := Option.bind_eq_some_iff.mp hs
    obtain ⟨own, hcounted, hstage⟩ := h
    obtain ⟨h', ha⟩ := hcounted.useCache hc hs
    exact ⟨own, h', hstage.aside ha⟩

theorem Leaks.aside {s s' : Upgrade} {own : Side → Nat} (h : Leaks s own) (hc : Counted s' own)
    (ha : Aside s s') : Leaks s' own :=
  ⟨hc, ha.closed.trans h.closed, (ha.made _).trans h.made, fun a => (ha.waits a).trans (h.idle a),
    h.owned⟩

theorem Leaks.step {s s' : Upgrade} {own : Side → Nat} (w : World) {act : UpgradeAct}
    (h : Leaks s own) (hs : s.step w act = some s') : Leaks s' own := by
  cases act with
  | start =>
    obtain ⟨hn, -⟩ := Option.ite_none_right_eq_some.mp hs
    have hm := h.made
    rw [Option.isNone_iff_eq_none.mp hn] at hm
    cases hm
  | io a =>
    obtain ⟨-, hs⟩ := Option.ite_none_right_eq_some.mp hs
    unfold Upgrade.handleIo at hs
    rw [if_neg (by simp [h.idle a])] at hs
    cases hs
    exact h
  | ends a =>
    obtain ⟨⟨-, hw⟩, hs⟩ := Option.ite_none_right_eq_some.mp hs
    cases hs
    exact h.aside (h.counted.kept (kept_closeTls s a).1) (aside_closeTls hw)
  | close =>
    cases hs
    rw [close_again h.closed]
    exact h
  | destroy a =>
    obtain ⟨⟨ha, -⟩, hs⟩ := Option.ite_none_right_eq_some.mp hs
    cases hs
    exact h.aside (h.counted.destroyTls ha) (aside_destroyTls (h.idle a))
  | cache call =>
    obtain ⟨c, hc, hs⟩ := Option.bind_eq_some_iff.mp hs
    obtain ⟨h', ha⟩ := h.counted.useCache hc hs
    exact h.aside h' ha

theorem leaks_run {s s' : Upgrade} {own : Side → Nat} (w : World) (h : Leaks s own)
    {actions : List UpgradeAct} (hrun : run (step w) s actions = some s') : Leaks s' own :=
  run_kept (fun s => Leaks s own) (fun _ _ _ h hstep => h.step w hstep) h hrun

/-- A run keeps its references in hand, unless it closes the session while a
handshake waits; then one is never dropped. -/
theorem fine_run {s s' : Upgrade} (w : World) (h : Fine s) {actions : List UpgradeAct}
    (hrun : run (step w) s actions = some s') :
    Along (step w) ClosesSettled s actions ∧ Fine s' ∨
      ¬ Along (step w) ClosesSettled s actions ∧ ∃ own, Leaks s' own := by
  induction actions generalizing s with
  | nil =>
    cases hrun
    exact .inl ⟨trivial, h⟩
  | cons act rest ih =>
    obtain ⟨t, hstep, hrest⟩ := run_cons hrun
    by_cases hallowed : s.ClosesSettled act
    · rcases ih (h.step w hallowed hstep) hrest with ⟨halong, hfine⟩ | ⟨hnot, hleaks⟩
      · refine .inl ⟨⟨hallowed, fun t' ht' => ?_⟩, hfine⟩
        cases hstep.symm.trans ht'
        exact halong
      · exact .inr ⟨fun halong => hnot (halong.2 t hstep), hleaks⟩
    · refine .inr ⟨fun halong => hallowed halong.1, ?_⟩
      cases act with
      | close =>
        cases hstep
        obtain ⟨own, hleaks⟩ := h.leaks hallowed
        exact ⟨own, leaks_run w hleaks hrest⟩
      | start => exact absurd trivial hallowed
      | io a => exact absurd trivial hallowed
      | ends a => exact absurd trivial hallowed
      | destroy a => exact absurd trivial hallowed
      | cache call => exact absurd trivial hallowed

theorem fine_new (hostname : Bytes) {ctx : Side → SslCtx} (hctx : ctx .client ≠ ctx .upstream)
    (maxEntries : Option Nat) (loop : KqueueLoop) (plain : Side → Fd) :
    Fine (new hostname ctx maxEntries loop plain) := by
  have hcached : ∀ a, (new hostname ctx maxEntries loop plain).cached a = 0 := by
    intro a
    cases maxEntries <;> rfl
  refine ⟨nobody, ⟨hctx, ?_, fun a => ?_, hcached _, (hcached _).trans_le (Nat.zero_le _)⟩,
    .idle (fun _ => rfl) (hcached _) (fun hc => by cases hc)⟩
  · intro c hc
    obtain ⟨n, -, rfl⟩ := Option.map_eq_some_iff.mp hc
    exact CertCache.mirrors_new n
  · rw [hcached]
    exact holds_nil _

/-- Nothing is left of the references but the one of the cache, if it still has it. -/
def Released (s : Upgrade) : Prop :=
  (∀ a, taken (s.ctx a) s.refs = dropped (s.ctx a) s.refs + s.cached a) ∧
    s.cached .upstream = 0 ∧ s.cached .client ≤ 1

theorem fine_released {s : Upgrade} (h : Fine s) (hc : s.closed_ = true)
    (hdead : ∀ a, s.alive a = false) : Released s := by
  obtain ⟨own, hcounted, hstage⟩ := h
  have hown : ∀ a, own a = 0 := by
    cases hstage with
    | idle _ _ _ => exact fun _ => rfl
    | upstream ho _ _ _ => exact absurd (ho.symm.trans hc) (by decide)
    | client ho _ _ _ => exact absurd (ho.symm.trans hc) (by decide)
    | settled _ _ => exact fun _ => rfl
  refine ⟨fun a => ?_, hcounted.cachedUpstream, hcounted.cachedClient⟩
  have hcount := (hcounted.holds a).count
  rw [hown, hdead, Bool.toNat_false] at hcount
  omega

theorem leaks_kept {s : Upgrade} {own : Side → Nat} (h : Leaks s own) : ¬ Released s := by
  rintro ⟨hreleased, -, -⟩
  have hcount := (h.counted.holds .upstream).count
  rw [h.owned, hreleased .upstream] at hcount
  omega

end Upgrade

open Upgrade

/-- In every run of an interception no context is released more often than it was
acquired; and once the session is closed and its TLS connections are destroyed,
the only reference left is the one of the cache exactly if the session was never
closed while a handshake waited. -/
theorem ctx_references (w : World) (hostname : Bytes) {ctx : Side → SslCtx}
    (hctx : ctx .client ≠ ctx .upstream) (maxEntries : Option Nat) (loop : KqueueLoop)
    (plain : Side → Fd) {actions : List UpgradeAct} {s : Upgrade}
    (hrun : run (step w) (new hostname ctx maxEntries loop plain) actions = some s) :
    (∀ a, Covered (s.ctx a) s.refs) ∧
      (s.closed_ = true → (∀ a, s.alive a = false) → (Released s ↔
        Along (step w) ClosesSettled (new hostname ctx maxEntries loop plain) actions)) := by
  rcases fine_run w (fine_new hostname hctx maxEntries loop plain) hrun with
    ⟨halong, hfine⟩ | ⟨hnot, own, hleaks⟩
  · constructor
    · obtain ⟨own, hcounted, -⟩ := hfine
      exact fun a => (hcounted.holds a).covered
    · exact fun hc hdead => iff_of_true (fine_released hfine hc hdead) halong
  · constructor
    · exact fun a => (hleaks.counted.holds a).covered
    · exact fun _ _ => iff_of_false (leaks_kept hleaks) hnot

/-- Two contexts for the two sides. -/
def twoCtxs : Side → SslCtx
  | .upstream => 1
  | .client => 2

/-- The sockets of a client and of its upstream. -/
def twoSockets : Side → Fd
  | .upstream => 10
  | .client => 7

theorem ctx_references_cached : ∃ s,
    run (step promptWorld) (new (ByteText.text "h") twoCtxs (some 1024) {} twoSockets)
      [.start, .close, .destroy .client, .destroy .upstream] = some s ∧ Released s := by
  refine ⟨_, rfl, ?_⟩
  have hbalance := @ctx_references promptWorld (ByteText.text "h") twoCtxs (by decide) (some 1024)
    {} twoSockets [.start, .close, .destroy .client, .destroy .upstream] _ rfl
  exact (hbalance.2 rfl (by intro a; cases a <;> rfl)).mpr (by decide)

/-- A world in which no peer ever answers a handshake. -/
def silentWorld : World := { promptWorld with handshake := fun _ _ => .stops .wantRead }

/-- Closed while it waits for the upstream, a session leaks the upstream context. -/
theorem closed_handshake_leaks : ∃ s,
    run (step silentWorld) (new (ByteText.text "h") twoCtxs (some 1024) {} twoSockets)
      [.start, .close, .destroy .upstream] = some s ∧ s.closed_ = true ∧
    (∀ a, s.alive a = false) ∧ s.cached .upstream = 0 ∧
    taken (s.ctx .upstream) s.refs = dropped (s.ctx .upstream) s.refs + 1 ∧ ¬ Released s := by
  refine ⟨_, rfl, rfl, by intro a; cases a <;> rfl, rfl, rfl, ?_⟩
  rintro ⟨hbalance, -, -⟩
  exact absurd (hbalance .upstream) (by decide)

end DeepSeer
