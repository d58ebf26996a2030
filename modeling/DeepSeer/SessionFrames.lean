import DeepSeer.CodecHeads
import DeepSeer.LinkFrames
import DeepSeer.SessionEvents
import Mathlib.Data.List.Forall2

/-!
What moving data and closing leave alone. The handlers that only do this are
quiet: they change the connections they write to and the watches of these, and
the rest of the session only where it closes.
-/
namespace DeepSeer

open ByteMemory ByteText KqueueLoop

/-- The two sides that data can be written to. -/
inductive Side where
  | client | upstream
  deriving DecidableEq, Repr

def TlsConnection.side (t : TlsConnection) : Side := if t.isServer_ then .client else .upstream

theorem TlsConnection.Kin.side {t t' : TlsConnection} (h : t.Kin t') : t'.side = t.side := by
  rw [TlsConnection.side, TlsConnection.side, h.isServer]

/-- TLS connections of a table that were moved on, one by one. -/
def TlsFlow (D : Side → Prop) : List TlsConnection → List TlsConnection → Prop :=
  List.Forall₂ fun t => TlsConnection.Flows (D t.side) t

namespace TlsFlow

variable {D : Side → Prop}

theorem refl (D : Side → Prop) (l : List TlsConnection) : TlsFlow D l l :=
  List.forall₂_same.mpr fun t _ => .refl _ t

theorem trans {l l' l'' : List TlsConnection} (h : TlsFlow D l l') (h' : TlsFlow D l' l'') :
    TlsFlow D l l'' := by
  induction h generalizing l'' with
  | nil => exact h'
  | cons hf _ ih =>
    cases h' with
    | cons hf' hrest =>
      refine .cons ⟨hf.toKin.trans hf'.toKin, fun hp => ?_⟩ (ih hrest)
      rw [hf'.silent (by rwa [hf.toKin.side]), hf.silent hp]

theorem back {l l' : List TlsConnection} (h : TlsFlow D l l') {id : Nat} {t' : TlsConnection}
    (ht : l'[id]? = some t') : ∃ t, l[id]? = some t ∧ TlsConnection.Flows (D t.side) t t' := by
  induction h generalizing id with
  | nil => exact absurd ht (by simp)
  | @cons a b _ _ hf _ ih =>
    cases id with
    | zero =>
      simp only [List.getElem?_cons_zero, Option.some.injEq] at ht
      exact ⟨a, rfl, ht ▸ hf⟩
    | succ id => simpa using ih (by simpa using ht)

theorem forth {l l' : List TlsConnection} (h : TlsFlow D l l') {id : Nat} {t : TlsConnection}
    (ht : l[id]? = some t) : ∃ t', l'[id]? = some t' ∧ TlsConnection.Flows (D t.side) t t' := by
  induction h generalizing id with
  | nil => exact absurd ht (by simp)
  | @cons a b _ _ hf _ ih =>
    cases id with
    | zero =>
      simp only [List.getElem?_cons_zero, Option.some.injEq] at ht
      exact ⟨b, rfl, ht ▸ hf⟩
    | succ id => simpa using ih (by simpa using ht)

/-- The bytes written so far to a place of the table, none where it is free. -/
def stream (l : List TlsConnection) (id : Nat) : Bytes :=
  (l[id]?.map TlsConnection.written).getD []

/-- Whether the connection at a place of the table is closed. -/
def shut (l : List TlsConnection) (id : Nat) : Bool :=
  (l[id]?.map TlsConnection.closed_).getD false

theorem stream_eq {l l' : List TlsConnection} (h : TlsFlow D l l') {id : Nat}
    (hD : ∀ t, l[id]? = some t → ¬ D t.side) : stream l' id = stream l id := by
  cases ht : l[id]? with
  | none =>
    cases ht' : l'[id]? with
    | none => simp [stream, ht, ht']
    | some t' =>
      obtain ⟨t, htt, -⟩ := h.back ht'
      exact absurd (ht.symm.trans htt) (by simp)
  | some t =>
    obtain ⟨t', ht', hf⟩ := h.forth ht
    simp [stream, ht, ht', hf.silent (hD t ht)]

theorem shut_stays {l l' : List TlsConnection} (h : TlsFlow D l l') {id : Nat}
    (hs : shut l id = true) : shut l' id = true := by
  cases ht : l[id]? with
  | none => simp [shut, ht] at hs
  | some t =>
    obtain ⟨t', ht', hf⟩ := h.forth ht
    simp only [shut, ht, Option.map_some, Option.getD_some] at hs
    simp [shut, ht', (hf.closed hs).1]

/-- A new connection starts its place of the table without bytes. -/
theorem stream_append {l : List TlsConnection} {t : TlsConnection} (ht : t.written = [])
    (id : Nat) : stream (l ++ [t]) id = stream l id := by
  simp only [stream, List.getElem?_append, List.getElem?_singleton]
  split
  · rfl
  · next hid =>
    rw [List.getElem?_eq_none (by omega)]
    split <;> simp [ht]

theorem shut_append {l : List TlsConnection} (t : TlsConnection) {id : Nat}
    (hs : shut l id = true) : shut (l ++ [t]) id = true := by
  cases ht : l[id]? with
  | none => simp [shut, ht] at hs
  | some t' =>
    obtain ⟨hid, -⟩ := List.getElem?_eq_some_iff.mp ht
    simpa [shut, List.getElem?_append_left hid] using hs

theorem set {l : List TlsConnection} {id : Nat} {t t' : TlsConnection} (ht : l[id]? = some t)
    (hf : TlsConnection.Flows (D t.side) t t') : TlsFlow D l (l.set id t') := by
  induction l generalizing id with
  | nil => exact absurd ht (by simp)
  | cons a rest ih =>
    cases id with
    | zero =>
      simp only [List.getElem?_cons_zero, Option.some.injEq] at ht
      exact .cons (ht ▸ hf) (refl D rest)
    | succ id => exact .cons (.refl _ a) (ih (by simpa using ht))

end TlsFlow

namespace Session

/-- The session without the parts that moving data and closing change. -/
def still (s : Session) : Session :=
  { s with
    loop_ := {}, client_ := none, upstream_ := none, connectingSocket_ := kInvalidFd
    pendingBody_ := {}, responseBody_ := {}, closed_ := false, tls := [], log := [] }

/-- Notes of what moving data and closing can bring about. -/
def aside : Note → Bool
  | .closed _ | .inspected _ _ => true
  | _ => false

@[simp] theorem closeClient_closed (s : Session) : s.closeClient.closed_ = s.closed_ := by
  unfold closeClient
  split <;> rfl

@[simp] theorem closeUpstream_closed (s : Session) : s.closeUpstream.closed_ = s.closed_ := by
  unfold closeUpstream
  split <;> rfl

@[simp] theorem closeTls_closed (s : Session) (id : Nat) : (s.closeTls id).closed_ = s.closed_ := by
  unfold closeTls
  split <;> rfl

@[simp] theorem closeTlsAt_closed (s : Session) (pointer : Option Nat) :
    (s.closeTlsAt pointer).closed_ = s.closed_ := by
  cases pointer with
  | none => rfl
  | some id => exact closeTls_closed s id

@[simp] theorem closeConnecting_closed (s : Session) : s.closeConnecting.closed_ = s.closed_ := by
  unfold closeConnecting
  split <;> rfl

/-- After a close the session is closed. -/
@[simp] theorem close_closed (s : Session) (cause : CloseCause) :
    (s.close cause).closed_ = true := by
  unfold close
  split
  · assumption
  · simp [note]

/-- A connection, where there is one, has its callbacks and is open. -/
def Open (o : Option Connection) : Prop := ∀ c, o = some c → c.wired = true ∧ c.closed_ = false

/-- From the first session to the second there was only moving of data to the
sides `D` and closing of connections. -/
structure Loose (w : World) (D : Side → Prop) (s s' : Session) : Prop where
  still : s'.still = s.still
  client : Option.Rel (Connection.Moves (D .client) Buffer.Proper w.clientSend)
    s.client_ s'.client_
  upstream : Option.Rel
    (fun c => Connection.Moves (D .upstream) (fun _ => True) (w.upstreamSend c.id) c)
    s.upstream_ s'.upstream_
  tls : TlsFlow D s.tls s'.tls
  closed : s.closed_ = true → s'.closed_ = true
  connects : NoNewConnects s.loop_ s'.loop_
  connecting : s'.connectingSocket_ = s.connectingSocket_ ∨ s'.closed_ = true
  pending : ¬ D .upstream → s'.pendingBody_ = s.pendingBody_
  log : ∃ notes : List Note, notes.all aside = true ∧ s'.log = notes ++ s.log ∧
    ∀ cause, .closed cause ∈ notes → s'.closed_ = true

/-- The connections of the session are closed. -/
structure Shut (s : Session) : Prop where
  client : ∀ c, s.client_ = some c → c.closed_ = true
  upstream : ∀ c, s.upstream_ = some c → c.closed_ = true
  tls : ∀ id t, s.tlsClient_ = some id ∨ s.tlsUpstream_ = some id → s.tls[id]? = some t →
    t.closed_ = true

/-- And while the session stays open, so do the connections whose end or error
closes it; when it closes, so do they. -/
structure Quiet (w : World) (D : Side → Prop) (s s' : Session) : Prop extends Loose w D s s' where
  clientOpen : s'.closed_ = false → Open s.client_ → Open s'.client_
  upstreamOpen : s'.closed_ = false → Open s.upstream_ → Open s'.upstream_
  shut : s.closed_ = false → s'.closed_ = true → Shut s'

variable {w : World} {D : Side → Prop}

theorem rel_refl {R : Connection → Connection → Prop} (h : ∀ c, R c c) (o : Option Connection) :
    Option.Rel R o o := by
  cases o with
  | none => exact .none
  | some c => exact .some (h c)

/-- Both connections of a pair are there or none is. -/
theorem rel_back {R : Connection → Connection → Prop} {o o' : Option Connection}
    (h : Option.Rel R o o') {c' : Connection} (hc : o' = some c') : ∃ c, o = some c ∧ R c c' := by
  subst hc
  cases h with
  | some hr => exact ⟨_, rfl, hr⟩

theorem rel_forth {R : Connection → Connection → Prop} {o o' : Option Connection}
    (h : Option.Rel R o o') {c : Connection} (hc : o = some c) : ∃ c', o' = some c' ∧ R c c' := by
  subst hc
  cases h with
  | some hr => exact ⟨_, rfl, hr⟩

theorem rel_none {R : Connection → Connection → Prop} {o o' : Option Connection}
    (h : Option.Rel R o o') (ho : o = none) : o' = none := by
  subst ho
  cases h
  rfl

theorem rel_trans {R R' R'' : Connection → Connection → Prop} {o o' o'' : Option Connection}
    (h : Option.Rel R o o') (h' : Option.Rel R' o' o'')
    (ht : ∀ c c' c'', R c c' → R' c' c'' → R'' c c'') : Option.Rel R'' o o'' := by
  cases h with
  | none =>
    cases h'
    exact .none
  | some hr =>
    cases h' with
    | some hr' => exact .some (ht _ _ _ hr hr')

theorem Loose.refl (w : World) (D : Side → Prop) (s : Session) : Loose w D s s :=
  ⟨rfl, rel_refl .refl _, rel_refl (fun c => .refl c) _, .refl D _, id, .refl _, .inl rfl,
    fun _ => rfl, ⟨[], rfl, rfl, by simp⟩⟩

theorem Quiet.refl (w : World) (D : Side → Prop) (s : Session) : Quiet w D s s :=
  ⟨.refl w D s, fun _ h => h, fun _ h => h, fun ho hc => absurd (ho.symm.trans hc) (by decide)⟩

theorem Loose.trans {s s' s'' : Session} (h : Loose w D s s') (h' : Loose w D s' s'') :
    Loose w D s s'' := by
  refine ⟨h'.still.trans h.still, rel_trans h.client h'.client fun _ _ _ => .trans,
    rel_trans h.upstream h'.upstream fun c c' c'' hm hm' => ?_, h.tls.trans h'.tls,
    fun hc => h'.closed (h.closed hc), h.connects.trans h'.connects, ?_,
    fun hp => (h'.pending hp).trans (h.pending hp), ?_⟩
  · rw [hm.kin.id] at hm'
    exact hm.trans hm'
  · rcases h'.connecting with he' | hc'
    · rcases h.connecting with he | hc
      · exact .inl (he'.trans he)
      · exact .inr (h'.closed hc)
    · exact .inr hc'
  · obtain ⟨notes, ha, hl, hc⟩ := h.log
    obtain ⟨notes', ha', hl', hc'⟩ := h'.log
    refine ⟨notes' ++ notes, by rw [List.all_append, ha, ha']; rfl,
      by rw [hl', hl, List.append_assoc], fun cause hmem => ?_⟩
    rcases List.mem_append.mp hmem with hmem | hmem
    · exact hc' cause hmem
    · exact h'.closed (hc cause hmem)

/-- A session that ends up closed owes nothing to its open connections. -/
theorem Loose.quiet {s s' : Session} (h : Loose w D s s') (hc : s'.closed_ = true)
    (hs : s.closed_ = false → Shut s') : Quiet w D s s' :=
  ⟨h, fun ho => absurd (hc.symm.trans ho) (by decide),
    fun ho => absurd (hc.symm.trans ho) (by decide), fun ho _ => hs ho⟩

theorem Loose.tlsClient {s s' : Session} (h : Loose w D s s') : s'.tlsClient_ = s.tlsClient_ := by
  have hs : s'.still.tlsClient_ = s.still.tlsClient_ := by rw [h.still]
  exact hs

theorem Loose.tlsUpstream {s s' : Session} (h : Loose w D s s') :
    s'.tlsUpstream_ = s.tlsUpstream_ := by
  have hs : s'.still.tlsUpstream_ = s.still.tlsUpstream_ := by rw [h.still]
  exact hs

/-- Connections that are closed stay closed. -/
theorem Loose.shut {s s' : Session} (h : Loose w D s s') (hs : Shut s) : Shut s' := by
  refine ⟨fun c' hc' => ?_, fun c' hc' => ?_, fun id t' hid ht' => ?_⟩
  · obtain ⟨c, hc, hm⟩ := rel_back h.client hc'
    exact (hm.kin.closed (hs.client c hc)).1
  · obtain ⟨c, hc, hm⟩ := rel_back h.upstream hc'
    exact (hm.kin.closed (hs.upstream c hc)).1
  · obtain ⟨t, ht, hf⟩ := h.tls.back ht'
    rw [h.tlsClient, h.tlsUpstream] at hid
    exact (hf.closed (hs.tls id t hid ht)).1

theorem Loose.stays_open {s s' : Session} (h : Loose w D s s') (ho : s'.closed_ = false) :
    s.closed_ = false := by
  cases hs : s.closed_ with
  | false => rfl
  | true => exact absurd ((h.closed hs).symm.trans ho) (by decide)

theorem Quiet.trans {s s' s'' : Session} (h : Quiet w D s s') (h' : Quiet w D s' s'') :
    Quiet w D s s'' :=
  ⟨h.toLoose.trans h'.toLoose,
    fun ho hc => h'.clientOpen ho (h.clientOpen (h'.stays_open ho) hc),
    fun ho hu => h'.upstreamOpen ho (h.upstreamOpen (h'.stays_open ho) hu),
    fun ho hc => by
      cases hs' : s'.closed_ with
      | true => exact h'.toLoose.shut (h.shut ho hs')
      | false => exact h'.shut hs' hc⟩

theorem loose_setClient {s : Session} {c c' : Connection} {loop : KqueueLoop}
    (hc : s.client_ = some c) (hm : c.Moves (D .client) Buffer.Proper w.clientSend c')
    (hl : NoNewConnects s.loop_ loop) :
    Loose w D s { s with client_ := some c', loop_ := loop } :=
  ⟨rfl, by rw [hc]; exact .some hm, rel_refl (fun c => .refl c) _, .refl D _, id, hl, .inl rfl,
    fun _ => rfl, ⟨[], rfl, rfl, by simp⟩⟩

theorem loose_setUpstream {s : Session} {c c' : Connection} {loop : KqueueLoop}
    (hc : s.upstream_ = some c)
    (hm : c.Moves (D .upstream) (fun _ => True) (w.upstreamSend c.id) c')
    (hl : NoNewConnects s.loop_ loop) :
    Loose w D s { s with upstream_ := some c', loop_ := loop } :=
  ⟨rfl, rel_refl .refl _, by rw [hc]; exact .some hm, .refl D _, id, hl, .inl rfl,
    fun _ => rfl, ⟨[], rfl, rfl, by simp⟩⟩

/-- A new state of the client connection; it may be closed only where the
session is. -/
theorem quiet_setClient {s : Session} {c c' : Connection} {loop : KqueueLoop}
    (hc : s.client_ = some c) (hm : c.Moves (D .client) Buffer.Proper w.clientSend c')
    (hl : NoNewConnects s.loop_ loop)
    (ho : s.closed_ = false → c.wired = true → c.closed_ = false → c'.closed_ = false) :
    Quiet w D s { s with client_ := some c', loop_ := loop } := by
  refine ⟨loose_setClient hc hm hl, ?_, fun _ h => h,
    fun ho hc => absurd (ho.symm.trans hc) (by decide)⟩
  intro hs hopen d hd
  simp only [Option.some.injEq] at hd
  subst hd
  obtain ⟨hw, hcl⟩ := hopen c hc
  exact ⟨hm.kin.wired hw, ho hs hw hcl⟩

theorem quiet_setUpstream {s : Session} {c c' : Connection} {loop : KqueueLoop}
    (hc : s.upstream_ = some c)
    (hm : c.Moves (D .upstream) (fun _ => True) (w.upstreamSend c.id) c')
    (hl : NoNewConnects s.loop_ loop)
    (ho : s.closed_ = false → c.wired = true → c.closed_ = false → c'.closed_ = false) :
    Quiet w D s { s with upstream_ := some c', loop_ := loop } := by
  refine ⟨loose_setUpstream hc hm hl, fun _ h => h, ?_,
    fun ho hc => absurd (ho.symm.trans hc) (by decide)⟩
  intro hs hopen d hd
  simp only [Option.some.injEq] at hd
  subst hd
  obtain ⟨hw, hcl⟩ := hopen c hc
  exact ⟨hm.kin.wired hw, ho hs hw hcl⟩

theorem quiet_setTls {s : Session} {id : Nat} {t t' : TlsConnection} {loop : KqueueLoop}
    (ht : s.tls[id]? = some t) (hf : TlsConnection.Flows (D t.side) t t')
    (hl : NoNewConnects s.loop_ loop) : Quiet w D s (s.setTls id t' loop) :=
  ⟨⟨rfl, rel_refl .refl _, rel_refl (fun c => .refl c) _, .set ht hf, fun h => h, hl, .inl rfl,
    fun _ => rfl, ⟨[], rfl, rfl, by simp⟩⟩, fun _ h => h, fun _ h => h,
    fun ho hc => absurd (ho.symm.trans hc) (by decide)⟩

theorem quiet_closeClient {s : Session} (h : s.closed_ = true ∨ ∀ c, s.client_ = some c →
    c.wired = false) : Quiet w D s s.closeClient := by
  unfold closeClient
  split
  · exact .refl w D s
  · next c hc =>
    refine quiet_setClient hc (.close _ (.refl c)) (c.close_noNew s.loop_) ?_
    intro hs hw _
    rcases h with h | h
    · exact absurd (hs.symm.trans h) (by decide)
    · exact absurd ((h c hc).symm.trans hw) (by decide)

theorem quiet_closeUpstream {s : Session} (h : s.closed_ = true ∨ ∀ c, s.upstream_ = some c →
    c.wired = false) : Quiet w D s s.closeUpstream := by
  unfold closeUpstream
  split
  · exact .refl w D s
  · next c hc =>
    refine quiet_setUpstream hc (.close _ (.refl c)) (c.close_noNew s.loop_) ?_
    intro hs hw _
    rcases h with h | h
    · exact absurd (hs.symm.trans h) (by decide)
    · exact absurd ((h c hc).symm.trans hw) (by decide)

theorem quiet_closeTls (s : Session) (id : Nat) : Quiet w D s (s.closeTls id) := by
  unfold closeTls
  split
  · exact .refl w D s
  · next t ht =>
    exact quiet_setTls ht ⟨t.close_kin s.loop_, fun _ => t.close_written s.loop_⟩
      (t.close_noNew s.loop_)

theorem quiet_closeTlsAt (s : Session) (pointer : Option Nat) :
    Quiet w D s (s.closeTlsAt pointer) := by
  cases pointer with
  | none => exact .refl w D s
  | some id => exact quiet_closeTls s id

theorem quiet_closeConnecting {s : Session} (h : s.closed_ = true) :
    Quiet w D s s.closeConnecting := by
  unfold closeConnecting
  split
  · exact .refl w D s
  · exact ⟨⟨rfl, rel_refl .refl _, rel_refl (fun c => .refl c) _, .refl D _, id,
      (remove_noNew _ _).trans (closeFd_noNew _ _), .inr h, fun _ => rfl,
      ⟨[], rfl, rfl, by simp⟩⟩,
      fun _ h => h, fun _ h => h, fun ho => absurd (h.symm.trans ho) (by decide)⟩

/-- The flag and the note with which a close begins. -/
theorem loose_setClosed (s : Session) (cause : CloseCause) :
    Loose w D s ({ s with closed_ := true }.note (.closed cause)) :=
  ⟨rfl, rel_refl .refl _, rel_refl (fun c => .refl c) _, .refl D _, fun _ => rfl, .refl _,
    .inl rfl, fun _ => rfl, ⟨[.closed cause], rfl, rfl, fun _ _ => rfl⟩⟩

theorem connection_close_closed (c : Connection) (loop : KqueueLoop) :
    (c.close loop).1.closed_ = true := by
  unfold Connection.close
  split
  · assumption
  · rfl

theorem closeClient_shut {s : Session} {c : Connection} (hc : s.closeClient.client_ = some c) :
    c.closed_ = true := by
  unfold closeClient at hc
  split at hc
  · next hn => exact absurd (hn.symm.trans hc) (by simp)
  · simp only [Option.some.injEq] at hc
    exact hc ▸ connection_close_closed _ _

theorem closeUpstream_shut {s : Session} {c : Connection}
    (hc : s.closeUpstream.upstream_ = some c) : c.closed_ = true := by
  unfold closeUpstream at hc
  split at hc
  · next hn => exact absurd (hn.symm.trans hc) (by simp)
  · simp only [Option.some.injEq] at hc
    exact hc ▸ connection_close_closed _ _

theorem closeTls_shut {s : Session} {id : Nat} {t : TlsConnection}
    (ht : (s.closeTls id).tls[id]? = some t) : t.closed_ = true := by
  unfold closeTls at ht
  split at ht
  · next hn => exact absurd (hn.symm.trans ht) (by simp)
  · next t₀ ht₀ =>
    obtain ⟨hid, -⟩ := List.getElem?_eq_some_iff.mp ht₀
    simp only [setTls, List.getElem?_set_self hid, Option.some.injEq] at ht
    subst ht
    unfold TlsConnection.close
    split
    · assumption
    · rfl

/-- A close closes the connections, and with them the session. -/
theorem quiet_close (s : Session) (cause : CloseCause) : Quiet w D s (s.close cause) := by
  unfold close
  split
  · exact .refl w D s
  · have h₁ := loose_setClosed (w := w) (D := D) s cause
    set s₁ := { s with closed_ := true }.note (.closed cause) with hs₁
    have hc : Quiet w D s₁ s₁.closeConnecting := quiet_closeConnecting rfl
    have hcc := quiet_closeClient (w := w) (D := D) (.inl (hc.closed rfl))
    have hcu := quiet_closeUpstream (w := w) (D := D) (.inl (hcc.closed (hc.closed rfl)))
    set s₂ := s₁.closeConnecting.closeClient.closeUpstream with hs₂
    have h₂ : Quiet w D s₁ s₂ := (hc.trans hcc).trans hcu
    have h₃ : Quiet w D s₂ (s₂.closeTlsAt s₂.tlsClient_) := quiet_closeTlsAt s₂ _
    set s₃ := s₂.closeTlsAt s₂.tlsClient_ with hs₃
    have h₄ : Quiet w D s₃ (s₃.closeTlsAt s₂.tlsUpstream_) := quiet_closeTlsAt s₃ _
    have hall := ((h₁.trans h₂.toLoose).trans h₃.toLoose).trans h₄.toLoose
    refine hall.quiet (h₄.closed (h₃.closed (h₂.closed rfl))) fun _ => ⟨?_, ?_, ?_⟩
    · intro c hc
      obtain ⟨c', hc', hm⟩ := rel_back ((hcu.toLoose.trans h₃.toLoose).trans h₄.toLoose).client hc
      exact (hm.kin.closed (closeClient_shut hc')).1
    · intro c hc
      obtain ⟨c', hc', hm⟩ := rel_back (h₃.toLoose.trans h₄.toLoose).upstream hc
      exact (hm.kin.closed (closeUpstream_shut hc')).1
    · intro id t hid ht
      rw [h₄.tlsClient, h₄.tlsUpstream, h₃.tlsClient, h₃.tlsUpstream] at hid
      rcases hid with hid | hid
      · obtain ⟨t', ht', hf⟩ := h₄.tls.back ht
        rw [hs₃, hid] at ht'
        exact (hf.closed (closeTls_shut ht')).1
      · rw [hid] at ht
        exact closeTls_shut ht

theorem quiet_afterClientFlush {s : Session} {c c' : Connection} {loop : KqueueLoop}
    {flushed : Connection.Flushed} (hc : s.client_ = some c)
    (hm : c.Moves (D .client) Buffer.Proper w.clientSend c') (hl : NoNewConnects s.loop_ loop)
    (ho : c.closed_ = false → c'.closed_ = false) :
    Quiet w D s (s.afterClientFlush (c', loop, flushed)) := by
  have hset := quiet_setClient hc hm hl fun _ _ hcl => ho hcl
  cases flushed with
  | settled => exact hset
  | failed =>
    simp only [afterClientFlush]
    split
    · exact (hset.trans (quiet_close _ _)).trans (quiet_closeClient (.inl (close_closed _ _)))
    · next hw =>
      refine hset.trans (quiet_closeClient (.inr fun d hd => ?_))
      simp only [Option.some.injEq] at hd
      exact hd ▸ by simpa using hw

theorem quiet_afterUpstreamFlush {s : Session} {c c' : Connection} {loop : KqueueLoop}
    {flushed : Connection.Flushed} (hc : s.upstream_ = some c)
    (hm : c.Moves (D .upstream) (fun _ => True) (w.upstreamSend c.id) c')
    (hl : NoNewConnects s.loop_ loop) (ho : c.closed_ = false → c'.closed_ = false) :
    Quiet w D s (s.afterUpstreamFlush (c', loop, flushed)) := by
  have hset := quiet_setUpstream hc hm hl fun _ _ hcl => ho hcl
  cases flushed with
  | settled => exact hset
  | failed =>
    simp only [afterUpstreamFlush]
    split
    · exact (hset.trans (quiet_close _ _)).trans (quiet_closeUpstream (.inl (close_closed _ _)))
    · next hw =>
      refine hset.trans (quiet_closeUpstream (.inr fun d hd => ?_))
      simp only [Option.some.injEq] at hd
      exact hd ▸ by simpa using hw

/-- Writing to an open connection leaves it open. -/
theorem write_open {answer : Nat → SendAnswer} {c : Connection} (data : Buffer)
    (loop : KqueueLoop) (h : c.closed_ = false) :
    (c.write answer data loop).1.closed_ = false := by
  simp only [Connection.write, h, Bool.false_eq_true, if_false]
  exact (Connection.flushNow_link answer _ loop).closed

theorem writeText_open {answer : Nat → SendAnswer} {c : Connection} (data : Bytes)
    (loop : KqueueLoop) (h : c.closed_ = false) :
    (c.writeText answer data loop).1.closed_ = false := by
  simp only [Connection.writeText, h, Bool.false_eq_true, if_false]
  exact (Connection.flushNow_link answer _ loop).closed

theorem quiet_writeClient (hD : D .client) {s : Session} {c : Connection} (hc : s.client_ = some c)
    {data : Buffer} (hd : data.Proper) : Quiet w D s (s.writeClient w c data).1 :=
  quiet_afterClientFlush hc (.write data s.loop_ hD hd (.refl c))
    (c.write_noNew w.clientSend data s.loop_) (write_open data s.loop_)

theorem quiet_writeUpstream (hD : D .upstream) {s : Session} {c : Connection}
    (hc : s.upstream_ = some c) (data : Buffer) : Quiet w D s (s.writeUpstream w c data).1 :=
  quiet_afterUpstreamFlush hc (.write data s.loop_ hD trivial (.refl c))
    (c.write_noNew (w.upstreamSend c.id) data s.loop_) (write_open data s.loop_)

theorem quiet_writeTls {s : Session} {id : Nat} (hD : ∀ t, s.tls[id]? = some t → D t.side)
    (data : Buffer) : Quiet w D s (s.writeTls w id data).1 := by
  unfold writeTls
  split
  · exact .refl w D s
  · next t ht =>
    exact quiet_setTls ht
      ⟨(t.write_kin (w.sslWrite id) id data s.loop_).1, fun hp => absurd (hD t ht) hp⟩
      (t.write_noNew (w.sslWrite id) id data s.loop_)

/-- Data for the client goes only to the sides `D`. -/
structure ToClient (D : Side → Prop) (s : Session) : Prop where
  plain : D .client
  tls : ∀ id t, s.tlsClient_ = some id → s.tls[id]? = some t → D t.side

structure ToUpstream (D : Side → Prop) (s : Session) : Prop where
  plain : D .upstream
  tls : ∀ id t, s.tlsUpstream_ = some id → s.tls[id]? = some t → D t.side

/-- Both sides, where nothing is asked of the direction. -/
abbrev anySide : Side → Prop := fun _ => True

theorem toClient_any (s : Session) : ToClient anySide s := ⟨trivial, fun _ _ _ _ => trivial⟩

theorem toUpstream_any (s : Session) : ToUpstream anySide s := ⟨trivial, fun _ _ _ _ => trivial⟩

theorem quiet_writeToClient {s : Session} (hD : ToClient D s) {data : Buffer} (hd : data.Proper) :
    Quiet w D s (s.writeToClient w data).1 := by
  unfold writeToClient
  split
  · next hid => exact quiet_writeTls (fun t ht => hD.tls _ t hid ht) data
  · split
    · next hc =>
      split
      · exact quiet_writeClient hD.plain hc hd
      · exact .refl w D s
    · exact .refl w D s

theorem quiet_writeToUpstream {s : Session} (hD : ToUpstream D s) (data : Buffer) :
    Quiet w D s (s.writeToUpstream w data).1 := by
  unfold writeToUpstream
  split
  · next hid => exact quiet_writeTls (fun t ht => hD.tls _ t hid ht) data
  · split
    · next hc =>
      split
      · exact quiet_writeUpstream hD.plain hc data
      · exact .refl w D s
    · exact .refl w D s

theorem quiet_endTlsRead (s : Session) (id : Nat) (wired : Bool) (err : SslError) :
    Quiet w D s (s.endTlsRead id wired err) := by
  have hclosed : Quiet w D s (if wired then (s.closeTls id).close .tlsEnd else s.closeTls id) := by
    split
    · exact (quiet_closeTls s id).trans (quiet_close _ _)
    · exact quiet_closeTls s id
  cases err with
  | wantRead => exact .refl w D s
  | zeroReturn => exact hclosed
  | syscall => exact hclosed
  | wantWrite => exact quiet_closeTls s id
  | ssl => exact quiet_closeTls s id

/-- A change of the two body buffers alone is quiet. -/
theorem quiet_bodies (s : Session) {pending : Buffer} (response : Buffer)
    (hp : ¬ D .upstream → pending = s.pendingBody_) :
    Quiet w D s { s with pendingBody_ := pending, responseBody_ := response } :=
  ⟨⟨rfl, rel_refl .refl _, rel_refl (fun c => .refl c) _, .refl D _, id, .refl _, .inl rfl, hp,
    ⟨[], rfl, rfl, by simp⟩⟩, fun _ h => h, fun _ h => h,
    fun ho hc => absurd (ho.symm.trans hc) (by decide)⟩

theorem quiet_inspected (s : Session) (payload url : Bytes) :
    Quiet w D s (s.note (.inspected payload url)) :=
  ⟨⟨rfl, rel_refl .refl _, rel_refl (fun c => .refl c) _, .refl D _, id, .refl _, .inl rfl,
    fun _ => rfl, ⟨[.inspected payload url], rfl, rfl, by simp⟩⟩, fun _ h => h, fun _ h => h,
    fun ho hc => absurd (ho.symm.trans hc) (by decide)⟩

theorem quiet_sendPending {s : Session} (hD : ToUpstream D s) : Quiet w D s (s.sendPending w) :=
  (quiet_writeToUpstream hD s.pendingBody_).trans
    (quiet_bodies _ _ fun hp => absurd hD.plain hp)

theorem quiet_onRequestBody {s : Session} (hD : ToUpstream D s) (body : Buffer) :
    Quiet w D s (s.onRequestBody w body) := by
  unfold onRequestBody
  split
  · exact .refl w D s
  · exact (quiet_bodies s s.responseBody_ fun hp => absurd hD.plain hp).trans
      (quiet_sendPending ⟨hD.plain, hD.tls⟩)

theorem quiet_onResponseBody {s : Session} (hD : ToClient D s) {body : Buffer} (hb : body.Proper) :
    Quiet w D s (s.onResponseBody w body) := by
  have hwrite : ∀ s₁ : Session, Quiet w D s s₁ → ToClient D s₁ →
      Quiet w D s (if body.empty then s₁ else (s₁.writeToClient w body).1) := by
    intro s₁ h hD₁
    split
    · exact h
    · exact h.trans (quiet_writeToClient hD₁ hb)
  refine hwrite _ ?_ ?_
  · split
    · exact quiet_bodies s _ fun _ => rfl
    · exact .refl w D s
  · split
    · exact ⟨hD.plain, hD.tls⟩
    · exact hD

theorem quiet_onResponseComplete (hD : D .upstream) (s : Session) :
    Quiet w D s s.onResponseComplete := by
  have hinspect : Quiet w D s (if s.payloadInspector_ ∧ s.responseBody_.empty = false then
      s.note (.inspected s.responseBody_.linearize s.currentRequest_.url) else s) := by
    split
    · exact quiet_inspected s _ _
    · exact .refl w D s
  have hclose : ∀ s₁ : Session, Quiet w D s s₁ →
      Quiet w D s (if s₁.isTlsMitm_ then s₁ else s₁.close .responseComplete) := by
    intro s₁ h
    split
    · exact h
    · exact h.trans (quiet_close _ _)
  exact hclose _ (hinspect.trans (quiet_bodies _ {} fun hp => absurd hD hp))

/-- A connection at its end of stream is closed, and with it the session. -/
theorem quiet_clientEnd {s : Session} {c : Connection} (hc : s.client_ = some c) :
    Quiet w D s (if c.wired then s.closeClient.close .clientEnd else s.closeClient) := by
  have hl : Loose w D s s.closeClient := by
    simp only [closeClient, hc]
    exact loose_setClient hc (.close _ (.refl c)) (c.close_noNew s.loop_)
  split
  · have hq := quiet_close (w := w) (D := D) s.closeClient .clientEnd
    exact (hl.trans hq.toLoose).quiet (close_closed _ _) fun ho => hq.shut (by simpa) (by simp)
  · next hw => exact quiet_closeClient (.inr fun d hd => by rw [hc] at hd; cases hd; simpa using hw)

theorem quiet_upstreamEnd {s : Session} {c : Connection} (hc : s.upstream_ = some c) :
    Quiet w D s (if c.wired then s.closeUpstream.close .upstreamEnd else s.closeUpstream) := by
  have hl : Loose w D s s.closeUpstream := by
    simp only [closeUpstream, hc]
    exact loose_setUpstream hc (.close _ (.refl c)) (c.close_noNew s.loop_)
  split
  · have hq := quiet_close (w := w) (D := D) s.closeUpstream .upstreamEnd
    exact (hl.trans hq.toLoose).quiet (close_closed _ _) fun ho => hq.shut (by simpa) (by simp)
  · next hw =>
    exact quiet_closeUpstream (.inr fun d hd => by rw [hc] at hd; cases hd; simpa using hw)

/-- A connection that fails closes the session and is closed itself. -/
theorem quiet_clientFail {s : Session} {c : Connection} (hc : s.client_ = some c) :
    Quiet w D s (if c.wired then s.close .clientError else s).closeClient := by
  split
  · exact (quiet_close s _).trans (quiet_closeClient (.inl (close_closed s _)))
  · next hw => exact quiet_closeClient (.inr fun d hd => by rw [hc] at hd; cases hd; simpa using hw)

theorem quiet_upstreamFail {s : Session} {c : Connection} (hc : s.upstream_ = some c) :
    Quiet w D s (if c.wired then s.close .upstreamError else s).closeUpstream := by
  split
  · exact (quiet_close s _).trans (quiet_closeUpstream (.inl (close_closed s _)))
  · next hw =>
    exact quiet_closeUpstream (.inr fun d hd => by rw [hc] at hd; cases hd; simpa using hw)

theorem quiet_clientFlush {s : Session} {c : Connection} (hc : s.client_ = some c) :
    Quiet w D s (s.afterClientFlush (c.handleWrite w.clientSend s.loop_)) :=
  quiet_afterClientFlush hc (.flush s.loop_ (.refl c)) (c.handleWrite_noNew w.clientSend s.loop_)
    fun ho => (Connection.handleWrite_link w.clientSend c s.loop_).closed.trans ho

theorem quiet_upstreamFlush {s : Session} {c : Connection} (hc : s.upstream_ = some c) :
    Quiet w D s (s.afterUpstreamFlush (c.handleWrite (w.upstreamSend c.id) s.loop_)) :=
  quiet_afterUpstreamFlush hc (.flush s.loop_ (.refl c))
    (c.handleWrite_noNew (w.upstreamSend c.id) s.loop_)
    fun ho => (Connection.handleWrite_link (w.upstreamSend c.id) c s.loop_).closed.trans ho

theorem quiet_tlsFlush {s : Session} {id : Nat} {t : TlsConnection} (ht : s.tls[id]? = some t) :
    Quiet w D s (s.setTls id (t.doWrite (w.sslWrite id) id s.loop_).1
      (t.doWrite (w.sslWrite id) id s.loop_).2) := by
  obtain ⟨hk, hw⟩ := t.doWrite_kin (w.sslWrite id) id s.loop_
  exact quiet_setTls ht ⟨hk, fun _ => hw⟩ (t.doWrite_noNew (w.sslWrite id) id s.loop_)

/-- Whether an upstream has its callbacks, so that its data reaches the parser of
the session. -/
def hears (s : Session) : Bool :=
  !s.isTunnel_ && s.upstream_.any Connection.wired ||
    s.tls.any fun t => t.wired && !t.isServer_

theorem Loose.hears {s s' : Session} (h : Loose w D s s') (hs : s.hears = true) :
    s'.hears = true := by
  have htunnel : s'.isTunnel_ = s.isTunnel_ := by
    have hs : s'.still.isTunnel_ = s.still.isTunnel_ := by rw [h.still]
    exact hs
  simp only [Session.hears, Bool.or_eq_true, Bool.and_eq_true, Option.any_eq_true,
    List.any_eq_true, htunnel] at hs ⊢
  rcases hs with ⟨ht, c, hc, hw⟩ | ⟨t, ht, hw⟩
  · obtain ⟨c', hc', hm⟩ := rel_forth h.upstream hc
    exact .inl ⟨ht, c', hc', hm.kin.wired hw⟩
  · obtain ⟨id, hid, rfl⟩ := List.getElem_of_mem ht
    obtain ⟨t', ht', hf⟩ := h.tls.forth (List.getElem?_eq_getElem hid)
    exact .inr ⟨t', List.mem_of_getElem? ht', by rwa [hf.wired, hf.isServer]⟩

end Session

end DeepSeer
