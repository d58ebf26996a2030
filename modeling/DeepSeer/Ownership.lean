import DeepSeer.LoopOwners
import DeepSeer.SessionPointers

/-!
Who owns what a session has watched or opened. Every watch is held by the object
that its callback captures and every socket by some object of the session, as long
as the object is open; when the session closes, so do they all.
-/
namespace DeepSeer

open ByteMemory ByteText FallibleRuns KqueueLoop

def Note.isClosed : Note → Bool
  | .closed _ => true
  | _ => false

/-- A `CONNECT` request. -/
def Note.asksTunnel : Note → Bool
  | .request req => decide (req.method = .CONNECT)
  | _ => false

/-- A connect has completed for a tunnel. -/
def tunnelled : List Note → Bool
  | [] => false
  | .connected _ :: log => log.any Note.asksTunnel || tunnelled log
  | _ :: log => tunnelled log

/-- A socket was opened after the session had closed. -/
def opensLate : List Note → Bool
  | [] => false
  | .opened _ _ :: log => log.any Note.isClosed || opensLate log
  | _ :: log => opensLate log

/-- Notes that say nothing of requests, sockets, connects and closing. -/
def Note.settling : Note → Bool
  | .request _ | .opened _ _ | .connected _ | .closed _ => false
  | _ => true

namespace Session

/-- The object with the callback is one of the session, and it holds the descriptor. -/
def Owner (s : Session) (fd : Fd) : IoCallback → Prop
  | .connect => s.connectingSocket_ = fd ∧ fd ≠ kInvalidFd
  | .connection id =>
    ∃ c, (s.client_ = some c ∨ s.upstream_ = some c) ∧ c.id = id ∧ c.held = some fd
  | .tls id => ∃ t, s.tls[id]? = some t ∧ t.held = some fd

/-- What is watched or open is owned, and closed connections have no descriptor. -/
structure Owned (s : Session) : Prop where
  entries : ∀ fd e, s.loop_.fdEntries_ fd = some e → Owner s fd e.callback
  sockets : ∀ fd, s.loop_.sockets fd = true → ∃ cb, Owner s fd cb
  dead : ∀ c, s.client_ = some c ∨ s.upstream_ = some c → c.closed_ = true →
    c.socket_ = kInvalidFd

/-- The order of the log and of the pointers that a session keeps, where `g` says
whether it has a certificate generator. -/
structure Kept (g : Bool) (s : Session) : Prop where
  known : ∀ id t, s.tls[id]? = some t → t.closed_ = false →
    s.tlsClient_ = some id ∨ s.tlsUpstream_ = some id
  noted : s.closed_ = s.log.any Note.isClosed
  connect : s.isConnect_ = s.log.any Note.asksTunnel
  cert : s.certGen_ = g
  mitm : g = true → tunnelled s.log = true → s.isTlsMitm_ = true
  opens : opensLate s.log = false

/-- Nothing is left behind: what is watched or open is owned, and a closed session
owns nothing. -/
structure Settled (g : Bool) (s : Session) : Prop extends Owned s, Kept g s where
  shut : s.closed_ = true → ∀ fd cb, ¬ Owner s fd cb

/-- A call of one object, which every other one outlives. -/
theorem Owned.acted {s s' : Session} (h : Owned s) {cb : IoCallback} {o o' : Option Fd}
    (ha : Acted cb o s.loop_ o' s'.loop_)
    (hkept : ∀ fd cb', Owner s fd cb' → o' = o ∨ o ≠ some fd → Owner s' fd cb')
    (hnew : ∀ fd, o' = some fd → Owner s' fd cb)
    (hdead : ∀ c, s'.client_ = some c ∨ s'.upstream_ = some c → c.closed_ = true →
      c.socket_ = kInvalidFd) : Owned s' where
  dead := hdead
  entries := by
    intro fd e he
    rcases ha.entries fd e he with ⟨he, hk⟩ | ⟨hheld, hcb⟩
    · exact hkept fd _ (h.entries fd e he) hk
    · rw [hcb]
      exact hnew fd hheld
  sockets := by
    intro fd hs
    obtain ⟨hs, hk⟩ := ha.sockets fd hs
    obtain ⟨cb', howner⟩ := h.sockets fd hs
    exact ⟨cb', hkept fd cb' howner hk⟩

variable {g : Bool} {s : Session}

/-- Where a connection holds something after a call, it held that before. -/
theorem calls_held {c c' : Connection} {l l' : KqueueLoop} (h : c.Calls l c' l') {fd : Fd}
    (hfd : c'.held = some fd) : c.held = some fd := by
  rcases h.acted.held with heq | hnone
  · exact heq ▸ hfd
  · rw [hnone] at hfd
    cases hfd

theorem calls_kept {c c' : Connection} {fd : Fd}
    (hk : c'.held = c.held ∨ c.held ≠ some fd) (hfd : c.held = some fd) : c'.held = some fd :=
  (hk.resolve_right fun hne => hne hfd).trans hfd

theorem calls_dead {c c' : Connection} {l l' : KqueueLoop} (h : c.Calls l c' l')
    (hdead : c.closed_ = true → c.socket_ = kInvalidFd) (hc : c'.closed_ = true) :
    c'.socket_ = kInvalidFd := by
  rcases h.dead hc with ⟨hcc, hsock⟩ | hinvalid
  · exact hsock.trans (hdead hcc)
  · exact hinvalid

theorem owner_setClient {c c' : Connection} {loop : KqueueLoop} (hc : s.client_ = some c)
    (h : c.Calls s.loop_ c' loop) {fd : Fd} {cb : IoCallback}
    (ho : Owner { s with client_ := some c', loop_ := loop } fd cb) : Owner s fd cb := by
  cases cb with
  | connect => exact ho
  | tls id => exact ho
  | connection id =>
    obtain ⟨d, hd | hd, hid, hheld⟩ := ho
    · cases hd
      exact ⟨c, .inl hc, h.id.symm.trans hid, calls_held h hheld⟩
    · exact ⟨d, .inr hd, hid, hheld⟩

theorem Owned.setClient {c c' : Connection} {loop : KqueueLoop} (ho : Owned s)
    (hc : s.client_ = some c) (h : c.Calls s.loop_ c' loop) :
    Owned { s with client_ := some c', loop_ := loop } := by
  refine ho.acted h.acted (fun fd cb howner hk => ?_) (fun fd hfd =>
    ⟨c', .inl rfl, h.id, hfd⟩) ?_
  · cases cb with
    | connect => exact howner
    | tls id => exact howner
    | connection id =>
      obtain ⟨d, hd | hd, hid, hheld⟩ := howner
      · obtain rfl := Option.some.inj (hc.symm.trans hd)
        exact ⟨c', .inl rfl, h.id.trans hid, calls_kept hk hheld⟩
      · exact ⟨d, .inr hd, hid, hheld⟩
  · rintro d (hd | hd) hdc
    · cases hd
      exact calls_dead h (ho.dead c (.inl hc)) hdc
    · exact ho.dead d (.inr hd) hdc

theorem owner_setUpstream {c c' : Connection} {loop : KqueueLoop} (hc : s.upstream_ = some c)
    (h : c.Calls s.loop_ c' loop) {fd : Fd} {cb : IoCallback}
    (ho : Owner { s with upstream_ := some c', loop_ := loop } fd cb) : Owner s fd cb := by
  cases cb with
  | connect => exact ho
  | tls id => exact ho
  | connection id =>
    obtain ⟨d, hd | hd, hid, hheld⟩ := ho
    · exact ⟨d, .inl hd, hid, hheld⟩
    · cases hd
      exact ⟨c, .inr hc, h.id.symm.trans hid, calls_held h hheld⟩

theorem Owned.setUpstream {c c' : Connection} {loop : KqueueLoop} (ho : Owned s)
    (hc : s.upstream_ = some c) (h : c.Calls s.loop_ c' loop) :
    Owned { s with upstream_ := some c', loop_ := loop } := by
  refine ho.acted h.acted (fun fd cb howner hk => ?_) (fun fd hfd =>
    ⟨c', .inr rfl, h.id, hfd⟩) ?_
  · cases cb with
    | connect => exact howner
    | tls id => exact howner
    | connection id =>
      obtain ⟨d, hd | hd, hid, hheld⟩ := howner
      · exact ⟨d, .inl hd, hid, hheld⟩
      · obtain rfl := Option.some.inj (hc.symm.trans hd)
        exact ⟨c', .inr rfl, h.id.trans hid, calls_kept hk hheld⟩
  · rintro d (hd | hd) hdc
    · exact ho.dead d (.inl hd) hdc
    · cases hd
      exact calls_dead h (ho.dead c (.inr hc)) hdc

theorem owner_setTls {id : Nat} {t t' : TlsConnection} {loop : KqueueLoop}
    (ht : s.tls[id]? = some t) (h : t.Calls id s.loop_ t' loop) {fd : Fd} {cb : IoCallback}
    (ho : Owner (s.setTls id t' loop) fd cb) : Owner s fd cb := by
  cases cb with
  | connect => exact ho
  | connection i => exact ho
  | tls i =>
    obtain ⟨d, hd, hheld⟩ := ho
    by_cases hi : id = i
    · subst hi
      simp only [setTls, List.getElem?_set_self (List.getElem?_eq_some_iff.mp ht).1,
        Option.some.injEq] at hd
      subst hd
      refine ⟨t, ht, ?_⟩
      rcases h.held with heq | hnone
      · exact heq ▸ hheld
      · rw [hnone] at hheld
        cases hheld
    · simp only [setTls, List.getElem?_set_ne hi] at hd
      exact ⟨d, hd, hheld⟩

theorem Owned.setTls {id : Nat} {t t' : TlsConnection} {loop : KqueueLoop} (ho : Owned s)
    (ht : s.tls[id]? = some t) (h : t.Calls id s.loop_ t' loop) :
    Owned (s.setTls id t' loop) := by
  have hself : (s.tls.set id t')[id]? = some t' :=
    List.getElem?_set_self (List.getElem?_eq_some_iff.mp ht).1
  refine ho.acted h (fun fd cb howner hk => ?_) (fun fd hfd => ⟨t', hself, hfd⟩) ho.dead
  cases cb with
  | connect => exact howner
  | connection i => exact howner
  | tls i =>
    obtain ⟨d, hd, hheld⟩ := howner
    by_cases hi : id = i
    · subst hi
      obtain rfl := Option.some.inj (ht.symm.trans hd)
      exact ⟨t', hself, (hk.resolve_right fun hne => hne hheld).trans hheld⟩
    · exact ⟨d, (List.getElem?_set_ne hi).trans hd, hheld⟩

theorem Settled.setClient {c c' : Connection} {loop : KqueueLoop} (hs : Settled g s)
    (hc : s.client_ = some c) (h : c.Calls s.loop_ c' loop) :
    Settled g { s with client_ := some c', loop_ := loop } :=
  ⟨hs.toOwned.setClient hc h, ⟨hs.known, hs.noted, hs.connect, hs.cert, hs.mitm, hs.opens⟩,
    fun hcl fd cb ho => hs.shut hcl fd cb (owner_setClient hc h ho)⟩

theorem Settled.setUpstream {c c' : Connection} {loop : KqueueLoop} (hs : Settled g s)
    (hc : s.upstream_ = some c) (h : c.Calls s.loop_ c' loop) :
    Settled g { s with upstream_ := some c', loop_ := loop } :=
  ⟨hs.toOwned.setUpstream hc h, ⟨hs.known, hs.noted, hs.connect, hs.cert, hs.mitm, hs.opens⟩,
    fun hcl fd cb ho => hs.shut hcl fd cb (owner_setUpstream hc h ho)⟩

theorem Settled.setTls {id : Nat} {t t' : TlsConnection} {loop : KqueueLoop} (hs : Settled g s)
    (ht : s.tls[id]? = some t) (h : t.Calls id s.loop_ t' loop) :
    Settled g (s.setTls id t' loop) := by
  refine ⟨hs.toOwned.setTls ht h, ⟨?_, hs.noted, hs.connect, hs.cert, hs.mitm, hs.opens⟩,
    fun hcl fd cb ho => hs.shut hcl fd cb (owner_setTls ht h ho)⟩
  intro i d hd hopen
  have howner : Owner (s.setTls id t' loop) d.socket_ (.tls i) :=
    ⟨d, hd, TlsConnection.held_open hopen⟩
  obtain ⟨d', hd', hheld⟩ := owner_setTls ht h howner
  refine hs.known i d' hd' ?_
  by_contra hcl
  simp [TlsConnection.held, hcl] at hheld

/-- A change of parts that own nothing. -/
theorem Settled.aside (hs : Settled g s) (pending response : Buffer) (request : HttpRequest)
    (client upstream : Http1Codec) (hostname : Bytes) (tunnel : Bool) (sockets : Nat) :
    Settled g { s with
      pendingBody_ := pending, responseBody_ := response, currentRequest_ := request
      clientCodec_ := client, upstreamCodec_ := upstream, connectHostname_ := hostname
      isTunnel_ := tunnel, sockets := sockets } :=
  ⟨⟨hs.entries, hs.sockets, hs.dead⟩, ⟨hs.known, hs.noted, hs.connect, hs.cert, hs.mitm, hs.opens⟩,
    hs.shut⟩

theorem Settled.note (hs : Settled g s) {n : Note} (hn : n.settling = true) :
    Settled g (s.note n) := by
  have hclosed : n.isClosed = false := by
    cases n <;> first | rfl | exact absurd hn (by simp [Note.settling])
  have hasks : n.asksTunnel = false := by
    cases n <;> first | rfl | exact absurd hn (by simp [Note.settling])
  have htunnelled : tunnelled (n :: s.log) = tunnelled s.log := by
    cases n <;> first | rfl | exact absurd hn (by simp [Note.settling])
  have hopens : opensLate (n :: s.log) = opensLate s.log := by
    cases n <;> first | rfl | exact absurd hn (by simp [Note.settling])
  refine ⟨⟨hs.entries, hs.sockets, hs.dead⟩,
    ⟨hs.known, ?_, ?_, hs.cert, fun hg ht => ?_, ?_⟩, hs.shut⟩
  · exact hs.noted.trans (by simp [Session.note, hclosed])
  · exact hs.connect.trans (by simp [Session.note, hasks])
  · exact hs.mitm hg (htunnelled.symm.trans ht)
  · exact hopens.trans hs.opens

theorem Owned.closeConnecting (h : Owned s) : Owned s.closeConnecting := by
  unfold Session.closeConnecting
  split
  · exact h
  · refine h.acted (drop_acted .connect s.loop_ s.connectingSocket_) (fun fd cb howner hk => ?_)
      (fun fd hfd => by cases hfd) h.dead
    cases cb with
    | connect =>
      rcases hk with hk | hk
      · cases hk
      · exact absurd (congrArg some howner.1) hk
    | connection id => exact howner
    | tls id => exact howner

theorem Owned.closeClient (h : Owned s) : Owned s.closeClient := by
  unfold Session.closeClient
  split
  · exact h
  · next c hc => exact h.setClient hc (c.calls_close s.loop_)

theorem Owned.closeUpstream (h : Owned s) : Owned s.closeUpstream := by
  unfold Session.closeUpstream
  split
  · exact h
  · next c hc => exact h.setUpstream hc (c.calls_close s.loop_)

theorem Owned.closeTls (h : Owned s) (id : Nat) : Owned (s.closeTls id) := by
  unfold Session.closeTls
  split
  · exact h
  · next t ht => exact h.setTls ht (t.calls_close id s.loop_)

theorem Owned.closeTlsAt (h : Owned s) (pointer : Option Nat) : Owned (s.closeTlsAt pointer) := by
  cases pointer with
  | none => exact h
  | some id => exact h.closeTls id

theorem Owned.close (h : Owned s) (cause : CloseCause) : Owned (s.close cause) := by
  unfold Session.close
  split
  · exact h
  · have hflag : Owned ({ s with closed_ := true }.note (.closed cause)) :=
      ⟨h.entries, h.sockets, h.dead⟩
    exact ((hflag.closeConnecting.closeClient.closeUpstream).closeTlsAt _).closeTlsAt _

/-- No connect is awaited on a session that was open when it was closed. -/
theorem close_connecting (ho : s.closed_ = false) (cause : CloseCause) :
    (s.close cause).connectingSocket_ = kInvalidFd := by
  have hpart : ∀ s : Session, s.closeClient.connectingSocket_ = s.connectingSocket_ ∧
      s.closeUpstream.connectingSocket_ = s.connectingSocket_ := by
    intro s
    unfold Session.closeClient Session.closeUpstream
    constructor <;> split <;> rfl
  have htls : ∀ (s : Session) pointer,
      (s.closeTlsAt pointer).connectingSocket_ = s.connectingSocket_ := by
    intro s pointer
    cases pointer with
    | none => rfl
    | some id =>
      change (s.closeTls id).connectingSocket_ = _
      unfold Session.closeTls
      split <;> rfl
  have hconnecting : ∀ s : Session, s.closeConnecting.connectingSocket_ = kInvalidFd := by
    intro s
    unfold Session.closeConnecting
    split
    · assumption
    · rfl
  unfold Session.close
  rw [if_neg (by simp [ho])]
  simp only [htls, hpart, hconnecting]

/-- A session that closes owns nothing any more. -/
theorem close_disowns (hs : Settled g s) (ho : s.closed_ = false) (cause : CloseCause) (fd : Fd)
    (cb : IoCallback) : ¬ Owner (s.close cause) fd cb := by
  have hquiet : Quiet promptWorld anySide s (s.close cause) := quiet_close s cause
  have hshut := hquiet.shut ho (by simp)
  have hclosed : ∀ c : Connection, c.closed_ = true → c.held ≠ some fd := by
    intro c hc
    simp [Connection.held_closed hc]
  cases cb with
  | connect => exact fun h => h.2 (h.1.symm.trans (close_connecting ho cause))
  | connection id =>
    rintro ⟨c, hc | hc, -, hheld⟩
    · exact hclosed c (hshut.client c hc) hheld
    · exact hclosed c (hshut.upstream c hc) hheld
  | tls id =>
    rintro ⟨t', ht', hheld⟩
    obtain ⟨t, ht, hflow⟩ := hquiet.tls.back ht'
    have hopen' : t'.closed_ = false := by
      by_contra hcl
      simp [TlsConnection.held, hcl] at hheld
    have hopen : t.closed_ = false := by
      by_contra hcl
      have := (hflow.closed (by simpa using hcl)).1
      exact absurd (this.symm.trans hopen') (by decide)
    have hid := hs.known id t ht hopen
    rw [← hquiet.tlsClient, ← hquiet.tlsUpstream] at hid
    exact absurd ((hshut.tls id t' hid ht').symm.trans hopen') (by decide)

theorem Settled.close (hs : Settled g s) (cause : CloseCause) : Settled g (s.close cause) := by
  cases ho : s.closed_ with
  | true =>
    have hsame : s.close cause = s := by simp [Session.close, ho]
    rw [hsame]
    exact hs
  | false =>
    have hdisowns := close_disowns hs ho cause
    have hstill := (quiet_close (w := promptWorld) (D := anySide) s cause).still
    have hlog : (s.close cause).log = .closed cause :: s.log := by simp [close_log, ho]
    have hflag : ∀ flag : Session → Bool, flag (s.close cause).still = flag s.still :=
      fun flag => congrArg flag hstill
    have hconnect : (s.close cause).isConnect_ = s.isConnect_ := hflag isConnect_
    have hcert : (s.close cause).certGen_ = s.certGen_ := hflag certGen_
    have hmitm : (s.close cause).isTlsMitm_ = s.isTlsMitm_ := hflag isTlsMitm_
    refine ⟨hs.toOwned.close cause, ⟨fun id t ht hopen => ?_, ?_, ?_, hcert.trans hs.cert,
      fun hg ht => ?_, ?_⟩, fun _ => hdisowns⟩
    · exact absurd ⟨t, ht, TlsConnection.held_open hopen⟩ (hdisowns t.socket_ (.tls id))
    · simp [hlog, Note.isClosed]
    · rw [hconnect, hs.connect, hlog]
      rfl
    · rw [hlog] at ht
      exact hmitm.trans (hs.mitm hg ht)
    · rw [hlog]
      exact hs.opens

end Session

end DeepSeer
