import DeepSeer.CertCache
import DeepSeer.RefCounts
import DeepSeer.Schedules
import DeepSeer.SessionFrames

/-!
The references that an interception takes on its two `SSL_CTX` objects. The
context of the upstream side is made first; the one of the client side is made
in the completion of the upstream handshake and goes into the cache. Each of the
four handshake callbacks has its own releases, and a connection that is closed
while its handshake waits calls none of them.
-/
namespace DeepSeer

open ByteMemory LruLists RefCounts Schedules

def CtxCall.ref : CtxCall → Ref SslCtx
  | .upRef ctx => .take ctx
  | .free ctx => .drop ctx

namespace CertCache

/-- How many entries hold a context. -/
def holding (c : CertCache) (ctx : SslCtx) : Nat := (c.order_.map (·.2.ctx)).count ctx

theorem holding_cons (c : CertCache) {node : Node × Entry} {rest : List (Node × Entry)}
    (h : c.order_.Perm (node :: rest)) (ctx : SslCtx) :
    c.holding ctx = (rest.map (·.2.ctx)).count ctx + if node.2.ctx = ctx then 1 else 0 := by
  rw [holding, (h.map (·.2.ctx)).count_eq, List.map_cons, List.count_cons]
  simp

/-- `get` changes the order only. -/
theorem Mirrors.get {c c' : CertCache} (h : Mirrors c) {hostname : Bytes} {found : Option SslCtx}
    (hget : c.get hostname = some (c', found)) :
    Mirrors c' ∧ ∀ ctx, c'.holding ctx = c.holding ctx := by
  cases hit : c.map_ hostname with
  | none =>
    rw [get_miss hit] at hget
    cases hget
    exact ⟨h, fun _ => rfl⟩
  | some it =>
    obtain ⟨ctx, hlook, hin⟩ := h.lookup hit
    obtain ⟨ctx', hlook', hget'⟩ := get_hit h hit
    rw [hlook] at hlook'
    cases hlook'
    rw [hget'] at hget
    cases hget
    refine ⟨(h.front hit ctx).1, fun x => ?_⟩
    rw [holding_cons _ (perm_filter_key h.nodes hin), holding_cons _ (.refl _)]

/-- The cache takes a reference for each entry and drops it with the entry. -/
theorem Mirrors.put {c c' : CertCache} (h : Mirrors c) {hostname : Bytes} {ctx : SslCtx}
    {calls : List CtxCall} (hput : c.put hostname ctx = some (c', calls)) :
    Mirrors c' ∧ (∀ x, c'.holding x ≤ c.holding x + if ctx = x then 1 else 0) ∧
      ∀ x refs n, Holds x refs (n + c.holding x) →
        Holds x (calls.reverse.map CtxCall.ref ++ refs) (n + c'.holding x) := by
  cases hit : c.map_ hostname with
  | some it =>
    obtain ⟨old, hin, hput'⟩ := put_hit h hit ctx
    rw [hput'] at hput
    cases hput
    have hbefore := holding_cons _ (perm_filter_key h.nodes hin)
    have hafter := holding_cons (c.front it ⟨hostname, ctx⟩) (.refl _)
    refine ⟨(h.front hit ctx).1, fun x => ?_, fun x refs n hrefs => ?_⟩
    · rw [hbefore, hafter]
      dsimp only
      omega
    · rw [hbefore, ← Nat.add_assoc] at hrefs
      rw [hafter, ← Nat.add_assoc]
      exact (hrefs.drop old rfl).take ctx rfl
  | none =>
    have hnew := h.missing.mp hit
    have hinsert : ∀ (d : CertCache) x, (d.insert hostname ctx).holding x =
        d.holding x + if ctx = x then 1 else 0 := by
      intro d x
      rw [holding, CertCache.insert, List.map_cons, List.count_cons]
      simp [holding]
    simp only [CertCache.put, hit] at hput
    split at hput
    · obtain ⟨⟨d, dropped⟩, hevict, hput⟩ := Option.map_eq_some_iff.mp hput
      cases hput
      have hne : c.order_ ≠ [] := by
        rintro hnil
        rw [CertCache.evict, hnil] at hevict
        cases hevict
      have horder := (List.dropLast_append_getLast hne).symm
      obtain ⟨d', hevict', hmirrors, hrest, -⟩ := h.evict horder
      rw [hevict'] at hevict
      cases hevict
      have hnot : hostname ∉ d.hostnames := by
        rw [CertCache.hostnames, hrest]
        intro hmem
        exact hnew (List.map_subset _ (List.dropLast_subset c.order_) hmem)
      have hperm : c.order_.Perm (c.order_.getLast hne :: d.order_) := by
        rw [hrest]
        nth_rewrite 1 [horder]
        exact List.perm_append_singleton _ _
      have hbefore : ∀ x, c.holding x =
        d.holding x + if (c.order_.getLast hne).2.ctx = x then 1 else 0 := holding_cons _ hperm
      refine ⟨hmirrors.insert hnot ctx, fun x => ?_, fun x refs n hrefs => ?_⟩
      · rw [hbefore, hinsert]
        dsimp only
        omega
      · rw [hbefore, ← Nat.add_assoc] at hrefs
        rw [hinsert, ← Nat.add_assoc]
        exact (hrefs.drop _ rfl).take ctx rfl
    · cases hput
      refine ⟨h.insert hnew ctx, fun x => (hinsert c x).le, fun x refs n hrefs => ?_⟩
      rw [hinsert, ← Nat.add_assoc]
      exact hrefs.take ctx rfl

end CertCache

/-- A TLS connection with its `SSL` object, which the destructor frees. -/
structure TlsObject where
  conn : TlsConnection
  ssl_ : Bool := true

/-- The place of a TLS connection among the answers to handshakes. -/
def Side.id : Side → Nat
  | .upstream => 0
  | .client => 1

/-- A session that intercepts, as far as its contexts go. `plain` are the sockets
of `client_` and `upstream_`, `tls` are `tlsClient_` and `tlsUpstream_`, each with
an `SSL` object for the context of its side. The cache may be missing, and other
sessions use it too. -/
structure Upgrade where
  hostname : Bytes
  ctx : Side → SslCtx
  certCache_ : Option CertCache
  loop_ : KqueueLoop
  plain : Side → Fd
  tls : Side → Option TlsObject := fun _ => none
  closed_ : Bool := false
  refs : List (Ref SslCtx) := []

/-- What can happen to the session, its connections and the cache. -/
inductive UpgradeAct where
  | start
  | io (a : Side)
  | ends (a : Side)
  | close
  | destroy (a : Side)
  | cache (call : LruCall Bytes SslCtx)

namespace Upgrade

def new (hostname : Bytes) (ctx : Side → SslCtx) (maxEntries : Option Nat) (loop : KqueueLoop)
    (plain : Side → Fd) : Upgrade where
  hostname := hostname
  ctx := ctx
  certCache_ := maxEntries.map fun n => { maxEntries_ := n }
  loop_ := loop
  plain := plain

/-- A call of OpenSSL that takes or drops a reference. -/
def ref (s : Upgrade) (r : Ref SslCtx) : Upgrade := { s with refs := r :: s.refs }

/-- `SSL_CTX_new` for a side. -/
def newCtx (s : Upgrade) (a : Side) : Upgrade := s.ref (.take (s.ctx a))

/-- `SSL_CTX_free` of the context of a side. -/
def freeCtx (s : Upgrade) (a : Side) : Upgrade := s.ref (.drop (s.ctx a))

def setConn (s : Upgrade) (a : Side) (conn : TlsConnection) (loop : KqueueLoop) : Upgrade :=
  { s with
    tls := Function.update s.tls a ((s.tls a).map fun t => { t with conn := conn })
    loop_ := loop }

/-- `client_->close()` or `upstream_->close()`. -/
def closePlain (s : Upgrade) (a : Side) : Upgrade :=
  if s.plain a = kInvalidFd then s
  else { s with
    plain := Function.update s.plain a kInvalidFd
    loop_ := (s.loop_.remove (s.plain a)).closeFd (s.plain a) }

/-- `tlsClient_->close()` or `tlsUpstream_->close()` where the pointer is set. -/
def closeTls (s : Upgrade) (a : Side) : Upgrade :=
  match s.tls a with
  | none => s
  | some t => s.setConn a (t.conn.close s.loop_).1 (t.conn.close s.loop_).2

def close (s : Upgrade) : Upgrade :=
  if s.closed_ then s
  else
    let s := ({ s with closed_ := true }.closePlain .client).closePlain .upstream
    (s.closeTls .client).closeTls .upstream

/-- The socket leaves the plain connection, and a TLS connection is made over it;
`SSL_new` takes a reference of its context. -/
def makeTls (s : Upgrade) (a : Side) (callback : HandshakeCallback) : Upgrade :=
  let conn : TlsConnection :=
    { socket_ := s.plain a, isServer_ := a = .client, callback := callback }
  let made : TlsObject := { conn := conn }
  { s with
    plain := Function.update s.plain a kInvalidFd
    loop_ := s.loop_.remove (s.plain a)
    tls := Function.update s.tls a (some made)
    refs := .take (s.ctx a) :: s.refs }

/-- The destructor, whose `SSL_free` drops the reference of the context. -/
def destroyTls (s : Upgrade) (a : Side) : Upgrade :=
  let s := s.closeTls a
  { s with
    tls := Function.update s.tls a ((s.tls a).map fun t => { t with ssl_ := false })
    refs := .drop (s.ctx a) :: s.refs }

/-- `SSL_do_handshake` on a connection and the watch or close that follows. -/
def handshakeStep (w : World) (s : Upgrade) (a : Side) :
    Upgrade × TlsConnection.HandshakeOutcome :=
  match s.tls a with
  | none => (s, .nothing)
  | some t =>
    let (conn, loop, outcome) := t.conn.continueHandshake (w.handshake a.id) a.id s.loop_
    (s.setConn a conn loop, outcome)

def startRead (s : Upgrade) (a : Side) : Upgrade :=
  match s.tls a with
  | none => s
  | some t => s.setConn a (t.conn.startRead a.id s.loop_).1 (t.conn.startRead a.id s.loop_).2

/-- `continueHandshake` of the client side with its two callbacks. -/
def clientHandshake (w : World) (s : Upgrade) : Upgrade :=
  match s.handshakeStep w .client with
  | (s, .nothing) => s
  | (s, .complete) => (((s.startRead .client).startRead .upstream).freeCtx .client).freeCtx .upstream
  | (s, .failed) => ((s.freeCtx .client).freeCtx .upstream).close

/-- The `put` of whoever uses the cache. -/
def putCtx (s : Upgrade) (hostname : Bytes) (ctx : SslCtx) (c : CertCache) : Option Upgrade :=
  (c.put hostname ctx).map fun put =>
    { s with certCache_ := some put.1, refs := put.2.reverse.map CtxCall.ref ++ s.refs }

/-- `certCache_->put` where there is a cache. -/
def putCertificate (s : Upgrade) : Option Upgrade :=
  match s.certCache_ with
  | none => some s
  | some c => s.putCtx s.hostname (s.ctx .client) c

/-- The completion callback of the upstream handshake. -/
def onUpstreamHandshake (w : World) (s : Upgrade) : Option Upgrade :=
  if w.generate s.hostname then
    (s.newCtx .client).putCertificate.map fun s => (s.makeTls .client .client).clientHandshake w
  else some (s.freeCtx .upstream).close

/-- `continueHandshake` of the upstream side with its two callbacks. -/
def upstreamHandshake (w : World) (s : Upgrade) : Option Upgrade :=
  match s.handshakeStep w .upstream with
  | (s, .nothing) => some s
  | (s, .complete) => s.onUpstreamHandshake w
  | (s, .failed) => some (s.freeCtx .upstream).close

def startTlsMitm (w : World) (s : Upgrade) : Option Upgrade :=
  ((s.newCtx .upstream).makeTls .upstream (.upstream s.hostname)).upstreamHandshake w

/-- The handshake of the connection is not over. -/
def waits (s : Upgrade) (a : Side) : Bool :=
  (s.tls a).any fun t => !t.conn.closed_ && !t.conn.handshakeDone_

/-- The connection has its `SSL` object. -/
def alive (s : Upgrade) (a : Side) : Bool := (s.tls a).any TlsObject.ssl_

/-- `handleIo` of a connection; behind the handshake it takes no references. -/
def handleIo (w : World) (s : Upgrade) (a : Side) : Option Upgrade :=
  if s.waits a then
    match a with
    | .upstream => s.upstreamHandshake w
    | .client => some (s.clientHandshake w)
  else some s

/-- A call of another session, which has contexts of its own. -/
def useCache (s : Upgrade) (c : CertCache) : LruCall Bytes SslCtx → Option Upgrade
  | .get hostname => (c.get hostname).map fun got => { s with certCache_ := some got.1 }
  | .put hostname ctx =>
    if ctx = s.ctx .upstream ∨ ctx = s.ctx .client then none else s.putCtx hostname ctx c

/-- An event of a connection needs its `SSL` object. One whose handshake is over can
close itself, and one of a closed session can be destroyed. -/
def step (w : World) (s : Upgrade) : UpgradeAct → Option Upgrade
  | .start => if (s.tls .upstream).isNone then s.startTlsMitm w else none
  | .io a => if s.alive a then s.handleIo w a else none
  | .ends a => if s.alive a ∧ s.waits a = false then some (s.closeTls a) else none
  | .close => some s.close
  | .destroy a => if s.alive a ∧ s.closed_ then some (s.destroyTls a) else none
  | .cache call => s.certCache_.bind fun c => s.useCache c call

/-- How many references the cache has on the context of a side. -/
def cached (s : Upgrade) (a : Side) : Nat := s.certCache_.elim 0 fun c => c.holding (s.ctx a)

/-- A change of the connections alone, which lets no handshake wait again. -/
structure Kept (s s' : Upgrade) : Prop where
  ctx : s'.ctx = s.ctx
  refs : s'.refs = s.refs
  certCache : s'.certCache_ = s.certCache_
  alive : ∀ a, s'.alive a = s.alive a
  made : ∀ a, (s'.tls a).isSome = (s.tls a).isSome
  waits : ∀ a, s.waits a = false → s'.waits a = false

theorem Kept.refl (s : Upgrade) : Kept s s :=
  ⟨rfl, rfl, rfl, fun _ => rfl, fun _ => rfl, fun _ h => h⟩

theorem Kept.trans {s s' s'' : Upgrade} (h : Kept s s') (h' : Kept s' s'') : Kept s s'' where
  ctx := h'.ctx.trans h.ctx
  refs := h'.refs.trans h.refs
  certCache := h'.certCache.trans h.certCache
  alive a := (h'.alive a).trans (h.alive a)
  made a := (h'.made a).trans (h.made a)
  waits a hw := h'.waits a (h.waits a hw)

theorem setConn_self (s : Upgrade) (a : Side) (conn : TlsConnection) (loop : KqueueLoop) :
    (s.setConn a conn loop).tls a = (s.tls a).map fun t => { t with conn := conn } :=
  Function.update_self ..

theorem setConn_other (s : Upgrade) {a b : Side} (h : b ≠ a) (conn : TlsConnection)
    (loop : KqueueLoop) : (s.setConn a conn loop).tls b = s.tls b :=
  Function.update_of_ne h ..

theorem setConn_waits {s : Upgrade} {a : Side} {t : TlsObject} (ht : s.tls a = some t)
    (conn : TlsConnection) (loop : KqueueLoop) :
    (s.setConn a conn loop).waits a = (!conn.closed_ && !conn.handshakeDone_) := by
  rw [waits, setConn_self, ht]
  rfl

theorem kept_setConn {s : Upgrade} {a : Side} {t : TlsObject} (ht : s.tls a = some t)
    {conn : TlsConnection} (loop : KqueueLoop)
    (hw : s.waits a = false → (!conn.closed_ && !conn.handshakeDone_) = false) :
    Kept s (s.setConn a conn loop) where
  ctx := rfl
  refs := rfl
  certCache := rfl
  alive b := by
    by_cases hb : b = a
    · subst hb
      simp [alive, setConn_self, ht]
    · rw [alive, setConn_other s hb, alive]
  made b := by
    by_cases hb : b = a
    · subst hb
      simp [setConn_self, ht]
    · rw [setConn_other s hb]
  waits b hb := by
    by_cases hba : b = a
    · subst hba
      rw [setConn_waits ht]
      exact hw hb
    · rwa [waits, setConn_other s hba]

theorem waits_eq {s : Upgrade} {a : Side} {t : TlsObject} (ht : s.tls a = some t) :
    s.waits a = (!t.conn.closed_ && !t.conn.handshakeDone_) := by
  rw [waits, ht]
  rfl

theorem waits_none {s : Upgrade} {a : Side} (ht : s.tls a = none) : s.waits a = false := by
  rw [waits, ht]
  rfl

theorem close_conn (t : TlsConnection) (loop : KqueueLoop) : (t.close loop).1.closed_ = true := by
  unfold TlsConnection.close
  split
  · next hc => exact hc
  · rfl

theorem kept_closeTls (s : Upgrade) (a : Side) :
    Kept s (s.closeTls a) ∧ (s.closeTls a).waits a = false := by
  unfold closeTls
  split
  · next ht => exact ⟨.refl s, waits_none ht⟩
  · next t ht =>
    have hover : (!(t.conn.close s.loop_).1.closed_ && !(t.conn.close s.loop_).1.handshakeDone_) =
        false := by rw [close_conn, Bool.not_true, Bool.false_and]
    exact ⟨kept_setConn ht _ fun _ => hover, (setConn_waits ht _ _).trans hover⟩

theorem kept_closePlain (s : Upgrade) (a : Side) : Kept s (s.closePlain a) := by
  unfold closePlain
  split
  · exact .refl s
  · exact ⟨rfl, rfl, rfl, fun _ => rfl, fun _ => rfl, fun _ h => h⟩

theorem kept_startRead (s : Upgrade) (a : Side) : Kept s (s.startRead a) := by
  unfold startRead
  split
  · exact .refl s
  · next t ht =>
    apply kept_setConn ht
    intro hw
    rw [waits_eq ht] at hw
    unfold TlsConnection.startRead
    split <;> exact hw

/-- Closing an open session ends its handshakes. -/
theorem kept_close (s : Upgrade) :
    Kept s s.close ∧ (s.closed_ = false → ∀ a, s.close.waits a = false) := by
  unfold close
  split
  · next hc => exact ⟨.refl s, fun ho => absurd (hc.symm.trans ho) (by decide)⟩
  · have hstart : Kept s { s with closed_ := true } :=
      ⟨rfl, rfl, rfl, fun _ => rfl, fun _ => rfl, fun _ h => h⟩
    have hplain := hstart.trans ((kept_closePlain _ .client).trans (kept_closePlain _ .upstream))
    set s₁ := ({ s with closed_ := true }.closePlain .client).closePlain .upstream
    obtain ⟨hclient, hover⟩ := kept_closeTls s₁ .client
    obtain ⟨hupstream, hover'⟩ := kept_closeTls (s₁.closeTls .client) .upstream
    refine ⟨hplain.trans (hclient.trans hupstream), fun _ a => ?_⟩
    cases a with
    | client => exact hupstream.waits _ hover
    | upstream => exact hover'

/-- What `SSL_do_handshake` and its first consequences leave. -/
structure Shaken (a : Side) (s s' : Upgrade) (outcome : TlsConnection.HandshakeOutcome) : Prop where
  kept : Kept s s'
  closed : s'.closed_ = s.closed_
  others : ∀ b, b ≠ a → s'.tls b = s.tls b
  waits : s'.waits a = decide (outcome = .nothing)
  invalid : ∀ t, s.tls a = some t → t.conn.socket_ = kInvalidFd → outcome = .failed

/-- A step of a handshake that waits: it waits on exactly where nothing comes of it. -/
theorem continueHandshake_open (answer : Nat → HandshakeAnswer) {t : TlsConnection} (id : Nat)
    (loop : KqueueLoop) (hc : t.closed_ = false) (hd : t.handshakeDone_ = false) :
    (!(t.continueHandshake answer id loop).1.closed_ &&
        !(t.continueHandshake answer id loop).1.handshakeDone_) =
      decide ((t.continueHandshake answer id loop).2.2 = .nothing) ∧
    (t.socket_ = kInvalidFd → (t.continueHandshake answer id loop).2.2 = .failed) := by
  rw [TlsConnection.continueHandshake, if_neg (by simp [hc])]
  by_cases hs : t.socket_ = kInvalidFd
  · rw [if_pos hs]
    simp [close_conn]
  · rw [if_neg hs]
    refine ⟨?_, fun h => absurd h hs⟩
    cases answer t.handshakes with
    | done => simp
    | stops err =>
      dsimp only
      split
      · simp [hc, hd]
      · simp [close_conn]

theorem shaken_handshakeStep (w : World) {s : Upgrade} {a : Side} (h : s.waits a = true) :
    Shaken a s (s.handshakeStep w a).1 (s.handshakeStep w a).2 := by
  cases ht : s.tls a with
  | none =>
    rw [waits_none ht] at h
    cases h
  | some t =>
    have hw := h
    rw [waits_eq ht, Bool.and_eq_true, Bool.not_eq_true', Bool.not_eq_true'] at hw
    obtain ⟨hwaits, hinvalid⟩ :=
      continueHandshake_open (w.handshake a.id) a.id s.loop_ hw.1 hw.2
    rw [handshakeStep, ht]
    refine ⟨kept_setConn ht _ ?_, rfl, fun b hb => setConn_other s hb _ _, ?_, ?_⟩
    · rw [h]
      exact fun hf => by cases hf
    · rw [setConn_waits ht, hwaits]
    · rintro t' ht'
      cases ht.symm.trans ht'
      exact hinvalid

/-- The references that are there: `own` of them are the session's. -/
structure Counted (s : Upgrade) (own : Side → Nat) : Prop where
  apart : s.ctx .client ≠ s.ctx .upstream
  mirrors : ∀ c, s.certCache_ = some c → c.Mirrors
  holds : ∀ a, Holds (s.ctx a) s.refs (own a + (s.alive a).toNat + s.cached a)
  cachedUpstream : s.cached .upstream = 0
  cachedClient : s.cached .client ≤ 1

theorem Counted.kept {s s' : Upgrade} {own : Side → Nat} (h : Counted s own) (hk : Kept s s') :
    Counted s' own := by
  have hcached : ∀ a, s'.cached a = s.cached a := fun a => by
    rw [cached, hk.ctx, hk.certCache, cached]
  refine ⟨by rw [hk.ctx]; exact h.apart, by rw [hk.certCache]; exact h.mirrors, fun a => ?_,
    (hcached _).trans h.cachedUpstream, (hcached _).trans_le h.cachedClient⟩
  rw [hk.ctx, hk.refs, hk.alive, hcached]
  exact h.holds a

theorem Counted.ctx_if {s : Upgrade} {own : Side → Nat} (h : Counted s own) (a b : Side) :
    (if s.ctx b = s.ctx a then 1 else 0) = if a = b then 1 else 0 := by
  cases a <;> cases b <;> simp [h.apart, h.apart.symm]

theorem Counted.newCtx {s : Upgrade} {own own' : Side → Nat} (h : Counted s own) (b : Side)
    (hown : ∀ a, own' a = own a + if a = b then 1 else 0) : Counted (s.newCtx b) own' := by
  refine ⟨h.apart, h.mirrors, fun a => ?_, h.cachedUpstream, h.cachedClient⟩
  apply (h.holds a).take (s.ctx b)
  change own' a + (s.alive a).toNat + s.cached a = _
  rw [h.ctx_if, hown]
  omega

theorem Counted.freeCtx {s : Upgrade} {own own' : Side → Nat} (h : Counted s own) (b : Side)
    (hown : ∀ a, own a = own' a + if a = b then 1 else 0) : Counted (s.freeCtx b) own' := by
  refine ⟨h.apart, h.mirrors, fun a => ?_, h.cachedUpstream, h.cachedClient⟩
  apply (h.holds a).drop (s.ctx b)
  change _ = own' a + (s.alive a).toNat + s.cached a + _
  rw [h.ctx_if, hown]
  omega

theorem Counted.makeTls {s : Upgrade} {own : Side → Nat} (h : Counted s own) {b : Side}
    (hb : s.tls b = none) (callback : HandshakeCallback) : Counted (s.makeTls b callback) own := by
  refine ⟨h.apart, h.mirrors, fun a => ?_, h.cachedUpstream, h.cachedClient⟩
  apply (h.holds a).take (s.ctx b)
  have halive : ((s.makeTls b callback).alive a).toNat =
      (s.alive a).toNat + if a = b then 1 else 0 := by
    by_cases ha : a = b
    · subst ha
      simp [alive, Upgrade.makeTls, hb]
    · simp [alive, Upgrade.makeTls, ha]
  change own a + ((s.makeTls b callback).alive a).toNat + s.cached a = _
  rw [h.ctx_if, halive]
  omega

theorem Counted.destroyTls {s : Upgrade} {own : Side → Nat} (h : Counted s own) {b : Side}
    (hb : s.alive b = true) : Counted (s.destroyTls b) own := by
  obtain ⟨hk, -⟩ := kept_closeTls s b
  have hclosed := h.kept hk
  refine ⟨hclosed.apart, hclosed.mirrors, fun a => ?_, hclosed.cachedUpstream,
    hclosed.cachedClient⟩
  apply (hclosed.holds a).drop ((s.closeTls b).ctx b)
  have halive : ((s.closeTls b).alive a).toNat =
      ((s.destroyTls b).alive a).toNat + if a = b then 1 else 0 := by
    by_cases ha : a = b
    · subst ha
      rw [hk.alive, hb, Upgrade.destroyTls, alive]
      cases (s.closeTls a).tls a <;> simp
    · simp [alive, Upgrade.destroyTls, ha]
  change _ = own a + ((s.destroyTls b).alive a).toNat + (s.closeTls b).cached a + _
  rw [hclosed.ctx_if, halive]
  omega

/-- A `put` of the session for its client side, or of another session. -/
theorem Counted.putCtx {s s' : Upgrade} {own : Side → Nat} (h : Counted s own) {c : CertCache}
    (hc : s.certCache_ = some c) {hostname : Bytes} {ctx : SslCtx} (hu : ctx ≠ s.ctx .upstream)
    (hone : ctx = s.ctx .client → s.cached .client = 0)
    (hs : s.putCtx hostname ctx c = some s') :
    Counted s' own ∧ s'.tls = s.tls ∧ s'.closed_ = s.closed_ ∧ s'.plain = s.plain ∧
      (ctx ≠ s.ctx .client → s'.cached .client ≤ s.cached .client) := by
  obtain ⟨⟨c', calls⟩, hput, rfl⟩ := Option.map_eq_some_iff.mp hs
  obtain ⟨hmirrors, hle, hholds⟩ := (h.mirrors c hc).put hput
  have hcached : ∀ a, s.cached a = c.holding (s.ctx a) := fun a => by
    rw [cached, hc]
    rfl
  have hup := hle (s.ctx .upstream)
  have hcl := hle (s.ctx .client)
  rw [← hcached] at hup hcl
  rw [if_neg hu, h.cachedUpstream] at hup
  refine ⟨⟨h.apart, ?_, fun a => ?_, Nat.le_zero.mp hup, ?_⟩, rfl, rfl, rfl, ?_⟩
  · rintro _ ⟨⟩
    exact hmirrors
  · apply hholds
    rw [← hcached]
    exact h.holds a
  · by_cases he : ctx = s.ctx .client
    · rw [if_pos he, hone he] at hcl
      exact hcl
    · rw [if_neg he] at hcl
      exact hcl.trans h.cachedClient
  · intro he
    rwa [if_neg he] at hcl

end Upgrade

end DeepSeer
