import DeepSeer.Exchanges
import DeepSeer.Servers
import DeepSeer.SharedSessions

/-!
The server with one event loop for all of its sessions. A descriptor belongs to the
session that it was made for. As long as no session watches the invalid descriptor, each
session does what it would do on a loop of its own, however their events are mixed.
-/
namespace DeepSeer

open ByteMemory ByteText FallibleRuns PairedRuns KqueueLoop

namespace Session

/-- The constructor and `start` on the loop of the server. -/
def startOn (loop : KqueueLoop) (fd : Fd) (certGen payloadInspector : Bool) : Session :=
  let c : Connection := { socket_ := fd, wired := true }
  let (c, loop) := c.startRead (loop.openFd fd)
  { loop_ := loop, client_ := some c, certGen_ := certGen, payloadInspector_ := payloadInspector }

/-- The members of a session without the table. -/
def members (s : Session) : Session := { s with loop_ := {} }

end Session

/-- The server and its loop. The tables in the session objects are not looked at. -/
structure SharedServer extends Server where
  loop_ : KqueueLoop := {}

namespace SharedServer

def onNewConnection (s : SharedServer) (client : Fd) : SharedServer :=
  let sessions := s.sessions_.filter Option.isSome
  let session := Session.startOn s.loop_ client s.certGen_ s.payloadInspector_
  { s with
    sessions_ := sessions ++ [some s.objects.length]
    objects := s.objects ++ [session]
    loop_ := session.loop_ }

/-- An event of the loop. A report is for the session that the descriptor was made for. -/
def step (w : Nat → World) (s : SharedServer) : ServerEvent → Except Crash SharedServer
  | .accept client => .ok (s.onNewConnection client)
  | .session index event =>
    match s.objects[index]? with
    | none => .ok s
    | some session => do
      let session ← sessionStep (w index) (.ok { session with loop_ := s.loop_ }) event
      .ok { s with objects := s.objects.set index session, loop_ := session.loop_ }

def run (w : Nat → World) (certGen payloadInspector : Bool) (events : List ServerEvent) :
    Except Crash SharedServer :=
  events.foldlM (step w) { certGen_ := certGen, payloadInspector_ := payloadInspector }

end SharedServer

/-- The descriptors of a session, and the invalid one. -/
def fdsOf (owner : Fd → Nat) (i : Nat) (fd : Fd) : Bool :=
  decide (owner fd = i) || decide (fd = kInvalidFd)

/-- The event is for the owner of its descriptor, and no session watches the invalid one. -/
def Fits (owner : Fd → Nat) (s : Server) (e : ServerEvent) : Prop :=
  (match e with
    | .accept client => owner client = s.objects.length ∧ client ≠ kInvalidFd
    | .session index (.ready fd _) => owner fd = index ∧ fd ≠ kInvalidFd
    | .session _ .close => True) ∧
  ∀ session ∈ s.objects, session.loop_.fdEntries_ kInvalidFd = none

instance (owner : Fd → Nat) (s : Server) (e : ServerEvent) : Decidable (Fits owner s e) := by
  unfold Fits
  split <;> infer_instance

/-- Nothing is known of the descriptor. -/
structure Unused (l : KqueueLoop) (fd : Fd) : Prop where
  entry : l.fdEntries_ fd = none
  filters : l.filters fd = {}
  socket : l.sockets fd = false

/-- Two tables say the same of the descriptor. -/
structure AgreeOn (l l' : KqueueLoop) (fd : Fd) : Prop where
  entry : l'.fdEntries_ fd = l.fdEntries_ fd
  filters : l'.filters fd = l.filters fd
  socket : l'.sockets fd = l.sockets fd

/-- The sessions on the shared loop are those that have their own, and the shared loop
has for each descriptor what its owner's has. -/
structure Sharing (owner : Fd → Nat) (s : Server) (t : SharedServer) : Prop where
  certGen : t.certGen_ = s.certGen_
  inspector : t.payloadInspector_ = s.payloadInspector_
  pointers : t.sessions_ = s.sessions_
  objects : t.objects.map Session.members = s.objects.map Session.members
  table : ∀ i session, s.objects[i]? = some session → ∀ fd, owner fd = i → fd ≠ kInvalidFd →
    AgreeOn session.loop_ t.loop_ fd
  unused : ∀ fd, s.objects.length ≤ owner fd → fd ≠ kInvalidFd → Unused t.loop_ fd

variable {owner : Fd → Nat} {s : Server} {t : SharedServer} {w : Nat → World}

/-- What holds of the invalid descriptor in addition, and which ones the sessions hold. -/
structure Shared (owner : Fd → Nat) (s : Server) (t : SharedServer) : Prop
    extends Sharing owner s t where
  inside : ∀ (i : Nat) session, s.objects[i]? = some session → session.Inside (fdsOf owner i)
  no_filters : t.loop_.filters kInvalidFd = {}
  no_socket : t.loop_.sockets kInvalidFd = false
  invalid : t.loop_.fdEntries_ kInvalidFd = none ∨
    ∃ session ∈ s.objects, session.loop_.fdEntries_ kInvalidFd = t.loop_.fdEntries_ kInvalidFd

theorem fdsOf_invalid (owner : Fd → Nat) (i : Nat) : fdsOf owner i kInvalidFd = true := by
  simp [fdsOf]

theorem fdsOf_owner {i : Nat} {fd : Fd} (h : owner fd = i) : fdsOf owner i fd = true := by
  simp [fdsOf, h]

theorem fdsOf_other {i : Nat} {fd : Fd} (h : owner fd ≠ i) (hfd : fd ≠ kInvalidFd) :
    fdsOf owner i fd = false := by
  simp [fdsOf, h, hfd]

/-- The shared loop where a session acts on it. -/
def Shared.outer (h : Shared owner s t) : OuterLoop :=
  { t.loop_ with no_filters := h.no_filters, no_socket := h.no_socket }

theorem loop_ext {l l' : KqueueLoop} (h : ∀ fd, AgreeOn l l' fd) : l' = l := by
  obtain ⟨entries, filters, sockets⟩ := l
  obtain ⟨entries', filters', sockets'⟩ := l'
  obtain rfl : entries' = entries := funext fun fd => (h fd).entry
  obtain rfl : filters' = filters := funext fun fd => (h fd).filters
  obtain rfl : sockets' = sockets := funext fun fd => (h fd).socket
  rfl

/-- What an overlaid table says of the descriptors of the owner, and of all others. -/
theorem overlay_agree {l : KqueueLoop} {outer : OuterLoop} {D : Fd → Bool} {fd : Fd}
    (hD : D fd = true) (hfd : fd ≠ kInvalidFd) : AgreeOn l (l.overlay outer D) fd :=
  ⟨overlay_entry l hD, overlay_filters l hD hfd, blend_in (valid_in hD hfd)⟩

theorem overlay_outside (l : KqueueLoop) (outer : OuterLoop) {D : Fd → Bool} {fd : Fd}
    (hD : D fd = false) : AgreeOn outer.toKqueueLoop (l.overlay outer D) fd :=
  ⟨blend_out hD, blend_out (by simp [valid, hD]), blend_out (by simp [valid, hD])⟩

theorem AgreeOn.symm {l l' : KqueueLoop} {fd : Fd} (h : AgreeOn l l' fd) : AgreeOn l' l fd :=
  ⟨h.entry.symm, h.filters.symm, h.socket.symm⟩

theorem AgreeOn.trans {l l' l'' : KqueueLoop} {fd : Fd} (h : AgreeOn l l' fd)
    (h' : AgreeOn l' l'' fd) : AgreeOn l l'' fd :=
  ⟨h'.entry.trans h.entry, h'.filters.trans h.filters, h'.socket.trans h.socket⟩

theorem Unused.agree {l : KqueueLoop} {fd : Fd} (h : Unused l fd) : AgreeOn {} l fd :=
  ⟨h.entry, h.filters, h.socket⟩

theorem AgreeOn.unused {l l' : KqueueLoop} {fd : Fd} (h : AgreeOn l l' fd) (hl : Unused l fd) :
    Unused l' fd :=
  ⟨h.entry.trans hl.entry, h.filters.trans hl.filters, h.socket.trans hl.socket⟩

/-- Between two events no table has an entry for the invalid descriptor. -/
theorem Shared.no_entry (h : Shared owner s t)
    (hnone : ∀ session ∈ s.objects, session.loop_.fdEntries_ kInvalidFd = none) :
    t.loop_.fdEntries_ kInvalidFd = none := by
  rcases h.invalid with hn | ⟨other, hmem, heq⟩
  · exact hn
  · exact heq.symm.trans (hnone other hmem)

/-- The shared loop is a table that says the same of the descriptors of one session. -/
theorem Shared.overlay_loop (h : Shared owner s t) {l : KqueueLoop} {i : Nat}
    (hl : ∀ fd, owner fd = i → fd ≠ kInvalidFd → AgreeOn l t.loop_ fd)
    (hentry : l.fdEntries_ kInvalidFd = t.loop_.fdEntries_ kInvalidFd) :
    l.overlay h.outer (fdsOf owner i) = t.loop_ := by
  refine loop_ext fun fd => ?_
  by_cases hfd : fd = kInvalidFd
  · subst hfd
    refine ⟨?_, ?_, ?_⟩
    · rw [overlay_entry _ (fdsOf_invalid owner i), hentry]
    · exact blend_out (valid_out _)
    · exact blend_out (valid_out _)
  · by_cases howner : owner fd = i
    · exact (hl fd howner hfd).symm.trans (overlay_agree (fdsOf_owner howner) hfd)
    · exact overlay_outside l h.outer (fdsOf_other howner hfd)

/-- Between two events the shared loop is that of a session where the session owns it. -/
theorem Shared.overlay_eq (h : Shared owner s t)
    (hnone : ∀ session ∈ s.objects, session.loop_.fdEntries_ kInvalidFd = none) {i : Nat}
    {session : Session} (hi : s.objects[i]? = some session) :
    session.loop_.overlay h.outer (fdsOf owner i) = t.loop_ :=
  h.overlay_loop (h.table i session hi)
    ((hnone session (List.mem_of_getElem? hi)).trans (h.no_entry hnone).symm)

/-- A session that has acted on the shared loop comes to its place. -/
theorem Shared.acted (h : Shared owner s t) {i : Nat} {session : Session}
    (hin : session.Inside (fdsOf owner i)) {s' : Server} {t' : SharedServer}
    (hget : ∀ j, s'.objects[j]? = if j = i then some session else s.objects[j]?)
    (hlength : s.objects.length ≤ s'.objects.length)
    (hobjects : t'.objects.map Session.members = s'.objects.map Session.members)
    (hloop : t'.loop_ = session.loop_.overlay h.outer (fdsOf owner i))
    (hmembers : t'.certGen_ = s'.certGen_ ∧ t'.payloadInspector_ = s'.payloadInspector_ ∧
      t'.sessions_ = s'.sessions_) : Shared owner s' t' := by
  have hi : s'.objects[i]? = some session := by rw [hget, if_pos rfl]
  have houtside : ∀ fd, owner fd ≠ i → fd ≠ kInvalidFd →
      AgreeOn t.loop_ (session.loop_.overlay h.outer (fdsOf owner i)) fd := fun fd howner hfd =>
    overlay_outside _ h.outer (fdsOf_other howner hfd)
  rw [← hloop] at houtside
  refine ⟨⟨hmembers.1, hmembers.2.1, hmembers.2.2, hobjects, ?_, ?_⟩, ?_, ?_, ?_, ?_⟩
  · intro j other hj fd howner hfd
    rw [hget] at hj
    split at hj
    · next heq =>
      cases hj
      rw [hloop]
      exact overlay_agree (fdsOf_owner (howner.trans heq)) hfd
    · next hne =>
      exact (h.table j other hj fd howner hfd).trans
        (houtside fd (fun heq => hne (howner.symm.trans heq)) hfd)
  · intro fd howner hfd
    have hlt := (List.getElem?_eq_some_iff.mp hi).1
    exact (houtside fd (fun heq => by omega) hfd).unused
      (h.unused fd (Nat.le_trans hlength howner) hfd)
  · intro j other hj
    rw [hget] at hj
    split at hj
    · next heq =>
      cases hj
      exact heq ▸ hin
    · exact h.inside j other hj
  · rw [hloop]
    exact (blend_out (valid_out _)).trans h.no_filters
  · rw [hloop]
    exact (blend_out (valid_out _)).trans h.no_socket
  · rw [hloop]
    exact .inr ⟨session, List.mem_of_getElem? hi, (overlay_entry _ (fdsOf_invalid owner i)).symm⟩

theorem startOn_overlay {D : Fd → Bool} {client : Fd} (hD : D client = true)
    (hclient : client ≠ kInvalidFd) (outer : OuterLoop) (certGen payloadInspector : Bool) :
    Session.startOn (({} : KqueueLoop).overlay outer D) client certGen payloadInspector =
      (Session.start client certGen payloadInspector).overlaid outer D := by
  unfold Session.startOn
  rw [overlay_openFd {} hD hclient]
  dsimp only
  rw [Connection.startRead_overlay (c := { socket_ := client, wired := true }) _ hD]
  rfl

/-- The new session finds nothing of its descriptors on the shared loop. -/
theorem Shared.accept (h : Shared owner s t) {client : Fd}
    (hfits : Fits owner s (.accept client)) :
    Shared owner (s.onNewConnection client) (t.onNewConnection client) := by
  obtain ⟨⟨howner, hclient⟩, hnone⟩ := hfits
  have hD : fdsOf owner s.objects.length client = true := fdsOf_owner howner
  have hlength : t.objects.length = s.objects.length := by
    have := congrArg List.length h.objects
    simpa using this
  have hloop : ({} : KqueueLoop).overlay h.outer (fdsOf owner s.objects.length) = t.loop_ :=
    h.overlay_loop (fun fd hmine hfd => (h.unused fd (Nat.le_of_eq hmine.symm) hfd).agree)
      (h.no_entry hnone).symm
  have hstart := startOn_overlay hD hclient h.outer s.certGen_ s.payloadInspector_
  rw [hloop] at hstart
  unfold SharedServer.onNewConnection Server.onNewConnection
  dsimp only
  rw [h.certGen, h.inspector, h.pointers, hlength, hstart]
  refine h.acted (Session.start_inside hD (fdsOf_invalid owner _) s.certGen_ s.payloadInspector_)
    (fun j => ?_) (by simp) ?_ rfl ⟨rfl, rfl, rfl⟩
  · dsimp only
    by_cases hj : j < s.objects.length
    · rw [List.getElem?_append_left hj, if_neg (by omega)]
    · by_cases heq : j = s.objects.length
      · subst heq
        simp
      · rw [if_neg heq, List.getElem?_eq_none (by simp; omega), List.getElem?_eq_none (by omega)]
  · rw [List.map_append, List.map_append, h.objects]
    rfl

/-- One event, on the shared loop and on the loop of the session. -/
theorem Shared.session (hw : ∀ i, Session.Deals (fdsOf owner i) (w i)) (h : Shared owner s t)
    {index : Nat} {event : SessionEvent} (hfits : Fits owner s (.session index event)) :
    Alike (Shared owner) (fun e e' => e'.fault = e.fault)
      (s.step w (.session index event)) (t.step w (.session index event)) := by
  have hobjects : t.objects[index]?.map Session.members =
      s.objects[index]?.map Session.members := by
    rw [← List.getElem?_map, h.objects, List.getElem?_map]
  unfold Server.step SharedServer.step
  dsimp only
  cases hi : s.objects[index]? with
  | none =>
    rw [hi] at hobjects
    rw [Option.map_eq_none_iff.mp hobjects]
    exact h
  | some session =>
    rw [hi] at hobjects
    obtain ⟨session', hi', hsame⟩ := Option.map_eq_some_iff.mp hobjects
    rw [hi']
    have hstart : { session' with loop_ := t.loop_ } =
        session.overlaid h.outer (fdsOf owner index) := by
      have hset := congrArg (fun s : Session => { s with loop_ := t.loop_ }) hsame
      rw [Session.overlaid, h.overlay_eq hfits.2 hi]
      exact hset
    have hshares : Session.Shares h.outer (fdsOf owner index) session
        { session' with loop_ := t.loop_ } := ⟨hstart, h.inside index session hi⟩
    have hstep : Session.Together h.outer (fdsOf owner index)
        (sessionStep (w index) (.ok session) event)
        (sessionStep (w index) (.ok { session' with loop_ := t.loop_ }) event) := by
      cases event with
      | ready fd a => exact hshares.ready (hw index) (fdsOf_owner hfits.1.1) a
      | close => exact hshares.close .external
    dsimp only
    refine Alike.bind (hstep.mono (fun _ _ h => h) fun _ _ h => h.1) fun s₁ t₁ h₁ => ?_
    obtain ⟨heq, hin⟩ := h₁
    rw [heq]
    refine alike_ok.mpr (h.acted hin (fun j => ?_) (by simp) ?_ rfl
      ⟨h.certGen, h.inspector, h.pointers⟩)
    · dsimp only
      by_cases hj : j = index
      · subst hj
        rw [List.getElem?_set_self (List.getElem?_eq_some_iff.mp hi).1, if_pos rfl]
      · rw [List.getElem?_set_ne fun heq => hj heq.symm, if_neg hj]
    · rw [List.map_set, List.map_set, h.objects]
      rfl

theorem Shared.step (hw : ∀ i, Session.Deals (fdsOf owner i) (w i)) (h : Shared owner s t)
    {e : ServerEvent} (hfits : Fits owner s e) :
    Alike (Shared owner) (fun e e' => e'.fault = e.fault) (s.step w e) (t.step w e) := by
  cases e with
  | accept client => exact h.accept hfits
  | session index event => exact h.session hw hfits

/-- In every run of the server, its sessions do on the shared loop what they would do on
loops of their own, and it crashes where they would. -/
theorem sessions_separate (owner : Fd → Nat) (w : Nat → World)
    (hw : ∀ i, Session.Deals (fdsOf owner i) (w i)) (certGen payloadInspector : Bool)
    (events : List ServerEvent)
    (hfits : Permitted (Server.step w) (Fits owner)
      { certGen_ := certGen, payloadInspector_ := payloadInspector } events) :
    Alike (Sharing owner) (fun e e' => e'.fault = e.fault)
      (Server.run w certGen payloadInspector events)
      (SharedServer.run w certGen payloadInspector events) := by
  have hstart : Shared owner { certGen_ := certGen, payloadInspector_ := payloadInspector }
      { certGen_ := certGen, payloadInspector_ := payloadInspector } :=
    ⟨⟨rfl, rfl, rfl, rfl, fun i _ hi => absurd hi (by simp), fun _ _ _ => ⟨rfl, rfl, rfl⟩⟩,
      fun i _ hi => absurd hi (by simp), rfl, rfl, .inl rfl⟩
  exact (Alike.foldlM_permitted (fun _ _ e h hfits => h.step hw hfits) hstart hfits).mono
    (fun _ _ h => h.toSharing) fun _ _ h => h

/-- Every connect waits, and session `i` gets the descriptor `5 + i`. -/
def crowdedWorld (i : Nat) : World := { slowWorld with createSocket := fun _ => some (5 + i) }

/-- The clients have the descriptors 3 and 4. -/
def crowdedOwner (fd : Fd) : Nat := if fd < 5 then (fd - 3).toNat else (fd - 5).toNat

def getRequest (fd : Fd) (target : Bytes) : SessionEvent :=
  received fd (text "GET " ++ target ++ text " HTTP/1.1\r\nHost: h\r\n\r\n")
    (requestEvents [target] [.host] { method := text "GET" } ++ [.messageComplete])

/-- Two exchanges whose events cross each other. -/
def crossingRun : List ServerEvent :=
  [.accept 3, .accept 4, .session 0 (getRequest 3 (text "/a")),
    .session 1 (getRequest 4 (text "/b")), .session 1 (.ready 6 { fired := ⟨false, true⟩ }),
    .session 0 (.ready 5 { fired := ⟨false, true⟩ }),
    .session 0 (received 5 (text "HTTP/1.1 200 OK\r\n\r\n")
      (responseEvents [text "OK"] [] { status_code := 200 })),
    .session 1 .close]

theorem crowdedWorld_deals (i : Nat) : Session.Deals (fdsOf crowdedOwner i) (crowdedWorld i) := by
  intro k fd h
  obtain rfl : (5 : Int) + i = fd := Option.some.inj h
  have hlow : ¬ ((5 : Int) + i < 5) := by omega
  have hindex : ((5 : Int) + i - 5).toNat = i := by omega
  have hvalid : ((5 : Int) + i) ≠ -1 := by omega
  refine ⟨fdsOf_owner ?_, hvalid⟩
  unfold crowdedOwner
  rw [if_neg hlow]
  exact hindex

theorem sessions_separate_crossing : Alike (Sharing crowdedOwner) (fun e e' => e'.fault = e.fault)
    (Server.run crowdedWorld false false crossingRun)
    (SharedServer.run crowdedWorld false false crossingRun) :=
  sessions_separate crowdedOwner crowdedWorld crowdedWorld_deals false false crossingRun
    (by decide +kernel)

end DeepSeer
