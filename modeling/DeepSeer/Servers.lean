import DeepSeer.SessionActs

/-!
The server and its sessions. It holds a pointer to every session it has made, and drops
pointers when a connection is accepted: those that are null.
-/
namespace DeepSeer

open FallibleRuns

/-- The server, with the session objects in the order in which they were made. A
pointer is null or names its object; `certGen_` and `payloadInspector_` are whether there
is one. -/
structure Server where
  certGen_ : Bool := false
  payloadInspector_ : Bool := false
  sessions_ : List (Option Nat) := []
  objects : List Session := []

inductive ServerEvent where
  | accept (client : Fd)
  | session (index : Nat) (event : SessionEvent)

namespace Server

/-- The null pointers go, and the new session comes. -/
def onNewConnection (s : Server) (client : Fd) : Server :=
  let sessions := s.sessions_.filter Option.isSome
  { s with
    sessions_ := sessions ++ [some s.objects.length]
    objects := s.objects ++ [Session.start client s.certGen_ s.payloadInspector_] }

/-- An event of the loop; each session has its own surroundings. -/
def step (w : Nat → World) (s : Server) : ServerEvent → Except Crash Server
  | .accept client => .ok (s.onNewConnection client)
  | .session index event =>
    match s.objects[index]? with
    | none => .ok s
    | some session => do
      let session ← sessionStep (w index) (.ok session) event
      .ok { s with objects := s.objects.set index session }

/-- The events of a new server, up to its end where a session crashes. -/
def run (w : Nat → World) (certGen payloadInspector : Bool) (events : List ServerEvent) :
    Except Crash Server :=
  events.foldlM (step w) { certGen_ := certGen, payloadInspector_ := payloadInspector }

/-- No session but the new one is retained closed, and there are not more of them than
open sessions and one. -/
structure Cleaned (s : Server) (new : Nat) : Prop where
  open_ : ∀ i, some i ∈ s.sessions_ → i ≠ new → ∀ session, s.objects[i]? = some session →
    session.closed_ = false
  bounded : s.sessions_.length ≤ (s.objects.filter fun session => !session.closed_).length + 1

/-- No session has closed. -/
def NoneClosed (s : Server) : Prop := ∀ session ∈ s.objects, session.closed_ = false

/-- The server holds a pointer to every session it has made. -/
def Retains (s : Server) : Prop := s.sessions_ = (List.range s.objects.length).map some

variable {w : Nat → World} {s : Server}

theorem Retains.onNewConnection (h : Retains s) (client : Fd) :
    Retains (s.onNewConnection client) := by
  have hkept : s.sessions_.filter Option.isSome = s.sessions_ := by
    rw [List.filter_eq_self, h]
    intro p hp
    obtain ⟨i, -, rfl⟩ := List.mem_map.mp hp
    rfl
  unfold Retains Server.onNewConnection
  dsimp only
  rw [hkept, List.length_append, List.length_singleton, List.range_succ, List.map_append, ← h]
  rfl

theorem Retains.step (h : Retains s) (e : ServerEvent) :
    Ends (s.step w e) Retains fun _ => True := by
  cases e with
  | accept client => exact h.onNewConnection client
  | session index event =>
    unfold Server.step
    dsimp only
    split
    · exact h
    · next session _ =>
      refine (ends_trivial (sessionStep (w index) (.ok session) event)).bind fun session' _ => ?_
      change Retains { s with objects := s.objects.set index session' }
      unfold Retains
      rw [List.length_set]
      exact h

theorem run_retains (w : Nat → World) (certGen payloadInspector : Bool)
    (events : List ServerEvent) :
    Ends (run w certGen payloadInspector events) Retains fun _ => True :=
  Ends.foldlM (fun _ e hs => Retains.step hs e) events rfl

/-- Since no pointer is null, an accept finds its sessions cleaned up exactly where none
of them has closed. -/
theorem Retains.cleaned_iff (h : Retains s) (client : Fd) :
    Cleaned (s.onNewConnection client) s.objects.length ↔ NoneClosed s := by
  have hafter := h.onNewConnection client
  constructor
  · intro hc session hmem
    obtain ⟨i, hi, rfl⟩ := List.getElem_of_mem hmem
    refine hc.open_ i ?_ (by omega) _ ?_
    · rw [hafter]
      refine List.mem_map.mpr ⟨i, List.mem_range.mpr ?_, rfl⟩
      simp only [Server.onNewConnection, List.length_append]
      omega
    · simp only [Server.onNewConnection]
      rw [List.getElem?_append_left hi, List.getElem?_eq_getElem hi]
  · intro hnone
    refine ⟨fun i hi hne session hget => ?_, ?_⟩
    · simp only [Server.onNewConnection] at hget
      by_cases hlt : i < s.objects.length
      · rw [List.getElem?_append_left hlt] at hget
        exact hnone session (List.mem_of_getElem? hget)
      · rw [hafter] at hi
        obtain ⟨j, hj, hji⟩ := List.mem_map.mp hi
        cases hji
        simp only [Server.onNewConnection, List.length_append, List.length_singleton,
          List.mem_range] at hj
        omega
    · have hall : s.objects.filter (fun session => !session.closed_) = s.objects := by
        rw [List.filter_eq_self]
        intro session hmem
        simp [hnone session hmem]
      rw [hafter, List.length_map, List.length_range]
      simp only [Server.onNewConnection, List.filter_append, hall, List.length_append,
        List.length_singleton]
      omega

/-- In every run, the accepts find their sessions cleaned up exactly where no session
has closed before an accept. -/
theorem accepts_clean_iff (w : Nat → World) (certGen payloadInspector : Bool)
    (events : List ServerEvent) :
    (∀ before client s, before ++ [.accept client] <+: events →
      run w certGen payloadInspector before = .ok s →
        Cleaned (s.onNewConnection client) s.objects.length) ↔
    ∀ before client s, before ++ [.accept client] <+: events →
      run w certGen payloadInspector before = .ok s → NoneClosed s := by
  have hretains : ∀ before s, run w certGen payloadInspector before = .ok s → Retains s := by
    intro before s hrun
    have hends := run_retains w certGen payloadInspector before
    rwa [hrun] at hends
  constructor
  · intro h before client s hprefix hrun
    exact ((hretains before s hrun).cleaned_iff client).mp (h before client s hprefix hrun)
  · intro h before client s hprefix hrun
    exact ((hretains before s hrun).cleaned_iff client).mpr (h before client s hprefix hrun)

/-- A session that closes stays among the sessions. -/
theorem closed_session_retained :
    ∃ s, run (fun _ => promptWorld) false false [.accept 7, .session 0 .close] = .ok s ∧
      (s.onNewConnection 8).sessions_ = [some 0, some 1] ∧
      ¬ Cleaned (s.onNewConnection 8) s.objects.length := by
  refine ⟨_, rfl, rfl, fun h => ?_⟩
  have hopen := h.open_ 0 (by decide) (by decide) _ rfl
  exact absurd hopen (by decide)

end Server

end DeepSeer
