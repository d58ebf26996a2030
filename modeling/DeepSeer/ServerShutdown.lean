import DeepSeer.ClosedSessions
import DeepSeer.Servers

/-!
The end of the server. After the loop has returned, it closes the sessions that it still
holds and drops them; it holds all that it has made, so none is left open.
-/
namespace DeepSeer

open FallibleRuns

namespace Server

/-- `close` of the session that a pointer names; a null pointer has none. -/
def closeSession (objects : List Session) : Option Nat → Option (List Session)
  | none => none
  | some i => objects[i]?.map fun session => objects.set i (session.close .external)

/-- What `run` does with its sessions after the loop. -/
def shutdown (s : Server) : Option Server := do
  let objects ← s.sessions_.foldlM closeSession s.objects
  some { s with sessions_ := [], objects := objects }

/-- The first pointers name the first objects. -/
theorem closeSessions (objects : List Session) {k : Nat} (hk : k ≤ objects.length) :
    ((List.range k).map some).foldlM closeSession objects =
      some ((objects.take k).map (fun session => session.close .external) ++ objects.drop k) := by
  induction k with
  | zero => simp
  | succ k ih =>
    have hlt : k < objects.length := hk
    have htake : (objects.take k).length = k := by simp [hlt.le]
    have hmap : ((objects.take k).map fun session => session.close .external).length = k := by
      rw [List.length_map, htake]
    rw [List.range_succ, List.map_append, List.foldlM_append, ih hlt.le]
    simp only [List.map_cons, List.map_nil, List.foldlM_cons, List.foldlM_nil,
      Option.bind_eq_bind, Option.bind_some, closeSession]
    rw [List.drop_eq_getElem_cons hlt, List.getElem?_append_right hmap.le, hmap, Nat.sub_self]
    simp only [List.getElem?_cons_zero, Option.map_some, Option.bind_some, Option.pure_def]
    rw [List.set_append_right _ _ hmap.le, hmap, Nat.sub_self, List.set_cons_zero,
      ← List.take_append_getElem hlt, List.map_append, List.append_assoc]
    rfl

variable {w : Nat → World} {s : Server}

/-- Since no pointer is null, every session that was made is closed. -/
theorem Retains.shutdown (h : Retains s) : s.shutdown = some { s with
    sessions_ := [], objects := s.objects.map fun session => session.close .external } := by
  unfold Server.shutdown
  rw [h, closeSessions s.objects le_rfl]
  simp

/-- The sessions have runs of their own. -/
structure Serves (w : Nat → World) (certGen payloadInspector : Bool) (accepts : Nat)
    (s : Server) : Prop where
  generator : s.certGen_ = certGen
  inspector : s.payloadInspector_ = payloadInspector
  made : s.objects.length = accepts
  runs : ∀ i session, s.objects[i]? = some session → ∃ fd events,
    sessionRun (w i) (.ok (Session.start fd certGen payloadInspector)) events = .ok session

end Server

def ServerEvent.accepts : ServerEvent → Bool
  | .accept _ => true
  | .session _ _ => false

namespace Server

variable {w : Nat → World} {certGen payloadInspector : Bool} {s : Server}

theorem Serves.step {n : Nat} (h : Serves w certGen payloadInspector n s) (e : ServerEvent) :
    Ends (s.step w e) (Serves w certGen payloadInspector (n + if e.accepts then 1 else 0))
      fun _ => True := by
  cases e with
  | accept client =>
    refine ⟨h.generator, h.inspector, ?_, fun i session hi => ?_⟩
    · simp [onNewConnection, h.made, ServerEvent.accepts]
    · simp only [onNewConnection] at hi
      by_cases hlt : i < s.objects.length
      · rw [List.getElem?_append_left hlt] at hi
        exact h.runs i session hi
      · rw [List.getElem?_append_right (by omega)] at hi
        have hnew := List.mem_singleton.mp (List.mem_of_getElem? hi)
        exact ⟨client, [], by rw [hnew, h.generator, h.inspector]; rfl⟩
  | session index event =>
    unfold Server.step
    dsimp only
    split
    · exact h
    · next session hsession =>
      cases hstep : sessionStep (w index) (.ok session) event with
      | error crash => trivial
      | ok session' =>
        obtain ⟨fd, events, hrun⟩ := h.runs index session hsession
        have hmore : sessionRun (w index) (.ok (Session.start fd certGen payloadInspector))
            (events ++ [event]) = .ok session' := by
          unfold sessionRun at hrun ⊢
          rw [Runs.run_append, hrun]
          exact hstep
        refine ⟨h.generator, h.inspector, ?_, fun i other hi => ?_⟩
        · exact (List.length_set ..).trans h.made
        · change (s.objects.set index session')[i]? = some other at hi
          by_cases hindex : index = i
          · subst hindex
            obtain ⟨hlt, hget⟩ := List.getElem?_eq_some_iff.mp hi
            rw [List.getElem_set_self] at hget
            exact ⟨fd, events ++ [event], hget ▸ hmore⟩
          · rw [List.getElem?_set_ne hindex] at hi
            exact h.runs i other hi

theorem run_serves (w : Nat → World) (certGen payloadInspector : Bool)
    (events : List ServerEvent) : Ends (run w certGen payloadInspector events)
      (Serves w certGen payloadInspector (events.countP ServerEvent.accepts))
      fun _ => True := by
  have hall : ∀ (events : List ServerEvent) (s : Server) (n : Nat),
      Serves w certGen payloadInspector n s → Ends (events.foldlM (Server.step w) s)
        (Serves w certGen payloadInspector (n + events.countP ServerEvent.accepts))
        fun _ => True := by
    intro events
    induction events with
    | nil => exact fun s n hs => hs
    | cons e rest ih =>
      intro s n hs
      rw [List.foldlM_cons, List.countP_cons, Nat.add_comm (rest.countP _), ← Nat.add_assoc]
      exact (hs.step e).bind fun s' hs' => ih s' _ hs'
  have hnew : Serves w certGen payloadInspector 0
      { certGen_ := certGen, payloadInspector_ := payloadInspector } :=
    ⟨rfl, rfl, rfl, fun i session hi => by simp at hi⟩
  have hend := hall events _ 0 hnew
  rwa [Nat.zero_add] at hend

/-- What is left when a session that did not go astray is closed from outside. -/
theorem close_leaves_nothing {w : World} (hvalid : ∀ k, w.createSocket k ≠ some kInvalidFd)
    {fd : Fd} {certGen payloadInspector : Bool} {events : List SessionEvent} {s : Session}
    (hrun : sessionRun w (.ok (Session.start fd certGen payloadInspector)) events = .ok s)
    (hs : astray certGen s.log = false) :
    (s.close .external).closed_ = true ∧
      (∀ other, (s.close .external).loop_.fdEntries_ other = none) ∧
      ∀ other, (s.close .external).loop_.sockets other = false := by
  have hend := Session.sessionRun_settled hvalid fd certGen payloadInspector events
  rw [hrun] at hend
  have h : Session.Settled certGen s := hend.resolve_left (by simp [hs])
  have hafter := h.close .external
  have hclosed := Session.close_closed s .external
  refine ⟨hclosed, fun other => ?_, fun other => ?_⟩
  · rw [Option.eq_none_iff_forall_ne_some]
    exact fun e he => hafter.shut hclosed other e.callback (hafter.entries other e he)
  · by_contra ho
    obtain ⟨cb, howner⟩ := hafter.sockets other (by simpa using ho)
    exact hafter.shut hclosed other cb howner

/-- Wherever its loop returns, the server closes every session that it has made for a
connection, holds none of them any more, and leaves no watch and no socket of theirs,
where none of them has gone astray. -/
theorem shutdown_leaves_nothing (w : Nat → World) (certGen payloadInspector : Bool)
    (events : List ServerEvent) {s : Server}
    (hvalid : ∀ i k, (w i).createSocket k ≠ some kInvalidFd)
    (hrun : run w certGen payloadInspector events = .ok s)
    (hs : ∀ session ∈ s.objects, astray certGen session.log = false) :
    ∃ s', s.shutdown = some s' ∧ s'.sessions_ = [] ∧
      s'.objects.length = events.countP ServerEvent.accepts ∧
      ∀ session ∈ s'.objects, session.closed_ = true ∧
        (∀ fd, session.loop_.fdEntries_ fd = none) ∧ ∀ fd, session.loop_.sockets fd = false := by
  have hserves := run_serves w certGen payloadInspector events
  have hretains := run_retains w certGen payloadInspector events
  rw [hrun] at hserves hretains
  refine ⟨_, hretains.shutdown, rfl, ?_, fun session hmem => ?_⟩
  · exact (List.length_map ..).trans hserves.made
  · obtain ⟨before, hbefore, rfl⟩ := List.mem_map.mp hmem
    obtain ⟨i, hi, hget⟩ := List.getElem_of_mem hbefore
    obtain ⟨fd, own, hown⟩ := hserves.runs i before (hget ▸ List.getElem?_eq_getElem hi)
    exact close_leaves_nothing (hvalid i) hown (hs before hbefore)

/-- Two connections, one of whose sessions closes while the loop runs. -/
theorem shutdown_leaves_nothing_prompt : ∃ s, run (fun _ => promptWorld) false false
      [.accept 7, .accept 8, .session 0 .close] = .ok s ∧
    ∃ s', s.shutdown = some s' ∧ s'.sessions_ = [] ∧ s'.objects.length = 2 ∧
      ∀ session ∈ s'.objects, session.closed_ = true ∧
        (∀ fd, session.loop_.fdEntries_ fd = none) ∧ ∀ fd, session.loop_.sockets fd = false :=
  ⟨_, rfl, shutdown_leaves_nothing (fun _ => promptWorld) false false
    [.accept 7, .accept 8, .session 0 .close] (fun _ => promptWorld_valid) rfl (by decide)⟩

end Server

end DeepSeer
