import DeepSeer.EngineClients
import DeepSeer.InspectedPrefixes
import DeepSeer.SessionHistory
import DeepSeer.SharedServers

/-!
The server with the inference engine as its inspector. The loop thread is the one client
of the engine: it submits what the sessions report, and the worker classifies and calls
back while the loop goes on.
-/
namespace DeepSeer

open ByteMemory ByteText FallibleRuns Schedules Session Seer

/-- What a call of the inspector is given. -/
def Note.report : Note → Option (Bytes × Bytes)
  | .inspected payload url => some (payload, url)
  | _ => none

/-- The calls of the inspector, the first one first. -/
def reports (log : List Note) : List (Bytes × Bytes) := log.reverse.filterMap Note.report

/-- A call of the inspector by one of the sessions. -/
structure Inspection where
  session : Nat
  payload : Bytes
  url : Bytes
  deriving DecidableEq

/-- What a list of calls has from one of the sessions. -/
def reportsOf (index : Nat) (inspections : List Inspection) : List (Bytes × Bytes) :=
  (inspections.filter fun i => i.session = index).map fun i => (i.payload, i.url)

/-- What the inspector submits. Its callback is the one of the n-th call. -/
def Inspection.item (n : Nat) (i : Inspection) : WorkItem :=
  { payload := i.payload, url := i.url, onResult := some n }

/-- What the callback of the n-th call is to get, but for the time. -/
def Inspection.answer (classify : Bytes → InferenceResult) (n : Nat) (i : Inspection) :
    ResultCallback × InferenceResult :=
  (n, (classify i.payload).untimed)

/-- The calls of the inspector in one event of the loop. -/
def fresh (before after : List Session) : ServerEvent → List Inspection
  | .accept _ => []
  | .session index _ =>
    match before[index]?, after[index]? with
    | some old, some new =>
      ((reports new.log).drop (reports old.log).length).map fun r => ⟨index, r.1, r.2⟩
    | _, _ => []

/-- Every session has an inspector that hears what it is to hear, and the calls are those
that the sessions have made, each session's in its order. -/
structure Heard (server : SharedServer) (inspections : List Inspection) : Prop where
  inspector : server.payloadInspector_ = true
  heard : ∀ session ∈ server.objects, session.payloadInspector_ = true ∧ Overheard session
  known : ∀ i ∈ inspections, i.session < server.objects.length
  reported : ∀ (index : Nat) session, server.objects[index]? = some session →
    reportsOf index inspections = reports session.log

structure InspectingServer where
  server : SharedServer := { payloadInspector_ := true }
  engine : Engine := {}
  inspections : List Inspection := []

namespace InspectingServer

/-- `submit` is the next call of the loop thread. -/
inductive Act where
  | event (e : ServerEvent)
  | submit
  | engine (a : Seer.Action)

/-- The loop thread has made its calls, and they have returned. -/
def Idle (s : InspectingServer) : Prop :=
  s.engine.calls.length = s.inspections.length ∧ ∀ c ∈ s.engine.calls, c = .returned

instance (s : InspectingServer) : Decidable s.Idle := by
  unfold Idle
  infer_instance

/-- An event of the loop, whose calls of the inspector are behind it. The next event
waits until they have returned. A run ends before an event that crashes. -/
def event (w : Nat → World) (s : InspectingServer) (e : ServerEvent) : Option InspectingServer :=
  if s.Idle then
    match s.server.step w e with
    | .error _ => none
    | .ok server =>
      some { s with
        server := server
        inspections := s.inspections ++ fresh s.server.objects server.objects e }
  else none

/-- The next call of the inspector. -/
def submit (s : InspectingServer) : Option InspectingServer :=
  if ∀ c ∈ s.engine.calls, c = .returned then
    s.inspections[s.engine.calls.length]?.bind fun i =>
      (s.engine.step (.submit none (i.item s.engine.calls.length))).map fun engine =>
        { s with engine := engine }
  else none

def step (w : Nat → World) (s : InspectingServer) : Act → Option InspectingServer
  | .event e => s.event w e
  | .submit => s.submit
  | .engine a => (s.engine.step a).map fun engine => { s with engine := engine }

/-- What the threads do. The results are those of `classify`. -/
def Own (classify : Bytes → InferenceResult) (s : InspectingServer) : Act → Prop
  | .event _ | .submit => True
  | .engine a => s.engine.Own classify a

instance (classify : Bytes → InferenceResult) (s : InspectingServer) :
    (a : Act) → Decidable (s.Own classify a)
  | .event _ | .submit => inferInstanceAs (Decidable True)
  | .engine a => inferInstanceAs (Decidable (s.engine.Own classify a))

/-- What the threads still do when the loop takes no more events. -/
def Act.finishing : Act → Bool
  | .event _ => false
  | .submit => true
  | .engine a => a.internal

/-- How many steps the threads can still take when the loop takes no more events. -/
def effort (s : InspectingServer) : Nat :=
  19 * (s.inspections.length - s.engine.calls.length) + s.engine.effort

/-- The calls so far, as the engine knows them. -/
def items (s : InspectingServer) : List WorkItem :=
  (s.inspections.take s.engine.calls.length).mapIdx Inspection.item

/-- The calls are those that the sessions have reported, and the engine has one client. -/
structure Feeds (classify : Bytes → InferenceResult) (s : InspectingServer) : Prop where
  heard : Heard s.server s.inspections
  made : s.engine.calls.length ≤ s.inspections.length
  client : s.engine.Client classify s.items

end InspectingServer

theorem reports_suffix {log log' : List Note} (h : log <:+ log') :
    reports log <+: reports log' := by
  obtain ⟨notes, rfl⟩ := h
  unfold reports
  rw [List.reverse_append, List.filterMap_append]
  exact List.prefix_append _ _

/-- An event adds to the log, and the inspector of the session has heard all of it. -/
theorem heard_event (w : World) {session session' : Session} {e : SessionEvent}
    (h : session.payloadInspector_ = true ∧ Overheard session)
    (hstep : sessionStep w (.ok session) e = .ok session') :
    (session'.payloadInspector_ = true ∧ Overheard session') ∧ session.log <:+ session'.log := by
  have hcomes := sessionStep_comes w session e
  rw [hstep] at hcomes
  exact ⟨hcomes.ends (fun _ a hs => overhears_perform w hs a) h,
    (hcomes.ends (fun s' a hs => SteadyEnd.trans hs (effect_steadily (perform_effect w s' a)))
      (Steady.refl w session)).log⟩

theorem reportsOf_append (index : Nat) (first rest : List Inspection) :
    reportsOf index (first ++ rest) = reportsOf index first ++ reportsOf index rest := by
  rw [reportsOf, List.filter_append, List.map_append]
  rfl

theorem reportsOf_own (index : Nat) (calls : List (Bytes × Bytes)) :
    reportsOf index (calls.map fun r => ⟨index, r.1, r.2⟩) = calls := by
  unfold reportsOf
  have hall : ∀ i ∈ calls.map fun r => (⟨index, r.1, r.2⟩ : Inspection), i.session = index := by
    intro i hi
    obtain ⟨r, -, rfl⟩ := List.mem_map.mp hi
    rfl
  rw [List.filter_eq_self.mpr (by simpa using hall), List.map_map]
  exact List.map_id _

theorem reportsOf_none {index : Nat} {inspections : List Inspection}
    (h : ∀ i ∈ inspections, i.session ≠ index) : reportsOf index inspections = [] := by
  unfold reportsOf
  rw [List.filter_eq_nil_iff.mpr (by simpa using h)]
  rfl

theorem heard_onLoop {session : Session} (loop : KqueueLoop)
    (h : session.payloadInspector_ = true ∧ Overheard session) :
    ({ session with loop_ := loop } : Session).payloadInspector_ = true ∧
      Overheard { session with loop_ := loop } :=
  ⟨h.1, h.2.proper, h.2.body, h.2.target, h.2.reported⟩

theorem startOn_heard (loop : KqueueLoop) (fd : Fd) (certGen payloadInspector : Bool) :
    Overheard (Session.startOn loop fd certGen payloadInspector) :=
  ⟨Buffer.proper_empty, rfl, rfl, .start⟩

section Hearing

variable {w : Nat → World} {server server' : SharedServer} {inspections : List Inspection}

theorem Heard.accept (h : Heard server inspections) (client : Fd) :
    Heard (server.onNewConnection client) inspections := by
  have hobjects : (server.onNewConnection client).objects = server.objects ++
      [Session.startOn server.loop_ client server.certGen_ server.payloadInspector_] := rfl
  refine ⟨h.inspector, fun session hmem => ?_, fun i hi => ?_, fun index session hindex => ?_⟩
  · rw [hobjects] at hmem
    rcases List.mem_append.mp hmem with hold | hnew
    · exact h.heard session hold
    · rw [List.mem_singleton.mp hnew]
      exact ⟨h.inspector, startOn_heard _ _ _ _⟩
  · rw [hobjects, List.length_append]
    exact Nat.lt_add_right _ (h.known i hi)
  · rw [hobjects] at hindex
    by_cases hlt : index < server.objects.length
    · rw [List.getElem?_append_left hlt] at hindex
      exact h.reported index session hindex
    · -- the log of the new session is empty
      have hlast : index = server.objects.length := by
        have hle := (List.getElem?_eq_some_iff.mp hindex).1
        rw [List.length_append, List.length_singleton] at hle
        omega
      subst hlast
      rw [List.getElem?_concat_length] at hindex
      cases hindex
      exact reportsOf_none fun i hi => Nat.ne_of_lt (h.known i hi)

/-- The new reports of a session come behind the others. -/
theorem Heard.session (h : Heard server inspections) {index : Nat} {session session' : Session}
    {e : SessionEvent} {loop : KqueueLoop} (hi : server.objects[index]? = some session)
    (hstep : sessionStep (w index) (.ok { session with loop_ := server.loop_ }) e = .ok session')
    (hserver : server' = { server with
      objects := server.objects.set index session', loop_ := loop }) :
    Heard server' (inspections ++ fresh server.objects server'.objects (.session index e)) := by
  subst hserver
  have hlt := (List.getElem?_eq_some_iff.mp hi).1
  obtain ⟨hheard, hlog⟩ := heard_event (w index)
    (heard_onLoop server.loop_ (h.heard session (List.mem_of_getElem? hi))) hstep
  obtain ⟨new, hnew⟩ := reports_suffix hlog
  have hfresh : fresh server.objects (server.objects.set index session') (.session index e) =
      new.map fun r => ⟨index, r.1, r.2⟩ := by
    simp only [fresh, hi, List.getElem?_set_self hlt]
    rw [← hnew, List.drop_left]
  dsimp only
  rw [hfresh]
  refine ⟨h.inspector, fun other hmem => ?_, fun i hmem => ?_, fun j other hj => ?_⟩
  · rcases List.mem_or_eq_of_mem_set hmem with hold | rfl
    · exact h.heard other hold
    · exact hheard
  · rw [List.length_set]
    rcases List.mem_append.mp hmem with hold | hnew
    · exact h.known i hold
    · obtain ⟨r, -, rfl⟩ := List.mem_map.mp hnew
      exact hlt
  · rw [reportsOf_append]
    by_cases hindex : j = index
    · subst hindex
      rw [List.getElem?_set_self hlt] at hj
      cases hj
      rw [reportsOf_own, h.reported j session hi]
      exact hnew
    · rw [List.getElem?_set_ne fun heq => hindex heq.symm] at hj
      rw [h.reported j other hj, reportsOf_none, List.append_nil]
      intro i hmem
      obtain ⟨r, -, rfl⟩ := List.mem_map.mp hmem
      exact fun heq => hindex heq.symm

theorem Heard.step (h : Heard server inspections) {e : ServerEvent}
    (hstep : server.step w e = .ok server') :
    Heard server' (inspections ++ fresh server.objects server'.objects e) := by
  cases e with
  | accept client =>
    cases hstep
    rw [fresh, List.append_nil]
    exact h.accept client
  | session index event =>
    unfold SharedServer.step at hstep
    dsimp only at hstep
    cases hi : server.objects[index]? with
    | none =>
      rw [hi] at hstep
      cases hstep
      rw [fresh, hi, List.append_nil]
      exact h
    | some session =>
      rw [hi] at hstep
      dsimp only at hstep
      cases hevent : sessionStep (w index) (.ok { session with loop_ := server.loop_ }) event with
      | error crash =>
        rw [hevent] at hstep
        cases hstep
      | ok session' =>
        rw [hevent] at hstep
        cases hstep
        exact h.session hi hevent rfl

end Hearing

theorem mapIdx_extends {α β : Type} (f : Nat → α → β) {l l' : List α} (h : l <+: l') :
    l.mapIdx f <+: l'.mapIdx f := by
  obtain ⟨rest, rfl⟩ := h
  rw [List.mapIdx_append]
  exact List.prefix_append _ _

namespace InspectingServer

variable {classify : Bytes → InferenceResult} {w : Nat → World} {s s' : InspectingServer}

theorem feeds_empty : Feeds classify {} where
  heard := ⟨rfl, by simp, by simp, by simp⟩
  made := Nat.le_refl _
  client := Engine.client_empty

/-- The calls that the engine knows do not change when there are more. -/
theorem items_append (h : s.engine.calls.length ≤ s.inspections.length)
    (server : SharedServer) (more : List Inspection) :
    items { s with server := server, inspections := s.inspections ++ more } = s.items := by
  unfold items
  rw [List.take_append_of_le_length h]

theorem Feeds.event (h : Feeds classify s) {e : ServerEvent} (hstep : s.event w e = some s') :
    Feeds classify s' := by
  unfold InspectingServer.event at hstep
  split at hstep
  · split at hstep
    · cases hstep
    · next server hserver =>
      cases hstep
      refine ⟨h.heard.step hserver, ?_, ?_⟩
      · rw [List.length_append]
        exact Nat.le_add_right_of_le h.made
      · rw [items_append h.made]
        exact h.client
  · cases hstep

theorem submit_cases (hstep : s.submit = some s') :
    ∃ i, s.inspections[s.engine.calls.length]? = some i ∧
      (∀ c ∈ s.engine.calls, c = .returned) ∧
      s' = { s with engine := { s.engine with
        calls := s.engine.calls ++ [.submit (i.item s.engine.calls.length)] } } := by
  unfold InspectingServer.submit at hstep
  split at hstep
  · next hrest =>
    obtain ⟨i, hi, hstep⟩ := Option.bind_eq_some_iff.mp hstep
    exact ⟨i, hi, hrest, (Option.some.inj hstep).symm⟩
  · cases hstep

theorem Feeds.submit (h : Feeds classify s) (hstep : s.submit = some s') :
    Feeds classify s' := by
  obtain ⟨i, hi, hrest, rfl⟩ := submit_cases hstep
  refine ⟨h.heard, ?_, ?_⟩
  · rw [List.length_append, List.length_singleton]
    exact (List.getElem?_eq_some_iff.mp hi).1
  · have hitems : items { s with engine := { s.engine with
        calls := s.engine.calls ++ [.submit (i.item s.engine.calls.length)] } } =
        s.items ++ [i.item s.engine.calls.length] := by
      simp [items, List.take_add_one, hi, List.mapIdx_append, Nat.min_eq_left h.made]
    rw [hitems]
    exact h.client.enters hrest _

/-- A call that begins is worth less than a call that is still to be made. -/
theorem effort_submit (hstep : s.submit = some s') : s'.effort < s.effort := by
  obtain ⟨i, hi, -, rfl⟩ := submit_cases hstep
  have hlt := (List.getElem?_eq_some_iff.mp hi).1
  simp only [effort, Engine.effort, List.map_append, List.sum_append, List.length_append,
    List.length_singleton, List.map_cons, List.map_nil, List.sum_singleton, Call.rank]
  omega

theorem Feeds.engine (h : Feeds classify s) {a : Seer.Action} (hown : s.engine.Own classify a)
    {engine : Engine} (hstep : s.engine.step a = some engine) :
    Feeds classify { s with engine := engine } := by
  have hclient := h.client.step hown hstep
  have hlength : engine.calls.length = s.engine.calls.length :=
    hclient.calls.trans h.client.calls.symm
  refine ⟨h.heard, ?_, ?_⟩
  · dsimp only
    rw [hlength]
    exact h.made
  · unfold items
    dsimp only
    rw [hlength]
    exact hclient

theorem Feeds.step (h : Feeds classify s) {a : Act} (hown : s.Own classify a)
    (hstep : s.step w a = some s') : Feeds classify s' := by
  cases a with
  | event e => exact h.event hstep
  | submit => exact h.submit hstep
  | engine a =>
    obtain ⟨engine, hengine, rfl⟩ := Option.map_eq_some_iff.mp hstep
    exact h.engine hown hengine

/-- Where the loop takes no more events, there are no more calls, and less is left. -/
theorem Feeds.finishes (h : Feeds classify s) {a : Act} (hfinishing : a.finishing = true)
    (hown : s.Own classify a) (hstep : s.step w a = some s') :
    s'.inspections = s.inspections ∧ s'.effort < s.effort := by
  cases a with
  | event e => cases hfinishing
  | submit =>
    obtain ⟨i, -, -, hs'⟩ := submit_cases hstep
    exact ⟨by rw [hs'], effort_submit hstep⟩
  | engine a =>
    obtain ⟨engine, hengine, rfl⟩ := Option.map_eq_some_iff.mp hstep
    have hless := Engine.effort_step h.client.sound.orderly hfinishing
      (Engine.step_moves hengine)
    have hlength : engine.calls.length = s.engine.calls.length :=
      (h.client.step hown hengine).calls.trans h.client.calls.symm
    refine ⟨rfl, ?_⟩
    unfold effort
    dsimp only
    rw [hlength]
    exact Nat.add_lt_add_left hless _

/-- The items of the calls are answered with the results for their payloads. -/
theorem items_answer (s : InspectingServer) :
    s.items.filterMap (WorkItem.answer classify) =
      (s.inspections.take s.engine.calls.length).mapIdx (Inspection.answer classify) := by
  rw [items, List.mapIdx_eq_zipIdx_map, List.filterMap_map, List.mapIdx_eq_zipIdx_map]
  exact congrFun List.filterMap_eq_map _

theorem Feeds.called (h : Feeds classify s) :
    s.engine.called.map (fun r => (r.1, r.2.untimed)) <+:
      s.inspections.mapIdx (Inspection.answer classify) := by
  have hcalled := h.client.called
  rw [items_answer] at hcalled
  exact hcalled.trans (mapIdx_extends _ (List.take_prefix _ _))

/-- Threads that cannot go on have called back for every call of the inspector. -/
theorem Feeds.rests (h : Feeds classify s)
    (hstuck : ∀ a : Act, a.finishing = true → s.Own classify a → s.step w a = none) :
    s.Idle ∧ s.engine.called.map (fun r => (r.1, r.2.untimed)) =
      s.inspections.mapIdx (Inspection.answer classify) := by
  obtain ⟨hreturned, hanswers⟩ := h.client.rests fun a ha hown => by
    simpa [InspectingServer.step] using hstuck (.engine a) ha hown
  have hmade : s.engine.calls.length = s.inspections.length := by
    by_contra hne
    have hlt : s.engine.calls.length < s.inspections.length := Nat.lt_of_le_of_ne h.made hne
    have hnone := hstuck .submit rfl trivial
    simp [InspectingServer.step, InspectingServer.submit, if_pos hreturned, hlt,
      Engine.step, Engine.enter] at hnone
  rw [items_answer, hmade, List.take_length] at hanswers
  exact ⟨⟨hmade, hreturned⟩, hanswers⟩

/-- In every run of the server and its engine, the calls of the inspector are those that
the sessions report, each session's in its order. The callbacks are called in the order of
the calls, none of them twice, each with the result for the payload of its own call. When
the loop takes no more events, the threads come to rest after a number of steps that does
not depend on their order, and every call has its callback then. -/
theorem inspections_answered (w : Nat → World) (classify : Bytes → InferenceResult)
    (acts : List Act) (s : InspectingServer) (hown : Along (step w) (Own classify) {} acts)
    (hrun : run (step w) {} acts = some s) :
    (∀ (index : Nat) session, s.server.objects[index]? = some session →
      Reported session.log ∧ reportsOf index s.inspections = reports session.log) ∧
      s.engine.called.map (fun r => (r.1, r.2.untimed)) <+:
        s.inspections.mapIdx (Inspection.answer classify) ∧
      ∀ more t, Along (step w) (fun s a => a.finishing = true ∧ s.Own classify a) s more →
        run (step w) s more = some t →
        more.length ≤ s.effort ∧
        ((∀ a : Act, a.finishing = true → t.Own classify a → t.step w a = none) →
          t.Idle ∧ t.engine.called.map (fun r => (r.1, r.2.untimed)) =
            s.inspections.mapIdx (Inspection.answer classify)) := by
  have hfeeds : Feeds classify s :=
    run_invariant (Feeds classify) (fun _ _ _ h ha hs => h.step ha hs) feeds_empty hown hrun
  refine ⟨fun index session hi => ⟨?_, hfeeds.heard.reported index session hi⟩, hfeeds.called,
    fun more t hfinishing hmore => ⟨?_, fun hstuck => ?_⟩⟩
  · exact (hfeeds.heard.heard session (List.mem_of_getElem? hi)).2.reported
  · refine run_length_le (Feeds classify) effort ?_ hfeeds hfinishing hmore
    exact fun s a s' h ha hs => ⟨h.step ha.2 hs, (h.finishes ha.1 ha.2 hs).2⟩
  · have hend : Feeds classify t ∧ t.inspections = s.inspections := by
      refine run_invariant (fun t => Feeds classify t ∧ t.inspections = s.inspections) ?_
        ⟨hfeeds, rfl⟩ hfinishing hmore
      exact fun t a t' h ha hs =>
        ⟨h.1.step ha.2 hs, (h.1.finishes ha.1 ha.2 hs).1.trans h.2⟩
    rw [← hend.2]
    exact hend.1.rests hstuck

/-- Session `i` gets the descriptor `10 + i` for its upstream. -/
def answeringWorld (i : Nat) : World := { promptWorld with createSocket := fun _ => some (10 + i) }

/-- A text is all of small letters. -/
def letters (payload : Bytes) : InferenceResult where
  label := if payload.all fun b => 97 ≤ b ∧ b ≤ 122 then text "txt" else text "unknown"
  confidence := 0x3F800000
  modelName := text "magika"
  inferenceTime := 0

def getAnswer (fd : Fd) (body : Bytes) : ServerEvent :=
  .session (fd - 10).toNat
    (received fd (text "HTTP/1.1 200 OK\r\nContent-Length: 1\r\n\r\n" ++ body)
      (responseEvents [text "OK"] [.oneByte]
        { status_code := 200, content_length := 1 } ++ [.body body, .messageComplete]))

/-- Two sessions report what they are answered. The second report comes while the worker
has the first one, and the first callback is called while the second call goes on. -/
def twoReports : List Act :=
  [.event (.accept 3), .event (.accept 4), .event (.session 0 (getRequest 3 (text "/a"))),
    .event (.session 1 (getRequest 4 (text "/b"))), .event (getAnswer 11 (text "b")), .submit,
    .engine (.call 0), .engine (.call 0), .engine (.call 0), .engine (.notifyOne 0 none),
    .engine (.work 0), .engine (.work 0), .event (getAnswer 10 (text "?")), .submit,
    .engine (.call 1), .engine (.work 0), .engine (.classified 0 (letters (text "b")) 5),
    .engine (.call 1)]

theorem inspections_answered_two : ∃ s, run (step answeringWorld) {} twoReports = some s ∧
    (∀ (index : Nat) session, s.server.objects[index]? = some session →
      Reported session.log ∧ reportsOf index s.inspections = reports session.log) ∧
      s.engine.called.map (fun r => (r.1, r.2.untimed)) <+:
        s.inspections.mapIdx (Inspection.answer letters) ∧
      ∀ more t, Along (step answeringWorld)
          (fun s a => a.finishing = true ∧ s.Own letters a) s more →
        run (step answeringWorld) s more = some t →
        more.length ≤ s.effort ∧
        ((∀ a : Act, a.finishing = true → t.Own letters a → t.step answeringWorld a = none) →
          t.Idle ∧ t.engine.called.map (fun r => (r.1, r.2.untimed)) =
            s.inspections.mapIdx (Inspection.answer letters)) := by
  obtain ⟨s, hs⟩ : ∃ s, run (step answeringWorld) {} twoReports = some s :=
    Option.isSome_iff_exists.mp (by decide +kernel)
  exact ⟨s, hs, inspections_answered answeringWorld letters twoReports s (by decide +kernel) hs⟩

end InspectingServer

end DeepSeer
