import DeepSeer.EngineQueue

/-!
The end of a `MagikaEngine`. Its own part, which classifies, is destroyed before
the base part waits for the worker, so what the worker still has to classify then
is classified without it.
-/
namespace Seer

open Schedules

/-- How far the destruction has come: before it, behind the derived part and its
`model_`, in the shutdown of `~Engine`, and behind the base part. -/
inductive Destruction where
  | alive
  | derivedGone
  | draining (k : Nat)
  | gone
  deriving DecidableEq

structure MagikaEngine where
  base : Engine := {}
  destruction : Destruction := .alive
  deriving DecidableEq

inductive Life where
  | engine (a : Action)
  | destroyDerived
  | destroyEngine
  | destroyBase

namespace Engine

/-- A worker is in `classify`. -/
def Classifying (s : Engine) : Prop := ∃ (w : Nat) (item : WorkItem),
  s.workers[w]? = some (.classifying item)

end Engine

/-- The call is going to put an item into the queue. -/
@[grind =] def Call.adds : Call → Bool
  | .submit _ | .ensureWorker _ | .assign _ _ _ | .push _ => true
  | .notifyOne | .shutdown | .stop | .notifyAll | .join | .joining _ | .returned => false

/-- Whether the call has yet to come to the mutex with an item. -/
@[grind =] def Call.coming : Call → Nat
  | .submit _ => 1
  | .ensureWorker _ | .assign _ _ _ | .push _ | .notifyOne | .shutdown | .stop | .notifyAll
  | .join | .joining _ | .returned => 0

/-- The worker has an item that is not classified to the end. -/
@[grind =] def WorkerState.busy : WorkerState → Bool
  | .taken _ | .classifying _ => true
  | .start | .test | .waiting | .woken | .callback | .calling _ | .finished => false

@[simp, grind =] theorem WorkerState.busy_wakeUp (ws : WorkerState) :
    (Engine.wakeUp ws).busy = ws.busy := by
  cases ws <;> rfl

namespace MagikaEngine

/-- `~Engine` calls `shutdown`. The other members are destroyed behind it. -/
def step (m : MagikaEngine) : Life → Option MagikaEngine
  | .engine a => (m.base.step a).map fun base => { m with base := base }
  | .destroyDerived =>
    if m.destruction = .alive then some { m with destruction := .derivedGone } else none
  | .destroyEngine =>
    if m.destruction = .derivedGone then
      (m.base.step (.shutdown none)).map fun base =>
        { base := base, destruction := .draining m.base.calls.length }
    else none
  | .destroyBase =>
    match m.destruction with
    | .draining k =>
      if m.base.calls[k]? = some .returned then some { m with destruction := .gone } else none
    | _ => none

/-- While a worker is in `classify`, the derived part exists. -/
def Safe (m : MagikaEngine) : Prop := m.base.Classifying → m.destruction = .alive

end MagikaEngine

namespace Engine

/-- Nothing is left to classify, and nothing comes. -/
structure Drained (s : Engine) : Prop where
  queue : s.queue_ = []
  workers : ∀ ws ∈ s.workers, ws.busy = false
  calls : ∀ c ∈ s.calls, c.adds = false

instance (s : Engine) : Decidable s.Drained :=
  decidable_of_iff (s.queue_ = [] ∧ (∀ ws ∈ s.workers, ws.busy = false) ∧
    ∀ c ∈ s.calls, c.adds = false) ⟨fun ⟨hq, hw, hc⟩ => ⟨hq, hw, hc⟩, fun h => ⟨h.1, h.2, h.3⟩⟩

/-- An engine that is drained stays so until an item is submitted. -/
theorem drained_step {s s' : Engine} {a : Action} (h : Drained s)
    (ha : ∀ caller item, a ≠ .submit caller item) (hmove : Moves s a s') : Drained s' := by
  obtain ⟨hqueue, hworkers, hcalls⟩ := h
  have hcall := fun (k : Nat) (c : Call) (hk : s.calls[k]? = some c) =>
    hcalls c (List.mem_of_getElem? hk)
  have hworker := fun (w : Nat) (ws : WorkerState) (hw : s.workers[w]? = some ws) =>
    hworkers ws (List.mem_of_getElem? hw)
  refine ⟨?_, ?_, ?_⟩
  · cases hmove <;> grind
  · intro ws hws
    obtain ⟨w, hw⟩ := List.getElem?_of_mem hws
    cases hmove <;> grind
  · intro c hc
    obtain ⟨k, hk⟩ := List.getElem?_of_mem hc
    cases hmove <;> grind

theorem Drained.not_classifying {s : Engine} (h : Drained s) : ¬ s.Classifying := by
  rintro ⟨w, item, hw⟩
  cases h.workers _ (List.mem_of_getElem? hw)

/-- An item that is classified is seen in `classify`. -/
theorem classified_step {s s' : Engine} {a : Action} (hmove : Moves s a s')
    (hnot : ¬ s'.Classifying) : s'.classified = s.classified := by
  cases hmove with
  | classifies w item hw =>
    have hlt : w < s.workers.length := (List.getElem?_eq_some_iff.mp hw).1
    exact absurd ⟨w, item, by simp [hlt]⟩ hnot
  | _ => rfl

/-- The threads bring every item to the mutex, or leave it where it is. -/
theorem submitted_step {s s' : Engine} {a : Action} (ha : a.internal = true)
    (hmove : Moves s a s') :
    s'.submitted.length + (s'.calls.map Call.coming).sum =
      s.submitted.length + (s.calls.map Call.coming).sum := by
  have hcall := fun (k : Nat) (c c' : Call) (hk : s.calls[k]? = some c) =>
    sum_set (f := Call.coming) c' hk
  cases hmove <;> grind

/-- A schedule of the threads without an item in `classify`. -/
theorem run_unclassified {s t : Engine} {more : List Action}
    (hinternal : ∀ a ∈ more, a.internal = true) (hrun : run step s more = some t)
    (hnot : ∀ first u, first <+: more → run step s first = some u → ¬ u.Classifying) :
    t.classified = s.classified ∧ t.submitted.length + (t.calls.map Call.coming).sum =
      s.submitted.length + (s.calls.map Call.coming).sum := by
  induction more generalizing s with
  | nil =>
    cases hrun
    exact ⟨rfl, rfl⟩
  | cons a more ih =>
    obtain ⟨ha, hmore⟩ := List.forall_mem_cons.mp hinternal
    obtain ⟨s', hs', hrest⟩ := run_cons hrun
    have hnow : ¬ s'.Classifying :=
      hnot [a] s' (by simp) (by simp [run, hs'])
    obtain ⟨hclassified, hsubmitted⟩ := ih hmore hrest fun first u hfirst hu =>
      hnot (a :: first) u (List.prefix_cons_inj a |>.mpr hfirst) (by simpa [run, hs'] using hu)
    exact ⟨hclassified.trans (classified_step (step_moves hs') hnow),
      hsubmitted.trans (submitted_step ha (step_moves hs'))⟩

/-- Where something is left to classify, the worker can come to it. -/
theorem classifies_undrained {s : Engine} (h : Sound s) (hd : ¬ Drained s) : ∃ more t,
    (∀ a ∈ more, a.internal = true) ∧ run step s more = some t ∧ t.Classifying := by
  by_contra hno
  have hnot : ∀ first u, (∀ a ∈ first, a.internal = true) → run step s first = some u →
      ¬ u.Classifying := fun first u hfirst hu hc => hno ⟨first, u, hfirst, hu, hc⟩
  obtain ⟨more, t, hmore, hrun, hstuck⟩ := h.comes_to_rest
  have halong : Along step (fun _ a => a.internal = true) s more := along_of_forall hmore
  have ht : Sound t := run_invariant Sound
    (fun _ _ _ h ha hs => sound_step h (apart_internal ha) hs) h halong hrun
  have hprocessed := hstuck.processed ht.orderly ht.ledger
  obtain ⟨hclassified, hsubmitted⟩ := run_unclassified hmore hrun fun first u hfirst hu =>
    hnot first u (fun a ha => hmore a (hfirst.subset ha)) hu
  have hrest : (t.calls.map Call.coming).sum = 0 := by
    apply List.sum_eq_zero_iff_forall_eq_nat.mpr
    intro n hn
    obtain ⟨c, hc, rfl⟩ := List.mem_map.mp hn
    obtain ⟨k, hk⟩ := List.getElem?_of_mem hc
    rcases hstuck.call ht.orderly k c hk with rfl | ⟨w, rfl, -⟩ <;> rfl
  have horder := congrArg List.length h.ledger.order
  rw [← hprocessed.classified, hclassified, hrest] at hsubmitted
  simp only [List.length_append] at horder
  refine hd ⟨List.eq_nil_of_length_eq_zero (by omega), ?_, ?_⟩
  · intro ws hws
    have hhand : s.workers.flatMap WorkerState.inHand = [] :=
      List.eq_nil_of_length_eq_zero (by omega)
    have hnone := List.flatMap_eq_nil_iff.mp hhand ws hws
    obtain ⟨w, hw⟩ := List.getElem?_of_mem hws
    cases ws with
    | taken item => cases hnone
    | classifying item => exact absurd ⟨w, item, hw⟩ (hnot [] s (by simp) rfl)
    | _ => rfl
  · intro c hc
    have hpushing : s.calls.flatMap Call.pushing = [] :=
      List.eq_nil_of_length_eq_zero (by omega)
    have hnone := List.flatMap_eq_nil_iff.mp hpushing c hc
    have hcoming : (s.calls.map Call.coming).sum = 0 := by omega
    have hzero := List.sum_eq_zero_iff_forall_eq_nat.mp hcoming _ (List.mem_map_of_mem hc)
    cases c with
    | submit item => cases hzero
    | ensureWorker item | assign item old new | push item => cases hnone
    | _ => rfl

end Engine

namespace MagikaEngine

/-- The derived part goes when nothing is left to classify, and no item is submitted
behind it. -/
def Ready (m : MagikaEngine) : Life → Prop
  | .destroyDerived => m.base.Drained
  | .engine (.submit _ _) => m.destruction = .alive
  | _ => True

instance (m : MagikaEngine) (a : Life) : Decidable (m.Ready a) := by
  unfold Ready
  split <;> infer_instance

/-- Behind the derived part, nothing is left to classify. -/
def Idle (m : MagikaEngine) : Prop := m.destruction ≠ .alive → m.base.Drained

theorem idle_step {m m' : MagikaEngine} {a : Life} (h : Idle m) (hready : m.Ready a)
    (hstep : m.step a = some m') : Idle m' := by
  intro hgone
  cases a with
  | engine a =>
    obtain ⟨base, hbase, rfl⟩ := Option.map_eq_some_iff.mp hstep
    refine Engine.drained_step (h hgone) ?_ (Engine.step_moves hbase)
    rintro caller item rfl
    exact hgone hready
  | destroyDerived =>
    simp only [step, Option.ite_none_right_eq_some, Option.some.injEq] at hstep
    obtain ⟨-, rfl⟩ := hstep
    exact hready
  | destroyEngine =>
    simp only [step, Option.ite_none_right_eq_some] at hstep
    obtain ⟨hderived, hshutdown⟩ := hstep
    obtain ⟨base, hbase, rfl⟩ := Option.map_eq_some_iff.mp hshutdown
    exact Engine.drained_step (h (by simp [hderived])) (by simp) (Engine.step_moves hbase)
  | destroyBase =>
    simp only [step] at hstep
    split at hstep
    · rename_i k hdraining
      simp only [Option.ite_none_right_eq_some, Option.some.injEq] at hstep
      obtain ⟨-, rfl⟩ := hstep
      exact h (by simp [hdraining])
    · cases hstep

theorem run_engine {s t : Engine} {more : List Action} (d : Destruction)
    (hrun : run Engine.step s more = some t) :
    run step { base := s, destruction := d } (more.map .engine) =
      some { base := t, destruction := d } := by
  induction more generalizing s with
  | nil =>
    cases hrun
    rfl
  | cons a more ih =>
    obtain ⟨s', hs', hrest⟩ := run_cons hrun
    simp [run, step, hs', ih hrest]

/-- `classify` runs only while the derived part exists, in every run in which this
part goes when nothing is left to classify. -/
theorem classify_alive (actions : List Life) (m : MagikaEngine)
    (hready : Along step Ready {} actions) (hrun : run step {} actions = some m) : m.Safe := by
  intro hclassifying
  have hidle : Idle m := run_invariant Idle (fun _ _ _ h ha hs => idle_step h ha hs)
    (fun h => absurd rfl h) hready hrun
  by_contra hgone
  exact (hidle hgone).not_classifying hclassifying

theorem classify_alive_shutdown : ∃ m : MagikaEngine,
    run step {} ((Engine.callbackActions.map Life.engine) ++
      [.destroyDerived, .destroyEngine, .engine (.call 3), .engine (.call 3), .destroyBase]) =
      some m ∧ m.Safe :=
  ⟨_, rfl, classify_alive ((Engine.callbackActions.map Life.engine) ++
    [.destroyDerived, .destroyEngine, .engine (.call 3), .engine (.call 3), .destroyBase]) _
    (by decide) rfl⟩

/-- Where anything is left when the derived part goes, there is an order of the steps that
brings the worker to it afterwards. -/
theorem undrained_classified_late {actions : List Action} {s : Engine}
    (hapart : Along Engine.step Engine.Apart {} actions)
    (hrun : run Engine.step {} actions = some s) (hd : ¬ s.Drained) :
    ∃ more m, run step { base := s } (.destroyDerived :: more) = some m ∧ ¬ m.Safe := by
  obtain ⟨more, t, -, hmore, hclassifying⟩ :=
    Engine.classifies_undrained (Engine.sound_run hapart hrun) hd
  refine ⟨more.map .engine, _, by simpa [run, step] using run_engine .derivedGone hmore, ?_⟩
  intro hsafe
  cases hsafe hclassifying

/-- An item that is still queued is classified by an object that is gone. -/
theorem queued_classified_late : ∃ actions m, run step {} actions = some m ∧ ¬ m.Safe := by
  refine ⟨[.engine (.submit none ⟨[], [], none⟩), .engine (.call 0), .engine (.call 0),
    .engine (.call 0), .engine (.notifyOne 0 none), .destroyDerived, .destroyEngine,
    .engine (.work 0), .engine (.work 0), .engine (.work 0)], _, rfl, ?_⟩
  intro hsafe
  cases hsafe ⟨0, ⟨[], [], none⟩, rfl⟩

end MagikaEngine

end Seer
