import DeepSeer.EngineQueue

/-!
The engine with one client, which submits one item after the other and does not shut the
engine down. The items are classified in the order of its calls, and each callback gets
the result for the payload of its item.
-/
namespace Seer

open ByteMemory Schedules

/-- The result but for its time. -/
def InferenceResult.untimed (result : InferenceResult) : InferenceResult :=
  { result with inferenceTime := 0 }

/-- The item of a call that has not come to the mutex yet. -/
def Call.unsent : Call → List WorkItem
  | .submit item => [item]
  | _ => []

section Answers

variable (classify : Bytes → InferenceResult)

/-- What the callback of an item is called with. -/
def WorkItem.answer (item : WorkItem) : Option (ResultCallback × InferenceResult) :=
  item.onResult.map fun onResult => (onResult, (classify item.payload).untimed)

/-- What the worker has yet to call a callback with. -/
def WorkerState.owed : WorkerState → List (ResultCallback × InferenceResult)
  | .classifying item => (item.answer classify).toList
  | _ => []

@[simp] theorem WorkerState.owed_wakeUp (ws : WorkerState) :
    (Engine.wakeUp ws).owed classify = ws.owed classify := by
  cases ws <;> rfl

end Answers

/-- What the worker classifies. -/
def WorkerState.subject : WorkerState → Option WorkItem
  | .classifying item => some item
  | _ => none

namespace Engine

variable {classify : Bytes → InferenceResult}

/-- An action of the threads that there are, with the results that `classify` has. -/
def Own (classify : Bytes → InferenceResult) (s : Engine) : Action → Prop
  | .submit _ _ | .shutdown _ => False
  | .classified w result _ =>
    ∀ item ∈ s.workers[w]?.bind WorkerState.subject, result = classify item.payload
  | .call _ | .notifyOne _ _ | .work _ | .wake _ => True

instance (classify : Bytes → InferenceResult) (s : Engine) :
    (a : Action) → Decidable (s.Own classify a)
  | .submit _ _ | .shutdown _ => inferInstanceAs (Decidable False)
  | .classified w result _ => inferInstanceAs
      (Decidable (∀ item ∈ s.workers[w]?.bind WorkerState.subject,
        result = classify item.payload))
  | .call _ | .notifyOne _ _ | .work _ | .wake _ => inferInstanceAs (Decidable True)

/-- The calls of a client for these items: it made each when the one before had returned. -/
structure Client (classify : Bytes → InferenceResult) (items : List WorkItem) (s : Engine) :
    Prop where
  sound : Sound s
  calls : s.calls.length = items.length
  serial : ∀ (k : Nat) c, s.calls[k]? = some c → c ≠ .returned → k + 1 = s.calls.length
  submits : ∀ (k : Nat) c, s.calls[k]? = some c → c.shuttingDown = false
  sent : s.submitted ++ s.calls.flatMap Call.unsent = items
  answers : s.classified.filterMap (WorkItem.answer classify) =
    s.called.map (fun r => (r.1, r.2.untimed)) ++ s.workers.flatMap (WorkerState.owed classify)

theorem client_empty : Client classify [] {} where
  sound := ⟨orderly_empty, ledger_empty⟩
  calls := rfl
  serial := by simp
  submits := by simp
  sent := rfl
  answers := rfl

variable {items : List WorkItem} {s s' : Engine} {a : Action}

theorem unsent_returned (h : ∀ c ∈ s.calls, c = .returned) : s.calls.flatMap Call.unsent = [] := by
  rw [List.flatMap_eq_nil_iff]
  intro c hc
  rw [h c hc]
  rfl

theorem entered_get {calls : List Call} (hrest : ∀ c ∈ calls, c = .returned) {new c : Call}
    {k : Nat} (hk : (calls ++ [new])[k]? = some c) :
    c = .returned ∨ k = calls.length ∧ c = new := by
  by_cases hlt : k < calls.length
  · rw [List.getElem?_append_left hlt] at hk
    exact .inl (hrest c (List.mem_of_getElem? hk))
  · obtain ⟨hlt', heq⟩ := List.getElem?_eq_some_iff.mp hk
    have hlast : k = calls.length := by
      rw [List.length_append, List.length_singleton] at hlt'
      omega
    subst hlast
    exact .inr ⟨rfl, by simpa using heq.symm⟩

/-- The next call of the client, when all before it have returned. -/
theorem Client.enters (h : Client classify items s) (hrest : ∀ c ∈ s.calls, c = .returned)
    (item : WorkItem) :
    Client classify (items ++ [item]) { s with calls := s.calls ++ [.submit item] } where
  sound := by
    refine sound_step (a := .submit none item) h.sound (fun c hc => ?_) rfl
    rw [hrest c hc]
    rfl
  calls := by simp [h.calls]
  serial k c hk hne := by
    rw [List.length_append, List.length_singleton, ((entered_get hrest hk).resolve_left hne).1]
  submits k c hk := by
    rcases entered_get hrest hk with rfl | ⟨-, rfl⟩ <;> rfl
  sent := by
    have hsent := h.sent
    rw [unsent_returned hrest, List.append_nil] at hsent
    simp [hsent, unsent_returned hrest, Call.unsent]
  answers := h.answers

theorem serial_step (h : Client classify items s) (hown : s.Own classify a)
    (hmove : Moves s a s') : s'.calls.length = s.calls.length ∧
      (∀ (k : Nat) c, s'.calls[k]? = some c → c ≠ .returned → k + 1 = s'.calls.length) ∧
      ∀ (k : Nat) c, s'.calls[k]? = some c → c.shuttingDown = false := by
  have hserial := h.serial
  have hsubmits := h.submits
  cases hmove with
  | enters c ha => rcases ha with ⟨item, rfl, -⟩ | ⟨rfl, -⟩ <;> exact hown.elim
  | calls w c ha hw => rcases ha with ⟨item, rfl, -⟩ | ⟨rfl, -⟩ <;> exact hown.elim
  | _ => grind

theorem sent_step (h : Client classify items s) (hown : s.Own classify a)
    (hmove : Moves s a s') : s'.submitted ++ s'.calls.flatMap Call.unsent = items := by
  have hsent := h.sent
  cases hmove with
  | enters c ha => rcases ha with ⟨item, rfl, -⟩ | ⟨rfl, -⟩ <;> exact hown.elim
  | calls w c ha hw => rcases ha with ⟨item, rfl, -⟩ | ⟨rfl, -⟩ <;> exact hown.elim
  | locksSubmit k item hk hfree =>
    have hothers : ∀ (j : Nat) c, s.calls[j]? = some c → j ≠ k → c.unsent = [] := by
      intro j c hj hne
      have hk' := h.serial k _ hk (by simp)
      by_cases hc : c = .returned
      · rw [hc]
        rfl
      · have hj' := h.serial j c hj hc
        omega
    rw [flatMap_only hk hothers] at hsent
    rw [flatMap_set_only _ hk hothers]
    simpa [Call.unsent] using hsent
  | _ => grind [flatMap_set_same, Call.unsent]

theorem answers_step (h : Client classify items s) (hown : s.Own classify a)
    (hmove : Moves s a s') : s'.classified.filterMap (WorkItem.answer classify) =
      s'.called.map (fun r => (r.1, r.2.untimed)) ++
        s'.workers.flatMap (WorkerState.owed classify) := by
  have hanswers := h.answers
  have ho := h.sound.orderly
  cases hmove with
  | classifies w item hw =>
    have hpart := ho.part (f := WorkerState.owed classify) rfl hw (by simp)
    have hset := ho.part_set (f := WorkerState.owed classify) rfl hw (by simp) (.classifying item)
    have hone : [item].filterMap (WorkItem.answer classify) = (item.answer classify).toList := by
      cases hanswer : item.answer classify <;> simp [hanswer]
    simp [hanswers, hpart, hset, hone, WorkerState.owed]
  | classifiedSilent w item result inferenceTime hw hnone =>
    have hpart := ho.part (f := WorkerState.owed classify) rfl hw (by simp)
    have hset := ho.part_set (f := WorkerState.owed classify) rfl hw (by simp) .start
    simp [hanswers, hpart, hset, hnone, WorkItem.answer, WorkerState.owed]
  | callsBack w item onResult result inferenceTime hw hsome =>
    have hpart := ho.part (f := WorkerState.owed classify) rfl hw (by simp)
    have hset := ho.part_set (f := WorkerState.owed classify) rfl hw (by simp) .callback
    have hresult : result = classify item.payload := hown item (by simp [hw, WorkerState.subject])
    simp [hanswers, hpart, hset, hsome, hresult, WorkItem.answer, WorkerState.owed,
      InferenceResult.untimed]
  | notifiesAll k hk => simp [hanswers, List.flatMap_map]
  | starts k item hk hr hw => simp [hanswers, WorkerState.owed]
  | restarts k item old hk hr hw => simp [ho.fresh k item hk hr] at hw
  | _ => grind [flatMap_set_same, WorkerState.owed]

theorem Client.step (h : Client classify items s) (hown : s.Own classify a)
    (hstep : s.step a = some s') : Client classify items s' := by
  have hmove := step_moves hstep
  obtain ⟨hlength, hserial, hsubmits⟩ := serial_step h hown hmove
  have hapart : s.Apart a := by
    cases a with
    | submit caller item => exact hown.elim
    | shutdown caller => exact hown.elim
    | _ => trivial
  exact ⟨sound_step h.sound hapart hstep, hlength.trans h.calls, hserial, hsubmits,
    sent_step h hown hmove, answers_step h hown hmove⟩

/-- The callbacks are called in the order of the items, with the results of their own. -/
theorem Client.called (h : Client classify items s) :
    s.called.map (fun r => (r.1, r.2.untimed)) <+: items.filterMap (WorkItem.answer classify) := by
  have hclassified : s.classified <+: items :=
    ⟨_, by rw [← h.sent, h.sound.ledger.order, List.append_assoc]⟩
  exact (List.prefix_append _ _).trans (h.answers ▸ hclassified.filterMap _)

/-- Threads that cannot go on have called back for every item. -/
theorem Client.rests (h : Client classify items s)
    (hstuck : ∀ a : Action, a.internal = true → s.Own classify a → s.step a = none) :
    (∀ c ∈ s.calls, c = .returned) ∧
      s.called.map (fun r => (r.1, r.2.untimed)) = items.filterMap (WorkItem.answer classify) := by
  have hstuck : Stuck s := by
    intro a ha
    cases a with
    | classified w result inferenceTime =>
      have hidle : ∀ item, s.workers[w]? ≠ some (.classifying item) := by
        intro item hw
        have hnone := hstuck (.classified w (classify item.payload) 0) rfl
          (by simp [Own, hw, WorkerState.subject])
        simp only [Engine.step, classifies, hw] at hnone
        cases hresult : item.onResult <;> simp [hresult] at hnone
      show s.classifies w result inferenceTime = none
      unfold classifies
      split
      · next item hw => exact absurd hw (hidle item)
      · rfl
    | submit caller item => cases ha
    | shutdown caller => cases ha
    | _ => exact hstuck _ ha trivial
  have hreturned : ∀ c ∈ s.calls, c = .returned := by
    intro c hc
    obtain ⟨k, hk⟩ := List.getElem?_of_mem hc
    rcases hstuck.call h.sound.orderly k c hk with rfl | ⟨w, rfl, -⟩
    · rfl
    · exact absurd (h.submits k _ hk) (by simp [Call.shuttingDown])
  have hprocessed := hstuck.processed h.sound.orderly h.sound.ledger
  have howed : s.workers.flatMap (WorkerState.owed classify) = [] := by
    apply flatMap_none
    intro w ws hw
    rcases hprocessed.idle w ws hw with rfl | rfl <;> rfl
  have hsent := h.sent
  rw [unsent_returned hreturned, List.append_nil] at hsent
  have hanswers := h.answers
  rw [howed, List.append_nil, hprocessed.classified, hsent] at hanswers
  exact ⟨hreturned, hanswers.symm⟩

end Engine
end Seer
