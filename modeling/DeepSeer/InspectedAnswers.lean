import DeepSeer.HeadAnswers
import DeepSeer.Inspections

/-!
Which responses are inspected. The parser ends a response that is delimited by
the end of its connection only when it is told of that end, and nobody tells it;
every other response with a body is inspected once, whatever its framing.
-/
namespace DeepSeer

open ByteMemory ByteText HttpWire Http1Codec Session

/-- The calls of the inspector, each as the number of the callbacks before it. -/
def inspectedAfter : List Note → List Nat
  | [] => []
  | .inspected _ _ :: log => inspectedAfter log ++ [(callbacks log).length]
  | _ :: log => inspectedAfter log

/-- While the callbacks `events` behind `before` were the latest, the inspector was
called once, and that behind all body data of them. -/
def InspectedOnce (log : List Note) (before events : List ParserEvent) : Prop :=
  ∃ k, (inspectedAfter log).filter
      (fun n => before.length < n ∧ n ≤ before.length + events.length) = [before.length + k] ∧
    bodyOf (events.take k) = bodyOf events

/-- The calls of the inspector for callbacks, where `n` came before them and left
`kept` to inspect. -/
def calls (kept : Bytes) (n : Nat) : List ParserEvent → List Nat
  | [] => []
  | ev :: rest =>
    (if ev = .messageComplete ∧ kept ≠ [] then [n + 1] else []) ++
      calls (collectPiece kept ev) (n + 1) rest

theorem calls_append (first rest : List ParserEvent) (kept : Bytes) (n : Nat) :
    calls kept n (first ++ rest) =
      calls kept n first ++ calls (first.foldl collectPiece kept) (n + first.length) rest := by
  induction first generalizing kept n with
  | nil => rfl
  | cons ev first ih =>
    rw [List.cons_append, calls, ih, calls, List.append_assoc, List.foldl_cons, List.length_cons]
    congr 3
    omega

theorem calls_mem {events : List ParserEvent} {kept : Bytes} {n k : Nat}
    (h : k ∈ calls kept n events) : n < k ∧ k ≤ n + events.length := by
  induction events generalizing kept n with
  | nil => cases h
  | cons ev rest ih =>
    rw [List.length_cons]
    rcases List.mem_append.mp h with hnow | hlater
    · split at hnow
      · rw [List.mem_singleton.mp hnow]
        omega
      · cases hnow
    · have := ih hlater
      omega

/-- Callbacks of which none ends a response bring no call. -/
theorem calls_incomplete {events : List ParserEvent} (h : .messageComplete ∉ events)
    (kept : Bytes) (n : Nat) : calls kept n events = [] := by
  induction events generalizing kept n with
  | nil => rfl
  | cons ev rest ih =>
    rw [List.mem_cons, not_or] at h
    rw [calls, if_neg (fun hc => h.1 hc.1.symm), ih h.2]
    rfl

/-- What is there to inspect stays there till the end of the response. -/
theorem collect_incomplete {events : List ParserEvent} (h : .messageComplete ∉ events)
    {kept : Bytes} (hne : kept ≠ [] ∨ bodyOf events ≠ []) :
    events.foldl collectPiece kept ≠ [] := by
  induction events generalizing kept with
  | nil => exact hne.resolve_right fun hn => hn rfl
  | cons ev rest ih =>
    rw [List.mem_cons, not_or] at h
    rw [List.foldl_cons]
    apply ih h.2
    cases ev with
    | messageComplete => exact absurd rfl h.1
    | body piece =>
      have hsplit : bodyOf (.body piece :: rest) = piece ++ bodyOf rest := rfl
      rw [hsplit] at hne
      by_cases hk : kept = []
      · have hroom : kept.length < kMaxInspectBytes := by
          rw [hk]
          decide
        rw [collectPiece, if_pos hroom]
        by_cases hp : piece = []
        · exact .inr (by simpa [hk, hp] using hne)
        · exact .inl (by simp [hp])
      · refine .inl ?_
        rw [collectPiece]
        split
        · simp [hk]
        · exact hk
    | _ => exact hne

/-- The calls of an inspector that hears what it is to hear. -/
theorem reported_calls {log : List Note} (h : Reported log) :
    inspectedAfter log = calls [] 0 (callbacks log) := by
  have hparsed : ∀ (log : List Note) ev, callbacks (.upstreamParsed ev :: log) =
      callbacks log ++ [ev] := fun log ev => by
    rw [callbacks_cons]
    rfl
  have hstep : ∀ (log : List Note) ev, calls [] 0 (callbacks (.upstreamParsed ev :: log)) =
      calls [] 0 (callbacks log) ++
        if ev = .messageComplete ∧ collected (callbacks log) ≠ [] then
          [(callbacks log).length + 1] else [] := by
    intro log ev
    rw [hparsed, calls_append, Nat.zero_add, calls, calls, List.append_nil]
    rfl
  induction h with
  | start => rfl
  | @called log hne _ ih =>
    have hcallbacks : callbacks (.inspected (collected (callbacks log)) (keptTarget log) ::
        .upstreamParsed .messageComplete :: log) =
        callbacks (.upstreamParsed .messageComplete :: log) := by
      rw [callbacks_cons]
      simp [Note.callback]
    rw [hcallbacks, hstep, if_pos ⟨rfl, hne⟩, ← ih, inspectedAfter, hparsed, List.length_append]
    rfl
  | @parsed log ev hnone _ ih =>
    rw [hstep, if_neg (fun hc => hc.2 (hnone hc.1)), List.append_nil]
    exact ih
  | @other log n hn _ ih =>
    have hcallbacks : callbacks (n :: log) = callbacks log := by
      rw [callbacks_cons, unheard_callback hn]
      simp
    rw [hcallbacks, ← ih]
    cases n <;> first | rfl | exact absurd hn (by simp [Note.unheard])

namespace CutMessage

theorem bodyOf_unfinished (m : CutMessage) : bodyOf m.unfinished = m.body.flatten := by
  have hanswer := bodyOf_answer m
  rw [m.answer_concat, bodyOf_append] at hanswer
  simpa [bodyOf, ParserEvent.piece] using hanswer

end CutMessage

namespace SentAnswer

/-- Only the end of its connection ends the response. -/
def UntilClose (a : SentAnswer) : Prop := bodiless a.status = false ∧ framing a.fields = .unframed

instance (a : SentAnswer) : Decidable a.UntilClose := by
  unfold UntilClose
  infer_instance

/-- The callbacks for the whole response. A response that the end of its connection
ends is not completed by a parser that is not told of that end. -/
def parsed (a : SentAnswer) : List ParserEvent :=
  if a.UntilClose then a.cut.unfinished else a.cut.answer

end SentAnswer

/-- The calls that come while the callbacks of a response are the latest. -/
theorem calls_between (before events after : List ParserEvent) :
    (calls [] 0 (before ++ events ++ after)).filter
        (fun n => before.length < n ∧ n ≤ before.length + events.length) =
      calls (collected before) before.length events := by
  set there : Nat → Bool :=
    fun n => decide (before.length < n ∧ n ≤ before.length + events.length) with hthere
  have hnone : ∀ l : List Nat, (∀ n ∈ l, n ≤ before.length ∨
      before.length + events.length < n) → l.filter there = [] := by
    intro l hl
    rw [List.filter_eq_nil_iff]
    intro n hn
    have := hl n hn
    simp only [hthere, decide_eq_true_eq]
    omega
  have hbefore : (calls [] 0 before).filter there = [] := by
    apply hnone
    intro n hn
    have := calls_mem hn
    omega
  have hafter : (calls ((before ++ events).foldl collectPiece []) (before ++ events).length
      after).filter there = [] := by
    apply hnone
    intro n hn
    have := calls_mem hn
    rw [List.length_append] at this
    omega
  have hall : (calls (collected before) before.length events).filter there =
      calls (collected before) before.length events := by
    rw [List.filter_eq_self]
    exact fun n hn => decide_eq_true (calls_mem hn)
  rw [calls_append, calls_append, List.filter_append, List.filter_append, Nat.zero_add,
    Nat.zero_add, hbefore, hafter, List.nil_append, List.append_nil]
  exact hall

/-- In every session with an inspector, plain or intercepted, the inspector is
called exactly once for a response with a body, and that behind the body, exactly
if the response is not delimited by the end of its connection. -/
theorem inspected_once_iff {w : World} {s : Session} (h : Reachable w s)
    (hi : s.payloadInspector_ = true) {a : SentAnswer} (hbody : a.content ≠ [])
    {before after : List ParserEvent}
    (hheard : callbacks s.log = before ++ a.parsed ++ after) :
    InspectedOnce s.log before a.parsed ↔ ¬ a.UntilClose := by
  rw [InspectedOnce, reported_calls (h.overheard hi).reported, hheard, calls_between]
  by_cases hu : a.UntilClose
  · rw [SentAnswer.parsed, if_pos hu, calls_incomplete a.cut.unfinished_incomplete]
    simp [hu]
  · refine iff_of_true ⟨a.cut.answer.length, ?_, ?_⟩ hu
    · have hkept : a.cut.unfinished.foldl collectPiece (collected before) ≠ [] := by
        apply collect_incomplete a.cut.unfinished_incomplete
        rw [a.cut.bodyOf_unfinished]
        exact .inr hbody
      rw [SentAnswer.parsed, if_neg hu, a.cut.answer_concat, calls_append,
        calls_incomplete a.cut.unfinished_incomplete, List.nil_append, calls, if_pos ⟨rfl, hkept⟩,
        List.length_append]
      rfl
    · rw [SentAnswer.parsed, if_neg hu, List.take_length]

/-- The session after an intercepted request and its answer, with an inspector. -/
def overheardSession : Session :=
  (sessionRun waitingWorld (.ok (start 7 true true)) (interceptedGet lengthAnswer)).session

theorem inspected_once_intercepted :
    InspectedOnce overheardSession.log [] lengthAnswer.parsed ↔ ¬ lengthAnswer.UntilClose :=
  @inspected_once_iff _ _ (reachable_session (by decide +kernel)) (by decide +kernel)
    lengthAnswer (by decide) [] [] (by decide +kernel)

/-- A response that the end of its connection ends. -/
def closingAnswer : SentAnswer :=
  { lengthAnswer with
    lines := []
    info := { status_code := 200 }
    digits := by decide }

/-- A plain request, the response to it, and the end of the connection that it came
on. -/
def closingExchange : List SessionEvent :=
  exchange.take 1 ++
  [received 10 (text "HTTP/1.1 200 OK\r\n\r\na") closingAnswer.cut.unfinished,
   received 10 [] {}]

/-- The client is sent the whole response, and the inspector is never called. -/
theorem closing_answer_uninspected :
    let s := (sessionRun promptWorld (.ok (start 7 false true)) closingExchange).session
    callbacks s.log = closingAnswer.parsed ∧ s.closed_ = true ∧
      .closed .upstreamEnd ∈ s.log ∧
      s.clientStream = text "HTTP/1.1 200 OK\r\n\r\na" ∧
      inspectedAfter s.log = [] ∧ ¬ InspectedOnce s.log [] closingAnswer.parsed := by
  have hnone : inspectedAfter
      (sessionRun promptWorld (.ok (start 7 false true)) closingExchange).session.log = [] := by
    decide +kernel
  refine ⟨by decide +kernel, by decide +kernel, by decide +kernel, by decide +kernel, hnone, ?_⟩
  rintro ⟨k, hk, -⟩
  rw [hnone] at hk
  cases hk

end DeepSeer
