import DeepSeer.InspectedTargets

/-!
What the session collects of a body against the body itself. The collected data is
the first part of the body of the current response, cut at the cap, all along a run
exactly where no piece takes it across the cap and no response begins while there is
data of one that has not ended.
-/
namespace DeepSeer

open ByteMemory ByteText FallibleRuns Runs Session

/-- The decoded body of the current response when one more callback comes. -/
def dataPiece (data : Bytes) : ParserEvent → Bytes
  | .messageBegin | .messageComplete => []
  | .body piece => data ++ piece
  | _ => data

/-- The decoded body of the current response. -/
def responseData (events : List ParserEvent) : Bytes := events.foldl dataPiece []

/-- A piece that comes below the cap ends there too, and a response begins when that
before has ended or has had no body. -/
def Fitting (data : Bytes) : ParserEvent → Prop
  | .messageBegin => data = []
  | .body piece =>
    data.length < kMaxInspectBytes → (data ++ piece).length ≤ kMaxInspectBytes
  | _ => True

/-- All callbacks are fitting. -/
def AllFitting (events : List ParserEvent) : Prop := Along dataPiece Fitting [] events

/-- One callback in what is collected and in the body. -/
def bothPieces (s : Bytes × Bytes) (ev : ParserEvent) : Bytes × Bytes :=
  (collectPiece s.1 ev, dataPiece s.2 ev)

theorem run_bothPieces (events : List ParserEvent) :
    run bothPieces ([], []) events = (collected events, responseData events) := by
  have hrun : ∀ s : Bytes × Bytes,
      run bothPieces s events = (events.foldl collectPiece s.1, events.foldl dataPiece s.2) := by
    induction events with
    | nil => exact fun _ => rfl
    | cons ev rest ih => exact fun s => ih (bothPieces s ev)
  exact hrun ([], [])

/-- The collected data is the body up to the cap. -/
def Prefixed (s : Bytes × Bytes) : Prop := s.1 = s.2.take kMaxInspectBytes

theorem Prefixed.step {s : Bytes × Bytes} {ev : ParserEvent} (h : Prefixed s)
    (hfit : Fitting s.2 ev) : Prefixed (bothPieces s ev) := by
  obtain ⟨kept, data⟩ := s
  obtain rfl : kept = data.take kMaxInspectBytes := h
  cases ev with
  | messageBegin =>
    obtain rfl : data = [] := hfit
    rfl
  | messageComplete => exact List.take_nil.symm
  | body piece =>
    change collectPiece (data.take kMaxInspectBytes) (.body piece) =
      (data ++ piece).take kMaxInspectBytes
    rw [collectPiece, List.length_take]
    by_cases hroom : data.length < kMaxInspectBytes
    · rw [if_pos (by omega), List.take_of_length_le hroom.le, List.take_of_length_le (hfit hroom)]
    · rw [if_neg (by omega), List.take_append_of_le_length (not_lt.mp hroom)]
  | _ => rfl

/-- Any other callback takes the collected data off the body. -/
theorem Prefixed.breaks {s : Bytes × Bytes} {ev : ParserEvent} (h : Prefixed s)
    (hfit : ¬ Fitting s.2 ev) : ¬ Prefixed (bothPieces s ev) := by
  obtain ⟨kept, data⟩ := s
  obtain rfl : kept = data.take kMaxInspectBytes := h
  intro hnext
  cases ev with
  | messageBegin =>
    have hnil : data.take kMaxInspectBytes = [] := hnext.trans List.take_nil
    rcases List.take_eq_nil_iff.mp hnil with hzero | hdata
    · exact absurd hzero (by decide)
    · exact hfit hdata
  | body piece =>
    have hcross : data.length < kMaxInspectBytes ∧ ¬ (data ++ piece).length ≤ kMaxInspectBytes :=
      Classical.not_imp.mp hfit
    have hall : data ++ piece = (data ++ piece).take kMaxInspectBytes := by
      have hcollect : collectPiece (data.take kMaxInspectBytes) (.body piece) = data ++ piece := by
        rw [List.take_of_length_le hcross.1.le, collectPiece, if_pos hcross.1]
      exact hcollect.symm.trans hnext
    have hlength := congrArg List.length hall
    rw [List.length_take] at hlength
    omega
  | _ => exact hfit trivial

/-- What is collected is the body up to the cap after every callback of a list exactly
where all of them are fitting. -/
theorem collected_prefix_iff (events : List ParserEvent) :
    (∀ k, collected (events.take k) = (responseData (events.take k)).take kMaxInspectBytes) ↔
      AllFitting events := by
  have hstep : ∀ s ev, Prefixed s → Fitting s.2 ev → Prefixed (bothPieces s ev) :=
    fun _ _ => Prefixed.step
  have hbreak : ∀ s ev, Prefixed s → ¬ Fitting s.2 ev → ¬ Prefixed (bothPieces s ev) :=
    fun _ _ => Prefixed.breaks
  have hstart : Prefixed ([], []) := List.take_nil.symm
  have hall := always_iff (fun _ => id) hstep hbreak hstart events
  simp only [run_bothPieces] at hall
  exact hall.trans (along_map Prod.snd (fun _ _ => rfl) ([], []) events)

namespace Session

theorem aside_callback {n : Note} (h : aside n = true) : n.callback = none := by
  cases n <;> first | rfl | exact absurd h (by simp [aside])

/-- At most one callback of the upstream parser lies between the two states, and the
inspector is the same. -/
structure HearsOne (s s' : Session) : Prop where
  inspector : s'.payloadInspector_ = s.payloadInspector_
  callbacks : callbacks s'.log = callbacks s.log ∨
    ∃ ev, DeepSeer.callbacks s'.log = DeepSeer.callbacks s.log ++ [ev]

theorem Unheard.callbacks {s s' : Session} (h : Unheard s s') :
    DeepSeer.callbacks s'.log = DeepSeer.callbacks s.log := by
  obtain ⟨notes, hl, hn⟩ := h.log
  rw [hl, callbacks_unheard hn]

theorem Loose.callbacks {w : World} {D : Side → Prop} {s s' : Session} (h : Loose w D s s') :
    DeepSeer.callbacks s'.log = DeepSeer.callbacks s.log := by
  obtain ⟨notes, hn, hl, -⟩ := h.log
  rw [hl, callbacks_others fun n hmem => aside_callback (List.all_eq_true.mp hn n hmem)]

/-- A callback of the upstream parser that does not throw is noted. -/
theorem upstreamEvent_callback (w : World) (s : Session) (ev : ParserEvent) :
    Ends (s.upstreamEvent w ev)
      (fun s' => s'.payloadInspector_ = s.payloadInspector_ ∧
        callbacks s'.log = callbacks s.log ++ [ev]) fun _ => True := by
  have hnote : ∀ s₁ : Session, callbacks (s₁.note (.upstreamParsed ev)).log =
      callbacks s₁.log ++ [ev] := fun s₁ => callbacks_cons _ _
  rcases upstreamEvent_cases w s ev with ⟨-, he⟩ | ⟨codec, resp, -, he⟩ | ⟨piece, rfl, he⟩ |
    ⟨rfl, he⟩ | ⟨codec, calls, -, -, -, -, he⟩ <;> rw [he]
  · trivial
  · have hsame := unheard_onResponse w
      ({ s with upstreamCodec_ := codec }.note (.upstreamParsed ev)) resp
    exact ⟨hsame.inspector, hsame.callbacks.trans (hnote _)⟩
  · have hquiet : Quiet w anySide (s.note (.upstreamParsed (.body piece))) _ :=
      quiet_onResponseBody (toClient_any _) (pieceBuffer piece).1
    exact ⟨hquiet.toLoose.inspector, hquiet.toLoose.callbacks.trans (hnote s)⟩
  · have hquiet : Quiet w anySide (s.note (.upstreamParsed .messageComplete)) _ :=
      (quiet_onResponseBody (toClient_any _) Buffer.proper_empty).trans
        (quiet_onResponseComplete (D := anySide) trivial _)
    exact ⟨hquiet.toLoose.inspector, hquiet.toLoose.callbacks.trans (hnote s)⟩
  · exact ⟨rfl, hnote _⟩

theorem perform_hearsOne (w : World) (s : Session) (a : Act) :
    Ends (s.perform w a) (HearsOne s) fun _ => True := by
  by_cases ha : ∃ ev, a = .upstreamEvent ev
  · obtain ⟨ev, rfl⟩ := ha
    simp only [perform]
    split
    · exact (upstreamEvent_callback w s ev).mono (fun _ h => ⟨h.1, .inr ⟨ev, h.2⟩⟩) fun _ => id
    · exact ⟨rfl, .inl rfl⟩
  · exact Ends.mono (unheard_perform w s fun ev heq => ha ⟨ev, heq⟩)
      (fun _ h => ⟨h.inspector, .inl h.callbacks⟩) fun _ => id

theorem callbacks_grow (w : World) : Grows (perform w) fun s => callbacks s.log :=
  fun s a => (perform_hearsOne w s a).mono (fun _ h => h.callbacks) fun _ => id

/-- A session with an inspector that has heard what it is to hear. -/
theorem overhears_perform (w : World) {s : Session}
    (h : s.payloadInspector_ = true ∧ Overheard s) (a : Act) :
    Ends (s.perform w a) (fun s' => s'.payloadInspector_ = true ∧ Overheard s') fun _ => True := by
  have hattended : Attended s := fun _ => h.2
  refine ((perform_hearsOne w s a).and (hattended.perform w a)).mono (fun s' h' => ?_)
    fun _ _ => trivial
  have hi : s'.payloadInspector_ = true := h'.1.inspector.trans h.1
  exact ⟨hi, h'.2 hi⟩

theorem overhears_run (w : World) {s s' : Session} {acts : List Act}
    (h : s.payloadInspector_ = true ∧ Overheard s) (hr : acts.foldlM (perform w) s = .ok s') :
    s'.payloadInspector_ = true ∧ Overheard s' := by
  have hrun := Ends.foldlM (fun _ a hs => overhears_perform w hs a) acts h
  rwa [hr] at hrun

end Session

/-- In every run of a session with an inspector, what it has collected is at all times
the body of the current response up to the cap exactly where no piece takes it across
the cap and no response begins while there is data of one that has not ended. -/
theorem collected_prefix_always_iff {w : World} {fd : Fd} {certGen : Bool} {acts : List Act}
    {s : Session} (h : acts.foldlM (perform w) (start fd certGen true) = .ok s) :
    (∀ k s', (acts.take k).foldlM (perform w) (start fd certGen true) = .ok s' →
      s'.responseBody_.linearize = (responseData (callbacks s'.log)).take kMaxInspectBytes) ↔
      AllFitting (callbacks s.log) := by
  rw [← collected_prefix_iff]
  refine (callbacks_grow w).always_iff
    (Q := fun events => collected events = (responseData events).take kMaxInspectBytes) h rfl
    fun k t ht => ?_
  have hstart := start_attended fd certGen true rfl
  rw [(overhears_run w ⟨rfl, hstart⟩ ht).2.body]

/-- A request and its answer, callback by callback. -/
def exchangeActs : List Act :=
  (getOf (text "/")).map .clientEvent ++ lengthAnswer.cut.answer.map .upstreamEvent

def exchangeEnd : Outcome := exchangeActs.foldlM (perform promptWorld) (start 7 false true)

theorem collected_prefix_exchange :
    (∀ k s', (exchangeActs.take k).foldlM (perform promptWorld) (start 7 false true) = .ok s' →
      s'.responseBody_.linearize = (responseData (callbacks s'.log)).take kMaxInspectBytes) ↔
      AllFitting (callbacks exchangeEnd.session.log) :=
  collected_prefix_always_iff (ok_session (r := exchangeEnd) (by decide +kernel))

/-- Pieces of a body, each of which comes below the cap, are collected whole. -/
theorem collect_pieces {piece : Bytes} (n : Nat) {kept : Bytes}
    (h : kept.length + n * piece.length < kMaxInspectBytes + piece.length) :
    ((List.replicate n (.body piece)).foldl collectPiece kept).length =
      kept.length + n * piece.length := by
  induction n generalizing kept with
  | zero => simp
  | succ n ih =>
    rw [Nat.succ_mul] at h ⊢
    have hroom : kept.length < kMaxInspectBytes := by omega
    rw [List.replicate_succ, List.foldl_cons, collectPiece, if_pos hroom, ih, List.length_append]
    · omega
    · rw [List.length_append]
      omega

/-- A session takes any number of pieces of a body one after another. -/
theorem Session.take_pieces (w : World) (piece : Bytes) (n : Nat) {s : Session}
    (h : s.hears = true) :
    ∃ s', (List.replicate n (Act.upstreamEvent (.body piece))).foldlM (perform w) s = .ok s' ∧
      callbacks s'.log = callbacks s.log ++ List.replicate n (.body piece) := by
  induction n generalizing s with
  | zero => exact ⟨s, rfl, (List.append_nil _).symm⟩
  | succ n ih =>
    have hears := upstreamEvent_hears w h (.body piece)
    have hnoted := upstreamEvent_callback w s (.body piece)
    have hperform : s.perform w (.upstreamEvent (.body piece)) =
        s.upstreamEvent w (.body piece) := by
      simp only [perform, h, if_true]
    cases hstep : s.upstreamEvent w (.body piece) with
    | error crash =>
      exact absurd hstep (by simp [upstreamEvent, Http1Codec.handle, upstreamEmission])
    | ok t =>
      rw [hstep] at hears hnoted
      obtain ⟨s', hrun, hlog⟩ := ih hears
      refine ⟨s', ?_, ?_⟩
      · rw [List.replicate_succ, List.foldlM_cons, hperform, hstep]
        exact hrun
      · rw [hlog, hnoted.2, List.append_assoc, List.replicate_succ]
        rfl

/-- A response that stops in its body, and then an interception on the same client
connection with an answer of its own. -/
def staleBody : List SessionEvent :=
  exchange.take 1 ++
  [received 10 (text "HTTP/1.1 200 OK\r\nContent-Length: 2\r\n\r\na")
     (responseEvents [text "OK"] [.twoBytes] { status_code := 200, content_length := 2 } ++
       [.body (text "a")]),
   connectHead, .ready 11 { fired := ⟨true, false⟩ }, decrypted 7 (getOf (text "/b")),
   decrypted 11 lengthAnswer.cut.unfinished]

/-- The head of a long response. -/
def longBody : List SessionEvent :=
  exchange.take 1 ++
  [received 10 (text "HTTP/1.1 200 OK\r\n\r\n")
     (responseEvents [text "OK"] [] { status_code := 200 })]

/-- A byte of an earlier response is collected before the body of the current one, and a
piece that comes below the cap takes what is collected far beyond it. -/
theorem collected_not_prefix :
    let s := (sessionRun waitingWorld (.ok (start 7 true true)) staleBody).session
    let long := (sessionRun promptWorld (.ok (start 7 false true)) longBody).session
    s.closed_ = false ∧ s.responseBody_.linearize = text "aa" ∧
      responseData (callbacks s.log) = text "a" ∧
      ∃ s', (List.replicate 1025 (Act.upstreamEvent (.body (List.replicate 16383 97)))).foldlM
          (perform promptWorld) long = .ok s' ∧
        s'.responseBody_.linearize.length = 16792575 ∧ kMaxInspectBytes < 16792575 := by
  have hlong : Reachable promptWorld
      (sessionRun promptWorld (.ok (start 7 false true)) longBody).session :=
    reachable_session (by decide +kernel)
  obtain ⟨s', hrun, hlog⟩ := Session.take_pieces promptWorld (List.replicate 16383 97) 1025
    (s := (sessionRun promptWorld (.ok (start 7 false true)) longBody).session)
    (by decide +kernel)
  have hempty : collected (callbacks
      (sessionRun promptWorld (.ok (start 7 false true)) longBody).session.log) = [] := by
    decide +kernel
  have hheard := overhears_run promptWorld
    ⟨by decide +kernel, hlong.overheard (by decide +kernel)⟩ hrun
  refine ⟨by decide +kernel, by decide +kernel, by decide +kernel, s', hrun, ?_, by decide⟩
  rw [hheard.2.body, hlog, collected, List.foldl_append, ← collected, hempty, collect_pieces]
  · rw [List.length_replicate, List.length_nil]
  · rw [List.length_replicate, List.length_nil]
    decide

end DeepSeer
