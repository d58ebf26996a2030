import DeepSeer.Overhearing

/-!
The calls of the payload inspector. Each comes right behind the callback for the
end of a response, with the body data that the session has collected since the
end before, if there is any, and with the target that the session keeps.
-/
namespace DeepSeer

open ByteMemory ByteText FallibleRuns Http1Codec

/-- What is collected of a body when one more callback comes. A piece is taken
whole as long as the cap is not reached. -/
def collectPiece (kept : Bytes) : ParserEvent → Bytes
  | .body piece => if kept.length < kMaxInspectBytes then kept ++ piece else kept
  | .messageComplete => []
  | _ => kept

/-- The body data that is collected since the end of the last response. -/
def collected (events : List ParserEvent) : Bytes := events.foldl collectPiece []

/-- The inspector is called right behind the end of each response of which there is
anything to inspect, and nowhere else. The latest note is first. -/
inductive Reported : List Note → Prop
  | start : Reported []
  | called {log : List Note} (some : collected (callbacks log) ≠ []) (before : Reported log) :
      Reported (.inspected (collected (callbacks log)) (keptTarget log) ::
        .upstreamParsed .messageComplete :: log)
  | parsed {log : List Note} (ev : ParserEvent)
      (none : ev = .messageComplete → collected (callbacks log) = []) (before : Reported log) :
      Reported (.upstreamParsed ev :: log)
  | other {log : List Note} {n : Note} (unheard : n.unheard = true) (before : Reported log) :
      Reported (n :: log)

theorem unheard_callback {n : Note} (h : n.unheard = true) : n.callback = none := by
  cases n <;> first | rfl | exact absurd h (by simp [Note.unheard])

/-- Notes of other things leave the callbacks. -/
theorem callbacks_others {notes : List Note} (h : ∀ n ∈ notes, n.callback = none)
    (log : List Note) : callbacks (notes ++ log) = callbacks log := by
  have hnone : notes.reverse.filterMap Note.callback = [] :=
    List.filterMap_eq_nil_iff.mpr fun n hn => h n (List.mem_reverse.mp hn)
  rw [callbacks, List.reverse_append, List.filterMap_append, hnone, List.append_nil]
  rfl

theorem callbacks_unheard {notes : List Note} (h : notes.all Note.unheard = true)
    (log : List Note) : callbacks (notes ++ log) = callbacks log :=
  callbacks_others (fun n hn => unheard_callback (List.all_eq_true.mp h n hn)) log

theorem reported_unheard {notes : List Note} (h : notes.all Note.unheard = true)
    {log : List Note} (hl : Reported log) : Reported (notes ++ log) := by
  induction notes with
  | nil => exact hl
  | cons n rest ih =>
    rw [List.all_cons, Bool.and_eq_true] at h
    exact .other h.1 (ih h.2)

namespace Session

/-- The inspector of a session has heard what it is to hear. -/
structure Overheard (s : Session) : Prop where
  proper : s.responseBody_.Proper
  body : s.responseBody_.linearize = collected (callbacks s.log)
  target : s.currentRequest_.url = keptTarget s.log
  reported : Reported s.log

theorem Overheard.unheard {s s' : Session} (h : Overheard s) (hu : Unheard s s') :
    Overheard s' := by
  obtain ⟨notes, hl, hn⟩ := hu.log
  refine ⟨by rw [hu.body]; exact h.proper, ?_, hu.target h.target, ?_⟩
  · rw [hu.body, hl, callbacks_unheard hn, h.body]
  · rw [hl]
    exact reported_unheard hn h.reported

/-- A callback that is no body data and does not end a response. -/
theorem Overheard.parsed {s : Session} (h : Overheard s) (codec : Http1Codec) {ev : ParserEvent}
    (hb : ∀ piece, ev ≠ .body piece) (hm : ev ≠ .messageComplete) :
    Overheard ({ s with upstreamCodec_ := codec }.note (.upstreamParsed ev)) := by
  have hpiece : ∀ kept, collectPiece kept ev = kept := by
    intro kept
    cases ev <;> first | rfl | exact absurd rfl (hb _) | exact absurd rfl hm
  refine ⟨h.proper, ?_, h.target, ?_⟩
  · rw [note_log, callbacks_cons]
    simp only [Note.callback, Option.toList, collected, List.foldl_append, List.foldl_cons,
      List.foldl_nil, hpiece]
    exact h.body
  · rw [note_log]
    exact .parsed ev (fun heq => absurd heq hm) h.reported

/-- The collected data and a piece of a body. -/
theorem collect_piece {b : Buffer} (hb : b.Proper) (piece : Bytes) :
    ((({} : Buffer).add piece).slices.foldl (fun b slice => b.add slice.data) b).Proper ∧
      ((({} : Buffer).add piece).slices.foldl (fun b slice => b.add slice.data) b).linearize =
        b.linearize ++ piece := by
  have hfold : ∀ (slices : List Slice) {b : Buffer}, b.Proper →
      (slices.foldl (fun b slice => b.add slice.data) b).Proper ∧
      (slices.foldl (fun b slice => b.add slice.data) b).linearize =
        b.linearize ++ slices.flatMap Slice.data := by
    intro slices
    induction slices with
    | nil => exact fun hb => ⟨hb, by simp⟩
    | cons slice rest ih =>
      intro b hb
      obtain ⟨hadd, hdata⟩ := hb.add slice.data
      obtain ⟨hproper, hall⟩ := ih hadd
      refine ⟨hproper, ?_⟩
      rw [List.foldl_cons, hall, hdata, List.append_assoc]
      rfl
  obtain ⟨hproper, hall⟩ := hfold (({} : Buffer).add piece).slices hb
  refine ⟨hproper, ?_⟩
  rw [hall]
  exact congrArg _ (pieceBuffer piece).2

/-- A piece of a body is collected before it is handed on. -/
theorem Overheard.responseBody {s : Session} (w : World) (h : Overheard s)
    (hi : s.payloadInspector_ = true) (piece : Bytes) :
    Overheard ((s.note (.upstreamParsed (.body piece))).onResponseBody w
      (({} : Buffer).add piece)) := by
  set s₁ := s.note (.upstreamParsed (.body piece)) with hs₁
  set s₂ : Session := if s₁.payloadInspector_ ∧ s₁.responseBody_.length < kMaxInspectBytes then
      { s₁ with
        responseBody_ := (({} : Buffer).add piece).slices.foldl (fun b slice => b.add slice.data)
          s₁.responseBody_ }
    else s₁ with hs₂
  have hlength : s.responseBody_.length = (collected (callbacks s.log)).length := by
    rw [← h.body]
    exact h.proper.represents.total
  have hcollect : collected (callbacks (.upstreamParsed (.body piece) :: s.log)) =
      collectPiece (collected (callbacks s.log)) (.body piece) := by
    rw [callbacks_cons]
    simp only [Note.callback, Option.toList, collected, List.foldl_append, List.foldl_cons,
      List.foldl_nil]
  have hreported : Reported (.upstreamParsed (.body piece) :: s.log) :=
    .parsed _ (fun heq => by cases heq) h.reported
  have h₂ : Overheard s₂ := by
    rw [hs₂]
    split
    · next hroom =>
      obtain ⟨hproper, hbody⟩ := collect_piece h.proper piece
      refine ⟨hproper, ?_, h.target, hreported⟩
      have hshort : (collected (callbacks s.log)).length < kMaxInspectBytes :=
        hlength ▸ hroom.2
      change _ = collected (callbacks (.upstreamParsed (.body piece) :: s.log))
      rw [hcollect, collectPiece, if_pos hshort, ← h.body]
      exact hbody
    · next hfull =>
      refine ⟨h.proper, ?_, h.target, hreported⟩
      have hlong : ¬ (collected (callbacks s.log)).length < kMaxInspectBytes := fun hlt =>
        hfull ⟨hi, hlength.trans_lt hlt⟩
      rw [hs₁, note_log, hcollect, collectPiece, if_neg hlong]
      exact h.body
  unfold onResponseBody
  dsimp only
  split
  · exact h₂
  · exact h₂.unheard (unheard_writeToClient w s₂ _)

/-- At the end of a response the inspector is called if there is anything to inspect. -/
theorem Overheard.responseComplete {s : Session} (w : World) (h : Overheard s)
    (hi : s.payloadInspector_ = true) :
    Overheard (((s.note (.upstreamParsed .messageComplete)).onResponseBody w
      {}).onResponseComplete) := by
  rw [onResponseBody_empty]
  have hempty : s.responseBody_.empty = false ↔ collected (callbacks s.log) ≠ [] := by
    have hiff := Buffer.empty_iff h.proper.represents
    rw [h.body] at hiff
    rw [← Bool.not_eq_true, hiff]
  have hcollect : ∀ log, callbacks log = callbacks s.log ++ [.messageComplete] →
      collected (callbacks log) = [] := by
    intro log hl
    rw [hl, collected, List.foldl_append]
    rfl
  have hdone : ∀ s₁ : Session, s₁.currentRequest_ = s.currentRequest_ →
      keptTarget s₁.log = keptTarget s.log →
      callbacks s₁.log = callbacks s.log ++ [.messageComplete] →
      Reported s₁.log → Overheard
        (if s₁.isTlsMitm_ then { s₁ with pendingBody_ := {}, responseBody_ := {} }
        else { s₁ with pendingBody_ := {}, responseBody_ := {} }.close .responseComplete) := by
    intro s₁ hr ht hc hreported
    have hcleared : Overheard { s₁ with pendingBody_ := {}, responseBody_ := {} } :=
      ⟨Buffer.proper_empty, (hcollect _ hc).symm,
        (congrArg HttpRequest.url hr).trans (h.target.trans ht.symm), hreported⟩
    split
    · exact hcleared
    · exact hcleared.unheard (unheard_close _ _)
  unfold onResponseComplete
  dsimp only
  split
  · next hcall =>
    have hne := hempty.mp hcall.2
    apply hdone
    · rfl
    · rfl
    · simp [note, Note.callback]
    · have hcalled := Reported.called hne h.reported
      rwa [← h.body, ← h.target] at hcalled
  · next hnot =>
    have hnil : ¬ collected (callbacks s.log) ≠ [] := fun hne => hnot ⟨hi, hempty.mpr hne⟩
    apply hdone
    · rfl
    · rfl
    · simp [note, Note.callback]
    · exact .parsed _ (fun _ => not_not.mp hnil) h.reported

theorem Loose.inspector {w : World} {D : Side → Prop} {s s' : Session} (h : Loose w D s s') :
    s'.payloadInspector_ = s.payloadInspector_ := by
  have hs : s'.still.payloadInspector_ = s.still.payloadInspector_ := by rw [h.still]
  exact hs

/-- An inspector, if there is one, has heard what it is to hear. -/
def Attended (s : Session) : Prop := s.payloadInspector_ = true → Overheard s

theorem Attended.unheard {s s' : Session} (h : Attended s) (hu : Unheard s s') : Attended s' :=
  fun hi => (h (hu.inspector.symm.trans hi)).unheard hu

theorem Attended.upstreamEvent {s : Session} (w : World) (h : Attended s) (ev : ParserEvent) :
    Ends (s.upstreamEvent w ev) Attended fun _ => True := by
  rcases upstreamEvent_cases w s ev with ⟨-, he⟩ | ⟨codec, resp, hh, he⟩ | ⟨piece, rfl, he⟩ |
    ⟨rfl, he⟩ | ⟨codec, calls, hb, hm, -, -, he⟩ <;> rw [he]
  · trivial
  · -- only the end of a head hands a head over
    have hother : (∀ piece, ev ≠ .body piece) ∧ ev ≠ .messageComplete := by
      constructor
      · rintro piece rfl
        cases hh
      · rintro rfl
        cases hh
    intro hi
    have hsame := unheard_onResponse w
      ({ s with upstreamCodec_ := codec }.note (.upstreamParsed ev)) resp
    exact ((h (hsame.inspector.symm.trans hi)).parsed codec hother.1 hother.2).unheard hsame
  · intro hi
    have hquiet : Quiet w anySide (s.note (.upstreamParsed (.body piece))) _ :=
      quiet_onResponseBody (toClient_any _) (pieceBuffer piece).1
    have hset : s.payloadInspector_ = true := hquiet.toLoose.inspector.symm.trans hi
    exact (h hset).responseBody w hset piece
  · intro hi
    have hquiet : Quiet w anySide (s.note (.upstreamParsed .messageComplete)) _ :=
      (quiet_onResponseBody (toClient_any _) Buffer.proper_empty).trans
        (quiet_onResponseComplete (D := anySide) trivial _)
    have hset : s.payloadInspector_ = true := hquiet.toLoose.inspector.symm.trans hi
    exact (h hset).responseComplete w hset
  · exact fun hi => (h hi).parsed codec hb hm

theorem Attended.perform {s : Session} (w : World) (h : Attended s) (a : Act) :
    Ends (s.perform w a) Attended fun _ => True := by
  by_cases ha : ∃ ev, a = .upstreamEvent ev
  · obtain ⟨ev, rfl⟩ := ha
    simp only [Session.perform]
    split
    · exact h.upstreamEvent w ev
    · exact h
  · exact Ends.mono (unheard_perform w s fun ev heq => ha ⟨ev, heq⟩) (fun _ hu => h.unheard hu)
      fun _ => id

theorem start_attended (fd : Fd) (certGen payloadInspector : Bool) :
    Attended (start fd certGen payloadInspector) := fun _ =>
  ⟨Buffer.proper_empty, rfl, rfl, .start⟩

end Session

open Session

/-- In every run of a session with an inspector, the inspector hears what it is
to hear. -/
theorem Reachable.overheard {w : World} {s : Session} (h : Reachable w s)
    (hi : s.payloadInspector_ = true) : Overheard s := by
  obtain ⟨fd, certGen, payloadInspector, events, hr⟩ := h
  have hstart : Ends (.ok (start fd certGen payloadInspector)) Attended fun _ : Crash => True :=
    start_attended fd certGen payloadInspector
  have hrun := sessionRun_ends (fun s a hs => hs.perform w a) hstart events
  rw [hr] at hrun
  exact hrun hi

end DeepSeer
