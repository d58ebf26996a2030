import DeepSeer.LoggedLines

/-!
The lines that a run gives to its sinks. Each is the line of a message that was let
through, and a message whose call has returned is there as often as the configuration
that its call met has such sinks.
-/
namespace DeepSeer

open ByteMemory Schedules

/-- The call and the line, where the event is a write to such a sink. -/
def LogEvent.lineTo (p : Nat → Bool) : LogEvent → Option (Nat × Bytes)
  | wrote k sink line => if p sink then some (k, line) else none
  | _ => none

/-- The lines that went to such sinks and their calls, the first one first. -/
def linesTo (p : Nat → Bool) (log : List LogEvent) : List (Nat × Bytes) :=
  log.reverse.filterMap (LogEvent.lineTo p)

/-- The message was not below the level of the moment at which it was checked. -/
def LetThrough (k : Nat) (level : LogLevel) (log : List LogEvent) : Prop :=
  ∃ later earlier, log = later ++ .checked k true :: earlier ∧
    (levelAfter earlier).value ≤ level.value

variable {p : Nat → Bool} {k sink : Nat} {level : LogLevel} {line : Bytes} {e : LogEvent}
  {log : List LogEvent}

theorem linesTo_cons (p : Nat → Bool) (e : LogEvent) (log : List LogEvent) :
    linesTo p (e :: log) = linesTo p log ++ (e.lineTo p).toList := by
  rw [linesTo, List.reverse_cons, List.filterMap_append, linesTo]
  cases h : e.lineTo p <;> simp [h]

theorem linesTo_append (p : Nat → Bool) (later earlier : List LogEvent) :
    linesTo p (later ++ earlier) = linesTo p earlier ++ linesTo p later := by
  rw [linesTo, List.reverse_append, List.filterMap_append]
  rfl

theorem linesTo_quiet (h : e.lineTo p = none) : linesTo p (e :: log) = linesTo p log := by
  rw [linesTo_cons, h, Option.toList_none, List.append_nil]

/-- The lines of one call are those of its own events. -/
theorem linesTo_own (p : Nat → Bool) (k : Nat) (log : List LogEvent) :
    (linesTo p log).filter (fun w => w.1 = k) = linesTo p (own k log) := by
  induction log with
  | nil => rfl
  | cons e log ih =>
    rw [linesTo_cons, List.filter_append, ih]
    by_cases hcall : e.call = k
    · rw [own_cons_same hcall, linesTo_cons]
      cases e with
      | wrote j sink line =>
        have hj : j = k := hcall
        by_cases hp : p sink = true
        · simp [LogEvent.lineTo, hp, hj]
        · simp [LogEvent.lineTo, hp]
      | _ => rfl
    · rw [own_cons_other hcall]
      cases e with
      | wrote j sink line =>
        have hj : j ≠ k := hcall
        by_cases hp : p sink = true
        · simp [LogEvent.lineTo, hp, hj]
        · simp [LogEvent.lineTo, hp]
      | _ => simp [LogEvent.lineTo]

theorem mem_linesTo {w : Nat × Bytes} (h : w ∈ linesTo p log) :
    ∃ sink, p sink = true ∧ .wrote w.1 sink w.2 ∈ log := by
  obtain ⟨e, he, hline⟩ := List.mem_filterMap.mp h
  cases e with
  | wrote k sink line =>
    by_cases hp : p sink = true
    · simp only [LogEvent.lineTo, hp, if_true, Option.some.injEq] at hline
      subst hline
      exact ⟨sink, hp, List.mem_reverse.mp he⟩
    · simp [LogEvent.lineTo, hp] at hline
  | _ => exact absurd hline (by simp [LogEvent.lineTo])

/-- Whether a sink is such a one matters only for those that are written to. -/
theorem linesTo_congr {q r : Nat → Bool} (hr : linesTo r log = [])
    (h : ∀ sink, r sink = false → p sink = q sink) : linesTo p log = linesTo q log := by
  refine List.filterMap_congr fun e he => ?_
  cases e with
  | wrote k sink line =>
    have hsink : r sink = false := by
      simpa [LogEvent.lineTo] using List.filterMap_eq_nil_iff.mp hr _ he
    simp only [LogEvent.lineTo, h sink hsink]
  | _ => rfl

theorem linesTo_never (log : List LogEvent) : linesTo (fun _ => false) log = [] := by
  refine List.filterMap_eq_nil_iff.mpr fun e _ => ?_
  cases e <;> rfl

theorem own_append (k : Nat) (later earlier : List LogEvent) :
    own k (later ++ earlier) = own k later ++ own k earlier :=
  List.filter_append _ _

theorem mem_own (h : e ∈ log) (he : e.call = k) : e ∈ own k log :=
  List.mem_filter.mpr ⟨h, decide_eq_true he⟩

theorem Passed.own_eq (h : Passed k level log) : own k log = [.checked k true] := by
  obtain ⟨later, earlier, rfl, hown, hlater, -⟩ := h
  rw [own_append, hlater, own_cons_same (k := k) (e := .checked k true) rfl, hown]
  rfl

theorem Passed.letThrough {earlier : List LogEvent} (h : Passed k level earlier)
    (hsuffix : earlier <:+ log) : LetThrough k level log := by
  obtain ⟨later, rfl⟩ := hsuffix
  obtain ⟨behind, before, rfl, -, -, hlevel⟩ := h
  exact ⟨later ++ behind, before, by simp, hlevel⟩

theorem Dropped.own_eq (h : Dropped k level log) : own k log = [.checked k false] := by
  obtain ⟨later, earlier, rfl, hown, hlater, -⟩ := h
  rw [own_append, hlater, own_cons_same (k := k) (e := .checked k false) rfl, hown]
  rfl

/-- A call that has taken the lock with `sinks` has written its line to those of `done`. -/
theorem own_writing {done : List Nat} {later earlier : List LogEvent}
    (hpass : Passed k level earlier)
    (hown : own k later = (done.map fun sink => .wrote k sink line).reverse) :
    own k (later ++ .took k :: earlier) =
      (done.map fun sink => .wrote k sink line).reverse ++ [.took k, .checked k true] := by
  rw [own_append, hown, own_cons_same (k := k) (e := .took k) rfl, hpass.own_eq]

/-- All lines of such a call are the same. -/
theorem wrote_line {line' : Bytes} {done : List Nat} {later earlier : List LogEvent}
    (hpass : Passed k level earlier)
    (hown : own k later = (done.map fun sink => .wrote k sink line).reverse)
    (hmem : .wrote k sink line' ∈ own k (later ++ .took k :: earlier)) : line' = line := by
  rw [own_writing hpass hown] at hmem
  rcases List.mem_append.mp hmem with hin | hin
  · obtain ⟨_, -, heq⟩ := List.mem_map.mp (List.mem_reverse.mp hin)
    injection heq with _ _ hline
    exact hline.symm
  · exact absurd hin (by simp)

theorem lineTo_wrote (p : Nat → Bool) (k : Nat) (line : Bytes) (sinks : List Nat) :
    (sinks.map fun sink => .wrote k sink line).filterMap (LogEvent.lineTo p) =
      (sinks.filter p).map fun _ => (k, line) := by
  induction sinks with
  | nil => rfl
  | cons sink sinks ih =>
    by_cases hp : p sink = true
    · simp only [List.map_cons, List.filterMap_cons, LogEvent.lineTo, hp, if_true, ih,
        List.filter_cons_of_pos]
    · simp only [List.map_cons, List.filterMap_cons, LogEvent.lineTo, hp, if_false, ih,
        List.filter_cons_of_neg, not_false_eq_true, Bool.false_eq_true]

/-- Where nothing but flushes needed the lock there is no write. -/
theorem not_wrote_flushing {done : List Nat} {later earlier : List LogEvent}
    (hown : own k earlier = [])
    (hflushed : guardedEvents later = (done.map fun sink => .flushed k sink).reverse) :
    .wrote k sink line ∉ later ++ .locked k :: earlier := by
  intro hmem
  rcases List.mem_append.mp hmem with hlater | hearlier
  · have hguarded : .wrote k sink line ∈ guardedEvents later :=
      List.mem_filter.mpr ⟨hlater, rfl⟩
    rw [hflushed] at hguarded
    simp at hguarded
  · rcases List.mem_cons.mp hearlier with heq | hearlier
    · exact absurd heq (by simp)
    · have := mem_own (k := k) hearlier rfl
      simp [hown] at this

/-- What a call writes is the line of a message that was let through. -/
theorem Story.wrote {asked now : LogCall} (h : Story k log asked now)
    (hmem : .wrote k sink line ∈ log) :
    ∃ level message stamp, asked = .log level message ∧ line = logLine stamp level message ∧
      LetThrough k level log := by
  have hown := mem_own (k := k) hmem rfl
  cases h with
  | fresh _ _ h => simp [h] at hown
  | dispatch h => simp [h.own_eq] at hown
  | formatted _ _ h => simp [h.own_eq] at hown
  | writing stamp hline done rest h =>
    obtain ⟨later, earlier, rfl, hpass, -, hlater, -⟩ := h
    refine ⟨_, _, stamp, rfl, (wrote_line hpass hlater hown).trans hline, ?_⟩
    exact hpass.letThrough ⟨later ++ [.took k], by simp⟩
  | dropped h => simp [h.own_eq] at hown
  | written stamp hline h =>
    obtain ⟨after, later, earlier, rfl, hpass, hafter, hlater, -⟩ := h
    rw [own_append, hafter, own_cons_same (k := k) (e := .left k) rfl, List.nil_append] at hown
    have hin := List.mem_of_ne_of_mem (by simp) hown
    refine ⟨_, _, stamp, rfl, (wrote_line hpass hlater hin).trans hline, ?_⟩
    exact hpass.letThrough ⟨after ++ .left k :: (later ++ [.took k]), by simp⟩
  | configure h => simp [h] at hown
  | initialized h =>
    rw [Initialized] at h
    simp [h] at hown
  | flushing done rest h =>
    obtain ⟨later, earlier, rfl, hearlier, -, hflushed⟩ := h
    exact absurd hmem (not_wrote_flushing hearlier hflushed)
  | shutDown h =>
    obtain ⟨after, later, earlier, rfl, hafter, hearlier, hflushed⟩ := h
    rcases List.mem_append.mp hmem with hin | hin
    · have := mem_own (k := k) hin rfl
      simp [hafter] at this
    · rcases List.mem_cons.mp hin with heq | hin
      · exact absurd heq (by simp)
      · exact absurd hin (not_wrote_flushing hearlier hflushed)
  | leveled h => simp [h] at hown

/-- A line that was written is there once for each such sink of the configuration. -/
theorem Written.lines (h : Written k level line log) :
    ∃ earlier, earlier <:+ log ∧ ∀ p, (linesTo p log).filter (fun w => w.1 = k) =
      ((configuration earlier).filter p).map fun _ => (k, line) := by
  obtain ⟨after, later, earlier, rfl, hpass, hafter, hlater, -⟩ := h
  refine ⟨earlier, ⟨after ++ .left k :: (later ++ [.took k]), by simp⟩, fun p => ?_⟩
  rw [linesTo_own, own_append, hafter, own_cons_same (k := k) (e := .left k) rfl, List.nil_append,
    linesTo_quiet rfl, own_writing hpass hlater, linesTo_append, linesTo_quiet rfl,
    linesTo_quiet rfl, linesTo, linesTo, List.reverse_reverse, lineTo_wrote]
  rfl

namespace Logger

/-- The lines at such sinks are those of messages that were let through, and none of a
call that has returned is missing. -/
structure Told (p : Nat → Bool) (s : Logger) : Prop where
  authentic : ∀ w ∈ linesTo p s.log, ∃ level message stamp,
    s.asked[w.1]? = some (.log level message) ∧ w.2 = logLine stamp level message ∧
      LetThrough w.1 level s.log
  complete : ∀ k level message, s.asked[k]? = some (.log level message) →
    s.calls[k]? = some .returned → Dropped k level s.log ∨
      ∃ stamp earlier, earlier <:+ s.log ∧ (linesTo p s.log).filter (fun w => w.1 = k) =
        ((configuration earlier).filter p).map fun _ => (k, logLine stamp level message)

theorem Inv.told {s : Logger} (h : s.Inv) (p : Nat → Bool) : s.Told p := by
  refine ⟨?_, ?_⟩
  · rintro ⟨k, line⟩ hw
    obtain ⟨sink, -, hmem⟩ := mem_linesTo hw
    have hk : k < s.calls.length := h.bounded _ hmem
    have hlt : k < s.asked.length := h.length ▸ hk
    have hasked : s.asked[k]? = some s.asked[k] := List.getElem?_eq_getElem hlt
    have hnow : s.calls[k]? = some s.calls[k] := List.getElem?_eq_getElem hk
    obtain ⟨level, message, stamp, heq, hline, hlet⟩ := (h.story k _ _ hasked hnow).wrote hmem
    exact ⟨level, message, stamp, hasked.trans (congrArg some heq), hline, hlet⟩
  · intro k level message hasked hnow
    have hstory := h.story k _ _ hasked hnow
    cases hstory with
    | dropped hdropped => exact .inl hdropped
    | written stamp hline hwritten =>
      obtain ⟨earlier, hsuffix, hlines⟩ := hwritten.lines
      exact .inr ⟨stamp, earlier, hsuffix, hline ▸ hlines p⟩

end Logger

end DeepSeer
