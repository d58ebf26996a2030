import DeepSeer.LoggedLines
import Mathlib.Algebra.Order.BigOperators.Group.List
import Mathlib.Algebra.Order.Group.Nat

/-!
No call of the logger is left waiting: whoever holds the lock can go on, and every
action takes its call nearer to its return.
-/
namespace DeepSeer

open Schedules SharedLocks

/-- How many actions a call has left at most, where no configuration has more than
`most` sinks. -/
def LogCall.rank (most : Nat) : LogCall → Nat
  | log _ _ => most + 4
  | dispatch _ _ => most + 3
  | formatted _ => most + 2
  | writing _ sinks => sinks.length + 1
  | init _ _ => 2
  | configure _ => 1
  | shutdown => most + 2
  | flushing sinks => sinks.length + 1
  | setLevel _ => 1
  | returned => 0

/-- The sinks that a call is about to configure. -/
def LogCall.brings : LogCall → List Nat
  | init _ sinks | configure sinks => sinks
  | _ => []

namespace Logger

/-- No configuration that there is or will be has more than `most` sinks. -/
def Within (most : Nat) (s : Logger) : Prop :=
  s.gSinks.length ≤ most ∧ ∀ c ∈ s.calls, c.brings.length ≤ most

def effort (most : Nat) (s : Logger) : Nat := (s.calls.map (LogCall.rank most)).sum

theorem exists_within (s : Logger) : ∃ most, Within most s := by
  refine ⟨s.gSinks.length + (s.calls.map fun c => c.brings.length).sum, Nat.le_add_right _ _, ?_⟩
  intro c hc
  have hle : c.brings.length ≤ (s.calls.map fun c => c.brings.length).sum :=
    List.single_le_sum (fun n _ => Nat.zero_le n) _ (List.mem_map_of_mem hc)
  omega

variable {s s' : Logger} {most : Nat} {k : Nat} {c c₀ : LogCall}

theorem effort_set (hk : s.calls[k]? = some c₀) (hrank : c.rank most < c₀.rank most) :
    ((s.calls.set k c).map (LogCall.rank most)).sum < s.effort most := by
  have hsum := sum_set (f := LogCall.rank most) c hk
  unfold effort
  omega

theorem brings_set (h : ∀ c ∈ s.calls, c.brings.length ≤ most)
    (hnew : c.brings.length ≤ most) : ∀ c' ∈ s.calls.set k c, c'.brings.length ≤ most := by
  intro c' hc'
  rcases List.mem_or_eq_of_mem_set hc' with hmem | rfl
  · exact h c' hmem
  · exact hnew

/-- Every action of a call that there is leaves less to do. -/
theorem Within.moves {a : LogAction} (h : Within most s) (ha : a.continues = true)
    (hmoves : Moves s a s') : Within most s' ∧ s'.effort most < s.effort most := by
  obtain ⟨hsinks, hbrings⟩ := h
  have hown : ∀ {k : Nat} {c₀ : LogCall}, s.calls[k]? = some c₀ → c₀.brings.length ≤ most :=
    fun hk => hbrings _ (List.mem_of_getElem? hk)
  cases hmoves with
  | enters c _ hnot => rw [hnot] at ha; exact absurd ha (by simp)
  | passes k level message hk _ =>
    exact ⟨⟨hsinks, brings_set hbrings (Nat.zero_le _)⟩, effort_set hk (Nat.lt_succ_self _)⟩
  | filters k level message hk _ =>
    exact ⟨⟨hsinks, brings_set hbrings (Nat.zero_le _)⟩, effort_set hk (Nat.succ_pos _)⟩
  | formats k level message stamp hk =>
    exact ⟨⟨hsinks, brings_set hbrings (Nat.zero_le _)⟩, effort_set hk (Nat.lt_succ_self _)⟩
  | locksShared k line mu hk _ =>
    refine ⟨⟨hsinks, brings_set hbrings (Nat.zero_le _)⟩, effort_set hk ?_⟩
    simp only [LogCall.rank]
    omega
  | writes k line sink sinks hk =>
    exact ⟨⟨hsinks, brings_set hbrings (Nat.zero_le _)⟩, effort_set hk (Nat.lt_succ_self _)⟩
  | unlocksShared k line hk =>
    exact ⟨⟨hsinks, brings_set hbrings (Nat.zero_le _)⟩, effort_set hk (Nat.succ_pos _)⟩
  | initializes k level sinks hk =>
    have hsame : (LogCall.init level sinks).brings.length ≤ most := hown hk
    exact ⟨⟨hsinks, brings_set hbrings hsame⟩, effort_set hk (Nat.lt_succ_self _)⟩
  | configures k sinks mu hk _ =>
    exact ⟨⟨hown hk, brings_set hbrings (Nat.zero_le _)⟩, effort_set hk (Nat.succ_pos _)⟩
  | locks k mu hk _ =>
    refine ⟨⟨hsinks, brings_set hbrings (Nat.zero_le _)⟩, effort_set hk ?_⟩
    simp only [LogCall.rank]
    omega
  | flushes k sink sinks hk =>
    exact ⟨⟨hsinks, brings_set hbrings (Nat.zero_le _)⟩, effort_set hk (Nat.lt_succ_self _)⟩
  | clears k hk =>
    exact ⟨⟨Nat.zero_le _, brings_set hbrings (Nat.zero_le _)⟩, effort_set hk (Nat.succ_pos _)⟩
  | sets k level hk =>
    exact ⟨⟨hsinks, brings_set hbrings (Nat.zero_le _)⟩, effort_set hk (Nat.succ_pos _)⟩

/-- A call that holds the lock can go on. -/
theorem holder_continues (hk : s.calls[k]? = some c) (hc : c.reads = true ∨ c.flushes = true) :
    (s.advance k).isSome = true := by
  unfold advance
  rw [hk]
  cases c with
  | writing line sinks => cases sinks <;> rfl
  | flushing sinks => cases sinks <;> rfl
  | _ => simp [LogCall.reads, LogCall.flushes] at hc

/-- Where a call has not returned, some call can go on. -/
theorem Inv.continues (h : s.Inv) (hk : s.calls[k]? = some c) (hc : c ≠ .returned) :
    ∃ a, LogAction.continues a = true ∧ (s.step a).isSome = true := by
  have hholder : ∀ j, s.At LogCall.reads j ∨ s.At LogCall.flushes j →
      ∃ a, LogAction.continues a = true ∧ (s.step a).isSome = true := by
    rintro j (⟨c, hj, hc⟩ | ⟨c, hj, hc⟩)
    · exact ⟨.advance j, rfl, holder_continues hj (.inl hc)⟩
    · exact ⟨.advance j, rfl, holder_continues hj (.inr hc)⟩
  have hself : (s.advance k).isSome = true →
      ∃ a, LogAction.continues a = true ∧ (s.step a).isSome = true :=
    fun hsome => ⟨.advance k, rfl, hsome⟩
  cases c with
  | log level message =>
    apply hself
    simp only [advance, hk]
    split <;> rfl
  | dispatch level message =>
    refine ⟨.format k ⟨0, 0, 0, 0, 0, 0, 0, 0⟩, rfl, ?_⟩
    simp [step, format, hk]
  | formatted line =>
    cases hm : s.gSinksMu.lockShared k with
    | none =>
      obtain ⟨j, hj⟩ := h.held.blockedShared hm
      exact hholder j (.inr hj)
    | some mu =>
      apply hself
      simp [advance, hk, hm]
  | writing line sinks => exact hholder k (.inl ⟨_, hk, rfl⟩)
  | init level sinks =>
    apply hself
    simp [advance, hk]
  | configure sinks =>
    cases hm : s.gSinksMu.lock k with
    | none =>
      obtain ⟨j, hj⟩ := h.held.blocked hm
      exact hholder j hj
    | some mu =>
      apply hself
      simp [advance, hk, hm]
  | shutdown =>
    cases hm : s.gSinksMu.lock k with
    | none =>
      obtain ⟨j, hj⟩ := h.held.blocked hm
      exact hholder j hj
    | some mu =>
      apply hself
      simp [advance, hk, hm]
  | flushing sinks => exact hholder k (.inr ⟨_, hk, rfl⟩)
  | setLevel level =>
    apply hself
    simp [advance, hk]
  | returned => exact absurd rfl hc

/-- From every state that a run reaches, the calls that there are end: a schedule of
them has a bounded length, and where it cannot go on all calls have returned. -/
theorem calls_return (actions : List LogAction) (s : Logger)
    (hrun : run step {} actions = some s) :
    ∃ n, ∀ (more : List LogAction) (t : Logger), (∀ a ∈ more, a.continues = true) →
      run step s more = some t →
        more.length ≤ n ∧
          ((∀ a, LogAction.continues a = true → t.step a = none) →
            ∀ c ∈ t.calls, c = .returned) := by
  obtain ⟨most, hwithin⟩ := exists_within s
  refine ⟨s.effort most, ?_⟩
  intro more t hmore ht
  have halong : Along step (fun _ a => a.continues = true) s more := along_of_forall hmore
  refine ⟨run_length_le (Within most) (effort most) ?_ hwithin halong ht, ?_⟩
  · intro s a s' hs ha hstep
    exact hs.moves ha (step_moves hstep)
  · intro hstuck c hc
    have hinv : t.Inv := inv_run (run_append hrun ht)
    obtain ⟨k, hk⟩ := List.getElem?_of_mem hc
    by_contra hnot
    obtain ⟨a, ha, hsome⟩ := hinv.continues hk hnot
    rw [hstuck a ha] at hsome
    exact absurd hsome (by simp)

theorem calls_return_short : ∃ s, run step {} shortRun = some s ∧
    ∃ n, ∀ (more : List LogAction) (t : Logger), (∀ a ∈ more, a.continues = true) →
      run step s more = some t →
        more.length ≤ n ∧
          ((∀ a, LogAction.continues a = true → t.step a = none) →
            ∀ c ∈ t.calls, c = .returned) :=
  ⟨_, rfl, calls_return shortRun _ rfl⟩

end Logger

end DeepSeer
