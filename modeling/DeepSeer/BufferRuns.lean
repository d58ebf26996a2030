import DeepSeer.BufferString
import DeepSeer.Runs
import Mathlib.Logic.Function.Basic

/-!
Runs over any number of buffers. Each buffer holds the string that the same
calls build from empty strings, whatever the slice sizes are.
-/
namespace DeepSeer

open ByteMemory Runs

/-- The calls on buffers, which are named by numbers. -/
inductive BufferCall where
  | add (i : Nat) (data : Bytes)
  | reserve (i hint : Nat)
  | reserveCommit (i hint : Nat) (bytes : Bytes) (n : Nat)
  | drain (i n : Nat)
  | move (i other : Nat)
  deriving DecidableEq, Repr

def callBuffers (bs : Nat → Buffer) : BufferCall → Nat → Buffer
  | .add i data => Function.update bs i ((bs i).add data)
  | .reserve i hint => Function.update bs i ((bs i).reserve hint)
  | .reserveCommit i hint bytes n =>
    Function.update bs i ((((bs i).reserve hint).fill bytes).commit n)
  | .drain i n => Function.update bs i ((bs i).drain n)
  | .move i other =>
    Function.update (Function.update bs i ((bs i).move (bs other)).1) other
      ((bs i).move (bs other)).2

/-- The same calls on strings. -/
def callStrings (cs : Nat → Bytes) : BufferCall → Nat → Bytes
  | .add i data => Function.update cs i (cs i ++ data)
  | .reserve _ _ => cs
  | .reserveCommit i _ bytes n => Function.update cs i (cs i ++ bytes.take n)
  | .drain i n => Function.update cs i ((cs i).drop n)
  | .move i other => Function.update (Function.update cs i (cs i ++ cs other)) other []

/-- What the callers owe: bytes and commits stay inside the reserved region,
and a buffer is not moved into itself. -/
def CallAllowed (bs : Nat → Buffer) : BufferCall → Prop
  | .reserveCommit i hint bytes n =>
    n ≤ bytes.length ∧ bytes.length ≤ ((bs i).reserve hint).region.length
  | .move i other => i ≠ other
  | _ => True

def BuffersRepresent (bs : Nat → Buffer) (cs : Nat → Bytes) : Prop :=
  ∀ i, (bs i).Represents (cs i)

theorem update_represents {bs : Nat → Buffer} {cs : Nat → Bytes} (h : BuffersRepresent bs cs)
    (i : Nat) {b : Buffer} {c : Bytes} (hb : b.Represents c) :
    BuffersRepresent (Function.update bs i b) (Function.update cs i c) := by
  intro j
  by_cases hj : j = i
  · subst hj
    simpa using hb
  · simpa [hj] using h j

/-- Every allowed call on buffers is the call on strings of the same name. -/
theorem callBuffers_represents (bs : Nat → Buffer) (cs : Nat → Bytes) (call : BufferCall)
    (h : BuffersRepresent bs cs) (ha : CallAllowed bs call) :
    BuffersRepresent (callBuffers bs call) (callStrings cs call) := by
  cases call with
  | add i data => exact update_represents h i (Buffer.add_represents (h i) data)
  | reserve i hint =>
    have := update_represents h i (Buffer.reserve_represents (h i) hint)
    rwa [Function.update_eq_self] at this
  | reserveCommit i hint bytes n =>
    exact update_represents h i
      (Buffer.reserve_commit_represents (h i) hint n bytes ha.1 (Nat.le_trans ha.1 ha.2))
  | drain i n => exact update_represents h i (Buffer.drain_represents (h i) n)
  | move i other =>
    obtain ⟨hi, ho⟩ := Buffer.move_represents (h i) (h other)
    exact update_represents (update_represents h i hi) other ho

theorem run_represents {calls : List BufferCall}
    (h : Along callBuffers CallAllowed (fun _ => {}) calls) :
    BuffersRepresent (run callBuffers (fun _ => {}) calls) (run callStrings (fun _ => []) calls) :=
  run_related BuffersRepresent callBuffers_represents (fun _ => Buffer.represents_empty) h

/-- After every run from empty buffers each buffer observes as the string of
the same calls, and the representation invariant holds. -/
theorem buffers_refine_strings (calls : List BufferCall)
    (h : Along callBuffers CallAllowed (fun _ => {}) calls) (i : Nat) :
    let b := run callBuffers (fun _ => {}) calls i
    let c := run callStrings (fun _ => []) calls i
    (b.length = c.length ∧ (b.empty = true ↔ b.length = 0) ∧ b.linearize = c ∧ b.toString = c ∧
      b.slices.flatMap Slice.data = c ∧ (∀ hint, 0 < (b.reserve hint).region.length)) ∧
    (∀ s ∈ b.slices_, s.readPos_ ≤ s.writePos_ ∧ s.writePos_ ≤ s.capacity_) ∧
    b.totalLength_ = ((b.slices_.drop b.frontSlice_).map Slice.length).sum ∧
    b.frontSlice_ ≤ b.slices_.length ∧
    (b.frontSlice_ = 0 ∨ 2 * b.frontSlice_ < b.slices_.length) := by
  intro b c
  have hr : b.Represents c := run_represents h i
  refine ⟨⟨hr.total, ?_, hr.content, hr.content, hr.content, ?_⟩, ?_, ?_, hr.front, hr.sparse⟩
  · simp [Buffer.empty, Buffer.length]
  · exact Buffer.reserve_region_pos hr.toShape
  · intro s hs
    exact ⟨(hr.ordered s hs).read_le, (hr.ordered s hs).write_le⟩
  · exact hr.total_eq_sum

theorem buffers_refine_strings_moved :
    let calls := [.add 0 [1, 2, 3], .reserveCommit 1 8 [4, 5] 1, .drain 0 2, .move 0 1]
    Along callBuffers CallAllowed (fun _ => {}) calls ∧
      (run callBuffers (fun _ => {}) calls 0).linearize = [3, 4] := by
  have h : Along callBuffers CallAllowed (fun _ => {})
      [.add 0 [1, 2, 3], .reserveCommit 1 8 [4, 5] 1, .drain 0 2, .move 0 1] := by
    refine ⟨trivial, ⟨by decide, ?_⟩, trivial, Nat.zero_ne_one, trivial⟩
    rw [Buffer.region_length]
    decide
  exact ⟨h, (buffers_refine_strings _ h 0).1.2.2.1⟩

end DeepSeer
