import DeepSeer.ConnectionEvents
import DeepSeer.FairRuns
import Mathlib.Data.Nat.Find
import Mathlib.Data.Prod.Lex

/-!
What must become of the data written to a connection. The watch for the WRITE filter
stays as long as something is buffered, so a socket that takes data again and again gets
all of it, and a connection that has nothing more to write is not woken for it.
-/
namespace DeepSeer

open ByteMemory ByteText FairRuns WhileLoop

def SendAnswer.takes : SendAnswer → Bool
  | .accepts _ => true
  | .wouldBlock | .fails => false

namespace Connection

/-- What the sends between two states have done. -/
structure Sent (answer : Nat → SendAnswer) (c c' : Connection) : Prop where
  sends : c.sends ≤ c'.sends
  accepted : c.accepted <+: c'.accepted
  quiet : c'.accepted = c.accepted → ∀ k, c.sends ≤ k → k < c'.sends → (answer k).takes = false

variable {answer : Nat → SendAnswer} {c d e : Connection}

theorem Sent.same (hs : d.sends = c.sends) (ha : d.accepted = c.accepted) : Sent answer c d where
  sends := hs.ge
  accepted := ha ▸ List.prefix_refl _
  quiet := fun _ k hk hk' => absurd hk' (by omega)

theorem Sent.trans (h : Sent answer c d) (h' : Sent answer d e) : Sent answer c e where
  sends := h.sends.trans h'.sends
  accepted := h.accepted.trans h'.accepted
  quiet := by
    intro heq k hk hk'
    have hmid : d.accepted = c.accepted :=
      (h.accepted.eq_of_length (le_antisymm h.accepted.length_le
        (heq ▸ h'.accepted.length_le))).symm
    by_cases hkd : k < d.sends
    · exact h.quiet hmid k hk hkd
    · exact h'.quiet (heq.trans hmid.symm) k (by omega) hk'

/-- What comes before the sends. -/
theorem Sent.after (h : Sent answer d e) (hs : d.sends = c.sends)
    (ha : d.accepted = c.accepted) : Sent answer c e :=
  Sent.trans (.same hs ha) h

/-- A send that takes nothing. -/
theorem Sent.refused (ha : (answer c.sends).takes = false) :
    Sent answer c { c with sends := c.sends + 1 } where
  sends := Nat.le_succ _
  accepted := List.prefix_refl _
  quiet := by
    intro _ k hk hk'
    rwa [show k = c.sends from le_antisymm (Nat.le_of_lt_succ hk') hk]

theorem handleWrite_live (answer : Nat → SendAnswer) (h : c.writeBuf_.Proper)
    (loop : KqueueLoop) : (c.handleWrite answer loop).1.writeBuf_.Live := by
  have hflush := (flush_spec answer h.represents).live h.live
  unfold handleWrite
  split
  · exact h.live
  · split <;> next hf => rwa [hf] at hflush

theorem flushNow_live (answer : Nat → SendAnswer) (h : c.writeBuf_.Proper) (loop : KqueueLoop) :
    (c.flushNow answer loop).1.writeBuf_.Live := by
  unfold flushNow
  dsimp only
  split
  · exact h.live
  · exact handleWrite_live answer h _

end Connection

open Connection

/-- The data that an operation passes to the connection. -/
def ConnectionOp.passed : ConnectionOp → Bytes
  | .call c => c.passed
  | .close | .releaseSocket => []

/-- A buffer that is written has data in all of its slices. -/
def ConnectionOp.live : ConnectionOp → Prop
  | .call (.write data) => data.1.Live
  | _ => True

variable {answer : Nat → SendAnswer} {fd : Fd} {s : Connection × KqueueLoop}

theorem afterFlush_writeBuf (r : Connection × KqueueLoop × Flushed) :
    (afterFlush r).1.writeBuf_ = r.1.writeBuf_ := by
  obtain ⟨d, loop, flushed⟩ := r
  cases flushed with
  | settled => rfl
  | failed =>
    simp only [afterFlush, Connection.close]
    split <;> rfl

theorem operate_live (hp : s.1.writeBuf_.Proper) {op : ConnectionOp} (hop : op.live) :
    (operate answer s op).1.writeBuf_.Live := by
  obtain ⟨c, loop⟩ := s
  have hclose : (c.close loop).1.writeBuf_ = c.writeBuf_ := by
    unfold Connection.close
    split <;> rfl
  cases hc : c.closed_ with
  | true =>
    cases op with
    | call call =>
      rw [operate, callConnection_closed hc]
      exact hp.live
    | close => exact hclose ▸ hp.live
    | releaseSocket => exact hp.live
  | false =>
    cases op with
    | close => exact hclose ▸ hp.live
    | releaseSocket => exact hp.live
    | call call =>
      cases call with
      | write data =>
        simp only [operate, callConnection, Connection.write, hc, Bool.false_eq_true, if_false]
        rw [afterFlush_writeBuf]
        exact flushNow_live answer ⟨(Buffer.move_represents hp.represents data.2).1.self,
          Buffer.move_live hp.live hop⟩ loop
      | writeText data =>
        simp only [operate, callConnection, Connection.writeText, hc, Bool.false_eq_true, if_false]
        rw [afterFlush_writeBuf]
        exact flushNow_live answer (hp.add data).1 loop
      | startRead =>
        simp only [operate, callConnection, Connection.startRead, hc, Bool.false_eq_true, if_false]
        exact hp.live
      | stopRead =>
        simp only [operate, callConnection, Connection.stopRead, hc, Bool.false_eq_true, if_false]
        exact hp.live
      | readable r =>
        rcases handleRead_cases c r loop with he | ⟨buf, -, he⟩ | he | he <;>
          simp only [operate, callConnection, he, afterRead]
        · exact hp.live
        · exact hp.live
        · exact hclose ▸ hp.live
        · exact hclose ▸ hp.live
      | writable =>
        simp only [operate, callConnection]
        rw [afterFlush_writeBuf]
        exact handleWrite_live answer hp loop

/-- What holds after operations on a new connection that passed the data. -/
structure Going (fd : Fd) (passed : Bytes) (s : Connection × KqueueLoop) : Prop where
  installed : Installed fd s.1 s.2
  accounts : RunAccounts s passed
  live : s.1.writeBuf_.Live

theorem Going.kept {passed : Bytes} (h : Going fd passed s) (hvalid : fd ≠ kInvalidFd)
    {op : ConnectionOp} (hop : op.live) :
    Going fd (passed ++ op.passed) (operate answer s op) := by
  refine ⟨operate_installed answer hvalid h.installed op, ?_,
    operate_live ⟨h.accounts.1, h.live⟩ hop⟩
  cases op with
  | call c => exact callConnection_accounts answer s passed c h.accounts
  | close =>
    have hsame : RunAccounts (s.1.close s.2) passed := by
      unfold Connection.close
      split
      · exact h.accounts
      · exact ⟨h.accounts.1, fun ho => nomatch ho⟩
    rw [ConnectionOp.passed, List.append_nil]
    exact hsame
  | releaseSocket => exact ⟨h.accounts.1, fun ho => nomatch ho⟩

section

variable {loop : KqueueLoop} {ops : Nat → ConnectionOp}

/-- An open connection that owes data has something buffered and is watched for it. -/
theorem Going.watched {passed : Bytes} (h : Going fd passed s) (ho : s.1.closed_ = false)
    (howes : s.1.accepted.length < passed.length) :
    s.1.writeBuf_.linearize ≠ [] ∧ (s.2.filters fd).writable = true := by
  have hconserved := (h.accounts.2 ho).conserved
  have hne : s.1.writeBuf_.linearize ≠ [] := by
    intro hnil
    rw [hnil, List.append_nil] at hconserved
    rw [hconserved] at howes
    exact lt_irrefl _ howes
  refine ⟨hne, ?_⟩
  have hempty : s.1.writeBuf_.empty = false := by
    rw [Bool.eq_false_iff]
    exact fun he => hne ((Buffer.empty_iff h.accounts.1).mp he)
  rw [h.installed.filters, wanted, ho]
  simp [hempty]

/-- Once all data is accepted and no more is passed, nothing is left to be told of. -/
theorem Going.unwatched {passed : Bytes} (h : Going fd passed s)
    (hdone : s.1.closed_ = true ∨ passed.length ≤ s.1.accepted.length) :
    (s.2.filters fd).writable = false := by
  rw [h.installed.filters, wanted]
  cases hc : s.1.closed_ with
  | true => rfl
  | false =>
    have hlen := hdone.resolve_left (by simp [hc])
    have hconserved := congrArg List.length (h.accounts.2 hc).conserved
    rw [List.length_append] at hconserved
    have hnil : s.1.writeBuf_.linearize = [] := List.length_eq_zero_iff.mp (by omega)
    simp [(Buffer.empty_iff h.accounts.1).mpr hnil]

end

end DeepSeer
