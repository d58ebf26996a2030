import DeepSeer.BufferString
import DeepSeer.Connection
import DeepSeer.Runs

/-!
What becomes of the data written to a connection. The bytes that the socket
has accepted, followed by the write buffer, are at all times the bytes written
so far; and with buffers as the proxy builds them a flush stops with data left
only when the last send would have blocked.
-/
namespace DeepSeer

open ByteMemory WhileLoop Runs

namespace Connection

/-- The last answer of the kernel to this connection was that it would block. -/
def lastBlocked (answer : Nat → SendAnswer) (c : Connection) : Bool :=
  match c.sends with
  | 0 => false
  | k + 1 => answer k == .wouldBlock

/-- Accepted and buffered bytes make up what was written. -/
structure Accounts (c : Connection) (written : Bytes) : Prop where
  sound : c.writeBuf_.Represents c.writeBuf_.linearize
  conserved : c.accepted ++ c.writeBuf_.linearize = written

/-- Two connections that differ in the flushing only. -/
structure SameLink (c c' : Connection) : Prop where
  id : c'.id = c.id
  socket : c'.socket_ = c.socket_
  closed : c'.closed_ = c.closed_
  reading : c'.reading_ = c.reading_
  wired : c'.wired = c.wired
  written : c'.written = c.written

theorem SameLink.refl (c : Connection) : SameLink c c := ⟨rfl, rfl, rfl, rfl, rfl, rfl⟩

theorem SameLink.flushed {c d : Connection} (h : SameLink c d) (sends : Nat) (accepted : Bytes)
    (writeBuf : Buffer) :
    SameLink c { d with sends := sends, accepted := accepted, writeBuf_ := writeBuf } :=
  ⟨h.id, h.socket, h.closed, h.reading, h.wired, h.written⟩

/-- What the flush loop maintains. -/
structure Flushing (answer : Nat → SendAnswer) (c c' : Connection) : Prop where
  link : SameLink c c'
  sound : c'.writeBuf_.Represents c'.writeBuf_.linearize
  conserved : c'.accepted ++ c'.writeBuf_.linearize = c.accepted ++ c.writeBuf_.linearize
  live : c.writeBuf_.Live → c'.writeBuf_.Live
  last : c' = c ∨ c'.lastBlocked answer = false

/-- How the flush loop leaves. -/
structure FlushEnd (answer : Nat → SendAnswer) (c : Connection) (r : Connection × Flushed) : Prop where
  link : SameLink c r.1
  sound : r.1.writeBuf_.Represents r.1.writeBuf_.linearize
  conserved : r.1.accepted ++ r.1.writeBuf_.linearize = c.accepted ++ c.writeBuf_.linearize
  live : c.writeBuf_.Live → r.1.writeBuf_.Live
  failed : r.2 = .failed → ∃ k, answer k = .fails
  left : r.2 = .settled → c.writeBuf_.Live → r.1.writeBuf_.linearize ≠ [] →
    r.1.lastBlocked answer = true
  none : r.2 = .settled → r.1.writeBuf_.linearize = [] → r.1 = c ∨ r.1.lastBlocked answer = false

theorem front_slice_content {b : Buffer} {slice : Slice} {rest : List Slice}
    (h : b.slices = slice :: rest) :
    b.linearize = slice.data ++ rest.flatMap Slice.data := by
  have h' : b.slices_.drop b.frontSlice_ = slice :: rest := h
  simp [Buffer.linearize, h']

/-- What one pass can do: nothing is left, the front slice is empty, the socket
fails or blocks, or it accepts some bytes of the front slice. -/
theorem flushPass_cases (answer : Nat → SendAnswer) {d : Connection}
    (h : d.writeBuf_.Represents d.writeBuf_.linearize) :
    (d.writeBuf_.linearize = [] ∧ flushPass answer d = .leave (d, .settled)) ∨
    (∃ slice rest, d.writeBuf_.slices = slice :: rest ∧ d.writeBuf_.linearize ≠ [] ∧
      ((slice.data = [] ∧
          flushPass answer d = .leave ({ d with writeBuf_ := d.writeBuf_.drain 0 }, .settled)) ∨
        (answer d.sends = .fails ∧
          flushPass answer d = .leave ({ d with sends := d.sends + 1 }, .failed)) ∨
        (answer d.sends = .wouldBlock ∧
          flushPass answer d = .leave ({ d with sends := d.sends + 1 }, .settled)) ∨
        ∃ more, answer d.sends = .accepts more ∧ slice.data ≠ [] ∧
          flushPass answer d = .again { d with
            sends := d.sends + 1
            accepted := d.accepted ++ slice.data.take (min (more + 1) slice.data.length)
            writeBuf_ := d.writeBuf_.drain (min (more + 1) slice.data.length) })) := by
  by_cases he : d.writeBuf_.empty = true
  · exact .inl ⟨(Buffer.empty_iff h).mp he, by simp [flushPass, he]⟩
  · have hne : d.writeBuf_.linearize ≠ [] := fun hnil => he ((Buffer.empty_iff h).mpr hnil)
    cases hs : d.writeBuf_.slices with
    | nil =>
      have hs' : d.writeBuf_.slices_.drop d.writeBuf_.frontSlice_ = [] := hs
      exact absurd (by simp [Buffer.linearize, hs']) hne
    | cons slice rest =>
      refine .inr ⟨slice, rest, rfl, hne, ?_⟩
      by_cases hdata : slice.data = []
      · exact .inl ⟨hdata, by simp [flushPass, he, hs, hdata]⟩
      · cases ha : answer d.sends with
        | fails => exact .inr (.inl ⟨rfl, by simp [flushPass, he, hs, hdata, ha]⟩)
        | wouldBlock => exact .inr (.inr (.inl ⟨rfl, by simp [flushPass, he, hs, hdata, ha]⟩))
        | accepts more =>
          exact .inr (.inr (.inr ⟨more, rfl, hdata, by simp [flushPass, he, hs, hdata, ha]⟩))

/-- A pass that goes round again has handed the front bytes to the socket. -/
theorem flushPass_again {answer : Nat → SendAnswer} {c d d' : Connection}
    (h : Flushing answer c d) (hp : flushPass answer d = .again d') :
    Flushing answer c d' ∧ d'.writeBuf_.length < d.writeBuf_.length := by
  rcases flushPass_cases answer h.sound with ⟨-, he⟩ | ⟨slice, rest, hs, -, hcase⟩
  · simp [he] at hp
  · rcases hcase with ⟨-, he⟩ | ⟨-, he⟩ | ⟨-, he⟩ | ⟨more, ha, hdata, he⟩
    · simp [he] at hp
    · simp [he] at hp
    · simp [he] at hp
    · rw [he] at hp
      simp only [Pass.again.injEq] at hp
      subst hp
      set n := min (more + 1) slice.data.length with hn
      have hpos : 0 < slice.data.length := List.length_pos_iff.mpr hdata
      obtain ⟨hr, hl⟩ := Buffer.drain_spec h.sound n
      have hcontent := front_slice_content hs
      have hlen : n ≤ slice.data.length := Nat.min_le_right _ _
      refine ⟨⟨h.link.flushed _ _ _, hr.self, ?_,
        fun hc => hl (h.live hc), .inr ?_⟩, ?_⟩
      · rw [← h.conserved, hr.content, List.append_assoc]
        congr 1
        rw [hcontent, List.drop_append_of_le_length hlen, ← List.append_assoc,
          List.take_append_drop]
      · simp [lastBlocked, ha]
      · have ht := h.sound.total
        have ht' := hr.total
        simp only [Buffer.length, ht, ht', List.length_drop, hcontent, List.length_append]
        omega

/-- A pass that leaves does so with the buffer flushed, with the socket full,
or with the socket failed. -/
theorem flushPass_leave {answer : Nat → SendAnswer} {c d : Connection} {r : Connection × Flushed}
    (h : Flushing answer c d) (hp : flushPass answer d = .leave r) : FlushEnd answer c r := by
  have hlink := h.link
  rcases flushPass_cases answer h.sound with ⟨hnil, he⟩ | ⟨slice, rest, hs, hne, hcase⟩
  · rw [he] at hp
    simp only [Pass.leave.injEq] at hp
    subst hp
    exact ⟨hlink, h.sound, h.conserved, h.live, by simp, fun _ _ hne => absurd hnil hne,
      fun _ _ => h.last⟩
  · rcases hcase with ⟨hdata, he⟩ | ⟨ha, he⟩ | ⟨ha, he⟩ | ⟨more, -, -, he⟩
    · rw [he] at hp
      simp only [Pass.leave.injEq] at hp
      subst hp
      obtain ⟨hr, hl⟩ := Buffer.drain_spec h.sound 0
      have hsame : (d.writeBuf_.drain 0).linearize = d.writeBuf_.linearize := by
        rw [hr.content, List.drop_zero]
      refine ⟨hlink.flushed _ _ _, hr.self, ?_,
        fun hc => hl (h.live hc), by simp, ?_, ?_⟩
      · rw [← h.conserved]
        simp only [hsame]
      · -- a live buffer has no empty front slice
        intro _ hc _
        have hpos := h.live hc slice (by rw [hs]; exact List.mem_cons_self)
        rw [← Slice.data_length, hdata] at hpos
        exact absurd hpos (by simp)
      · intro _ hnil
        simp only [hsame] at hnil
        exact absurd hnil hne
    · rw [he] at hp
      simp only [Pass.leave.injEq] at hp
      subst hp
      exact ⟨hlink.flushed _ _ _, h.sound, h.conserved,
        h.live, fun _ => ⟨_, ha⟩, by simp, by simp⟩
    · rw [he] at hp
      simp only [Pass.leave.injEq] at hp
      subst hp
      exact ⟨hlink.flushed _ _ _, h.sound, h.conserved,
        h.live, by simp, fun _ _ _ => by simp [lastBlocked, ha], fun _ hnil => absurd hnil hne⟩
    · simp [he] at hp

/-- The flush loop leaves after at most one pass more than there are bytes. -/
theorem flush_ends (answer : Nat → SendAnswer) {c : Connection}
    (h : c.writeBuf_.Represents c.writeBuf_.linearize) :
    ∃ r, iterate (flushPass answer) (c.writeBuf_.length + 1) c = some r ∧ FlushEnd answer c r :=
  iterate_correct (Flushing answer c) (fun d => d.writeBuf_.length) (FlushEnd answer c)
    (fun _ _ hi hp => flushPass_again hi hp) (fun _ _ hi hp => flushPass_leave hi hp)
    ⟨.refl c, h, rfl, fun hl => hl, .inl rfl⟩ (Nat.lt_succ_self _)

theorem flush_spec (answer : Nat → SendAnswer) {c : Connection}
    (h : c.writeBuf_.Represents c.writeBuf_.linearize) : FlushEnd answer c (c.flush answer) := by
  obtain ⟨r, hr, hend⟩ := flush_ends answer h
  simpa [flush, WhileLoop.loop, hr] using hend

/-- Whatever the write buffer is, a flush changes only what flushing changes. -/
theorem flush_link (answer : Nat → SendAnswer) (c : Connection) :
    SameLink c (c.flush answer).1 := by
  refine loop_kept (SameLink c) (fun r : Connection × Flushed => SameLink c r.1) ?_ ?_
    (.refl c) (.refl c)
  · intro d d' hd hp
    unfold flushPass at hp
    split at hp
    · exact absurd hp (by simp)
    · split at hp
      · exact absurd hp (by simp)
      · dsimp only at hp
        split at hp
        · exact absurd hp (by simp)
        · split at hp
          · exact absurd hp (by simp)
          · exact absurd hp (by simp)
          · simp only [Pass.again.injEq] at hp
            subst hp
            exact hd.flushed _ _ _
  · intro d r hd hp
    unfold flushPass at hp
    split at hp
    · simp only [Pass.leave.injEq] at hp
      exact hp ▸ hd
    · split at hp
      · simp only [Pass.leave.injEq] at hp
        exact hp ▸ hd
      · dsimp only at hp
        split at hp
        · simp only [Pass.leave.injEq] at hp
          exact hp ▸ hd.flushed _ _ _
        · split at hp
          · simp only [Pass.leave.injEq] at hp
            exact hp ▸ hd.flushed _ _ _
          · simp only [Pass.leave.injEq] at hp
            exact hp ▸ hd.flushed _ _ _
          · exact absurd hp (by simp)

theorem handleWrite_link (answer : Nat → SendAnswer) (c : Connection) (loop : KqueueLoop) :
    SameLink c (c.handleWrite answer loop).1 := by
  unfold Connection.handleWrite
  split
  · exact .refl c
  · have hl := flush_link answer c
    split <;> next hf => rwa [hf] at hl

theorem flushNow_link (answer : Nat → SendAnswer) (c : Connection) (loop : KqueueLoop) :
    SameLink c (c.flushNow answer loop).1 := by
  unfold Connection.flushNow
  dsimp only
  split
  · exact .refl c
  · exact handleWrite_link answer c _

/-- The flush loop from this state leaves after finitely many passes, with the
value that `handleWrite` goes on with. -/
def FlushEnds (answer : Nat → SendAnswer) (c : Connection) : Prop :=
  ∃ n, iterate (flushPass answer) n c = some (c.flush answer)

theorem flushEnds_of_sound (answer : Nat → SendAnswer) {c : Connection}
    (h : c.writeBuf_.Represents c.writeBuf_.linearize) : FlushEnds answer c := by
  obtain ⟨r, hr, -⟩ := flush_ends answer h
  exact ⟨c.writeBuf_.length + 1, by simp [flush, WhileLoop.loop, hr]⟩

theorem Accounts.close {c : Connection} {written : Bytes} (h : Accounts c written)
    (loop : KqueueLoop) : Accounts (c.close loop).1 written := by
  unfold Connection.close
  split
  · exact h
  · exact ⟨h.sound, h.conserved⟩

/-- `handleWrite` moves bytes from the buffer to the socket and no others. -/
theorem Accounts.handleWrite {answer : Nat → SendAnswer} {c : Connection} {written : Bytes}
    (h : Accounts c written) (loop : KqueueLoop) :
    Accounts (c.handleWrite answer loop).1 written := by
  unfold Connection.handleWrite
  split
  · exact h
  · have hend := flush_spec answer h.sound
    have ha : Accounts (c.flush answer).1 written := ⟨hend.sound, hend.conserved.trans h.conserved⟩
    split <;> next hf => rwa [hf] at ha

theorem Accounts.flushNow {answer : Nat → SendAnswer} {c : Connection} {written : Bytes}
    (h : Accounts c written) (loop : KqueueLoop) : Accounts (c.flushNow answer loop).1 written := by
  unfold Connection.flushNow
  dsimp only
  split
  · exact h
  · exact h.handleWrite _

theorem Accounts.write {answer : Nat → SendAnswer} {c : Connection} {written : Bytes}
    (h : Accounts c written) (ho : c.closed_ = false) {data : Buffer}
    (hd : data.Represents data.linearize) (loop : KqueueLoop) :
    Accounts (c.write answer data loop).1 (written ++ data.linearize) := by
  have hr := (Buffer.move_represents h.sound hd).1
  have ha : Accounts { c with
      writeBuf_ := (c.writeBuf_.move data).1, written := c.written ++ data.linearize }
      (written ++ data.linearize) := ⟨hr.self, by rw [hr.content, ← List.append_assoc, h.conserved]⟩
  simpa [Connection.write, ho] using @Accounts.flushNow answer _ _ ha loop

theorem Accounts.writeText {answer : Nat → SendAnswer} {c : Connection} {written : Bytes}
    (h : Accounts c written) (ho : c.closed_ = false) (data : Bytes) (loop : KqueueLoop) :
    Accounts (c.writeText answer data loop).1 (written ++ data) := by
  have hr := Buffer.add_represents h.sound data
  have ha : Accounts { c with writeBuf_ := c.writeBuf_.add data, written := c.written ++ data }
      (written ++ data) := ⟨hr.self, by rw [hr.content, ← List.append_assoc, h.conserved]⟩
  simpa [Connection.writeText, ho] using @Accounts.flushNow answer _ _ ha loop

/-- On an open connection `write(Buffer&)` empties the caller's buffer. -/
theorem write_empties (answer : Nat → SendAnswer) {c : Connection} (ho : c.closed_ = false)
    (data : Buffer) (loop : KqueueLoop) :
    (c.write answer data loop).2.1.empty = true ∧ (c.write answer data loop).2.1.linearize = [] := by
  simp [Connection.write, ho, Buffer.move, Buffer.empty, Buffer.linearize]

/-- A connection that is closed stays closed. -/
theorem closed_stays {answer : Nat → SendAnswer} {c : Connection} (hc : c.closed_ = true)
    (loop : KqueueLoop) :
    c.close loop = (c, loop) ∧ c.startRead loop = (c, loop) ∧ c.stopRead loop = (c, loop) ∧
      c.handleWrite answer loop = (c, loop, .settled) ∧
      (∀ data, c.write answer data loop = (c, data, loop, .settled)) ∧
      (∀ data, c.writeText answer data loop = (c, loop, .settled)) ∧
      (∀ r, c.handleRead r loop = (c, loop, .nothing)) := by
  simp [Connection.close, Connection.startRead, Connection.stopRead, Connection.handleWrite,
    Connection.write, Connection.writeText, Connection.handleRead, hc]

/-- What `handleRead` finds: nothing to do, a proper buffer of data, the end of
the stream on an open connection, which it closes, or a failure. -/
theorem handleRead_cases (c : Connection) (answer : ReadAnswer) (loop : KqueueLoop) :
    c.handleRead answer loop = (c, loop, .nothing) ∨
    (∃ buf, buf.Proper ∧ c.handleRead answer loop = (c, loop, .data buf)) ∨
    c.handleRead answer loop = ((c.close loop).1, (c.close loop).2, .closed) ∨
    c.handleRead answer loop = (c, loop, .failed) := by
  unfold Connection.handleRead
  by_cases hc : c.closed_ = true
  · exact .inl (by simp [hc])
  · rw [if_neg hc]
    cases answer with
    | fails => exact .inr (.inr (.inr rfl))
    | wouldBlock => exact .inl rfl
    | bytes data =>
      dsimp only
      by_cases hne : data.take (({} : Buffer).reserve kDefaultCapacity).backAvailable = []
      · exact .inr (.inr (.inl (by rw [if_pos hne])))
      · rw [if_neg hne]
        refine .inr (.inl ⟨_, (Buffer.proper_received kDefaultCapacity hne ?_).1, rfl⟩)
        simp only [List.length_take]
        omega

end Connection

open Connection

/-- The calls and events of a connection whose callbacks leave it alone. -/
inductive ConnectionCall where
  | write (data : Buffer.Sound)
  | writeText (data : Bytes)
  | startRead
  | stopRead
  | readable (answer : ReadAnswer)
  | writable

/-- The error branch of `handleWrite` after its callback. -/
def afterFlush : Connection × KqueueLoop × Flushed → Connection × KqueueLoop
  | (c, loop, .settled) => (c, loop)
  | (c, loop, .failed) => c.close loop

/-- The error branch of `handleRead` after its callback. -/
def afterRead : Connection × KqueueLoop × ReadOutcome → Connection × KqueueLoop
  | (c, loop, .failed) => c.close loop
  | (c, loop, _) => (c, loop)

def callConnection (answer : Nat → SendAnswer) :
    Connection × KqueueLoop → ConnectionCall → Connection × KqueueLoop
  | (c, loop), .write data =>
    let (c, _, loop, flushed) := c.write answer data.1 loop
    afterFlush (c, loop, flushed)
  | (c, loop), .writeText data => afterFlush (c.writeText answer data loop)
  | (c, loop), .startRead => c.startRead loop
  | (c, loop), .stopRead => c.stopRead loop
  | (c, loop), .readable r => afterRead (c.handleRead r loop)
  | (c, loop), .writable => afterFlush (c.handleWrite answer loop)

/-- Nothing becomes of a call of a connection that is closed. -/
theorem callConnection_closed {answer : Nat → SendAnswer} {c : Connection} (hc : c.closed_ = true)
    (loop : KqueueLoop) (call : ConnectionCall) :
    callConnection answer (c, loop) call = (c, loop) := by
  obtain ⟨-, h₂, h₃, h₄, h₅, h₆, h₇⟩ := @closed_stays answer c hc loop
  cases call <;> simp [callConnection, afterFlush, afterRead, h₂, h₃, h₄, h₅, h₆, h₇]

/-- The data that a call passes to the connection. -/
def ConnectionCall.passed : ConnectionCall → Bytes
  | .write data => data.1.linearize
  | .writeText data => data
  | .startRead | .stopRead | .readable _ | .writable => []

theorem afterFlush_accounts {r : Connection × KqueueLoop × Flushed} {written : Bytes}
    (h : Accounts r.1 written) : Accounts (afterFlush r).1 written := by
  obtain ⟨c, loop, flushed⟩ := r
  cases flushed with
  | settled => exact h
  | failed => exact h.close loop

/-- What a run keeps: a closed connection only stays closed, an open one
accounts for everything that was passed to it. -/
def RunAccounts (s : Connection × KqueueLoop) (written : Bytes) : Prop :=
  s.1.writeBuf_.Represents s.1.writeBuf_.linearize ∧
    (s.1.closed_ = false → Accounts s.1 written)

theorem runAccounts_of {s : Connection × KqueueLoop} {written : Bytes} (h : Accounts s.1 written) :
    RunAccounts s written := ⟨h.sound, fun _ => h⟩

theorem callConnection_accounts (answer : Nat → SendAnswer) (s : Connection × KqueueLoop)
    (written : Bytes) (call : ConnectionCall) (h : RunAccounts s written) :
    RunAccounts (callConnection answer s call) (written ++ call.passed) := by
  obtain ⟨c, loop⟩ := s
  cases hc : c.closed_ with
  | true =>
    rw [callConnection_closed hc]
    exact ⟨h.1, fun ho => absurd (hc.symm.trans ho) (by decide)⟩
  | false =>
    have ha := h.2 hc
    cases call with
    | write data =>
      exact runAccounts_of (afterFlush_accounts (ha.write hc data.2 loop))
    | writeText data => exact runAccounts_of (afterFlush_accounts (ha.writeText hc data loop))
    | startRead =>
      refine runAccounts_of ⟨?_, ?_⟩ <;>
        simp only [callConnection, Connection.startRead, hc, ConnectionCall.passed, List.append_nil,
          Bool.false_eq_true, if_false]
      · exact ha.sound
      · exact ha.conserved
    | stopRead =>
      refine runAccounts_of ⟨?_, ?_⟩ <;>
        simp only [callConnection, Connection.stopRead, hc, ConnectionCall.passed, List.append_nil,
          Bool.false_eq_true, if_false]
      · exact ha.sound
      · exact ha.conserved
    | readable r =>
      rw [ConnectionCall.passed, List.append_nil]
      apply runAccounts_of
      simp only [callConnection, Connection.handleRead, hc, Bool.false_eq_true, if_false]
      cases r with
      | fails => exact ha.close loop
      | wouldBlock => exact ha
      | bytes data =>
        dsimp only
        split
        · exact ha.close loop
        · exact ha
    | writable =>
      rw [ConnectionCall.passed, List.append_nil]
      exact runAccounts_of (afterFlush_accounts (ha.handleWrite loop))

theorem run_accounts (answer : Nat → SendAnswer) (calls : List ConnectionCall)
    (s : Connection × KqueueLoop) (written : Bytes) (h : RunAccounts s written) :
    RunAccounts (run (callConnection answer) s calls)
      (written ++ calls.flatMap ConnectionCall.passed) := by
  induction calls generalizing s written with
  | nil => simpa using h
  | cons call rest ih =>
    rw [run_cons, List.flatMap_cons, ← List.append_assoc]
    exact ih _ _ (callConnection_accounts answer s written call h)

/-- In every run of a connection, while it is open, the accepted bytes and the
write buffer are the data of all writes in order, `write(Buffer&)` empties the
caller's buffer, and every flush that the run can start ends. -/
theorem connection_writes_conserved (answer : Nat → SendAnswer) (fd : Fd) (loop : KqueueLoop)
    (calls : List ConnectionCall) :
    let c := (run (callConnection answer) ({ socket_ := fd }, loop) calls).1
    (c.closed_ = false →
      c.accepted ++ c.writeBuf_.linearize = calls.flatMap ConnectionCall.passed ∧
      ∀ (data : Buffer.Sound) (loop : KqueueLoop), (c.write answer data.1 loop).2.1.empty = true ∧
        (c.write answer data.1 loop).2.1.linearize = []) ∧
    FlushEnds answer c ∧
    (∀ data : Buffer.Sound,
      FlushEnds answer { c with writeBuf_ := (c.writeBuf_.move data.1).1 }) ∧
    (∀ data : Bytes, FlushEnds answer { c with writeBuf_ := c.writeBuf_.add data }) := by
  intro c
  have h₀ : RunAccounts (({ socket_ := fd } : Connection), loop) [] :=
    runAccounts_of ⟨Buffer.represents_empty, rfl⟩
  obtain ⟨hs, ha⟩ := run_accounts answer calls _ _ h₀
  refine ⟨fun ho => ⟨by simpa using (ha ho).conserved, fun data loop =>
    write_empties answer ho data.1 loop⟩, flushEnds_of_sound answer hs, fun data => ?_, fun data => ?_⟩
  · exact flushEnds_of_sound answer (Buffer.move_represents hs data.2).1.self
  · exact flushEnds_of_sound answer (Buffer.add_represents hs data).self

end DeepSeer
