import DeepSeer.ByteText
import DeepSeer.ConnectionWrites
import DeepSeer.EventDispatch

/-!
The filters that a connection has in the kernel queue. After every operation they are
those that its flags and its write buffer ask for, and the table of the loop says so.
-/
namespace DeepSeer

open ByteMemory ByteText WhileLoop Runs

namespace KqueueLoop

/-- The filters of a descriptor are exactly those of its entry. -/
def Agrees (l : KqueueLoop) (fd : Fd) : Prop :=
  l.filters fd = (l.fdEntries_ fd).elim {} FdEntry.events

theorem remove_filters {l : KqueueLoop} {fd : Fd} (h : l.Agrees fd) :
    (l.remove fd).filters fd = {} := by
  unfold Agrees at h
  cases hentry : l.fdEntries_ fd with
  | none => simpa [remove, hentry] using h
  | some entry => simp_all [remove, IoMask.minus]

theorem remove_other_filters (l : KqueueLoop) {fd other : Fd} (h : other ≠ fd) :
    (l.remove fd).filters other = l.filters other := by
  unfold remove
  split <;> simp [h]

theorem watch_filters {l : KqueueLoop} {fd : Fd} (h : l.Agrees fd) (hvalid : fd ≠ kInvalidFd)
    (events : IoMask) (cb : IoCallback) : (l.watch fd events cb).filters fd = events := by
  simp [watch, hvalid, remove_filters h, IoMask.union]

end KqueueLoop

namespace Connection

/-- What the connection wants to be told of. -/
def wanted (c : Connection) : IoMask :=
  if c.closed_ then {} else ⟨c.reading_, !c.writeBuf_.empty⟩

/-- The filters and the entry of the descriptor are those that the connection wants. -/
structure Installed (fd : Fd) (c : Connection) (l : KqueueLoop) : Prop where
  opened : c.closed_ = false → c.socket_ = fd
  closed : c.closed_ = true → c.socket_ = kInvalidFd
  filters : l.filters fd = c.wanted
  entry : l.fdEntries_ fd =
    if c.wanted = {} then none else some ⟨c.wanted, .connection c.id⟩

variable {fd : Fd} {c : Connection} {l : KqueueLoop}

theorem Installed.agrees (h : Installed fd c l) : l.Agrees fd := by
  unfold KqueueLoop.Agrees
  rw [h.filters, h.entry]
  by_cases hwanted : c.wanted = {}
  · simp [hwanted]
  · simp [hwanted]

/-- `updateEvents` installs what is wanted, whatever was installed before. -/
theorem updateEvents_installed (hvalid : fd ≠ kInvalidFd) (hagrees : l.Agrees fd)
    (ho : c.closed_ = false) (hfd : c.socket_ = fd) : Installed fd c (c.updateEvents l) := by
  have hwanted : c.wanted = ⟨c.reading_, !c.writeBuf_.empty⟩ := by simp [wanted, ho]
  refine ⟨fun _ => hfd, by simp [ho], ?_, ?_⟩
  · by_cases hnone : c.wanted = {}
    · rw [hwanted] at hnone
      simp [updateEvents, ho, hfd, hwanted, hnone, KqueueLoop.remove_filters hagrees]
    · rw [hwanted] at hnone
      simp [updateEvents, ho, hfd, hwanted, hnone, KqueueLoop.watch_filters hagrees hvalid]
  · by_cases hnone : c.wanted = {}
    · rw [if_pos hnone]
      rw [hwanted] at hnone
      simp [updateEvents, ho, hfd, hnone]
    · rw [if_neg hnone]
      rw [hwanted] at hnone ⊢
      simp [updateEvents, ho, hfd, hnone]

theorem close_installed (ho : c.closed_ = false) (hfd : c.socket_ = fd) :
    Installed fd (c.close l).1 (c.close l).2 := by
  simp only [close, ho, Bool.false_eq_true, if_false]
  refine ⟨by simp, fun _ => rfl, ?_, ?_⟩
  · simp [wanted, hfd, KqueueLoop.closeFd]
  · simp [wanted, hfd]

theorem Installed.close (h : Installed fd c l) :
    Installed fd (c.close l).1 (c.close l).2 := by
  cases hc : c.closed_ with
  | true => simpa [Connection.close, hc] using h
  | false => exact close_installed hc (h.opened hc)

theorem Installed.releaseSocket (h : Installed fd c l) (hvalid : fd ≠ kInvalidFd) :
    Installed fd (c.releaseSocket l).2.1 (c.releaseSocket l).2.2 := by
  have hnone : (c.releaseSocket l).2.1.wanted = {} := by simp [Connection.releaseSocket, wanted]
  refine ⟨by simp [Connection.releaseSocket], fun _ => rfl, ?_, ?_⟩
  · rw [hnone]
    cases hc : c.closed_ with
    | true =>
      have hfilters := h.filters
      simp only [wanted, hc, if_true] at hfilters
      simp [Connection.releaseSocket, h.closed hc, KqueueLoop.remove_other_filters l hvalid,
        hfilters]
    | false => simp [Connection.releaseSocket, h.opened hc, KqueueLoop.remove_filters h.agrees]
  · rw [if_pos hnone]
    cases hc : c.closed_ with
    | true =>
      have hentry := h.entry
      simp only [wanted, hc, if_true] at hentry
      simp [Connection.releaseSocket, h.closed hc, KqueueLoop.remove_other l hvalid, hentry]
    | false => simp [Connection.releaseSocket, h.opened hc]

/-- A flush that fails is followed by a close, any other by a new look at the buffer. -/
theorem handleWrite_installed (answer : Nat → SendAnswer) (hvalid : fd ≠ kInvalidFd)
    (hagrees : l.Agrees fd) (ho : c.closed_ = false) (hfd : c.socket_ = fd) :
    Installed fd (afterFlush (c.handleWrite answer l)).1
      (afterFlush (c.handleWrite answer l)).2 := by
  have hlink := flush_link answer c
  simp only [handleWrite, ho, Bool.false_eq_true, if_false]
  split
  · rename_i d hflush
    rw [hflush] at hlink
    exact close_installed (hlink.closed.trans ho) (hlink.socket.trans hfd)
  · rename_i d hflush
    rw [hflush] at hlink
    exact updateEvents_installed hvalid hagrees (hlink.closed.trans ho) (hlink.socket.trans hfd)

theorem flushNow_installed (answer : Nat → SendAnswer) (hvalid : fd ≠ kInvalidFd)
    (hagrees : l.Agrees fd) (ho : c.closed_ = false) (hfd : c.socket_ = fd) :
    Installed fd (afterFlush (c.flushNow answer l)).1 (afterFlush (c.flushNow answer l)).2 := by
  have hupdated := updateEvents_installed hvalid hagrees ho hfd
  unfold flushNow
  dsimp only
  split
  · exact hupdated
  · exact handleWrite_installed answer hvalid hupdated.agrees ho hfd

theorem handleRead_installed (h : Installed fd c l) (answer : ReadAnswer) :
    Installed fd (afterRead (c.handleRead answer l)).1 (afterRead (c.handleRead answer l)).2 := by
  unfold handleRead
  split
  · exact h
  · cases answer with
    | fails => exact h.close
    | wouldBlock => exact h
    | bytes data =>
      dsimp only
      split
      · exact h.close
      · exact h

end Connection

open Connection

/-- What is done to a connection and what happens to it. -/
inductive ConnectionOp where
  | call (c : ConnectionCall)
  | close
  | releaseSocket

def operate (answer : Nat → SendAnswer) (s : Connection × KqueueLoop) :
    ConnectionOp → Connection × KqueueLoop
  | .call c => callConnection answer s c
  | .close => s.1.close s.2
  | .releaseSocket => (s.1.releaseSocket s.2).2

theorem callConnection_installed (answer : Nat → SendAnswer) {fd : Fd} (hvalid : fd ≠ kInvalidFd)
    {s : Connection × KqueueLoop} (h : Installed fd s.1 s.2) (call : ConnectionCall) :
    Installed fd (callConnection answer s call).1 (callConnection answer s call).2 := by
  obtain ⟨c, l⟩ := s
  cases hc : c.closed_ with
  | true =>
    rw [callConnection_closed hc]
    exact h
  | false =>
    have hfd := h.opened hc
    cases call with
    | write data =>
      simp only [callConnection, Connection.write, hc, Bool.false_eq_true, if_false]
      exact flushNow_installed answer hvalid h.agrees rfl hfd
    | writeText data =>
      simp only [callConnection, Connection.writeText, hc, Bool.false_eq_true, if_false]
      exact flushNow_installed answer hvalid h.agrees rfl hfd
    | startRead =>
      simp only [callConnection, Connection.startRead, hc, Bool.false_eq_true, if_false]
      exact updateEvents_installed hvalid h.agrees rfl hfd
    | stopRead =>
      simp only [callConnection, Connection.stopRead, hc, Bool.false_eq_true, if_false]
      exact updateEvents_installed hvalid h.agrees rfl hfd
    | readable r => exact handleRead_installed h r
    | writable => exact handleWrite_installed answer hvalid h.agrees hc hfd

theorem operate_installed (answer : Nat → SendAnswer) {fd : Fd} (hvalid : fd ≠ kInvalidFd)
    {s : Connection × KqueueLoop} (h : Installed fd s.1 s.2) (op : ConnectionOp) :
    Installed fd (operate answer s op).1 (operate answer s op).2 := by
  cases op with
  | call c => exact callConnection_installed answer hvalid h c
  | close => exact h.close
  | releaseSocket => exact h.releaseSocket hvalid

theorem run_installed (answer : Nat → SendAnswer) {fd : Fd} (hvalid : fd ≠ kInvalidFd)
    {s : Connection × KqueueLoop} (h : Installed fd s.1 s.2) (ops : List ConnectionOp) :
    Installed fd (run (operate answer) s ops).1 (run (operate answer) s ops).2 := by
  induction ops generalizing s with
  | nil => exact h
  | cons op ops ih => exact ih (operate_installed answer hvalid h op)

/-- After any operations on a new connection, the filters of its descriptor are READ where it
is open and reads, and WRITE where it is open and has something to write; the table of the
loop has the same mask, or nothing where it is empty. -/
theorem filters_installed (answer : Nat → SendAnswer) (c : Connection) (loop : KqueueLoop)
    (hvalid : c.socket_ ≠ kInvalidFd) (hopen : c.closed_ = false) (hidle : c.reading_ = false)
    (hempty : c.writeBuf_.empty = true) (hentry : loop.fdEntries_ c.socket_ = none)
    (hfilters : loop.filters c.socket_ = {}) (ops : List ConnectionOp) :
    let s := run (operate answer) (c, loop) ops
    s.2.filters c.socket_ = s.1.wanted ∧
      s.2.fdEntries_ c.socket_ =
        if s.1.wanted = {} then none else some ⟨s.1.wanted, .connection s.1.id⟩ := by
  have hnone : c.wanted = {} := by simp [wanted, hopen, hidle, hempty]
  have hstart : Installed c.socket_ c loop :=
    ⟨fun _ => rfl, by simp [hopen], by rw [hnone, hfilters], by rw [if_pos hnone, hentry]⟩
  have hend := run_installed answer hvalid
    (show Installed c.socket_ (c, loop).1 (c, loop).2 from hstart) ops
  exact ⟨hend.filters, hend.entry⟩

/-- A write that blocks, and a close. -/
theorem filters_installed_blocked :
    let s := run (operate fun _ => .wouldBlock) ({ socket_ := 5 }, {})
      [.call .startRead, .call (.writeText (text "HTTP/1.1 200")), .close]
    s.2.filters 5 = s.1.wanted ∧
      s.2.fdEntries_ 5 =
        if s.1.wanted = {} then none else some ⟨s.1.wanted, .connection s.1.id⟩ :=
  filters_installed (fun _ => .wouldBlock) { socket_ := 5 } {} (by decide) rfl rfl rfl rfl rfl
    [.call .startRead, .call (.writeText (text "HTTP/1.1 200")), .close]

end DeepSeer
