import DeepSeer.ConnectionEvents

/-!
A connection that has stopped to read, under the events of the loop. Its descriptor
stays watched while there is something to write, and then an event that was captured
before, or the end of file on the write filter, makes it read.
-/
namespace DeepSeer

open ByteMemory ByteText Schedules

namespace KqueueLoop

/-- Nothing new is registered for other descriptors. -/
def KeepsOthers (fd : Fd) (l l' : KqueueLoop) : Prop :=
  ∀ other e, other ≠ fd → l'.fdEntries_ other = some e → l.fdEntries_ other = some e

theorem KeepsOthers.refl (fd : Fd) (l : KqueueLoop) : KeepsOthers fd l l := fun _ _ _ he => he

theorem KeepsOthers.trans {fd : Fd} {l l' l'' : KqueueLoop} (h : KeepsOthers fd l l')
    (h' : KeepsOthers fd l' l'') : KeepsOthers fd l l'' :=
  fun other e hne he => h other e hne (h' other e hne he)

theorem remove_keepsOthers (fd fd' : Fd) (l : KqueueLoop) : KeepsOthers fd l (l.remove fd') := by
  intro other e _ he
  by_cases h : other = fd'
  · subst h
    simp at he
  · rwa [remove_other l h] at he

theorem watch_keepsOthers (fd : Fd) (l : KqueueLoop) (events : IoMask) (cb : IoCallback) :
    KeepsOthers fd l (l.watch fd events cb) := by
  intro other e hne he
  rwa [watch_other l events cb hne] at he

theorem watch_other_filters (l : KqueueLoop) {fd other : Fd} (events : IoMask) (cb : IoCallback)
    (h : other ≠ fd) : (l.watch fd events cb).filters other = l.filters other := by
  by_cases hinvalid : fd = kInvalidFd
  · subst hinvalid
    simp [watch, remove_other_filters l h]
  · simp [watch, hinvalid, h, remove_other_filters l h]

end KqueueLoop

open KqueueLoop

namespace Connection

variable {fd : Fd} {c : Connection} {l : KqueueLoop}

theorem updateEvents_keepsOthers (hfd : c.closed_ = false → c.socket_ = fd) :
    KeepsOthers fd l (c.updateEvents l) := by
  unfold updateEvents
  split
  · exact .refl fd l
  · rename_i ho
    have hsocket := hfd (by simpa using ho)
    dsimp only
    split
    · exact remove_keepsOthers fd _ l
    · rw [hsocket]
      exact watch_keepsOthers fd l _ _

theorem close_keepsOthers (fd : Fd) (c : Connection) (l : KqueueLoop) :
    KeepsOthers fd l (c.close l).2 := by
  unfold close
  split
  · exact .refl fd l
  · exact remove_keepsOthers fd _ l

theorem handleWrite_keepsOthers (answer : Nat → SendAnswer)
    (hfd : c.closed_ = false → c.socket_ = fd) :
    KeepsOthers fd l (afterFlush (c.handleWrite answer l)).2 := by
  have hlink := flush_link answer c
  unfold handleWrite
  split
  · exact .refl fd l
  · split
    · exact close_keepsOthers fd _ l
    · rename_i d hflush
      rw [hflush] at hlink
      exact updateEvents_keepsOthers fun ho => hlink.socket.trans (hfd (hlink.closed ▸ ho))

theorem flushNow_keepsOthers (answer : Nat → SendAnswer)
    (hfd : c.closed_ = false → c.socket_ = fd) :
    KeepsOthers fd l (afterFlush (c.flushNow answer l)).2 := by
  have hupdate := updateEvents_keepsOthers (l := l) hfd
  unfold flushNow
  dsimp only
  split
  · exact hupdate
  · exact hupdate.trans (handleWrite_keepsOthers answer hfd)

theorem handleRead_keepsOthers (fd : Fd) (c : Connection) (l : KqueueLoop) (answer : ReadAnswer) :
    KeepsOthers fd l (afterRead (c.handleRead answer l)).2 := by
  unfold handleRead
  split
  · exact .refl fd l
  · cases answer with
    | fails => exact close_keepsOthers fd c l
    | wouldBlock => exact .refl fd l
    | bytes data =>
      dsimp only
      split
      · exact close_keepsOthers fd c l
      · exact .refl fd l

end Connection

open Connection

theorem operate_keepsOthers (answer : Nat → SendAnswer) {fd : Fd} {s : Connection × KqueueLoop}
    (hfd : s.1.closed_ = false → s.1.socket_ = fd) (op : ConnectionOp) :
    KeepsOthers fd s.2 (operate answer s op).2 := by
  obtain ⟨c, l⟩ := s
  cases op with
  | close => exact close_keepsOthers fd c l
  | releaseSocket => exact remove_keepsOthers fd _ l
  | call call =>
    cases hc : c.closed_ with
    | true =>
      simp only [operate, callConnection_closed hc]
      exact .refl fd l
    | false =>
      have hsocket := hfd hc
      cases call with
      | write data =>
        simp only [operate, callConnection, Connection.write, hc, Bool.false_eq_true, if_false]
        exact flushNow_keepsOthers answer fun _ => hsocket
      | writeText data =>
        simp only [operate, callConnection, Connection.writeText, hc, Bool.false_eq_true, if_false]
        exact flushNow_keepsOthers answer fun _ => hsocket
      | startRead =>
        simp only [operate, callConnection, Connection.startRead, hc, Bool.false_eq_true, if_false]
        exact updateEvents_keepsOthers fun _ => hsocket
      | stopRead =>
        simp only [operate, callConnection, Connection.stopRead, hc, Bool.false_eq_true, if_false]
        exact updateEvents_keepsOthers fun _ => hsocket
      | readable r => exact handleRead_keepsOthers fd c l r
      | writable => exact handleWrite_keepsOthers answer hfd

@[simp] theorem close_id (c : Connection) (l : KqueueLoop) : (c.close l).1.id = c.id := by
  unfold Connection.close
  split <;> rfl

@[simp] theorem afterFlush_id (r : Connection × KqueueLoop × Flushed) :
    (afterFlush r).1.id = r.1.id := by
  obtain ⟨c, l, flushed⟩ := r
  cases flushed <;> simp [afterFlush]

@[simp] theorem afterRead_id (r : Connection × KqueueLoop × ReadOutcome) :
    (afterRead r).1.id = r.1.id := by
  obtain ⟨c, l, outcome⟩ := r
  cases outcome <;> simp [afterRead]

theorem handleRead_id (c : Connection) (answer : ReadAnswer) (l : KqueueLoop) :
    (c.handleRead answer l).1.id = c.id := by
  unfold Connection.handleRead
  split
  · rfl
  · cases answer with
    | bytes data =>
      dsimp only
      split <;> simp
    | _ => rfl

theorem operate_id (answer : Nat → SendAnswer) (s : Connection × KqueueLoop) (op : ConnectionOp) :
    (operate answer s op).1.id = s.1.id := by
  obtain ⟨c, l⟩ := s
  cases op with
  | close => exact close_id c l
  | releaseSocket => rfl
  | call call =>
    cases call with
    | write data =>
      simp only [operate, callConnection, Connection.write]
      split
      · rfl
      · exact (afterFlush_id _).trans (flushNow_link answer _ l).id
    | writeText data =>
      simp only [operate, callConnection, Connection.writeText, afterFlush_id]
      split
      · rfl
      · exact (flushNow_link answer _ l).id
    | startRead =>
      simp only [operate, callConnection, Connection.startRead]
      split <;> rfl
    | stopRead =>
      simp only [operate, callConnection, Connection.stopRead]
      split <;> rfl
    | readable r => simp [operate, callConnection, handleRead_id]
    | writable => simpa [operate, callConnection] using (handleWrite_link answer c l).id

/-- A connection, the rest of the batch that the loop dispatches, and whether the write
half of its callback is still to come. `stolen` is what `onData` was called with while
the connection was not reading. -/
structure Served where
  fd : Fd
  conn : Connection
  loop : KqueueLoop
  batch : List KernelEvent := []
  flushing : Bool := false
  stolen : List Bytes := []

/-- The owner does something, another object calls the loop, the kernel reports a batch,
the loop dispatches the next event up to the read half of the callback, or the write half
comes behind it. -/
inductive Serve where
  | op (op : ConnectionOp)
  | elsewhere (c : LoopCall)
  | capture (events : List KernelEvent)
  | dispatch (answer : ReadAnswer)
  | flush

/-- The owner does not call the handlers of the events. -/
def ConnectionOp.byOwner : ConnectionOp → Bool
  | .call (.readable _) | .call .writable => false
  | .call (.write _) | .call (.writeText _) | .call .startRead | .call .stopRead | .close
  | .releaseSocket => true

/-- The call is about another descriptor and another object. -/
def LoopCall.avoids (fd : Fd) (id : Nat) : LoopCall → Prop
  | .watch fd' _ cb => fd' ≠ fd ∧ cb ≠ .connection id
  | .remove fd' => fd' ≠ fd

instance (fd : Fd) (id : Nat) (c : LoopCall) : Decidable (c.avoids fd id) := by
  unfold LoopCall.avoids
  split <;> infer_instance

namespace Served

/-- The read half of the callback. -/
def readHalf (s : Served) (answer : ReadAnswer) : Served :=
  let r := s.conn.handleRead answer s.loop
  let done := afterRead r
  { s with
    conn := done.1
    loop := done.2
    stolen := match r.2.2 with
      | .data buf => if s.conn.reading_ then s.stolen else s.stolen ++ [buf.linearize]
      | _ => s.stolen }

/-- The connection is called for the event. -/
def called (s : Served) (ev : KernelEvent) : Bool :=
  (s.loop.fdEntries_ ev.ident).map FdEntry.callback = some (.connection s.conn.id)

def step (answer : Nat → SendAnswer) (s : Served) : Serve → Option Served
  | .op op =>
    if op.byOwner then
      let r := operate answer (s.conn, s.loop) op
      some { s with conn := r.1, loop := r.2 }
    else none
  | .elsewhere c =>
    if c.avoids s.fd s.conn.id then some { s with loop := c.perform s.loop } else none
  | .capture events =>
    if s.batch = [] ∧ s.flushing = false ∧
        ∀ ev ∈ events, ev.filter.mask.le (s.loop.filters ev.ident) then
      some { s with batch := events }
    else none
  | .dispatch r =>
    match s.batch with
    | [] => none
    | ev :: rest =>
      if s.flushing then none
      else
        let s := { s with batch := rest }
        if s.called ev then
          let s := { s with flushing := ev.fired.writable }
          some (if ev.fired.readable then s.readHalf r else s)
        else some s
  | .flush =>
    if s.flushing then
      let r := afterFlush (s.conn.handleWrite answer s.loop)
      some { s with conn := r.1, loop := r.2, flushing := false }
    else none

/-- The event is not one that makes a connection read that has stopped to: it does not say
that there is something to read, or the connection has nothing to write. -/
def Expected (s : Served) : Serve → Prop
  | .dispatch _ => ∀ ev ∈ s.batch.head?, ev.ident = s.fd → ev.fired.readable = true →
      s.conn.closed_ = false → s.conn.reading_ = false → s.conn.writeBuf_.empty = true
  | _ => True

instance (s : Served) (a : Serve) : Decidable (s.Expected a) := by
  unfold Expected
  split <;> infer_instance

/-- The connection is watched on its own descriptor only, as its flags and buffer say. -/
structure Watched (s : Served) : Prop where
  valid : s.fd ≠ kInvalidFd
  installed : Installed s.fd s.conn s.loop
  only : ∀ other e, s.loop.fdEntries_ other = some e → e.callback = .connection s.conn.id →
    other = s.fd

theorem Watched.keep {s s' : Served} (h : Watched s) (hfd : s'.fd = s.fd)
    (hinstalled : Installed s.fd s'.conn s'.loop) (hid : s'.conn.id = s.conn.id)
    (hkeeps : KeepsOthers s.fd s.loop s'.loop) : Watched s' := by
  refine ⟨hfd ▸ h.valid, hfd ▸ hinstalled, ?_⟩
  intro other e he hcallback
  rw [hfd]
  by_contra hne
  rw [hid] at hcallback
  exact hne (h.only other e (hkeeps other e hne he) hcallback)

theorem readHalf_watched {s : Served} (h : Watched s) (answer : ReadAnswer) :
    Watched (s.readHalf answer) :=
  h.keep rfl (handleRead_installed h.installed answer)
    ((afterRead_id _).trans (handleRead_id s.conn answer s.loop))
    (handleRead_keepsOthers s.fd s.conn s.loop answer)

/-- A call about another descriptor leaves what is installed. -/
theorem perform_installed {fd : Fd} {conn : Connection} {l : KqueueLoop} {c : LoopCall}
    (h : Installed fd conn l) (hc : c.avoids fd conn.id) : Installed fd conn (c.perform l) := by
  cases c with
  | watch fd' events cb =>
    refine ⟨h.opened, h.closed, ?_, ?_⟩
    · rw [LoopCall.perform, watch_other_filters l events cb (Ne.symm hc.1), h.filters]
    · rw [LoopCall.perform, watch_other l events cb (Ne.symm hc.1), h.entry]
  | remove fd' =>
    refine ⟨h.opened, h.closed, ?_, ?_⟩
    · rw [LoopCall.perform, remove_other_filters l (Ne.symm hc), h.filters]
    · rw [LoopCall.perform, remove_other l (Ne.symm hc), h.entry]

theorem perform_watched {s : Served} (h : Watched s) {c : LoopCall}
    (hc : c.avoids s.fd s.conn.id) : Watched { s with loop := c.perform s.loop } := by
  refine ⟨h.valid, perform_installed h.installed hc, ?_⟩
  intro other e he hcallback
  cases c with
  | watch fd' events cb =>
    by_cases hfd : other = fd'
    · subst hfd
      simp only [LoopCall.perform, watch_entry, Option.some.injEq] at he
      subst he
      exact absurd hcallback hc.2
    · simp only [LoopCall.perform, watch_other s.loop events cb hfd] at he
      exact h.only other e he hcallback
  | remove fd' =>
    by_cases hfd : other = fd'
    · subst hfd
      simp [LoopCall.perform] at he
    · simp only [LoopCall.perform, remove_other s.loop hfd] at he
      exact h.only other e he hcallback

/-- A connection that is called has its own descriptor watched. -/
theorem called_wanted {s : Served} (h : Watched s) {ev : KernelEvent} (hcalled : s.called ev = true) :
    ev.ident = s.fd ∧ s.conn.wanted ≠ {} := by
  simp only [called, decide_eq_true_eq] at hcalled
  obtain ⟨e, he, hcallback⟩ := Option.map_eq_some_iff.mp hcalled
  have hident := h.only ev.ident e he hcallback
  refine ⟨hident, ?_⟩
  intro hnone
  rw [hident, h.installed.entry, if_pos hnone] at he
  cases he

/-- An expected event takes nothing from a connection that has stopped to read. -/
theorem readHalf_stolen {s : Served} (h : Watched s) {ev : KernelEvent}
    (hcalled : s.called ev = true) (hreadable : ev.fired.readable = true)
    (hexpected : ev.ident = s.fd → ev.fired.readable = true → s.conn.closed_ = false →
      s.conn.reading_ = false → s.conn.writeBuf_.empty = true) (answer : ReadAnswer) :
    (s.readHalf answer).stolen = s.stolen := by
  obtain ⟨hident, hwanted⟩ := called_wanted h hcalled
  have hopen : s.conn.closed_ = false := by
    by_contra hclosed
    exact hwanted (by simp [wanted, hclosed])
  have hreading : s.conn.reading_ = true := by
    by_contra hstopped
    rw [Bool.not_eq_true] at hstopped
    have hempty := hexpected hident hreadable hopen hstopped
    exact hwanted (by simp [wanted, hopen, hstopped, hempty])
  simp only [readHalf, hreading, if_true]
  split <;> rfl

/-- What holds of a connection whose events are all expected. -/
structure Calm (s : Served) : Prop where
  watched : Watched s
  stolen : s.stolen = []

theorem calm_step (answer : Nat → SendAnswer) {s s' : Served} {a : Serve} (h : Calm s)
    (hexpected : s.Expected a) (hstep : s.step answer a = some s') : Calm s' := by
  obtain ⟨hwatched, hstolen⟩ := h
  cases a with
  | op op =>
    simp only [step, Option.ite_none_right_eq_some, Option.some.injEq] at hstep
    obtain ⟨-, rfl⟩ := hstep
    refine ⟨hwatched.keep rfl ?_ ?_ ?_, hstolen⟩
    · exact operate_installed answer hwatched.valid
        (show Installed s.fd (s.conn, s.loop).1 (s.conn, s.loop).2 from hwatched.installed) op
    · exact operate_id answer (s.conn, s.loop) op
    · exact operate_keepsOthers answer
        (show (s.conn, s.loop).1.closed_ = false → _ from hwatched.installed.opened) op
  | elsewhere c =>
    simp only [step, Option.ite_none_right_eq_some, Option.some.injEq] at hstep
    obtain ⟨havoids, rfl⟩ := hstep
    exact ⟨perform_watched hwatched havoids, hstolen⟩
  | capture events =>
    simp only [step, Option.ite_none_right_eq_some, Option.some.injEq] at hstep
    obtain ⟨-, rfl⟩ := hstep
    exact ⟨⟨hwatched.valid, hwatched.installed, hwatched.only⟩, hstolen⟩
  | flush =>
    simp only [step, Option.ite_none_right_eq_some, Option.some.injEq] at hstep
    obtain ⟨-, rfl⟩ := hstep
    refine ⟨hwatched.keep rfl ?_ ?_ ?_, hstolen⟩
    · exact callConnection_installed answer hwatched.valid
        (show Installed s.fd (s.conn, s.loop).1 (s.conn, s.loop).2 from hwatched.installed) .writable
    · exact operate_id answer (s.conn, s.loop) (.call .writable)
    · exact handleWrite_keepsOthers answer hwatched.installed.opened
  | dispatch r =>
    simp only [step] at hstep
    cases hbatch : s.batch with
    | nil => simp [hbatch] at hstep
    | cons ev rest =>
      have hevent := hexpected ev (by simp [hbatch])
      simp only [hbatch] at hstep
      split at hstep
      · cases hstep
      · split at hstep
        · rename_i hcalled
          have hbefore : Watched { s with batch := rest, flushing := ev.fired.writable } :=
            ⟨hwatched.valid, hwatched.installed, hwatched.only⟩
          split at hstep
          · rename_i hreadable
            cases hstep
            exact ⟨readHalf_watched hbefore r,
              (readHalf_stolen hbefore hcalled hreadable hevent r).trans hstolen⟩
          · cases hstep
            exact ⟨hbefore, hstolen⟩
        · cases hstep
          exact ⟨⟨hwatched.valid, hwatched.installed, hwatched.only⟩, hstolen⟩

/-- A new connection. -/
def accepted (fd : Fd) (id : Nat) (loop : KqueueLoop) : Served :=
  { fd := fd, conn := { id := id, socket_ := fd }, loop := loop }

/-- A connection takes no data while it is not reading, in every run in which no event with
something to read, or with the end of file, is dispatched to it while it is open, not
reading, and has something to write. -/
theorem stopped_reads_nothing (answer : Nat → SendAnswer) (fd : Fd) (id : Nat)
    (loop : KqueueLoop) (hvalid : fd ≠ kInvalidFd) (hfilters : loop.filters fd = {})
    (hentry : loop.fdEntries_ fd = none)
    (hnew : ∀ other e, loop.fdEntries_ other = some e → e.callback ≠ .connection id)
    (actions : List Serve) (s : Served)
    (hexpected : Along (step answer) Expected (accepted fd id loop) actions)
    (hrun : run (step answer) (accepted fd id loop) actions = some s) : s.stolen = [] := by
  have hinstalled : Installed fd (accepted fd id loop).conn loop :=
    ⟨fun _ => rfl, by simp [accepted], hfilters, hentry⟩
  have hcalm : Calm (accepted fd id loop) :=
    ⟨⟨hvalid, hinstalled, fun other e he hcallback => absurd hcallback (hnew other e he)⟩, rfl⟩
  exact (run_invariant Calm (fun _ _ _ h ha hs => calm_step answer h ha hs) hcalm hexpected
    hrun).stolen

/-- An answer that could not be sent yet, a stop, and the socket that becomes writable. -/
def stoppedActions (eof : Bool) (data : Bytes) : List Serve :=
  [.op (.call (.writeText (text "HTTP/1.1 200 OK"))), .op (.call .startRead),
    .op (.call .stopRead), .capture [⟨5, .write, eof⟩], .dispatch (.bytes data), .flush]

theorem stopped_reads_nothing_writable : ∃ s,
    run (step fun _ => .wouldBlock) (accepted 5 0 {}) (stoppedActions false [22]) = some s ∧
      s.stolen = [] :=
  ⟨_, rfl, stopped_reads_nothing (fun _ => .wouldBlock) 5 0 {} (by decide) rfl rfl (by simp)
    (stoppedActions false [22]) _ (by decide) rfl⟩

/-- The end of file on the write filter makes a stopped connection read. -/
theorem end_of_file_read : ∃ s,
    run (step fun _ => .wouldBlock) (accepted 5 0 {}) (stoppedActions true [22]) = some s ∧
      s.stolen ≠ [] :=
  ⟨_, rfl, by decide⟩

/-- One byte is taken and passed on. -/
theorem handleRead_byte (c : Connection) (l : KqueueLoop) (b : UInt8) (hopen : c.closed_ = false) :
    ∃ buf, (c.handleRead (.bytes [b]) l).2.2 = .data buf := by
  have hroom : ¬ (({} : Buffer).reserve kDefaultCapacity).backAvailable = 0 := by decide
  simp only [Connection.handleRead, hopen, Bool.false_eq_true, if_false]
  rw [if_neg (by simpa using hroom)]
  exact ⟨_, rfl⟩

/-- An event that is not expected takes whatever there is to read. -/
theorem unexpected_stolen (answer : Nat → SendAnswer) {s : Served} {r : ReadAnswer}
    (h : Watched s) (hflushing : s.flushing = false) (hunexpected : ¬ s.Expected (.dispatch r))
    (b : UInt8) : ∃ s', s.step answer (.dispatch (.bytes [b])) = some s' ∧ s'.stolen ≠ s.stolen := by
  simp only [Expected, Classical.not_imp, not_forall] at hunexpected
  obtain ⟨ev, hev, hident, hreadable, hopen, hstopped, hfull⟩ := hunexpected
  obtain ⟨rest, hbatch⟩ := List.head?_eq_some_iff.mp hev
  have hwanted : s.conn.wanted ≠ {} := by
    simp [wanted, hopen, hfull]
  have hcalled : s.called ev = true := by
    simp [called, hident, h.installed.entry, hwanted]
  obtain ⟨buf, hbuf⟩ := handleRead_byte s.conn s.loop b hopen
  refine ⟨{ s with batch := rest, flushing := ev.fired.writable }.readHalf (.bytes [b]), ?_, ?_⟩
  · have hsame : ({ s with batch := rest } : Served).called ev = true := hcalled
    simp only [step, hbatch, hflushing, Bool.false_eq_true, if_false]
    rw [hflushing] at hsame
    rw [if_pos hsame, if_pos hreadable]
  · simp [readHalf, hbuf, hstopped]

end Served

end DeepSeer
