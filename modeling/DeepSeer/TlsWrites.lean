import DeepSeer.TlsCloses

/-!
What becomes of the data written to a TLS connection. A call of `SSL_write` that
is refused has to be repeated with data that begins with what was offered. What
is offered is the front slice of the write buffer, and neither an append, which
may extend that slice, nor a move, which may shift it, takes its bytes away.
-/
namespace DeepSeer

open ByteMemory WhileLoop Schedules

namespace Buffer

theorem ensureBack_slices {b : Buffer} (hf : b.frontSlice_ ≤ b.slices_.length) (wanted : Nat) :
    b.slices <+: (b.ensureBack wanted).slices := by
  unfold ensureBack
  split
  · rw [slices, slices, List.drop_append_of_le_length hf]
    exact List.prefix_append _ _
  · exact List.prefix_refl _

/-- The first active slice and its data. -/
def FrontHolds (b : Buffer) (data : Bytes) : Prop :=
  ∃ slice rest, b.slices = slice :: rest ∧ data <+: slice.data

theorem FrontHolds.mono {b b' : Buffer} {data : Bytes} (h : b.FrontHolds data)
    (hb : b.slices <+: b'.slices) : b'.FrontHolds data := by
  obtain ⟨slice, rest, hs, hd⟩ := h
  obtain ⟨more, hm⟩ := hb
  exact ⟨slice, rest ++ more, by rw [← hm, hs, List.cons_append], hd⟩

/-- Bytes behind the data of the last slice, which may be the first one. -/
theorem FrontHolds.onBack {b : Buffer} {data : Bytes} (h : b.FrontHolds data)
    {init : List Slice} {s : Slice} {f : Slice → Slice} {suffix : Bytes}
    (he : b.slices_ = init ++ [s]) (hf : b.frontSlice_ ≤ init.length)
    (hdata : (f s).data = s.data ++ suffix) :
    FrontHolds { b with slices_ := DeepSeer.onBack f b.slices_ } data := by
  obtain ⟨slice, rest, hs, hd⟩ := h
  rw [slices, he, List.drop_append_of_le_length hf] at hs
  have hnew : slices { b with slices_ := DeepSeer.onBack f b.slices_ } =
      init.drop b.frontSlice_ ++ [f s] := by
    simp only [slices, he, onBack_append, List.drop_append_of_le_length hf]
  cases hinit : init.drop b.frontSlice_ with
  | nil =>
    rw [hinit, List.nil_append] at hs
    obtain ⟨rfl, -⟩ := List.cons.inj hs
    refine ⟨f s, [], by rw [hnew, hinit, List.nil_append], hd.trans ?_⟩
    rw [hdata]
    exact List.prefix_append _ _
  | cons first more =>
    rw [hinit, List.cons_append] at hs
    obtain ⟨rfl, -⟩ := List.cons.inj hs
    exact ⟨first, more ++ [f s], by rw [hnew, hinit, List.cons_append], hd⟩

theorem addLoop_front {b : Buffer} {c front : Bytes} (data : Bytes) (n : Nat) (stuck : Buffer)
    (h : Shape b c) (hfront : b.FrontHolds front) (hn : data.length < n) :
    (loop addPass n stuck (b, data)).FrontHolds front := by
  refine loop_correct
    (fun p : Buffer × Bytes => (∃ c', Shape p.1 c') ∧ p.1.FrontHolds front)
    (fun p => p.2.length) (fun r : Buffer => r.FrontHolds front) ?_ ?_ ⟨⟨c, h⟩, hfront⟩ hn
  · rintro ⟨d, data⟩ p' ⟨⟨c', hs⟩, hfront⟩ hp
    cases data with
    | nil => simp [addPass] at hp
    | cons byte rest =>
      simp only [addPass, Pass.again.injEq] at hp
      subst hp
      generalize hdata : byte :: rest = data
      have hlen : 0 < data.length := by simp [← hdata]
      have hs' := ensureBack_shape hs data.length
      obtain ⟨init, s, he, hpos, hf⟩ := ensureBack_back hs data.length
      have ho : s.Ordered := hs'.ordered s (by rw [he]; simp)
      rw [backAvailable_eq he]
      set k := min s.available data.length with hk
      have hsplit : ((s.fill (data.take k)).commit k).data = s.data ++ data.take k := by
        rw [Slice.fill_commit_data ho _ (by simp only [List.length_take]; omega), List.take_take,
          Nat.min_self]
      refine ⟨⟨⟨c' ++ data.take k, ?_⟩, ?_⟩, ?_⟩
      · refine onBack_shape (f := fun s => (s.fill (data.take k)).commit k) hs' he
          (by simpa using hf) ?_ hsplit
        exact Slice.commit_ordered (Slice.fill_ordered ho _) (Nat.min_le_left _ _)
      · exact (hfront.mono (ensureBack_slices hs.front _)).onBack
          (f := fun s => (s.fill (data.take k)).commit k) he (by simpa using hf) hsplit
      · simp only [List.length_drop]
        omega
  · rintro ⟨d, data⟩ r ⟨-, hfront⟩ hp
    cases data with
    | nil =>
      simp only [addPass, Pass.leave.injEq] at hp
      subst hp
      exact hfront
    | cons byte rest => simp [addPass] at hp

theorem FrontHolds.add {b : Buffer} {c front : Bytes} (h : b.FrontHolds front)
    (hr : Represents b c) (data : Bytes) : (b.add data).FrontHolds front :=
  addLoop_front (b := { b with totalLength_ := b.totalLength_ + data.length }) data _ _
    ⟨hr.ordered, hr.front, hr.sparse, hr.content⟩ h (Nat.lt_succ_self _)

theorem move_slices (b other : Buffer) : (b.move other).1.slices = b.slices ++ other.slices := by
  unfold move slices
  split
  · rfl
  · next hf =>
    have hzero : b.frontSlice_ = 0 := by omega
    simp [hzero]

theorem FrontHolds.move {b : Buffer} {front : Bytes} (h : b.FrontHolds front) (other : Buffer) :
    (b.move other).1.FrontHolds front := by
  apply h.mono
  rw [move_slices]
  exact List.prefix_append _ _

end Buffer

/-- The latest call of `SSL_write`: what it was offered and what it answered. -/
def lastWrite : List TlsNote → Option (Bytes × SslWriteAnswer)
  | [] => none
  | .ssl (.write offer answer) :: _ => some (offer, answer)
  | _ :: earlier => lastWrite earlier

/-- The offer that is still to be repeated. -/
def refused (trace : List TlsNote) : Option Bytes :=
  match lastWrite trace with
  | some (offer, .stops err) => if err.waits then some offer else none
  | _ => none

/-- A call of `SSL_write` after a refused one is offered data that begins with
what was refused. -/
def RetryRight : TlsNote → List TlsNote → Prop
  | .ssl (.write offer _), earlier => ∀ before, refused earlier = some before → before <+: offer
  | _, _ => True

/-- The data that an action passes to the connection. -/
def TlsAct.passed : TlsAct → Bytes
  | .call (.write data) => data.1.linearize
  | .call (.writeText data) => data
  | _ => []

def TlsNote.isWrite : TlsNote → Bool
  | .ssl (.write _ _) => true
  | _ => false

theorem lastWrite_append {notes : List TlsNote} (h : ∀ n ∈ notes, n.isWrite = false)
    (trace : List TlsNote) : lastWrite (notes ++ trace) = lastWrite trace := by
  induction notes with
  | nil => rfl
  | cons n notes ih =>
    have hn := h n List.mem_cons_self
    have hrest := ih fun m hm => h m (List.mem_cons_of_mem n hm)
    rw [List.cons_append]
    cases n with
    | ssl c =>
      cases c with
      | handshake answer => exact hrest
      | read answer => exact hrest
      | write offer answer => cases hn
    | invoked cb closed watched => exact hrest
    | closed => exact hrest

theorem retryRight_other {n : TlsNote} (h : n.isWrite = false) (earlier : List TlsNote) :
    RetryRight n earlier := by
  cases n with
  | ssl c =>
    cases c with
    | handshake answer => trivial
    | read answer => trivial
    | write offer answer => cases h
  | invoked cb closed watched => trivial
  | closed => trivial

namespace TlsRun

/-- Nothing is written between two states. -/
structure Unwritten (s s' : TlsRun) : Prop where
  notes : ∃ notes, s'.trace = notes ++ s.trace ∧ ∀ n ∈ notes, n.isWrite = false
  writeBuf : s'.conn.writeBuf_ = s.conn.writeBuf_
  accepted : s'.conn.accepted = s.conn.accepted
  closed : s.conn.closed_ = true → s'.conn.closed_ = true

theorem Unwritten.same {s s' : TlsRun} (ht : s'.trace = s.trace)
    (hw : s'.conn.writeBuf_ = s.conn.writeBuf_) (ha : s'.conn.accepted = s.conn.accepted)
    (hc : s'.conn.closed_ = s.conn.closed_) : Unwritten s s' :=
  ⟨⟨[], ht, by simp⟩, hw, ha, hc.trans⟩

theorem Unwritten.refl (s : TlsRun) : Unwritten s s := .same rfl rfl rfl rfl

theorem Unwritten.trans {s s' s'' : TlsRun} (h : Unwritten s s') (h' : Unwritten s' s'') :
    Unwritten s s'' :=
  ⟨notes_trans h.notes h'.notes, h'.writeBuf.trans h.writeBuf, h'.accepted.trans h.accepted,
    fun hc => h'.closed (h.closed hc)⟩

theorem unwritten_note (s : TlsRun) {n : TlsNote} (hn : n.isWrite = false) :
    Unwritten s (s.note n) :=
  ⟨⟨[n], rfl, by simpa using hn⟩, rfl, rfl, fun hc => hc⟩

theorem unwritten_invoke (s : TlsRun) (set : Bool) (cb : TlsCallback) :
    Unwritten s (s.invoke set cb) := by
  unfold invoke
  split
  · exact (unwritten_note s rfl).trans (.same rfl rfl rfl rfl)
  · exact .refl s

theorem unwritten_shut (s : TlsRun) : Unwritten s s.shut := by
  refine ⟨⟨[], rfl, by simp⟩, ?_, ?_, fun _ => shut_closed s⟩
  · unfold shut TlsConnection.close
    split <;> rfl
  · unfold shut TlsConnection.close
    split <;> rfl

theorem unwritten_resume (s : TlsRun) (rest : List Frame) : Unwritten s (s.resume rest) :=
  .same rfl rfl rfl rfl

theorem unwritten_continueHandshake (s : TlsRun) : Unwritten s s.continueHandshake := by
  unfold continueHandshake
  split
  · exact .refl s
  · exact .same rfl rfl rfl rfl

theorem unwritten_doRead (s : TlsRun) : Unwritten s s.doRead := by
  unfold doRead
  split
  · exact .refl s
  · exact .same rfl rfl rfl rfl

theorem unwritten_doWrite (s : TlsRun) : Unwritten s s.doWrite := by
  unfold doWrite
  split
  · exact .refl s
  · exact .same rfl rfl rfl rfl

theorem unwritten_startRead (s : TlsRun) : Unwritten s s.startRead := by
  by_cases hc : s.conn.closed_ = true ∨ s.conn.handshakeDone_ = false
  · rw [startRead_closed hc]
    exact .refl s
  · simp only [not_or, Bool.not_eq_true, Bool.not_eq_false] at hc
    rw [startRead_open hc.1 hc.2]
    exact .same rfl rfl rfl rfl

theorem unwritten_handleIo (s : TlsRun) : Unwritten s s.handleIo := by
  unfold handleIo
  split
  · exact .refl s
  · split
    · exact unwritten_continueHandshake s
    · split
      · apply Unwritten.trans _ (unwritten_doRead _)
        exact .same rfl rfl rfl rfl
      · exact .same rfl rfl rfl rfl

theorem unwritten_afterHandshake (s : TlsRun) (rest : List Frame) (answer : HandshakeAnswer) :
    Unwritten s (s.afterHandshake rest answer) := by
  have hcalled : Unwritten s ((s.called (.handshake answer)
      { s.conn with handshakes := s.conn.handshakes + 1 }).resume rest) :=
    (unwritten_note s (n := .ssl (.handshake answer)) rfl).trans (.same rfl rfl rfl rfl)
  unfold afterHandshake
  cases answer with
  | done =>
    apply Unwritten.trans _ (unwritten_invoke _ _ _)
    exact hcalled.trans (.same rfl rfl rfl rfl)
  | stops err =>
    dsimp only
    split
    · exact hcalled.trans (.same rfl rfl rfl rfl)
    · apply Unwritten.trans _ (unwritten_invoke _ _ _)
      exact (hcalled.trans (unwritten_shut _)).trans (.same rfl rfl rfl rfl)

theorem unwritten_afterRead (s : TlsRun) (rest : List Frame) (answer : SslReadAnswer) :
    Unwritten s (s.afterRead rest answer) := by
  have hnote := unwritten_note s (n := .ssl (.read answer)) rfl
  have hshut := (hnote.trans (unwritten_shut _)).trans (unwritten_resume _ rest)
  unfold afterRead
  cases answer with
  | bytes first more => exact hnote.trans (unwritten_invoke _ _ _)
  | stops err =>
    cases err with
    | wantRead => exact hnote.trans (unwritten_resume _ rest)
    | wantWrite => exact hshut.trans (unwritten_invoke _ _ _)
    | zeroReturn => exact hshut.trans (unwritten_invoke _ _ _)
    | syscall => exact hshut.trans (unwritten_invoke _ _ _)
    | ssl => exact hshut.trans (unwritten_invoke _ _ _)

theorem unwritten_afterWrites (s : TlsRun) (rest : List Frame) :
    Unwritten s (s.afterWrites rest) := by
  unfold afterWrites
  split <;> exact .same rfl rfl rfl rfl

theorem unwritten_afterReads (s : TlsRun) (rest : List Frame) :
    Unwritten s (s.afterReads rest) := by
  unfold afterReads
  split
  · exact unwritten_resume s rest
  · exact (unwritten_resume s rest).trans (unwritten_doWrite _)

/-- What has been accepted and what is buffered make up what was written, and the
buffer begins with an offer that was refused. -/
structure Conserves (s : TlsRun) (written : Bytes) : Prop where
  sound : s.conn.writeBuf_.Represents s.conn.writeBuf_.linearize
  conserved : s.conn.closed_ = false → s.conn.accepted ++ s.conn.writeBuf_.linearize = written
  right : Throughout RetryRight s.trace
  front : s.conn.closed_ = false → ∀ before, refused s.trace = some before →
    before ≠ [] ∧ s.conn.writeBuf_.FrontHolds before

theorem conserves_new (fd : Fd) (id : Nat) (isServer : Bool) (callback : HandshakeCallback)
    (loop : KqueueLoop) : Conserves (new fd id isServer callback loop) [] where
  sound := Buffer.represents_empty
  conserved := fun _ => rfl
  right := trivial
  front := by
    intro _ before h
    cases h

theorem Conserves.unwritten {s s' : TlsRun} {written : Bytes} (h : Conserves s written)
    (hu : Unwritten s s') : Conserves s' written := by
  obtain ⟨notes, ht, hn⟩ := hu.notes
  have hopen : s'.conn.closed_ = false → s.conn.closed_ = false := by
    intro ho
    cases hc : s.conn.closed_ with
    | false => rfl
    | true => exact absurd (ho.symm.trans (hu.closed hc)) (by decide)
  have hrefused : refused s'.trace = refused s.trace := by
    rw [refused, ht, lastWrite_append hn, refused]
  constructor
  · rw [hu.writeBuf]
    exact h.sound
  · intro ho
    rw [hu.accepted, hu.writeBuf]
    exact h.conserved (hopen ho)
  · rw [ht]
    apply h.right.append
    intro later n between heq
    exact retryRight_other (hn n (by simp [heq])) _
  · intro ho
    rw [hrefused, hu.writeBuf]
    exact h.front (hopen ho)

/-- Data behind what is buffered already. -/
theorem Conserves.append {s : TlsRun} {written : Bytes} (h : Conserves s written)
    {writeBuf : Buffer} {data : Bytes}
    (hw : writeBuf.Represents (s.conn.writeBuf_.linearize ++ data))
    (hf : ∀ before, s.conn.writeBuf_.FrontHolds before → writeBuf.FrontHolds before) :
    Conserves (s.append writeBuf data) (written ++ data) := by
  unfold TlsRun.append
  split
  · next hc =>
    exact ⟨h.sound, fun ho => absurd (ho.symm.trans hc) (by decide), h.right, h.front⟩
  · apply Conserves.unwritten _ (unwritten_doWrite _)
    constructor
    · exact hw.self
    · intro ho
      have hall : s.conn.accepted ++ writeBuf.linearize = written ++ data := by
        rw [hw.content, ← List.append_assoc, h.conserved ho]
      exact hall
    · exact h.right
    · intro ho before hb
      exact ⟨(h.front ho before hb).1, hf before (h.front ho before hb).2⟩

theorem offer_cases {s : TlsRun} {data : Bytes} (h : s.offer = some data) :
    data ≠ [] ∧ ∃ slice rest, s.conn.writeBuf_.slices = slice :: rest ∧ slice.data = data := by
  unfold offer at h
  split at h
  · cases h
  · split at h
    · cases h
    · next slice rest hs =>
      split at h
      · cases h
      · next hd =>
        cases h
        exact ⟨hd, slice, rest, hs, rfl⟩

/-- The front of the buffer is what is offered. -/
theorem Conserves.offer {s : TlsRun} {written before : Bytes} (h : Conserves s written)
    (hne : before ≠ []) (hf : s.conn.writeBuf_.FrontHolds before) :
    ∃ data, s.offer = some data ∧ before <+: data := by
  obtain ⟨slice, rest, hs, hd⟩ := hf
  have hdata : slice.data ≠ [] := by
    intro hnil
    rw [hnil] at hd
    exact hne (List.prefix_nil.mp hd)
  have hlin : s.conn.writeBuf_.linearize = slice.data ++ rest.flatMap Slice.data := by
    rw [Buffer.linearize, show s.conn.writeBuf_.slices_.drop s.conn.writeBuf_.frontSlice_ =
      slice :: rest from hs, List.flatMap_cons]
  have hnonempty : ¬s.conn.writeBuf_.empty = true := by
    rw [Buffer.empty_iff h.sound, hlin]
    simp [hdata]
  refine ⟨slice.data, ?_, hd⟩
  simp [TlsRun.offer, hnonempty, hs, hdata]

theorem Conserves.afterWrite {s : TlsRun} {written : Bytes} (h : Conserves s written)
    {rest : List Frame} (hd : Due s .writing rest) {data : Bytes} (ho : s.offer = some data)
    (answer : SslWriteAnswer) : Conserves (s.afterWrite rest data answer) written := by
  obtain ⟨hne, slice, more, hs, hdata⟩ := offer_cases ho
  have hright : RetryRight (.ssl (.write data answer)) s.trace := by
    intro before hb
    obtain ⟨hbne, hfront⟩ := h.front hd.isOpen before hb
    obtain ⟨data', ho', hp⟩ := h.offer hbne hfront
    cases ho.symm.trans ho'
    exact hp
  unfold TlsRun.afterWrite
  cases answer with
  | accepts n =>
    have hdrain := Buffer.drain_represents h.sound (min (n + 1) data.length)
    refine ⟨hdrain.self, fun _ => ?_, ⟨hright, h.right⟩, fun _ before hb => by cases hb⟩
    have hlin : s.conn.writeBuf_.linearize = data ++ more.flatMap Slice.data := by
      rw [Buffer.linearize, show s.conn.writeBuf_.slices_.drop s.conn.writeBuf_.frontSlice_ =
        slice :: more from hs, List.flatMap_cons, hdata]
    have hlen : min (n + 1) data.length ≤ data.length := Nat.min_le_right _ _
    have hrest : s.conn.accepted ++ data.take (min (n + 1) data.length) ++
        (s.conn.writeBuf_.drain (min (n + 1) data.length)).linearize = written := by
      rw [hdrain.content, hlin, List.drop_append_of_le_length hlen, List.append_assoc,
        ← List.append_assoc (data.take _), List.take_append_drop, ← hlin]
      exact h.conserved hd.isOpen
    exact hrest
  | stops err =>
    have hcalled : ∀ before, refused (.ssl (.write data (.stops err)) :: s.trace) = some before →
        before ≠ [] ∧ s.conn.writeBuf_.FrontHolds before := by
      intro before hb
      simp only [refused, lastWrite] at hb
      split at hb
      · cases hb
        exact ⟨hne, slice, more, hs, hdata ▸ List.prefix_refl _⟩
      · cases hb
    have hnoted : Conserves (s.called (.write data (.stops err))
        { s.conn with sslWrites := s.conn.sslWrites + 1 }) written :=
      ⟨h.sound, h.conserved, ⟨hright, h.right⟩, fun _ => hcalled⟩
    dsimp only
    split
    · exact hnoted.unwritten (.same rfl rfl rfl rfl)
    · exact hnoted.unwritten (((unwritten_shut _).trans (unwritten_resume _ rest)).trans
        (unwritten_invoke _ _ _))

/-- A step that passes no data. -/
theorem Conserves.silent {s s' : TlsRun} {written : Bytes} {a : TlsAct} (h : Conserves s written)
    (ha : a.passed = []) (hu : Unwritten s s') : Conserves s' (written ++ a.passed) := by
  rw [ha, List.append_nil]
  exact h.unwritten hu

theorem Conserves.step {s s' : TlsRun} {written : Bytes} {a : TlsAct} (h : Conserves s written)
    (hsane : Sane s) (hstep : s.step a = some s') : Conserves s' (written ++ a.passed) := by
  cases step_stepped hstep with
  | call c hu =>
    cases c with
    | write data =>
      exact h.append (Buffer.move_represents h.sound data.2).1 fun _ hf => hf.move data.1
    | writeText data =>
      exact h.append (Buffer.add_represents h.sound data) fun _ hf => hf.add h.sound data
    | setCallbacks d c e => exact h.silent rfl (.same rfl rfl rfl rfl)
    | startHandshake c e =>
      apply h.silent rfl
      apply Unwritten.trans _ (unwritten_continueHandshake _)
      exact .same rfl rfl rfl rfl
    | startRead => exact h.silent rfl (unwritten_startRead s)
    | close => exact h.silent rfl ((unwritten_shut s).trans (unwritten_note _ rfl))
  | returns cb rest hs => exact h.silent rfl (unwritten_resume s rest)
  | io hs hr => exact h.silent rfl (unwritten_handleIo s)
  | handshake answer rest hs => exact h.silent rfl (unwritten_afterHandshake s rest answer)
  | read answer rest hs => exact h.silent rfl (unwritten_afterRead s rest answer)
  | write answer rest data hs ho =>
    have hw := h.afterWrite (hsane.due hs rfl) ho answer
    rwa [← List.append_nil written] at hw
  | reads rest hs => exact h.silent rfl (unwritten_afterReads s rest)
  | writes rest hs ho => exact h.silent rfl (unwritten_afterWrites s rest)

theorem conserves_run {s s' : TlsRun} {written : Bytes} {actions : List TlsAct}
    (h : Conserves s written) (hsane : Sane s) (hrun : run step s actions = some s') :
    Conserves s' (written ++ actions.flatMap TlsAct.passed) := by
  induction actions generalizing s written with
  | nil =>
    cases hrun
    simpa using h
  | cons a rest ih =>
    obtain ⟨t, hstep, hrest⟩ := run_cons hrun
    rw [List.flatMap_cons, ← List.append_assoc]
    exact ih (h.step hsane hstep) (hsane.step hstep) hrest

end TlsRun

open TlsRun

end DeepSeer
