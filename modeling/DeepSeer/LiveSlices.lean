import DeepSeer.ConnectionSteps
import DeepSeer.TlsWrites

/-!
Buffers as the proxy uses them have no active slice without data, so what a connection
finds at the front of its write buffer can be offered to the socket. `SSL_write` takes the
length as an `int`, which a slice of two gigabytes does not fit in.
-/
namespace DeepSeer

open ByteMemory WhileLoop Schedules

namespace Buffer

/-- The buffers that the operations of the proxy build. A reservation is committed at once,
with at least one byte of what has been read into it. -/
inductive Used : Buffer → Prop
  | empty : Used {}
  | add {b : Buffer} (data : Bytes) : Used b → Used (b.add data)
  | commit {b : Buffer} (hint n : Nat) (bytes : Bytes) : Used b → 1 ≤ n → n ≤ bytes.length →
      bytes.length ≤ (b.reserve hint).region.length →
      Used (((b.reserve hint).fill bytes).commit n)
  | drain {b : Buffer} (n : Nat) : Used b → Used (b.drain n)
  | move {b other : Buffer} : Used b → Used other → Used (b.move other).1
  | moved {b other : Buffer} : Used b → Used other → Used (b.move other).2

theorem Used.proper {b : Buffer} (h : b.Used) : b.Proper := by
  induction h with
  | empty => exact proper_empty
  | add data h ih => exact (ih.add data).1
  | commit hint n bytes h hpos hlen hregion ih =>
    have hr := reserve_commit_represents ih.represents hint n bytes hlen
      (Nat.le_trans hlen hregion)
    exact ⟨hr.self, reserve_commit_live ih.represents ih.live hint bytes hpos⟩
  | drain n h ih => exact (ih.drain n).1
  | move h h' ih ih' => exact (ih.move ih').1
  | moved h h' ih ih' => exact proper_empty

/-- A buffer that is not empty has a first slice, and that one has data. -/
theorem Proper.front {b : Buffer} (h : b.Proper) (hne : b.empty = false) :
    ∃ slice rest, b.slices = slice :: rest ∧ slice.data ≠ [] := by
  cases hs : b.slices with
  | nil =>
    have hlin : b.linearize = [] := by
      rw [linearize, show b.slices_.drop b.frontSlice_ = [] from hs, List.flatMap_nil]
    have hempty := (empty_iff h.represents).mpr hlin
    exact absurd (hne.symm.trans hempty) (by decide)
  | cons slice rest =>
    have hpos := h.live slice (by rw [hs]; exact List.mem_cons_self)
    rw [← Slice.data_length] at hpos
    exact ⟨slice, rest, rfl, List.length_pos_iff.mp hpos⟩

/-- All active slices have fewer than `bound` bytes. -/
def Within (bound : Nat) (b : Buffer) : Prop := ∀ slice ∈ b.slices, slice.length < bound

theorem within_empty (bound : Nat) : Within bound {} := by simp [Within, slices]

theorem drainPass_within {bound : Nat} {p p' : Buffer × Nat} (h : p.1.Within bound)
    (hp : drainPass p = .again p') : p'.1.Within bound := by
  obtain ⟨b, remaining⟩ := p
  unfold drainPass at hp
  dsimp only at hp
  split at hp
  · cases hp
  · next front hfront =>
    split at hp
    · cases hp
    · cases hp
      have hactive : ∀ slice ∈ front :: b.slices_.drop (b.frontSlice_ + 1),
          slice.length < bound := by
        intro slice hmem
        apply h slice
        rw [slices, slices_cons hfront]
        exact hmem
      intro slice hmem
      rw [slices_drained hfront] at hmem
      split at hmem
      · exact hactive slice (List.mem_cons_of_mem _ hmem)
      · rcases List.mem_cons.mp hmem with rfl | hmem
        · have hfirst := hactive front List.mem_cons_self
          rw [Slice.drain_length]
          omega
        · exact hactive slice (List.mem_cons_of_mem _ hmem)

theorem drainPass_leaves {p r : Buffer × Nat} (hp : drainPass p = .leave r) : r = p := by
  obtain ⟨b, remaining⟩ := p
  unfold drainPass at hp
  dsimp only at hp
  split at hp
  · cases hp
    rfl
  · split at hp
    · cases hp
      rfl
    · cases hp

theorem Within.drain {bound : Nat} {b : Buffer} (h : b.Within bound) (n : Nat) :
    (b.drain n).Within bound := by
  have hloop : (b.drainLoop n).1.Within bound :=
    loop_kept (fun p : Buffer × Nat => p.1.Within bound) (fun p => p.1.Within bound)
      (fun p p' hp he => drainPass_within hp he)
      (fun p r hp he => drainPass_leaves he ▸ hp) h h
  unfold Buffer.drain
  dsimp only
  split
  · exact within_empty bound
  · split
    · exact hloop
    · exact hloop

end Buffer

/-- The slice that `add` makes for its data. -/
def Slice.holding (data : Bytes) : Slice :=
  ((Slice.ofCapacity (max data.length kDefaultCapacity)).fill data).commit data.length

theorem Slice.holding_data (data : Bytes) : (Slice.holding data).data = data := by
  have hdata := Slice.fill_commit_data (Slice.ofCapacity_ordered
    (max data.length kDefaultCapacity)) data (Nat.le_refl data.length)
  rwa [Slice.ofCapacity_data, List.nil_append, List.take_length] at hdata

namespace Buffer

/-- Into an empty buffer data goes as one slice. -/
theorem add_empty {data : Bytes} (hne : data ≠ []) :
    ({} : Buffer).add data = { slices_ := [Slice.holding data], totalLength_ := data.length } := by
  have hroom : min (max data.length kDefaultCapacity) data.length = data.length :=
    Nat.min_eq_right (Nat.le_max_left _ _)
  have hcopy : addPass ({ totalLength_ := 0 + data.length }, data) =
      .again ({ slices_ := [Slice.holding data], totalLength_ := data.length }, []) := by
    cases data with
    | nil => exact absurd rfl hne
    | cons byte rest =>
      simp only [addPass]
      generalize byte :: rest = data at *
      simp only [ensureBack, backAvailable, List.getLast?_nil, List.getLast?_singleton,
        Option.map_none, Option.map_some, Option.getD_none, Option.getD_some, ↓reduceIte,
        List.nil_append, Nat.zero_add, Slice.ofCapacity_available, hroom, List.take_length,
        List.drop_length, onBack, Slice.holding]
  obtain ⟨n, hn⟩ := Nat.exists_eq_succ_of_ne_zero (List.length_eq_zero_iff.not.mpr hne)
  have hpasses : iterate addPass (data.length + 1) ({ totalLength_ := 0 + data.length }, data) =
      some { slices_ := [Slice.holding data], totalLength_ := data.length } := by
    rw [iterate_again hcopy, hn]
    exact iterate_leave rfl n
  simp only [add, loop, hpasses, Option.getD_some]

end Buffer

/-- The length that `SSL_write` is called with, a `static_cast<int>`. -/
def sslLength (data : Bytes) : Int := (data.length : Int).bmod (2 ^ 32)

theorem sslLength_pos_iff (data : Bytes) :
    0 < sslLength data ↔ 0 < data.length % 2 ^ 32 ∧ data.length % 2 ^ 32 < 2 ^ 31 := by
  unfold sslLength
  rw [Int.bmod_def]
  split <;> omega

theorem sslLength_pos {data : Bytes} (hpos : 0 < data.length) (hlt : data.length < 2 ^ 31) :
    0 < sslLength data := by
  rw [sslLength_pos_iff]
  omega

def ConnectionAct.Uses : ConnectionAct → Prop
  | .call (.write data) => data.1.Used
  | _ => True

def TlsAct.Uses : TlsAct → Prop
  | .call (.write data) => data.1.Used
  | _ => True

namespace Connection

theorem close_writeBuf (c : Connection) (loop : KqueueLoop) :
    (c.close loop).1.writeBuf_ = c.writeBuf_ := by
  unfold Connection.close
  split <;> rfl

theorem startRead_writeBuf (c : Connection) (loop : KqueueLoop) :
    (c.startRead loop).1.writeBuf_ = c.writeBuf_ := by
  unfold Connection.startRead
  split <;> rfl

theorem stopRead_writeBuf (c : Connection) (loop : KqueueLoop) :
    (c.stopRead loop).1.writeBuf_ = c.writeBuf_ := by
  unfold Connection.stopRead
  split <;> rfl

end Connection

namespace ConnectionRun

theorem shut_writeBuf (s : ConnectionRun) : s.shut.conn.writeBuf_ = s.conn.writeBuf_ :=
  s.conn.close_writeBuf s.loop

theorem fail_writeBuf (s : ConnectionRun) (err : SocketError) :
    (s.fail err).conn.writeBuf_ = s.conn.writeBuf_ := by
  unfold fail
  split
  · rw [invoke_conn]
  · exact shut_writeBuf s

theorem append_proper {s : ConnectionRun} (h : s.conn.writeBuf_.Proper) {writeBuf : Buffer}
    (hw : writeBuf.Proper) (data : Bytes) : (s.append writeBuf data).conn.writeBuf_.Proper := by
  unfold append
  split
  · exact h
  · dsimp only
    split
    · exact hw
    · rw [handleWrite_conn]
      exact hw

theorem call_proper {s : ConnectionRun} (h : s.conn.writeBuf_.Proper) {c : UserCall}
    (hu : (ConnectionAct.call c).Uses) : (s.call c).conn.writeBuf_.Proper := by
  cases c with
  | setCallbacks d c e => exact h
  | startRead => exact (s.conn.startRead_writeBuf s.loop).symm ▸ h
  | stopRead => exact (s.conn.stopRead_writeBuf s.loop).symm ▸ h
  | write data => exact append_proper h (h.move (Buffer.Used.proper hu)).1 _
  | writeText data => exact append_proper h (h.add data).1 _
  | shutdownWrite => exact h
  | close => exact (shut_writeBuf s).symm ▸ h
  | releaseSocket => exact h

theorem afterRecv_writeBuf (s : ConnectionRun) (rest : List ConnectionFrame)
    (answer : ReadAnswer) : (s.afterRecv rest answer).conn.writeBuf_ = s.conn.writeBuf_ := by
  unfold afterRecv
  rcases s.conn.handleRead_cases answer s.loop with heq | ⟨buf, -, heq⟩ | heq | heq <;> rw [heq]
  · rfl
  · dsimp only
    rw [invoke_conn]
    rfl
  · dsimp only
    rw [invoke_conn]
    exact s.conn.close_writeBuf s.loop
  · exact fail_writeBuf _ _

theorem afterPass_proper {s : ConnectionRun} (h : s.conn.writeBuf_.Proper)
    (rest : List ConnectionFrame) (answer : SendAnswer) :
    (s.afterPass rest answer).conn.writeBuf_.Proper := by
  have hflushing : Connection.Flushing (fun _ => answer) s.conn s.conn :=
    ⟨.refl s.conn, h.represents, rfl, id, .inl rfl⟩
  unfold afterPass
  split
  · next conn hp =>
    have hnext := (Connection.flushPass_again hflushing hp).1
    exact ⟨hnext.sound, hnext.live h.live⟩
  · next conn hp =>
    have hend := Connection.flushPass_leave hflushing hp
    exact ⟨hend.sound, hend.live h.live⟩
  · next conn hp =>
    have hend := Connection.flushPass_leave hflushing hp
    rw [fail_writeBuf]
    exact ⟨hend.sound, hend.live h.live⟩

theorem step_proper {s s' : ConnectionRun} {a : ConnectionAct} (h : s.conn.writeBuf_.Proper)
    (ha : a.Uses) (hstep : s.step a = some s') : s'.conn.writeBuf_.Proper := by
  cases step_stepped hstep with
  | call c hu => exact call_proper h ha
  | returns cb rest hs =>
    cases cb with
    | onError err => exact (shut_writeBuf (s.resume rest)).symm ▸ h
    | onData data => exact h
    | onClose => exact h
  | io fired hs hr =>
    rw [handleIo_conn]
    exact h
  | recv answer rest hs =>
    rw [afterRecv_writeBuf]
    exact h
  | reads rest hs =>
    rw [handleWrite_conn]
    exact h
  | send answer rest hs ho => exact afterPass_proper h rest answer
  | sends rest hs ho => exact afterPass_proper h rest .wouldBlock

theorem run_proper {s s' : ConnectionRun} (h : s.conn.writeBuf_.Proper)
    {acts : List ConnectionAct} (ha : ∀ a ∈ acts, a.Uses) (hrun : run step s acts = some s') :
    s'.conn.writeBuf_.Proper := by
  apply run_invariant (fun s => s.conn.writeBuf_.Proper) _ h (along_of_forall ha) hrun
  intro s a s' h ha hstep
  exact step_proper h ha hstep

/-- Data at the front of the buffer is offered. -/
theorem offer_front {s : ConnectionRun} {slice : Slice} {rest : List Slice}
    (hne : s.conn.writeBuf_.empty = false) (hs : s.conn.writeBuf_.slices = slice :: rest)
    (hdata : slice.data ≠ []) : s.offer = some slice.data := by
  simp [offer, hne, hs, hdata]

theorem front_offered {fd : Fd} {id : Nat} {loop : KqueueLoop} {acts : List ConnectionAct}
    {s : ConnectionRun} (hrun : run step (new fd id loop) acts = some s)
    (huses : ∀ a ∈ acts, a.Uses) (hne : s.conn.writeBuf_.empty = false) :
    ∃ slice rest, s.conn.writeBuf_.slices = slice :: rest ∧ s.offer = some slice.data ∧
      0 < slice.data.length := by
  have hproper : s.conn.writeBuf_.Proper := run_proper Buffer.proper_empty huses hrun
  obtain ⟨slice, rest, hs, hdata⟩ := hproper.front hne
  exact ⟨slice, rest, hs, offer_front hne hs hdata, List.length_pos_iff.mpr hdata⟩

end ConnectionRun

namespace TlsRun

/-- The write buffer that a write leaves has the property `P`; on a closed connection a
write leaves it alone. -/
def Leaves (P : Buffer → Prop) (s : TlsRun) : TlsAct → Prop
  | .call (.write data) => s.conn.closed_ = false → P (s.conn.writeBuf_.move data.1).1
  | .call (.writeText data) => s.conn.closed_ = false → P (s.conn.writeBuf_.add data)
  | _ => True

theorem append_writeBuf {P : Buffer → Prop} {s : TlsRun} (h : P s.conn.writeBuf_)
    {writeBuf : Buffer} (hw : s.conn.closed_ = false → P writeBuf) (data : Bytes) :
    P (s.append writeBuf data).conn.writeBuf_ := by
  unfold append
  split
  · exact h
  · next ho =>
    rw [(unwritten_doWrite _).writeBuf]
    exact hw (Bool.eq_false_iff.mpr ho)

theorem afterWrite_drains {P : Buffer → Prop} (hdrain : ∀ b n, P b → P (b.drain n)) {s : TlsRun}
    (h : P s.conn.writeBuf_) (rest : List Frame) (data : Bytes) (answer : SslWriteAnswer) :
    P (s.afterWrite rest data answer).conn.writeBuf_ := by
  unfold afterWrite
  cases answer with
  | accepts more => exact hdrain _ _ h
  | stops err =>
    dsimp only
    split
    · exact h
    · rw [((unwritten_shut _).trans (unwritten_resume _ rest)).trans
        (unwritten_invoke _ _ _) |>.writeBuf]
      exact h

/-- Apart from what is appended the write buffer is only drained. -/
theorem step_drains {P : Buffer → Prop} (hdrain : ∀ b n, P b → P (b.drain n)) {s s' : TlsRun}
    {a : TlsAct} (h : P s.conn.writeBuf_) (ha : Leaves P s a) (hstep : s.step a = some s') :
    P s'.conn.writeBuf_ := by
  have hsilent : ∀ {t : TlsRun}, Unwritten s t → P t.conn.writeBuf_ := by
    intro t hu
    rw [hu.writeBuf]
    exact h
  cases step_stepped hstep with
  | call c hu =>
    cases c with
    | write data => exact append_writeBuf h ha _
    | writeText data => exact append_writeBuf h ha _
    | setCallbacks d c e => exact h
    | startHandshake c e =>
      apply hsilent
      apply Unwritten.trans _ (unwritten_continueHandshake _)
      exact .same rfl rfl rfl rfl
    | startRead => exact hsilent (unwritten_startRead s)
    | close => exact hsilent ((unwritten_shut s).trans (unwritten_note _ rfl))
  | returns cb rest hs => exact h
  | io hs hr => exact hsilent (unwritten_handleIo s)
  | handshake answer rest hs => exact hsilent (unwritten_afterHandshake s rest answer)
  | read answer rest hs => exact hsilent (unwritten_afterRead s rest answer)
  | write answer rest data hs ho => exact afterWrite_drains hdrain h rest data answer
  | reads rest hs => exact hsilent (unwritten_afterReads s rest)
  | writes rest hs ho => exact hsilent (unwritten_afterWrites s rest)

theorem run_drains {P : Buffer → Prop} (hdrain : ∀ b n, P b → P (b.drain n)) {s s' : TlsRun}
    (h : P s.conn.writeBuf_) {actions : List TlsAct} (ha : Along step (Leaves P) s actions)
    (hrun : run step s actions = some s') : P s'.conn.writeBuf_ := by
  apply run_invariant (fun s => P s.conn.writeBuf_) _ h ha hrun
  intro s a s' h ha hstep
  exact step_drains hdrain h ha hstep

/-- What the user passes leaves a proper buffer proper. -/
theorem leaves_proper {s : TlsRun} {a : TlsAct} (h : s.conn.writeBuf_.Proper) (ha : a.Uses) :
    Leaves Buffer.Proper s a := by
  cases a with
  | call c =>
    cases c with
    | write data => exact fun _ => (h.move (Buffer.Used.proper ha)).1
    | writeText data => exact fun _ => (h.add data).1
    | _ => trivial
  | _ => trivial

theorem run_proper {s s' : TlsRun} (h : s.conn.writeBuf_.Proper) {actions : List TlsAct}
    (ha : ∀ a ∈ actions, a.Uses) (hrun : run step s actions = some s') :
    s'.conn.writeBuf_.Proper := by
  apply run_invariant (fun s => s.conn.writeBuf_.Proper) _ h (along_of_forall ha) hrun
  intro s a s' h ha hstep
  exact step_drains (fun b n hb => (hb.drain n).1) h (leaves_proper h ha) hstep

theorem offer_front {s : TlsRun} {slice : Slice} {rest : List Slice}
    (hne : s.conn.writeBuf_.empty = false) (hs : s.conn.writeBuf_.slices = slice :: rest)
    (hdata : slice.data ≠ []) : s.offer = some slice.data := by
  simp [offer, hne, hs, hdata]

theorem front_offered {fd : Fd} {id : Nat} {isServer : Bool} {callback : HandshakeCallback}
    {loop : KqueueLoop} {actions : List TlsAct} {s : TlsRun}
    (hrun : run step (new fd id isServer callback loop) actions = some s)
    (huses : ∀ a ∈ actions, a.Uses) (hne : s.conn.writeBuf_.empty = false) :
    ∃ slice rest, s.conn.writeBuf_.slices = slice :: rest ∧ s.offer = some slice.data ∧
      0 < slice.data.length := by
  have hproper : s.conn.writeBuf_.Proper := run_proper Buffer.proper_empty huses hrun
  obtain ⟨slice, rest, hs, hdata⟩ := hproper.front hne
  exact ⟨slice, rest, hs, offer_front hne hs hdata, List.length_pos_iff.mpr hdata⟩

theorem run_within {fd : Fd} {id : Nat} {isServer : Bool} {callback : HandshakeCallback}
    {loop : KqueueLoop} {actions : List TlsAct} {s : TlsRun} {bound : Nat}
    (hrun : run step (new fd id isServer callback loop) actions = some s)
    (ha : Along step (Leaves (Buffer.Within bound)) (new fd id isServer callback loop) actions) :
    s.conn.writeBuf_.Within bound :=
  run_drains (fun _ n hb => hb.drain n) (Buffer.within_empty bound) ha hrun

end TlsRun

/-- No active slice of a buffer as the proxy uses them is empty, and while there is something
to write, `handleWrite` and `doWrite` offer the data of the first slice. The length that
`SSL_write` gets for it is positive as long as no write has left a slice of two gigabytes. -/
theorem live_slices_offered {b : Buffer} (hb : b.Used) {fd fd' : Fd} {id id' : Nat}
    {loop loop' : KqueueLoop} {acts : List ConnectionAct} {c : ConnectionRun}
    (hc : run ConnectionRun.step (.new fd id loop) acts = some c) (hcalls : ∀ a ∈ acts, a.Uses)
    {isServer : Bool} {callback : HandshakeCallback} {actions : List TlsAct} {s : TlsRun}
    (hs : run TlsRun.step (.new fd' id' isServer callback loop') actions = some s)
    (huses : ∀ a ∈ actions, a.Uses) :
    (∀ slice ∈ b.slices, 0 < slice.length) ∧
    (c.conn.writeBuf_.empty = false →
      ∃ slice rest, c.conn.writeBuf_.slices = slice :: rest ∧ c.offer = some slice.data ∧
        0 < slice.data.length) ∧
    (s.conn.writeBuf_.empty = false →
      ∃ slice rest, s.conn.writeBuf_.slices = slice :: rest ∧ s.offer = some slice.data ∧
        0 < slice.data.length ∧
        (0 < sslLength slice.data ↔
          0 < slice.data.length % 2 ^ 32 ∧ slice.data.length % 2 ^ 32 < 2 ^ 31) ∧
        (Along TlsRun.step (TlsRun.Leaves (Buffer.Within (2 ^ 31)))
          (.new fd' id' isServer callback loop') actions → 0 < sslLength slice.data)) := by
  refine ⟨hb.proper.live, ConnectionRun.front_offered hc hcalls, fun hne => ?_⟩
  obtain ⟨slice, rest, hslices, hoffer, hpos⟩ := TlsRun.front_offered hs huses hne
  refine ⟨slice, rest, hslices, hoffer, hpos, sslLength_pos_iff slice.data, fun hwithin => ?_⟩
  have hlt := TlsRun.run_within hs hwithin slice (by rw [hslices]; exact List.mem_cons_self)
  exact sslLength_pos hpos (by rwa [Slice.data_length])

/-- A connection whose handshake is done, and a text that is written on it. -/
def shakenWrite (data : Bytes) : List TlsAct :=
  [.call (.startHandshake false false), .sslHandshake .done, .call (.writeText data)]

theorem shakenWrite_offered {data : Bytes} (hne : data ≠ []) : ∃ s,
    run TlsRun.step (.new 7 0 true .client {}) (shakenWrite data) = some s ∧
    s.stack = [.writing] ∧ s.conn.writeBuf_.empty = false ∧ s.offer = some data := by
  obtain ⟨s, hrun, hstack, hw⟩ : ∃ s,
      run TlsRun.step (.new 7 0 true .client {}) (shakenWrite data) = some s ∧
      s.stack = [.writing] ∧ s.conn.writeBuf_ = ({} : Buffer).add data := ⟨_, rfl, rfl, rfl⟩
  rw [Buffer.add_empty hne] at hw
  have hempty : s.conn.writeBuf_.empty = false := by simp [hw, Buffer.empty, hne]
  have hdata := Slice.holding_data data
  have hfront : s.conn.writeBuf_.slices = [Slice.holding data] := by rw [hw]; rfl
  refine ⟨s, hrun, hstack, hempty, ?_⟩
  rw [TlsRun.offer_front hempty hfront (by rwa [hdata]), hdata]

theorem shakenWrite_within {data : Bytes} (hne : data ≠ []) (hlt : data.length < 2 ^ 31) :
    Along TlsRun.step (TlsRun.Leaves (Buffer.Within (2 ^ 31))) (.new 7 0 true .client {})
      (shakenWrite data) := by
  refine ⟨trivial, fun s hs => ?_⟩
  cases hs
  refine ⟨trivial, fun s hs => ?_⟩
  cases hs
  refine ⟨fun _ => ?_, fun _ _ => trivial⟩
  have hadd : Buffer.Within (2 ^ 31) (({} : Buffer).add data) := by
    rw [Buffer.add_empty hne]
    intro slice hmem
    obtain rfl := List.mem_singleton.mp hmem
    rwa [← Slice.data_length, Slice.holding_data]
  exact hadd

/-- A received byte, a plain connection that is told to send it, and one with TLS that has a
text to send. -/
theorem live_slices_offered_text : ∃ c s,
    run ConnectionRun.step (.new 5 0 {}) [.call (.writeText [7])] = some c ∧
    run TlsRun.step (.new 7 0 true .client {}) (shakenWrite [98, 121, 101]) = some s ∧
    (∀ slice ∈ (({} : Buffer).add [7]).slices, 0 < slice.length) ∧ c.offer ≠ none ∧
    ∃ slice rest, s.conn.writeBuf_.slices = slice :: rest ∧ s.offer = some slice.data ∧
      0 < sslLength slice.data := by
  have hne : ([98, 121, 101] : Bytes) ≠ [] := by decide
  obtain ⟨s, hs, -, hempty, -⟩ := shakenWrite_offered hne
  obtain ⟨hlive, hplain, htls⟩ := live_slices_offered (.add [7] .empty)
    (show run ConnectionRun.step (.new 5 0 {}) [.call (.writeText [7])] = some _ from rfl)
    (by simp [ConnectionAct.Uses]) hs (by simp [shakenWrite, TlsAct.Uses])
  obtain ⟨first, more, -, hfirst, -⟩ := hplain (by decide)
  obtain ⟨slice, rest, hslices, hoffer, -, -, hpos⟩ := htls hempty
  exact ⟨_, s, rfl, hs, hlive, by rw [hfirst]; exact Option.some_ne_none _, slice, rest, hslices,
    hoffer, hpos (shakenWrite_within hne (by decide))⟩

/-- A text of four gigabytes: `SSL_write` is called with the length 0. -/
theorem four_gigabytes_offered : ∃ s,
    run TlsRun.step (.new 7 0 true .client {}) (shakenWrite (List.replicate (2 ^ 32) 0)) = some s ∧
    s.stack = [.writing] ∧ s.conn.writeBuf_.empty = false ∧
    s.offer = some (List.replicate (2 ^ 32) 0) ∧ sslLength (List.replicate (2 ^ 32) 0) = 0 := by
  have hlen : (List.replicate (2 ^ 32) (0 : UInt8)).length = 2 ^ 32 := List.length_replicate
  have hne : List.replicate (2 ^ 32) (0 : UInt8) ≠ [] := by
    apply List.ne_nil_of_length_pos
    rw [hlen]
    decide
  obtain ⟨s, hrun, hstack, hempty, hoffer⟩ := shakenWrite_offered hne
  refine ⟨s, hrun, hstack, hempty, hoffer, ?_⟩
  unfold sslLength
  rw [hlen]
  decide

end DeepSeer
