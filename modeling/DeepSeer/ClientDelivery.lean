import DeepSeer.HeadEvents
import DeepSeer.SessionPointers

/-!
What the client has received when the session closes its connection. A client
whose kernel never fails a send is settled at all times: data is left in the
write buffer exactly when the last send would have blocked. The end of an
exchange closes the connection in either case.
-/
namespace DeepSeer

open ByteMemory ByteText FallibleRuns

namespace Connection

/-- Everything written is accepted or buffered, and data is left in the buffer
exactly when the last send would have blocked. -/
structure Settled (answer : Nat → SendAnswer) (c : Connection) : Prop where
  proper : c.writeBuf_.Proper
  conserved : c.accepted ++ c.writeBuf_.linearize = c.written
  blocked : c.writeBuf_.linearize ≠ [] ↔ c.lastBlocked answer = true

/-- The same before a flush, which may find data that no send was tried for. -/
structure Loaded (answer : Nat → SendAnswer) (c : Connection) : Prop where
  proper : c.writeBuf_.Proper
  conserved : c.accepted ++ c.writeBuf_.linearize = c.written
  quiet : c.writeBuf_.linearize = [] → c.lastBlocked answer = false

variable {answer : Nat → SendAnswer}

theorem Settled.loaded {c : Connection} (h : Settled answer c) : Loaded answer c :=
  ⟨h.proper, h.conserved, fun hnil => by simpa [hnil] using h.blocked⟩

theorem Loaded.settled {c : Connection} (h : Loaded answer c) (he : c.writeBuf_.linearize = []) :
    Settled answer c :=
  ⟨h.proper, h.conserved, by simp [he, h.quiet he]⟩

/-- A flush leaves data only where the last send would have blocked. -/
theorem Loaded.flush (hfail : ∀ k, answer k ≠ .fails) {c : Connection} (h : Loaded answer c) :
    Settled answer (c.flush answer).1 := by
  have hend := flush_spec answer h.proper.represents
  have hsettled : (c.flush answer).2 = .settled := by
    cases hf : (c.flush answer).2 with
    | settled => rfl
    | failed =>
      obtain ⟨k, hk⟩ := hend.failed hf
      exact absurd hk (hfail k)
  refine ⟨⟨hend.sound, hend.live h.proper.live⟩,
    (hend.conserved.trans h.conserved).trans hend.link.written.symm, hend.left hsettled h.proper.live,
    fun hb hnil => ?_⟩
  rcases hend.none hsettled hnil with hsame | hquiet
  · rw [hsame] at hb hnil
    exact absurd ((h.quiet hnil).symm.trans hb) (by decide)
  · exact absurd (hquiet.symm.trans hb) (by decide)

theorem Loaded.handleWrite (hfail : ∀ k, answer k ≠ .fails) {c : Connection}
    (h : Loaded answer c) (ho : c.closed_ = false) (loop : KqueueLoop) :
    Settled answer (c.handleWrite answer loop).1 := by
  have hs := h.flush hfail
  simp only [Connection.handleWrite, ho, Bool.false_eq_true, if_false]
  split <;> next hf => rwa [hf] at hs

theorem Loaded.flushNow (hfail : ∀ k, answer k ≠ .fails) {c : Connection}
    (h : Loaded answer c) (ho : c.closed_ = false) (loop : KqueueLoop) :
    Settled answer (c.flushNow answer loop).1 := by
  unfold Connection.flushNow
  dsimp only
  split
  · next he => exact h.settled ((Buffer.empty_iff h.proper.represents).mp he)
  · exact h.handleWrite hfail ho _

theorem Settled.write (hfail : ∀ k, answer k ≠ .fails) {c : Connection} (h : Settled answer c)
    {data : Buffer} (hd : data.Proper) (loop : KqueueLoop) :
    Settled answer (c.write answer data loop).1 := by
  cases ho : c.closed_ with
  | true => simpa [Connection.write, ho] using h
  | false =>
    obtain ⟨hp, hc⟩ := h.proper.move hd
    have hl : Loaded answer { c with
        writeBuf_ := (c.writeBuf_.move data).1, written := c.written ++ data.linearize } :=
      ⟨hp, by rw [hc, ← List.append_assoc, h.conserved],
        fun hnil => h.loaded.quiet (List.append_eq_nil_iff.mp (hc.symm.trans hnil)).1⟩
    simpa [Connection.write, ho] using hl.flushNow hfail ho loop

theorem Settled.writeText (hfail : ∀ k, answer k ≠ .fails) {c : Connection}
    (h : Settled answer c) (data : Bytes) (loop : KqueueLoop) :
    Settled answer (c.writeText answer data loop).1 := by
  cases ho : c.closed_ with
  | true => simpa [Connection.writeText, ho] using h
  | false =>
    obtain ⟨hp, hc⟩ := h.proper.add data
    have hl : Loaded answer { c with
        writeBuf_ := c.writeBuf_.add data, written := c.written ++ data } :=
      ⟨hp, by rw [hc, ← List.append_assoc, h.conserved],
        fun hnil => h.loaded.quiet (List.append_eq_nil_iff.mp (hc.symm.trans hnil)).1⟩
    simpa [Connection.writeText, ho] using hl.flushNow hfail ho loop

/-- A change of neither the data nor the sends. -/
theorem Settled.same {c d : Connection} (h : Settled answer c) (hb : d.writeBuf_ = c.writeBuf_)
    (ha : d.accepted = c.accepted) (hw : d.written = c.written) (hs : d.sends = c.sends) :
    Settled answer d := by
  refine ⟨hb ▸ h.proper, by rw [ha, hb, hw, h.conserved], ?_⟩
  rw [hb, lastBlocked, hs]
  exact h.blocked

/-- The calls of its owner keep a connection settled. -/
theorem Moves.settled (hfail : ∀ k, answer k ≠ .fails) {P : Prop} {c d : Connection}
    (h : Moves P Buffer.Proper answer c d) (hc : Settled answer c) : Settled answer d := by
  induction h with
  | refl => exact hc
  | close loop _ ih =>
    unfold Connection.close
    split
    · exact ih
    · exact ih.same rfl rfl rfl rfl
  | startRead loop _ ih =>
    unfold Connection.startRead
    split
    · exact ih
    · exact ih.same rfl rfl rfl rfl
  | stopRead loop _ ih =>
    unfold Connection.stopRead
    split
    · exact ih
    · exact ih.same rfl rfl rfl rfl
  | wire _ ih => exact ih.same rfl rfl rfl rfl
  | write data loop _ hd _ ih => exact ih.write hfail hd loop
  | writeText data loop _ _ ih => exact ih.writeText hfail data loop
  | @flush d loop _ ih =>
    cases ho : d.closed_ with
    | true => simpa [Connection.handleWrite, ho] using ih
    | false => exact ih.loaded.handleWrite hfail ho loop

end Connection

namespace Session

/-- A run from a session is steady. -/
theorem sessionRun_steady (w : World) (s : Session) (events : List SessionEvent) :
    SteadyEnd w s (sessionRun w (.ok s) events) :=
  sessionRun_effects (fun _ _ hs he => SteadyEnd.trans hs (effect_steadily he)) (.refl w s) events

/-- The note of a close at the normal end of an exchange. -/
def Note.endsExchange : Note → Bool
  | .closed .responseComplete => true
  | .closed .upstreamEnd => true
  | _ => false

end Session

open Session

/-- When the response is complete or the upstream has ended, the client of a
plain session is closed, and its kernel has accepted every byte that was written
to it exactly when the last send before the close did not block. -/
theorem client_served_iff_last_send (w : World) (hfail : ∀ k, w.clientSend k ≠ .fails) (fd : Fd)
    (certGen payloadInspector : Bool) (events : List SessionEvent) (s : Session)
    (hrun : (sessionRun w (.ok (start fd certGen payloadInspector)) events).session = s)
    (hplain : s.isTlsMitm_ = false) (hends : s.log.any Note.endsExchange = true) :
    ∃ c, s.client_ = some c ∧ c.closed_ = true ∧
      (c.accepted = c.written ↔ c.lastBlocked w.clientSend = false) := by
  have hsteady := (sessionRun_steady w (start fd certGen payloadInspector) events).session
  have hpointed := Pointed.session (sessionRun_pointed w fd certGen payloadInspector events)
  rw [hrun] at hsteady hpointed
  have hpointers := hpointed.resolve_left
    fun hl => absurd (hplain.symm.trans hl.mitm) (by decide)
  obtain ⟨c, hc⟩ : ∃ c, s.client_ = some c := by
    cases hpointers with
    | plain _ hc => exact ⟨_, hc⟩
    | upgrading hm => exact absurd (hplain.symm.trans hm) (by decide)
    | intercepted hm => exact absurd (hplain.symm.trans hm) (by decide)
  obtain ⟨c₀, hc₀, hmoves⟩ := hsteady.client c hc
  have hsettled₀ : c₀.Settled w.clientSend := by
    simp only [start, Connection.startRead, Option.some.injEq] at hc₀
    subst hc₀
    exact ⟨Buffer.proper_empty, rfl, by simp [Connection.lastBlocked, Buffer.linearize]⟩
  have hsettled := hmoves.settled hfail hsettled₀
  have hclosed : s.closed_ = true := by
    obtain ⟨n, hn, he⟩ := List.any_eq_true.mp hends
    unfold Note.endsExchange at he
    split at he
    · exact (hsteady.noted _ hn).resolve_left (by simp [start])
    · exact (hsteady.noted _ hn).resolve_left (by simp [start])
    · exact absurd he (by decide)
  refine ⟨c, hc, hsteady.shut rfl hclosed c hc, ?_⟩
  rw [← hsettled.conserved, ← Bool.not_eq_true, ← hsettled.blocked]
  simp

/-- A request for `/` of the host `h` and the answer to it, on the sockets that
the prompt world makes. -/
def exchange : List SessionEvent :=
  [received 7 (text "GET / HTTP/1.1\r\nHost: h\r\n\r\n")
    (requestEvents [text "/"] [.host]
      { method := text "GET" } ++ [.messageComplete]),
   received 10 (text "HTTP/1.1 200 OK\r\nContent-Length: 1\r\n\r\na")
    (responseEvents [text "OK"] [.oneByte]
      { status_code := 200, content_length := 1 } ++ [.body (text "a"), .messageComplete])]

theorem client_served_prompt :
    ∃ c, (sessionRun promptWorld (.ok (start 7 false false)) exchange).session.client_ = some c ∧
      c.closed_ = true ∧
      (c.accepted = c.written ↔ c.lastBlocked promptWorld.clientSend = false) :=
  client_served_iff_last_send promptWorld (fun _ => by simp [promptWorld]) 7 false false exchange _
    rfl (by decide +kernel) (by decide +kernel)

/-- A client that reads slowly loses the whole response. -/
theorem response_discarded_at_close :
    let s := (sessionRun { promptWorld with clientSend := fun _ => .wouldBlock }
      (.ok (start 7 false false)) exchange).session
    s.isTlsMitm_ = false ∧ s.log.any Note.endsExchange = true ∧
      s.client_.any (fun c => c.closed_ && c.accepted != c.written) = true := by
  decide +kernel

end DeepSeer
