import DeepSeer.CodecMessages
import DeepSeer.SessionStreams

/-!
What the log of a session says should have been written. The ledger follows the
notes alone: what goes to the upstream that was connected last, what waits for
one, and the callbacks that were answered to the client before the session
closed.
-/
namespace DeepSeer

open ByteMemory ByteText

namespace Http1Codec

/-- What the client is sent for one call of the upstream codec. -/
def handed (isTlsMitm : Bool) : Emission → Bytes
  | .response resp => encodedResponse (Session.stripFraming isTlsMitm resp)
  | .body data _ => data.linearize
  | .request _ | .messageComplete => []

/-- What the client is sent for callbacks on a new upstream codec. -/
def delivered (isTlsMitm : Bool) (events : List ParserEvent) : Bytes :=
  (feed { type := .response } events).1.flatMap (handed isTlsMitm)

/-- The error number has no part in a callback. -/
theorem handle_errno (c : Http1Codec) (errno : Errno) (ev : ParserEvent) :
    { c with errno := errno }.handle ev =
      (c.handle ev).map fun r => ({ r.1 with errno := errno }, r.2) := by
  have hfinish : { c with errno := errno }.finishHeader =
      { c.finishHeader with errno := errno } := by
    unfold finishHeader
    split
    · rfl
    · dsimp only
      split <;> rfl
  cases ev with
  | headersComplete info =>
    simp only [handle, onHeadersComplete, hfinish]
    split
    · cases findHost (requestHead c.finishHeader.currentRequest_ info) <;> rfl
    · rfl
  | headerField piece =>
    simp only [handle, onHeaderField, hfinish]
    split <;> rfl
  | _ => rfl

/-- The codec has made of callbacks what a new response codec makes of them. -/
def Replays (c : Http1Codec) (events : List ParserEvent) : Prop :=
  ∃ errno, (feed { type := .response } events).2 = some { c with errno := errno }

theorem replays_nil : Replays { type := .response } [] := ⟨.ok, rfl⟩

theorem Replays.errno {c : Http1Codec} {events : List ParserEvent} (h : c.Replays events)
    (errno : Errno) : Replays { c with errno := errno } events := h

/-- One more callback on a codec that replays the others. -/
theorem Replays.handle {c d : Http1Codec} {events : List ParserEvent} (h : c.Replays events)
    {ev : ParserEvent} {calls : List Emission} (hh : c.handle ev = some (d, calls)) :
    d.Replays (events ++ [ev]) ∧ ∀ isTlsMitm, delivered isTlsMitm (events ++ [ev]) =
      delivered isTlsMitm events ++ calls.flatMap (handed isTlsMitm) := by
  obtain ⟨errno, he⟩ := h
  have hstep : { c with errno := errno }.handle ev = some ({ d with errno := errno }, calls) := by
    rw [handle_errno, hh]
    rfl
  have hfeed : feed { type := .response } (events ++ [ev]) =
      ((feed { type := .response } events).1 ++ calls, some { d with errno := errno }) := by
    rw [feed_append]
    cases hf : feed { type := .response } events with
    | mk before last =>
      rw [hf] at he
      simp only at he
      subst he
      simp [feed, hstep]
  refine ⟨⟨errno, by rw [hfeed]⟩, fun isTlsMitm => ?_⟩
  simp [delivered, hfeed]

end Http1Codec

open Http1Codec

/-- The books of a session. `redialed` is set by a second connect, `erred` by an
answer of the proxy's own, and `finished` by a close at the end of a response. -/
structure Ledger where
  linked : Bool := false
  redialed : Bool := false
  erred : Bool := false
  closed : Bool := false
  finished : Bool := false
  stream : Bytes := []
  pending : Bytes := []
  answers : List ParserEvent := []

namespace Ledger

def requestBody (l : Ledger) (piece : Bytes) : Ledger :=
  if piece = [] then l
  else if l.linked then { l with stream := l.stream ++ l.pending ++ piece, pending := [] }
  else { l with pending := l.pending ++ piece }

def upstreamParsed (l : Ledger) (ev : ParserEvent) : Ledger :=
  { l with
    answers := if l.closed then l.answers else l.answers ++ [ev]
    pending := if ev = .messageComplete then [] else l.pending }

def note (l : Ledger) : Note → Ledger
  | .clientParsed (.body piece) => l.requestBody piece
  | .upstreamParsed ev => l.upstreamParsed ev
  | .connected _ => { l with linked := true, redialed := l.linked, stream := [] }
  | .forwarded req _ =>
    { l with stream := l.stream ++ Session.forwardedHead req ++ l.pending, pending := [] }
  | .error _ => { l with erred := true }
  | .closed cause => { l with
      closed := true, finished := l.finished || decide (cause = .responseComplete) }
  | _ => l

/-- The books after a log, whose latest note comes first. -/
def of (log : List Note) : Ledger := log.foldr (fun n l => l.note n) {}

@[simp] theorem of_nil : of [] = {} := rfl

@[simp] theorem of_cons (n : Note) (log : List Note) : of (n :: log) = (of log).note n := rfl

end Ledger

namespace Session

def ledger (s : Session) : Ledger := .of s.log

@[simp] theorem note_log (s : Session) (n : Note) : (s.note n).log = n :: s.log := rfl

@[simp] theorem ledger_note (s : Session) (n : Note) : (s.note n).ledger = s.ledger.note n := rfl

/-- Closing touches the books at one flag only. -/
theorem Shuts.ledger {s s' : Session} (h : Shuts s s') :
    s'.ledger = s.ledger ∧ s'.closed_ = s.closed_ ∨
      s'.ledger = { s.ledger with closed := true } ∧ s'.closed_ = true := by
  cases h with
  | kept hl hc => exact .inl ⟨by rw [Session.ledger, Session.ledger, hl], hc⟩
  | shut cause hn _ hc hl =>
    refine .inr ⟨?_, hc⟩
    rw [Session.ledger, hl, Ledger.of_cons]
    simp [Ledger.note, hn, Session.ledger]

end Session

end DeepSeer
