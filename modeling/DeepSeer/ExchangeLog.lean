import DeepSeer.Ledger

/-!
What the log of a session says about its exchanges: the requests, the pieces of
their bodies, the callbacks of the upstream parser and the first head that went
to the client.
-/
namespace DeepSeer

open ByteMemory

namespace Note

def req : Note → Option HttpRequest
  | .request req => some req
  | _ => none

/-- The body data that a note brings. -/
def chunk : Note → Bytes
  | .clientParsed (.body piece) => piece
  | _ => []

def callback : Note → Option ParserEvent
  | .upstreamParsed ev => some ev
  | _ => none

/-- A head that was handed to the client. -/
def isHead : Note → Bool
  | .response _ _ | .error _ => true
  | _ => false

end Note

/-- The requests of a log, the latest first. -/
def requests (log : List Note) : List HttpRequest := log.filterMap Note.req

/-- The body data of all requests in its order. -/
def chunks (log : List Note) : Bytes := log.reverse.flatMap Note.chunk

/-- The callbacks of the upstream parser in their order. -/
def callbacks (log : List Note) : List ParserEvent := log.reverse.filterMap Note.callback

/-- The first head that was handed to the client. -/
def firstHead (log : List Note) : Option Note := log.reverse.find? Note.isHead

/-- Whether an exchange is in progress: its request has come, and since then
neither has the proxy answered itself nor has the session closed. -/
def inProgress : List Note → Bool
  | [] => false
  | .request _ :: _ => true
  | .error _ :: _ => false
  | .closed _ :: _ => false
  | _ :: log => inProgress log

/-- Every request has come when no other exchange was in progress. -/
def serial : List Note → Bool
  | [] => true
  | .request _ :: log => !inProgress log && serial log
  | _ :: log => serial log

@[simp] theorem requests_cons (n : Note) (log : List Note) :
    requests (n :: log) = n.req.toList ++ requests log := by
  cases h : n.req <;> simp [requests, h]

@[simp] theorem chunks_cons (n : Note) (log : List Note) :
    chunks (n :: log) = chunks log ++ n.chunk := by
  simp [chunks]

@[simp] theorem callbacks_cons (n : Note) (log : List Note) :
    callbacks (n :: log) = callbacks log ++ n.callback.toList := by
  cases h : n.callback <;> simp [callbacks, h]

theorem firstHead_cons (n : Note) (log : List Note) :
    firstHead (n :: log) = (firstHead log).or (if n.isHead then some n else none) := by
  simp only [firstHead, List.reverse_cons, List.find?_append, List.find?_singleton]

theorem firstHead_other {n : Note} (h : n.isHead = false) (log : List Note) :
    firstHead (n :: log) = firstHead log := by
  simp [firstHead_cons, h]

theorem firstHead_kept {n m : Note} {log : List Note} (h : firstHead log = some m) :
    firstHead (n :: log) = some m := by
  simp [firstHead_cons, h]

theorem firstHead_mem {n : Note} {log : List Note} (h : firstHead log = some n) :
    n ∈ log ∧ n.isHead = true :=
  ⟨List.mem_reverse.mp (List.mem_of_find?_eq_some h), List.find?_some (by exact h)⟩

theorem mem_requests {req : HttpRequest} {log : List Note} :
    req ∈ requests log ↔ .request req ∈ log := by
  simp only [requests, List.mem_filterMap]
  constructor
  · rintro ⟨n, hn, hr⟩
    cases n <;> simp only [Note.req, Option.some.injEq, reduceCtorEq] at hr
    exact hr ▸ hn
  · intro h
    exact ⟨_, h, rfl⟩

theorem serial_suffix {log log' : List Note} (h : log <:+ log') (hs : serial log' = true) :
    serial log = true := by
  obtain ⟨notes, rfl⟩ := h
  induction notes with
  | nil => exact hs
  | cons n rest ih =>
    apply ih
    cases n <;> simp_all [serial]

namespace Ledger

/-- Until the session closes every callback is answered. -/
theorem answers_open (log : List Note) (h : (of log).closed = false) :
    (of log).answers = callbacks log := by
  induction log with
  | nil => rfl
  | cons n log ih =>
    rw [of_cons] at h ⊢
    rw [callbacks_cons]
    cases n with
    | clientParsed ev =>
      cases ev with
      | body piece =>
        simp only [note, requestBody, Note.callback] at h ⊢
        split at h
        · simp_all
        · split at h <;> simp_all
      | _ => simpa [note, Note.callback] using ih h
    | upstreamParsed ev =>
      have hopen : (of log).closed = false := h
      simp [note, upstreamParsed, hopen, ih hopen, Note.callback]
    | closed cause => exact absurd h (by simp [note])
    | _ => simpa [note, Note.callback] using ih h

/-- What was answered comes first among the callbacks. -/
theorem answers_prefix (log : List Note) : (of log).answers <+: callbacks log := by
  induction log with
  | nil => exact List.prefix_refl _
  | cons n log ih =>
    have hmore : (of log).answers <+: callbacks (n :: log) := by
      rw [callbacks_cons]
      exact ih.trans (List.prefix_append _ _)
    cases hc : (of (n :: log)).closed with
    | false => rw [answers_open _ hc]
    | true =>
      rw [of_cons] at hc ⊢
      cases n with
      | clientParsed ev =>
        cases ev with
        | body piece =>
          simp only [note, requestBody]
          split
          · exact hmore
          · split <;> exact hmore
        | _ => exact hmore
      | upstreamParsed ev =>
        have hclosed : (of log).closed = true := hc
        simpa [note, upstreamParsed, hclosed] using hmore
      | _ => exact hmore

end Ledger

end DeepSeer
