import DeepSeer.HeadEvents
import DeepSeer.SessionActs

/-!
The failed results that a session uses. Of its three fallible steps towards an
upstream only the lookup of the name goes unchecked; whatever runs after it ends
the process, if at all, at a null pointer.
-/
namespace DeepSeer

open ByteMemory ByteText FallibleRuns

namespace Session

/-- A connect that uses no failed result: where the name has no address, no
socket is opened and the client is answered with a 502. -/
def ChecksExpected (w : World) (s : Session) (host : Bytes) (port : Nat) : Prop :=
  (s.connectUpstream w host port).fault ≠ some .badExpected ∧
    (w.resolves host port = false →
      s.connectUpstream w host port = .ok (s.sendError w 502 (text "Bad Gateway")))

/-- A computation that ends, if it does not succeed, at a null pointer. -/
abbrev OnlyNull (r : Outcome) : Prop :=
  Ends r (fun _ => True) fun crash => crash.fault = .nullPointer

variable {w : World}

theorem onlyNull_ok (s : Session) : OnlyNull (.ok s) := trivial

theorem onlyNull_crash (s : Session) : OnlyNull (s.crash .nullPointer) := rfl

theorem OnlyNull.bind {x : Outcome} {f : Session → Outcome} (h : OnlyNull x)
    (hf : ∀ s, OnlyNull (f s)) : OnlyNull (x >>= f) :=
  Ends.bind h fun s _ => hf s

theorem OnlyNull.fault {r : Outcome} (h : OnlyNull r) : r.fault ≠ some .badExpected := by
  cases r with
  | ok s => simp [Outcome.fault]
  | error crash =>
    have hnull : crash.fault = .nullPointer := h
    simp [Outcome.fault, hnull]

theorem onlyNull_writeEstablished (s : Session) : OnlyNull (s.writeEstablished w) := by
  rw [writeEstablished]
  cases s.client_ with
  | none => exact onlyNull_crash s
  | some c => exact onlyNull_ok _

theorem onlyNull_stopClientRead (s : Session) : OnlyNull s.stopClientRead := by
  rw [stopClientRead]
  cases s.client_ with
  | none => exact onlyNull_crash s
  | some c => exact onlyNull_ok _

theorem onlyNull_setupUpstreamCallbacks (s : Session) : OnlyNull s.setupUpstreamCallbacks := by
  rw [setupUpstreamCallbacks]
  cases s.upstream_ with
  | none => exact onlyNull_crash s
  | some c => exact onlyNull_ok _

theorem onlyNull_startUpstreamRead (s : Session) : OnlyNull s.startUpstreamRead := by
  rw [startUpstreamRead]
  cases s.upstream_ with
  | none => exact onlyNull_crash s
  | some c => exact onlyNull_ok _

theorem onlyNull_forwardRequest (s : Session) : OnlyNull (s.forwardRequest w) := by
  have hprepare : OnlyNull s.prepareUpstream := by
    rw [prepareUpstream]
    split
    · exact onlyNull_ok s
    · exact (onlyNull_setupUpstreamCallbacks s).bind onlyNull_startUpstreamRead
  exact hprepare.bind fun s => onlyNull_ok _

theorem onlyNull_wireTls (s : Session) (pointer : Option Nat) : OnlyNull (s.wireTls pointer) := by
  cases pointer with
  | none => exact onlyNull_crash s
  | some id =>
    rw [wireTls]
    cases s.tls[id]? with
    | none => exact onlyNull_crash s
    | some t => exact onlyNull_ok _

theorem onlyNull_startTlsRead (s : Session) (pointer : Option Nat) :
    OnlyNull (s.startTlsRead pointer) := by
  cases pointer with
  | none => exact onlyNull_crash s
  | some id =>
    rw [startTlsRead]
    cases s.tls[id]? with
    | none => exact onlyNull_crash s
    | some t => exact onlyNull_ok _

theorem onlyNull_onClientHandshake (s : Session) : OnlyNull s.onClientHandshake :=
  (onlyNull_wireTls _ _).bind fun s => (onlyNull_wireTls s _).bind fun s =>
    (onlyNull_startTlsRead s _).bind fun s => onlyNull_startTlsRead s _

theorem onlyNull_clientHandshake (s : Session) (id : Nat) : OnlyNull (s.clientHandshake w id) := by
  rw [clientHandshake]
  split
  · exact onlyNull_ok _
  · exact onlyNull_onClientHandshake _
  · exact onlyNull_ok _

theorem onlyNull_upstreamHandshake (s : Session) (id : Nat) (hostname : Bytes) :
    OnlyNull (s.upstreamHandshake w id hostname) := by
  have hcomplete : ∀ s : Session, OnlyNull (s.onUpstreamHandshake w hostname) := by
    intro s
    rw [onUpstreamHandshake]
    split
    · cases s.client_ with
      | none => exact onlyNull_crash s
      | some c => exact onlyNull_clientHandshake _ _
    · exact onlyNull_ok _
  rw [upstreamHandshake]
  split
  · exact onlyNull_ok _
  · exact hcomplete _
  · exact onlyNull_ok _

theorem onlyNull_startTlsMitm (s : Session) (hostname : Bytes) :
    OnlyNull (s.startTlsMitm w hostname) := by
  apply (onlyNull_writeEstablished _).bind
  intro s
  apply (onlyNull_stopClientRead s).bind
  intro s
  cases s.upstream_ with
  | none => exact onlyNull_crash s
  | some c => exact onlyNull_upstreamHandshake _ _ _

theorem onlyNull_startTunnel (s : Session) : OnlyNull (s.startTunnel w) := by
  rw [startTunnel]
  split
  · exact onlyNull_startTlsMitm s _
  · exact (onlyNull_writeEstablished _).bind fun s =>
      (onlyNull_setupUpstreamCallbacks s).bind onlyNull_startUpstreamRead

theorem onlyNull_onUpstreamConnected (s : Session) : OnlyNull (s.onUpstreamConnected w) := by
  rw [onUpstreamConnected]
  split
  · exact onlyNull_ok s
  · dsimp only
    split
    · exact onlyNull_startTunnel _
    · exact onlyNull_forwardRequest _

/-- A connect uses a failed result exactly where the name has no address. -/
theorem connectUpstream_resolved {s : Session} {host : Bytes} {port : Nat}
    (h : w.resolves host port = true) : OnlyNull (s.connectUpstream w host port) := by
  simp only [connectUpstream, h, Bool.true_eq_false, if_false]
  split
  · exact onlyNull_ok _
  · split
    · exact onlyNull_ok _
    · exact onlyNull_onUpstreamConnected _
    · exact onlyNull_ok _

theorem connectUpstream_unresolved {s : Session} {host : Bytes} {port : Nat}
    (h : w.resolves host port = false) :
    s.connectUpstream w host port = s.crash .badExpected := by
  simp [connectUpstream, h]

/-- A connect uses no failed result exactly where the name has an address,
whatever becomes of the socket and of the connect. -/
theorem checksExpected_iff (w : World) (s : Session) (host : Bytes) (port : Nat) :
    ChecksExpected w s host port ↔ w.resolves host port = true := by
  constructor
  · intro h
    cases hr : w.resolves host port with
    | true => rfl
    | false =>
      have hfault : (s.connectUpstream w host port).fault = some .badExpected := by
        rw [connectUpstream_unresolved hr]
        rfl
      exact absurd hfault h.1
  · intro hr
    constructor
    · exact (connectUpstream_resolved hr).fault
    · intro hf
      rw [hr] at hf
      cases hf

end Session

open Session

/-- A world like the prompt one, in which no name has an address. -/
def namelessWorld : World := { promptWorld with resolves := fun _ _ => false }

/-- The request of a client for a host without an address ends the process. -/
theorem nameless_host_unchecked :
    ¬ ChecksExpected namelessWorld (start 7 false false) (text "h") 80 ∧
      (sessionRun namelessWorld (.ok (start 7 false false))
        [received 7 (text "GET / HTTP/1.1\r\nHost: h\r\n\r\n")
          (requestEvents [text "/"] [.host] { method := text "GET" })]).fault =
        some .badExpected := by
  constructor
  · rw [checksExpected_iff]
    decide
  · decide +kernel

end DeepSeer
