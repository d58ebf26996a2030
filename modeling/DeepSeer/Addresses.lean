import DeepSeer.ByteText

/-!
The construction of an address from a string. `fromString` cuts the string at its
last colon, converts the text behind it with a conversion that throws and wraps,
and passes host and port on to the resolution of names.
-/
namespace DeepSeer

open ByteMemory ByteText

/-- The error codes that the network classes report. -/
inductive ErrorCode where
  | wouldBlock | fdExhausted | internalError
  deriving DecidableEq, Repr

structure Error where
  code : ErrorCode
  message : Bytes
  deriving DecidableEq, Repr

namespace Address

def invalidFormat : Error :=
  ⟨.internalError, text "Address construction got invalid address format"⟩

def invalidIpv6 : Error :=
  ⟨.internalError, text "Address construction got invalide IPV6 address format"⟩

/-- The texts of host and port that `fromString` cuts its argument into. -/
def splitHostPort (hostPort : Bytes) : Except Error (Bytes × Bytes) :=
  match rfind 58 hostPort with
  | none => .error invalidFormat
  | some colonPos =>
    if hostPort.head? = some 91 then
      match find 93 hostPort with
      | none => .error invalidIpv6
      | some endPos =>
        if endPos + 1 ≠ colonPos then .error invalidIpv6
        else .ok ((hostPort.drop 1).take (endPos - 1), hostPort.drop (colonPos + 1))
    else .ok (hostPort.take colonPos, hostPort.drop (colonPos + 1))

/-- `static_cast<uint16_t>(std::stoul(port))`. -/
def portNum (port : Bytes) : Option Nat := (stoul port).map (· % 65536)

/-- What `fromString` has for `fromHostPort`, or the error it returns instead.
There is nothing where `std::stoul` throws. -/
def target (hostPort : Bytes) : Option (Except Error (Bytes × Nat)) :=
  match splitHostPort hostPort with
  | .error e => some (.error e)
  | .ok (host, port) => (portNum port).map fun n => .ok (host, n)

/-- `fromString`, over the resolution of a host and a port. -/
def fromString {α : Type} (fromHostPort : Bytes → Nat → Except Error α) (hostPort : Bytes) :
    Option (Except Error α) :=
  (target hostPort).map fun r => r.bind fun (host, port) => fromHostPort host port

/-- The string is `host:port`, or `[host]:port` where it begins with a bracket. -/
inductive Shape (host port : Bytes) : Bytes → Prop
  | plain : 58 ∉ port → host.head? ≠ some 91 → Shape host port (host ++ 58 :: port)
  | bracketed : 58 ∉ port → 93 ∉ host → Shape host port (91 :: (host ++ 93 :: 58 :: port))

/-- One or more decimal digits of a value that fits a port. -/
structure PortText (port : Bytes) : Prop where
  digits : port.all isDigit = true
  nonempty : port ≠ []
  value : digitsValue port ≤ 65535

/-- The string names the host and the port. -/
def Denotes (s host : Bytes) (port : Nat) : Prop :=
  ∃ digits, Shape host digits s ∧ PortText digits ∧ digitsValue digits = port

/-- The string is handled as it should be: nothing is thrown, and a host and a port
are resolved exactly where the string names them. -/
structure WellHandled (s : Bytes) : Prop where
  returns : target s ≠ none
  resolves : ∀ host port, target s = some (.ok (host, port)) ↔ Denotes s host port

theorem splitHostPort_plain {host port : Bytes} (hport : 58 ∉ port) (hhost : host.head? ≠ some 91) :
    splitHostPort (host ++ 58 :: port) = .ok (host, port) := by
  have hhead : (host ++ 58 :: port).head? ≠ some 91 := by
    cases host with
    | nil => simp
    | cons b rest => exact hhost
  simp only [splitHostPort, rfind_split hport, hhead, if_false, drop_split, List.take_left]

theorem splitHostPort_bracketed {host port : Bytes} (hport : 58 ∉ port) (hhost : 93 ∉ host) :
    splitHostPort (91 :: (host ++ 93 :: 58 :: port)) = .ok (host, port) := by
  have hcolon : rfind 58 (91 :: (host ++ 93 :: 58 :: port)) = some (host.length + 2) := by
    have h := rfind_split hport (91 :: (host ++ [93]))
    simpa using h
  have hend : find 93 (91 :: (host ++ 93 :: 58 :: port)) = some (host.length + 1) := by
    have hfront : (93 : UInt8) ∉ 91 :: host := by simpa using hhost
    exact find_split hfront _
  have hdrop : (91 :: (host ++ 93 :: 58 :: port)).drop (host.length + 2 + 1) = port := by
    simp
  have htake : ((91 :: (host ++ 93 :: 58 :: port)).drop 1).take (host.length + 1 - 1) = host := by
    rw [List.drop_succ_cons, List.drop_zero, Nat.add_sub_cancel, List.take_left]
  simp only [splitHostPort, hcolon, hend, List.head?_cons, if_true, ne_eq, not_true_eq_false,
    if_false, hdrop, htake]

/-- Where the first closing bracket stands right before the last colon. -/
theorem shape_closed {front back : Bytes} (hhead : front.head? = some 91)
    (hend : find 93 (front ++ 58 :: back) = some (front.length - 1)) :
    ∃ host, front = 91 :: (host ++ [93]) ∧ 93 ∉ host := by
  obtain ⟨hlt, hnot, hat⟩ := find_some hend
  cases front with
  | nil => cases hhead
  | cons b inner =>
    cases hhead
    rcases List.eq_nil_or_concat inner with rfl | ⟨host, last, rfl⟩
    · cases hat
    · rw [List.concat_eq_append] at hat hnot ⊢
      have hlast : last = 93 := by simpa using hat
      refine ⟨host, by rw [hlast], ?_⟩
      simpa using hnot

/-- A string in brackets is cut only where the bracket is closed before the port. -/
theorem shape_of_bracket {front back host port : Bytes} (hback : 58 ∉ back)
    (hfront : front.head? = some 91) (h : splitHostPort (front ++ 58 :: back) = .ok (host, port)) :
    Shape host port (front ++ 58 :: back) := by
  have hhead : (front ++ 58 :: back).head? = some 91 := by
    rw [List.head?_append, hfront]
    rfl
  simp only [splitHostPort, rfind_split hback, hhead, if_true, drop_split] at h
  cases hend : find 93 (front ++ 58 :: back) with
  | none =>
    rw [hend] at h
    cases h
  | some endPos =>
    simp only [hend] at h
    by_cases hclose : endPos + 1 = front.length
    · obtain rfl : endPos = front.length - 1 := by omega
      obtain ⟨inner, rfl, hinner⟩ := shape_closed hfront hend
      simp only [List.length_cons, List.length_append, List.length_nil, ne_eq,
        not_true_eq_false, if_false, List.cons_append, List.drop_succ_cons, List.drop_zero,
        Nat.add_sub_cancel, Nat.zero_add, List.append_assoc, List.take_left,
        List.nil_append] at h
      cases h
      simpa using Shape.bracketed hback hinner
    · rw [if_pos hclose] at h
      cases h

/-- The string is cut exactly where it has the shape. -/
theorem splitHostPort_ok {s host port : Bytes} :
    splitHostPort s = .ok (host, port) ↔ Shape host port s := by
  constructor
  · intro h
    cases hcolon : rfind 58 s with
    | none =>
      rw [splitHostPort, hcolon] at h
      cases h
    | some colonPos =>
      obtain ⟨front, back, rfl, hback, rfl⟩ := rfind_some hcolon
      by_cases hfront : front.head? = some 91
      · exact shape_of_bracket hback hfront h
      · rw [splitHostPort_plain hback hfront] at h
        cases h
        exact .plain hback hfront
  · rintro (⟨hport, hhost⟩ | ⟨hport, hhost⟩)
    · exact splitHostPort_plain hport hhost
    · exact splitHostPort_bracketed hport hhost

theorem PortText.portNum {port : Bytes} (h : PortText port) :
    portNum port = some (digitsValue port) := by
  have hnum := @stoul_numeral port [] h.digits h.nonempty rfl
  have hlt : digitsValue port < 18446744073709551616 := by
    have hvalue := h.value
    omega
  rw [List.append_nil, if_pos hlt] at hnum
  rw [Address.portNum, hnum, Option.map_some, Nat.mod_eq_of_lt (by have := h.value; omega)]

theorem target_shape {s host port : Bytes} (h : Shape host port s) :
    target s = (portNum port).map fun n => .ok (host, n) := by
  rw [target, splitHostPort_ok.mpr h]

/-- The texts of a shape are those of the string. -/
theorem Shape.unique {s host host' port port' : Bytes} (h : Shape host port s)
    (h' : Shape host' port' s) : host = host' ∧ port = port' := by
  have hsame := (splitHostPort_ok.mpr h).symm.trans (splitHostPort_ok.mpr h')
  simpa using hsame

/-- A string is well handled exactly where the text that stands for the port is a
numeral that fits one. -/
theorem wellHandled_iff (s : Bytes) :
    WellHandled s ↔ ∀ host port, Shape host port s → PortText port := by
  constructor
  · intro h host port hshape
    have htarget := target_shape hshape
    cases hnum : portNum port with
    | none =>
      rw [hnum] at htarget
      exact absurd htarget h.returns
    | some n =>
      rw [hnum] at htarget
      obtain ⟨digits, hdigits, hport, -⟩ := (h.resolves host n).mp htarget
      rwa [(hshape.unique hdigits).2]
  · intro h
    refine ⟨fun hnone => ?_, fun host port => ⟨fun htarget => ?_, ?_⟩⟩
    · unfold target at hnone
      split at hnone
      · cases hnone
      · next host port hsplit =>
        rw [(h host port (splitHostPort_ok.mp hsplit)).portNum] at hnone
        cases hnone
    · cases hsplit : splitHostPort s with
      | error e => simp [target, hsplit] at htarget
      | ok parts =>
        have hshape := splitHostPort_ok.mp hsplit
        have hport := h parts.1 parts.2 hshape
        rw [target_shape hshape, hport.portNum] at htarget
        cases htarget
        exact ⟨parts.2, hshape, hport, rfl⟩
    · rintro ⟨digits, hshape, hport, rfl⟩
      rw [target_shape hshape, hport.portNum]
      rfl

end Address

open Address

/-- An empty port throws, and a port above the range is taken for another one. -/
theorem malformed_ports_mishandled :
    (target (text "h:") = none ∧ ¬ WellHandled (text "h:")) ∧
      target (text "h:65616") = some (.ok (text "h", 80)) ∧ ¬ WellHandled (text "h:65616") := by
  have hshape : Shape (text "h") (text "65616") (text "h:65616") := .plain (by decide) (by decide)
  have hresolved : target (text "h:65616") = some (.ok (text "h", 80)) := by decide
  refine ⟨⟨by decide, fun h => h.returns (by decide)⟩, hresolved, fun h => ?_⟩
  obtain ⟨digits, hdigits, hport, -⟩ := (h.resolves _ _).mp hresolved
  rw [← (hshape.unique hdigits).2] at hport
  exact absurd hport.value (by decide)

end DeepSeer
