import DeepSeer.Addresses
import DeepSeer.SessionEvents

/-!
The places that read a host and a port off an authority: the construction of an
address, the `Host` header, the authority of an absolute URL and the target of a
`CONNECT`. The address is cut at the last colon and looks at brackets, the header
and the URL are cut at the first colon, the target at the last one.
-/
namespace DeepSeer

open ByteMemory ByteText

/-- The bytes that cannot stand in a host name. -/
def hostEnds : Bytes := [58, 47, 63, 35, 91, 93]

def isHex (b : UInt8) : Bool := isDigit b || (65 ≤ b && b ≤ 70) || (97 ≤ b && b ≤ 102)

/-- A name or an IPv4 address. -/
structure HostName (host : Bytes) : Prop where
  nonempty : host ≠ []
  plain : ∀ b ∈ host, b ∉ hostEnds

/-- The text of an IPv6 address; its groups have at most four digits. -/
structure Ipv6Literal (host : Bytes) : Prop where
  colon : 58 ∈ host
  bytes : ∀ b ∈ host, isHex b = true ∨ b = 58 ∨ b = 46
  groups : ∀ digits, digits <:+: host → digits.all isDigit = true → digits.length ≤ 4

/-- A well-formed authority with a port, in brackets where the host is an IPv6
address. -/
structure Authority where
  host : Bytes
  bracketed : Bool
  numeral : Bytes
  name : bracketed = false → HostName host
  literal : bracketed = true → Ipv6Literal host
  digits : numeral.all isDigit = true
  nonempty : numeral ≠ []

namespace Authority

variable {a : Authority}

def hostText (a : Authority) : Bytes := if a.bracketed then 91 :: (a.host ++ [93]) else a.host

def written (a : Authority) : Bytes := a.hostText ++ 58 :: a.numeral

def value (a : Authority) : Nat := digitsValue a.numeral

def firstGroup (a : Authority) : Bytes := a.host.takeWhile (· != 58)

def behindFirst (a : Authority) : Bytes := (a.host.dropWhile (· != 58)).drop 1

/-- The digits right behind the first colon of the host. -/
def misread (a : Authority) : Bytes := a.behindFirst.takeWhile isDigit

/-- The group behind the first colon of a bracketed host is the port modulo 65536. -/
structure Lands (a : Authority) : Prop where
  bracketed : a.bracketed = true
  digits : a.misread ≠ []
  value : digitsValue a.misread = a.value % 65536

end Authority

/-- The host and the port that `fromString` has resolved. -/
def Address.resolved (s : Bytes) : Option (Bytes × Nat) := (Address.target s).bind Except.toOption

def HttpRequest.hostAndPort (req : HttpRequest) : Bytes × Nat := (req.host, req.port)

/-- What the four places read off an authority. In a URL a path, a query or a
fragment can follow it. -/
inductive Reads (a : Authority) : Option (Bytes × Nat) → Prop
  | address : Reads a (Address.resolved a.written)
  | header {req : HttpRequest} : HeaderMap.get req.headers (text "Host") = some a.written →
      Reads a ((Http1Codec.findHost req).map HttpRequest.hostAndPort)
  | url {req : HttpRequest} {scheme rest : Bytes} : 58 ∉ scheme →
      (∀ b, rest.head? = some b → b = 47 ∨ b = 63 ∨ b = 35) →
      Reads a ((Http1Codec.parseHostFromUrl req
        (scheme ++ text "://" ++ (a.written ++ rest))).map HttpRequest.hostAndPort)
  | connect : Reads a (Session.connectTarget a.written)

/-- All places read the pair that the authority means, and none reads a port that
is reduced modulo 65536. -/
structure Agree (a : Authority) : Prop where
  fits : a.value ≤ 65535 → ∀ r, Reads a r → r = some (a.host, a.value)
  above : 65535 < a.value → ∀ r, Reads a r → ∀ host, r ≠ some (host, a.value % 65536)

/-- What can follow an authority does not continue its numeral. -/
def Stops (tail : Bytes) : Prop := tail.head?.all (!isDigit ·) = true

namespace Authority

variable {a : Authority}

theorem numeral_colon (a : Authority) : 58 ∉ a.numeral := fun h =>
  absurd (List.all_eq_true.mp a.digits 58 h) (by decide)

theorem hostText_name (h : a.bracketed = false) : a.hostText = a.host := by
  simp [hostText, h]

theorem hostText_bracketed (h : a.bracketed = true) : a.hostText = 91 :: (a.host ++ [93]) := by
  simp [hostText, h]

theorem name_no (h : a.bracketed = false) {b : UInt8} (hb : b ∈ hostEnds) : b ∉ a.host :=
  fun hmem => (a.name h).plain b hmem hb

theorem literal_no (h : a.bracketed = true) {b : UInt8} (hhex : isHex b = false) (hcolon : b ≠ 58)
    (hdot : b ≠ 46) : b ∉ a.host := by
  intro hmem
  rcases (a.literal h).bytes b hmem with hb | hb | hb
  · rw [hhex] at hb
    cases hb
  · exact hcolon hb
  · exact hdot hb

/-- The host is its first group, a colon and what stands behind it. -/
theorem host_groups (h : a.bracketed = true) :
    a.host = a.firstGroup ++ 58 :: a.behindFirst ∧ 58 ∉ a.firstGroup := by
  obtain ⟨front, back, hhost, hfront⟩ := List.eq_append_cons_of_mem (a.literal h).colon
  have hall : ∀ b ∈ front, (b != 58) = true := by
    intro b hb
    have hne : b ≠ 58 := by
      rintro rfl
      exact hfront hb
    simpa using hne
  have hfirst : a.firstGroup = front := by
    rw [firstGroup, hhost, List.takeWhile_append_of_pos hall]
    simp
  have hbehind : a.behindFirst = back := by
    rw [behindFirst, hhost, List.dropWhile_append_of_pos hall]
    simp
  rw [hfirst, hbehind]
  exact ⟨hhost, hfront⟩

/-- The numeral converts to its value, which is then cut to 16 bits. -/
theorem stoi_port (a : Authority) (tail : Bytes) (ht : Stops tail) :
    (stoi (a.numeral ++ tail)).map (fun port => (port % 65536).toNat) =
      if a.value < 2147483648 then some (a.value % 65536) else none := by
  rw [stoi_numeral a.digits a.nonempty ht]
  by_cases hle : digitsValue a.numeral ≤ 2147483647
  · rw [if_pos hle, value, if_pos (by omega), Option.map_some, Option.some.injEq]
    omega
  · rw [if_neg hle, value, if_neg (by omega)]
    rfl

theorem resolved_written (a : Authority) : Address.resolved a.written =
    if a.value < 18446744073709551616 then some (a.host, a.value % 65536) else none := by
  have hshape : Address.Shape a.host a.numeral a.written := by
    unfold written
    cases hb : a.bracketed with
    | false =>
      rw [hostText_name hb]
      refine .plain a.numeral_colon fun hhead => ?_
      exact name_no hb (b := 91) (by decide) (List.mem_of_mem_head? hhead)
    | true =>
      rw [hostText_bracketed hb]
      simpa using Address.Shape.bracketed a.numeral_colon
        (literal_no hb (b := 93) (by decide) (by decide) (by decide))
  have hnum := @stoul_numeral a.numeral [] a.digits a.nonempty rfl
  rw [List.append_nil] at hnum
  rw [Address.resolved, Address.target_shape hshape, Address.portNum, hnum, value]
  by_cases hlt : digitsValue a.numeral < 18446744073709551616
  · rw [if_pos hlt, if_pos hlt]
    rfl
  · rw [if_neg hlt, if_neg hlt]
    rfl

/-- A conversion of a port, paired with the text before the colon. -/
theorem map_port (front : Bytes) (port : Option Int) :
    (port.map fun n => (front, (n % 65536).toNat)) =
      (port.map fun n => (n % 65536).toNat).map fun n => (front, n) := by
  rw [Option.map_map]
  rfl

theorem connectTarget_written (a : Authority) : Session.connectTarget a.written =
    if a.value < 2147483648 then some (a.hostText, a.value % 65536) else none := by
  have hport := a.stoi_port [] rfl
  rw [List.append_nil] at hport
  simp only [Session.connectTarget, written, rfind_split a.numeral_colon, drop_split,
    List.take_left]
  rw [map_port, hport]
  split <;> rfl

theorem splitHost_first {front : Bytes} (hfront : 58 ∉ front) (req : HttpRequest) (rest : Bytes) :
    (Http1Codec.splitHost req (front ++ 58 :: rest)).map HttpRequest.hostAndPort =
      ((stoi rest).map fun n => (n % 65536).toNat).map fun n => (front, n) := by
  simp only [Http1Codec.splitHost, find_split hfront, drop_split, List.take_left]
  rw [Option.map_map, Option.map_map]
  rfl

/-- What is behind the digits of a text stops a numeral. -/
theorem stops_dropWhile (s rest : Bytes) : Stops (s.dropWhile isDigit ++ 93 :: rest) := by
  have hhead := List.head?_dropWhile_not isDigit s
  unfold Stops
  cases hs : s.dropWhile isDigit with
  | nil => rfl
  | cons b back =>
    rw [hs] at hhead
    simpa using hhead

theorem splitHost_name (h : a.bracketed = false) (req : HttpRequest) (tail : Bytes)
    (ht : Stops tail) :
    (Http1Codec.splitHost req (a.written ++ tail)).map HttpRequest.hostAndPort =
      if a.value < 2147483648 then some (a.host, a.value % 65536) else none := by
  have hcut : a.written ++ tail = a.host ++ 58 :: (a.numeral ++ tail) := by
    simp [written, hostText_name h]
  rw [hcut, splitHost_first (name_no h (by decide)), a.stoi_port tail ht]
  split <;> rfl

theorem misread_small (h : a.bracketed = true) : digitsValue a.misread ≤ 9999 := by
  have hall : a.misread.all isDigit = true := List.all_takeWhile
  have hinfix : a.misread <:+: a.host := by
    refine (List.takeWhile_prefix _).isInfix.trans ?_
    exact (List.drop_suffix _ _).isInfix.trans (List.dropWhile_suffix _).isInfix
  have hlength := (a.literal h).groups _ hinfix hall
  exact digitsValue_four hall hlength

/-- The conversion reads the digits right behind the first colon of a bracketed host. -/
theorem stoi_misread (h : a.bracketed = true) (rest : Bytes) :
    stoi (a.behindFirst ++ 93 :: rest) =
      if a.misread = [] then none else some (digitsValue a.misread : Int) := by
  by_cases hnil : a.misread = []
  · rw [if_pos hnil]
    cases hbehind : a.behindFirst with
    | nil => exact stoi_above (by decide) (by decide) rest
    | cons b back =>
      have hdigit : isDigit b = false := by
        by_contra hb
        rw [misread, hbehind, List.takeWhile_cons_of_pos (by simpa using hb)] at hnil
        cases hnil
      have hmem : b ∈ a.host := by
        rw [(host_groups h).1, hbehind]
        simp
      refine stoi_above ?_ hdigit _
      rcases (a.literal h).bytes b hmem with hb | rfl | rfl
      · simp only [isHex, isDigit, UInt8.le_iff_toNat_le, Bool.or_eq_true, Bool.and_eq_true,
          decide_eq_true_eq] at hb
        rcases hb with (hb | hb) | hb
        · exact Nat.le_trans (by decide) hb.1
        · exact Nat.le_trans (by decide) hb.1
        · exact Nat.le_trans (by decide) hb.1
      · decide
      · decide
  · have hsmall := misread_small h
    have hcut : a.behindFirst ++ 93 :: rest =
        a.misread ++ (a.behindFirst.dropWhile isDigit ++ 93 :: rest) := by
      rw [← List.append_assoc, misread, List.takeWhile_append_dropWhile]
    have hall : a.misread.all isDigit = true := List.all_takeWhile
    rw [if_neg hnil, hcut, stoi_numeral hall hnil (stops_dropWhile _ _), if_pos (by omega)]

/-- Of a bracketed host the first group is read as the host, and the digits behind
its colon as the port. -/
theorem splitHost_bracketed (h : a.bracketed = true) (req : HttpRequest) (tail : Bytes) :
    (Http1Codec.splitHost req (a.written ++ tail)).map HttpRequest.hostAndPort =
      if a.misread = [] then none else some (91 :: a.firstGroup, digitsValue a.misread) := by
  obtain ⟨hgroups, hfirst⟩ := host_groups h
  have hcut : a.written ++ tail = (91 :: a.firstGroup) ++
      58 :: (a.behindFirst ++ 93 :: 58 :: (a.numeral ++ tail)) := by
    have hhost : a.hostText = 91 :: (a.firstGroup ++ 58 :: a.behindFirst ++ [93]) := by
      rw [hostText_bracketed h, ← hgroups]
    simp [written, hhost]
  have hfront : 58 ∉ (91 :: a.firstGroup : Bytes) := by simpa using hfirst
  have hread : stoi (a.behindFirst ++ 93 :: 58 :: (a.numeral ++ tail)) =
      if a.misread = [] then none else some (digitsValue a.misread : Int) :=
    stoi_misread h _
  rw [hcut, splitHost_first hfront, hread]
  split
  · rfl
  · have hsmall := misread_small h
    simp only [Option.map_some, Option.some.injEq, Prod.mk.injEq, true_and]
    omega

/-- The part of a URL between the scheme and the path. -/
theorem hostPart_eq (url : Bytes) (i : Nat) :
    Http1Codec.hostPart url i = (url.drop (i + 3)).takeWhile (· != 47) := by
  simp only [Http1Codec.hostPart, findFrom]
  cases hpath : find 47 (url.drop (i + 3)) with
  | none => exact (takeWhile_find hpath).symm
  | some j =>
    simp only [Option.map_some, Nat.add_sub_cancel_left]
    exact take_find hpath

theorem written_slash (a : Authority) : ∀ b ∈ a.written, (b != 47) = true := by
  intro b hb
  have hne : b ≠ 47 := by
    rintro rfl
    rcases List.mem_append.mp hb with hhost | hport
    · cases hbr : a.bracketed with
      | false =>
        rw [hostText_name hbr] at hhost
        exact name_no hbr (by decide) hhost
      | true =>
        have hno := literal_no hbr (b := 47) (by decide) (by decide) (by decide)
        rw [hostText_bracketed hbr] at hhost
        simp [hno] at hhost
    · rcases List.mem_cons.mp hport with heq | hnum
      · cases heq
      · exact absurd (List.all_eq_true.mp a.digits 47 hnum) (by decide)
  simpa using hne

/-- A URL is split as its authority is, and what follows up to the path stops the
numeral. -/
theorem parseHostFromUrl_written (a : Authority) (req : HttpRequest) (scheme rest : Bytes)
    (hscheme : 58 ∉ scheme) (hrest : ∀ b, rest.head? = some b → b = 47 ∨ b = 63 ∨ b = 35) :
    ∃ tail, Stops tail ∧ Http1Codec.parseHostFromUrl req
      (scheme ++ text "://" ++ (a.written ++ rest)) =
        Http1Codec.splitHost req (a.written ++ tail) := by
  have hfind : findText (text "://") (scheme ++ text "://" ++ (a.written ++ rest)) =
      some scheme.length := findText_split hscheme _
  have hdrop : (scheme ++ text "://" ++ (a.written ++ rest)).drop (scheme.length + 3) =
      a.written ++ rest :=
    List.drop_left' (by rw [List.length_append]; rfl)
  have htake : (a.written ++ rest).takeWhile (· != 47) =
      a.written ++ rest.takeWhile (· != 47) := List.takeWhile_append_of_pos a.written_slash
  refine ⟨rest.takeWhile (· != 47), ?_, ?_⟩
  · unfold Stops
    cases rest with
    | nil => rfl
    | cons b back =>
      rcases hrest b rfl with rfl | rfl | rfl
      · rfl
      · rfl
      · rfl
  · simp only [Http1Codec.parseHostFromUrl, hfind, hostPart_eq, hdrop, htake]

theorem splitHost_named (a : Authority) (req : HttpRequest) {pair : Bytes × Nat}
    (h : (Http1Codec.splitHost req a.written).map HttpRequest.hostAndPort = some pair) :
    pair.1 ≠ [] := by
  cases hb : a.bracketed with
  | false =>
    have hname := splitHost_name hb req [] rfl
    rw [List.append_nil, h] at hname
    split at hname
    · cases hname
      exact (a.name hb).nonempty
    · cases hname
  | true =>
    have hliteral := splitHost_bracketed hb req []
    rw [List.append_nil, h] at hliteral
    split at hliteral
    · cases hliteral
    · cases hliteral
      exact List.cons_ne_nil _ _

/-- A `Host` header that names a host is what the request takes it from. -/
theorem findHost_written (a : Authority) {req : HttpRequest}
    (hget : HeaderMap.get req.headers (text "Host") = some a.written) :
    (Http1Codec.findHost req).map HttpRequest.hostAndPort =
      (Http1Codec.splitHost req (a.written ++ [])).map HttpRequest.hostAndPort := by
  have hnamed : ∀ req', Http1Codec.splitHost req a.written = some req' → req'.host ≠ [] := by
    intro req' hsplit
    exact a.splitHost_named req (congrArg (Option.map HttpRequest.hostAndPort) hsplit)
  rw [List.append_nil]
  simp only [Http1Codec.findHost, hget]
  cases hsplit : Http1Codec.splitHost req a.written with
  | none => rfl
  | some req' =>
    change Option.map _ (if req'.host = [] then _ else some req') = _
    rw [if_neg (hnamed req' hsplit)]

/-- Of a name every place reads the port, as far as its conversion goes. -/
theorem reads_name (h : a.bracketed = false) {r : Option (Bytes × Nat)} (hr : Reads a r) :
    ∃ limit, 65536 ≤ limit ∧ limit ≤ 18446744073709551616 ∧
      r = if a.value < limit then some (a.host, a.value % 65536) else none := by
  cases hr with
  | address => exact ⟨18446744073709551616, by decide, by decide, a.resolved_written⟩
  | header hget =>
    exact ⟨2147483648, by decide, by decide,
      (a.findHost_written hget).trans (splitHost_name h _ [] rfl)⟩
  | url hscheme hrest =>
    obtain ⟨tail, hstops, hsplit⟩ := a.parseHostFromUrl_written _ _ _ hscheme hrest
    exact ⟨2147483648, by decide, by decide, by rw [hsplit, splitHost_name h _ tail hstops]⟩
  | connect =>
    refine ⟨2147483648, by decide, by decide, ?_⟩
    rw [a.connectTarget_written, hostText_name h]

/-- Of a bracketed host with a port that no conversion takes, only the header and
the URL read something. -/
theorem reads_bracketed (h : a.bracketed = true) (hvalue : 18446744073709551616 ≤ a.value)
    {r : Option (Bytes × Nat)} (hr : Reads a r) :
    r = none ∨ a.misread ≠ [] ∧ r = some (91 :: a.firstGroup, digitsValue a.misread) := by
  have hsplit : ∀ req tail, (Http1Codec.splitHost req (a.written ++ tail)).map
      HttpRequest.hostAndPort = none ∨ a.misread ≠ [] ∧
        (Http1Codec.splitHost req (a.written ++ tail)).map HttpRequest.hostAndPort =
          some (91 :: a.firstGroup, digitsValue a.misread) := by
    intro req tail
    rw [splitHost_bracketed h]
    by_cases hnil : a.misread = []
    · exact .inl (if_pos hnil)
    · exact .inr ⟨hnil, if_neg hnil⟩
  cases hr with
  | address =>
    left
    rw [a.resolved_written, if_neg (by omega)]
  | header hget =>
    rw [a.findHost_written hget]
    exact hsplit _ _
  | url hscheme hrest =>
    obtain ⟨tail, -, heq⟩ := a.parseHostFromUrl_written _ _ _ hscheme hrest
    rw [heq]
    exact hsplit _ _
  | connect =>
    left
    rw [a.connectTarget_written, if_neg (by omega)]

/-- Brackets stay in the host of a `CONNECT` target. -/
theorem unbracketed_of_agree (h : Agree a) (hfit : a.value ≤ 65535) : a.bracketed = false := by
  by_contra hb
  have hconnect := h.fits hfit _ .connect
  rw [a.connectTarget_written, if_pos (by omega), hostText_bracketed (by simpa using hb)]
    at hconnect
  have hlength := congrArg (fun pair => pair.1.length) (Option.some.inj hconnect)
  simp at hlength
  omega

/-- The resolver reduces the ports that its conversion takes. -/
theorem overflows_of_agree (h : Agree a) (hfit : ¬ a.value ≤ 65535) :
    18446744073709551616 ≤ a.value := by
  by_contra hlt
  refine h.above (by omega) _ .address a.host ?_
  rw [a.resolved_written, if_pos (by omega)]

theorem not_lands_of_agree (h : Agree a) (hfit : ¬ a.value ≤ 65535) : ¬ Lands a := by
  intro hlands
  have hscheme : 58 ∉ text "http" := by decide
  have hrest : ∀ b : UInt8, ([] : Bytes).head? = some b → b = 47 ∨ b = 63 ∨ b = 35 := by simp
  have hurl : Reads a ((Http1Codec.parseHostFromUrl {}
      (text "http" ++ text "://" ++ (a.written ++ []))).map HttpRequest.hostAndPort) :=
    .url hscheme hrest
  refine h.above (by omega) _ hurl (91 :: a.firstGroup) ?_
  obtain ⟨tail, -, hsplit⟩ := a.parseHostFromUrl_written {} _ _ hscheme hrest
  rw [hsplit, splitHost_bracketed hlands.bracketed, if_neg hlands.digits, hlands.value]

theorem agree_of_name (hname : a.bracketed = false) (hfit : a.value ≤ 65535) : Agree a := by
  refine ⟨fun _ r hr => ?_, fun habove => by omega⟩
  obtain ⟨limit, hlow, -, rfl⟩ := reads_name hname hr
  rw [if_pos (by omega), Nat.mod_eq_of_lt (by omega)]

theorem agree_of_overflow (hbig : 18446744073709551616 ≤ a.value) (hlands : ¬ Lands a) :
    Agree a := by
  refine ⟨fun hfit => by omega, fun _ r hr host hread => ?_⟩
  cases hb : a.bracketed with
  | false =>
    obtain ⟨limit, -, hhigh, rfl⟩ := reads_name hb hr
    rw [if_neg (by omega)] at hread
    cases hread
  | true =>
    rcases reads_bracketed hb hbig hr with rfl | ⟨hdigits, rfl⟩
    · cases hread
    · exact hlands ⟨hb, hdigits, congrArg Prod.snd (Option.some.inj hread)⟩

end Authority

open Authority

/-- The places agree on an authority exactly where its host has no brackets and its
port fits, or where no conversion takes the port and none lands on it. -/
theorem agree_iff (a : Authority) :
    Agree a ↔ (a.bracketed = false ∧ a.value ≤ 65535) ∨
      (18446744073709551616 ≤ a.value ∧ ¬ Lands a) := by
  constructor
  · intro h
    by_cases hfit : a.value ≤ 65535
    · exact .inl ⟨unbracketed_of_agree h hfit, hfit⟩
    · exact .inr ⟨overflows_of_agree h hfit, not_lands_of_agree h hfit⟩
  · rintro (⟨hname, hfit⟩ | ⟨hbig, hlands⟩)
    · exact agree_of_name hname hfit
    · exact agree_of_overflow hbig hlands

/-- `[::1]:8080`. -/
def loopback : Authority where
  host := text "::1"
  bracketed := true
  numeral := text "8080"
  name := fun h => by cases h
  literal := fun _ =>
    { colon := by decide
      bytes := by
        have hall : (text "::1").all (fun b => isHex b || b == 58 || b == 46) = true := by decide
        simpa [or_assoc] using hall
      groups := fun _ hinfix _ => Nat.le_trans hinfix.length_le (by decide) }
  digits := by decide
  nonempty := by decide

/-- Brackets are removed in the address only, and the header throws. -/
theorem brackets_disagree :
    Address.resolved loopback.written = some (text "::1", 8080) ∧
      Session.connectTarget loopback.written = some (text "[::1]", 8080) ∧
      Http1Codec.splitHost {} loopback.written = none ∧ ¬ Agree loopback := by
  have hconnect : Session.connectTarget loopback.written = some (text "[::1]", 8080) := by decide
  refine ⟨by decide, hconnect, by decide, fun h => ?_⟩
  have hpair := h.fits (by decide) _ .connect
  rw [hconnect] at hpair
  exact absurd hpair (by decide)

end DeepSeer
