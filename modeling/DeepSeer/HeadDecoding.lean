import DeepSeer.WrittenHeads

/-!
Decoding what the encoders write. A reader of the HTTP/1.1 head grammar gets
back the start line and the header map, and stops right behind the head.
-/
namespace DeepSeer

open ByteMemory ByteText HttpWire Http1Codec

/-- The map that fields make when they are set one after another. -/
def headersOfFields (fields : List Field) : HeaderMap :=
  fields.foldl (fun m f => HeaderMap.set m f.1 f.2) {}

/-- Read a request head by the grammar. Host and port of the request and the
flag of its body are no part of the head. -/
def parseRequest (bs : Bytes) : Option (HttpRequest × Bytes) := do
  let (head, rest) ← readHead bs
  let (method, url, major, minor) ← readRequestLine head.start
  some ({ method := stringToMethod method, url := url, versionMajor := major, versionMinor := minor
          headers := headersOfFields head.fields }, rest)

def parseResponse (bs : Bytes) : Option (HttpResponse × Bytes) := do
  let (head, rest) ← readHead bs
  let ((major, minor), status, reason) ← readStatusLine head.start
  some ({ statusCode := status, reason := reason, versionMajor := major, versionMinor := minor
          headers := headersOfFields head.fields }, rest)

/-- Names are tokens; values are on one line and have no blanks around them. -/
structure PlainHeaders (m : HeaderMap) : Prop where
  named : ∀ e ∈ m.entries, e.1 ≠ [] ∧ ∀ b ∈ e.1, b ≠ 58 ∧ b ≠ 13 ∧ b ≠ 10 ∧ isSpace b = false
  valued : ∀ e ∈ m.entries, 13 ∉ e.2 ∧ 10 ∉ e.2 ∧ trim e.2 = e.2

structure PlainRequest (req : HttpRequest) : Prop where
  known : req.method ≠ .UNKNOWN
  url : req.url ≠ [] ∧ 32 ∉ req.url ∧ 13 ∉ req.url ∧ 10 ∉ req.url
  headers : PlainHeaders req.headers

structure PlainResponse (resp : HttpResponse) : Prop where
  status : 100 ≤ resp.statusCode ∧ resp.statusCode ≤ 999
  reason : 13 ∉ resp.reason ∧ 10 ∉ resp.reason
  headers : PlainHeaders resp.headers

theorem PlainHeaders.clean {m : HeaderMap} (h : PlainHeaders m) : HeaderMap.Clean m :=
  fun e he => ⟨(h.named e he).1, fun hb => ((h.named e he).2 58 hb).1 rfl,
    fun hb => ((h.named e he).2 13 hb).2.1 rfl, (h.valued e he).1⟩

/-- The fields that are read back make the map again. -/
theorem PlainHeaders.decoded {m : HeaderMap} (h : PlainHeaders m) :
    headersOfFields (HeaderMap.fields m) = m := by
  have hfields : HeaderMap.fields m = m.entries := by
    rw [HeaderMap.fields]
    exact (List.map_congr_left fun e he => by rw [Field.received, (h.valued e he).2.2]; rfl).trans
      (List.map_id _)
  rw [hfields]
  exact SortedMap.assign_entries m

theorem lengthValue_decimal (n : Nat) : lengthValue (decimal n) = some n := by
  simp [lengthValue, decimal_ne_nil, decimal_digits, digitsValue_decimal]

/-- The text of a version is read back. -/
theorem readVersion_text (major minor : Nat) :
    readVersion (versionText major minor) = some (major, minor) := by
  have hdot : text "." = [46] := by decide
  have hdrop : (versionText major minor).drop 5 = decimal major ++ 46 :: decimal minor := by
    have h5 : (text "HTTP/").length = 5 := by decide
    rw [versionText, hdot, List.append_assoc, List.append_assoc, ← h5, List.drop_left]
    rfl
  have hpre : (text "HTTP/").isPrefixOf (versionText major minor) = true := by
    rw [List.isPrefixOf_iff_prefix, versionText, List.append_assoc, List.append_assoc]
    exact List.prefix_append _ _
  have hfind : find 46 (decimal major ++ 46 :: decimal minor) = some (decimal major).length :=
    find_split (not_mem_decimal (by decide) major) _
  simp only [readVersion, hpre, if_true, hdrop, Option.bind_eq_bind, Option.bind_some, hfind,
    List.take_left, drop_split, lengthValue_decimal]

/-- A request line is taken apart at its two blanks. -/
theorem readRequestLine_start {req : HttpRequest} (h : 32 ∉ req.url) :
    readRequestLine (requestStart req) =
      some (methodToString req.method, req.url, req.versionMajor, req.versionMinor) := by
  have hsp : text " " = [32] := by decide
  have hstart : requestStart req = methodToString req.method ++ 32 ::
      (req.url ++ 32 :: versionText req.versionMajor req.versionMinor) := by
    simp [requestStart, hsp]
  have hmethod := find_split (methodToString_plain req.method).1
    (req.url ++ 32 :: versionText req.versionMajor req.versionMinor)
  have hurl := find_split h (versionText req.versionMajor req.versionMinor)
  simp only [readRequestLine, hstart, hmethod, drop_split, hurl, List.take_left,
    readVersion_text, Option.bind_eq_bind, Option.bind_some]

/-- A status line is taken apart at its first two blanks; the reason may be empty
or have more. -/
theorem readStatusLine_start {resp : HttpResponse} (h : 100 ≤ resp.statusCode)
    (h' : resp.statusCode ≤ 999) :
    readStatusLine (statusStart resp) =
      some ((resp.versionMajor, resp.versionMinor), resp.statusCode, resp.reason) := by
  have hsp : text " " = [32] := by decide
  have hstart : statusStart resp = versionText resp.versionMajor resp.versionMinor ++ 32 ::
      (decimal resp.statusCode ++ 32 :: resp.reason) := by
    simp [statusStart, hsp]
  have hversion := find_split (c := 32)
    (not_mem_versionText (.inr rfl) resp.versionMajor resp.versionMinor)
    (decimal resp.statusCode ++ 32 :: resp.reason)
  have hstatus := find_split (not_mem_decimal (b := 32) (by decide) resp.statusCode) resp.reason
  simp only [readStatusLine, hstart, hversion, drop_split, hstatus, List.take_left,
    readVersion_text, if_pos (decimal_length h h'), lengthValue_decimal, Option.bind_eq_bind,
    Option.bind_some]

/-- What a head says of a request. -/
def HttpRequest.onWire (req : HttpRequest) : HttpRequest :=
  { req with host := [], port := 80, hasBody := false }

def HttpResponse.onWire (resp : HttpResponse) : HttpResponse := { resp with hasBody := false }

theorem parseRequest_encoded {req : HttpRequest} (h : PlainRequest req) (rest : Bytes) :
    parseRequest ((encodeRequest req {}).linearize ++ rest) = some (req.onWire, rest) := by
  have hread := readHead_request h.url.2.2.1 h.headers.clean rest
  simp only [parseRequest, (encodeRequest_proper req).2, hread, readRequestLine_start h.url.2.1,
    h.headers.decoded, stringToMethod_methodToString, Option.bind_eq_bind, Option.bind_some]
  rfl

theorem parseResponse_encoded {resp : HttpResponse} (h : PlainResponse resp) (rest : Bytes) :
    parseResponse ((encodeResponse resp {}).linearize ++ rest) = some (resp.onWire, rest) := by
  have hread := readHead_response h.reason.1 h.headers.clean rest
  simp only [parseResponse, (encodeResponse_proper resp).2, hread,
    readStatusLine_start h.status.1 h.status.2, h.headers.decoded, Option.bind_eq_bind,
    Option.bind_some]
  rfl

/-- The encoded heads of plain messages are read back with nothing lost, whatever
bytes follow them, so different heads never encode to the same bytes. -/
theorem encoded_heads_decoded :
    (∀ (req : HttpRequest) (rest : Bytes), PlainRequest req →
      parseRequest ((encodeRequest req {}).linearize ++ rest) = some (req.onWire, rest)) ∧
    (∀ (resp : HttpResponse) (rest : Bytes), PlainResponse resp →
      parseResponse ((encodeResponse resp {}).linearize ++ rest) = some (resp.onWire, rest)) ∧
    (∀ (req req' : HttpRequest) (rest rest' : Bytes), PlainRequest req → PlainRequest req' →
      (encodeRequest req {}).linearize ++ rest = (encodeRequest req' {}).linearize ++ rest' →
      req.onWire = req'.onWire ∧ rest = rest') ∧
    ∀ (resp resp' : HttpResponse) (rest rest' : Bytes), PlainResponse resp → PlainResponse resp' →
      (encodeResponse resp {}).linearize ++ rest = (encodeResponse resp' {}).linearize ++ rest' →
      resp.onWire = resp'.onWire ∧ rest = rest' := by
  refine ⟨fun _ rest h => parseRequest_encoded h rest, fun _ rest h => parseResponse_encoded h rest,
    fun req req' rest rest' h h' heq => ?_, fun resp resp' rest rest' h h' heq => ?_⟩
  · have hsame := parseRequest_encoded h rest
    rw [heq, parseRequest_encoded h' rest'] at hsame
    simp only [Option.some.injEq, Prod.mk.injEq] at hsame
    exact ⟨hsame.1.symm, hsame.2.symm⟩
  · have hsame := parseResponse_encoded h rest
    rw [heq, parseResponse_encoded h' rest'] at hsame
    simp only [Option.some.injEq, Prod.mk.injEq] at hsame
    exact ⟨hsame.1.symm, hsame.2.symm⟩

theorem encoded_heads_decoded_empty_reason :
    parseResponse ((encodeResponse { statusCode := 204 } {}).linearize ++ text "HTTP/1.1") =
      some (HttpResponse.onWire { statusCode := 204 }, text "HTTP/1.1") :=
  encoded_heads_decoded.2.1 { statusCode := 204 } (text "HTTP/1.1")
    ⟨⟨by decide, by decide⟩, ⟨by decide, by decide⟩,
      ⟨fun _ he => absurd he List.not_mem_nil, fun _ he => absurd he List.not_mem_nil⟩⟩

end DeepSeer
