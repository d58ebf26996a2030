import DeepSeer.HeadEvents

/-!
How a reader of the wire sees the heads that the proxy writes: the start line,
and for each name the last value that the parser delivered for it.
-/
namespace DeepSeer

open ByteMemory ByteText HttpWire

theorem nameEq_sameName (a b : Bytes) : nameEq a b = sameName b a := by
  rw [Bool.eq_iff_iff, sameName_iff, nameEq, beq_iff_eq, eq_comm]

/-- The line as a reader of the wire would have seen it. -/
def HeaderLine.field (l : HeaderLine) : Field := (l.name, trim l.value)

namespace HeaderMap

/-- Every entry of the map can be written as a line and read back. -/
def Clean (m : HeaderMap) : Prop := ∀ e ∈ m.entries, Field.Clean e

theorem clean_empty : Clean {} := fun _ he => absurd he List.not_mem_nil

theorem Clean.remove {m : HeaderMap} (h : Clean m) (name : Bytes) :
    Clean (HeaderMap.remove m name) :=
  fun e he => h e (List.mem_of_mem_eraseP he)

theorem Clean.set {m : HeaderMap} (h : Clean m) {name value : Bytes}
    (hf : Field.Clean (name, value)) : Clean (HeaderMap.set m name value) := by
  have hall := @SortedMap.assignEntries_all _ _ nameOrder
    (fun n => n ≠ [] ∧ 58 ∉ n ∧ 13 ∉ n) (fun v : Bytes => 13 ∉ v) _ _
    ⟨hf.named, hf.noColon, hf.nameOneLine⟩ hf.valueOneLine m.entries
    fun e he => ⟨⟨(h e he).named, (h e he).noColon, (h e he).nameOneLine⟩, (h e he).valueOneLine⟩
  exact fun e he => ⟨(hall e he).1.1, (hall e he).1.2.1, (hall e he).1.2.2, (hall e he).2⟩

/-- The fields that a reader finds for a map. -/
def fields (m : HeaderMap) : List Field := m.entries.map Field.received

/-- A reader finds the value of a name, or none. -/
theorem fieldValues_fields (m : HeaderMap) (name : Bytes) :
    fieldValues name (fields m) = ((HeaderMap.get m name).map trim).toList := by
  have hname : ∀ e : Bytes × Bytes, nameEq (Field.received e).1 name = nameOrder.same name e.1 :=
    fun e => nameEq_sameName e.1 name
  have hsame := SortedMap.filter_same m name
  have hget : HeaderMap.get m name = m.lookup name := rfl
  rw [fieldValues, fields, List.filter_map, List.map_map, hget]
  have hcomp : ((fun f : Field => nameEq f.1 name) ∘ Field.received) =
      fun e => nameOrder.same name e.1 := funext hname
  have hvalue : (Prod.snd ∘ Field.received) = trim ∘ fun e : Bytes × Bytes => e.2 := rfl
  rw [hcomp, hvalue, ← List.map_map, hsame]
  cases m.lookup name <;> rfl

end HeaderMap

theorem headersOf_clean (lines : List HeaderLine) : HeaderMap.Clean (headersOf lines) := by
  have hfold : ∀ (lines : List HeaderLine) (m : HeaderMap), HeaderMap.Clean m →
      HeaderMap.Clean (lines.foldl (fun m l => HeaderMap.set m l.name l.value) m) := by
    intro lines
    induction lines with
    | nil => exact fun _ h => h
    | cons l rest ih => exact fun m h => ih _ (h.set l.clean)
  exact hfold lines {} HeaderMap.clean_empty

/-- The map holds for each name the last value that came for it. -/
theorem get_headersOf (lines : List HeaderLine) (name : Bytes) :
    HeaderMap.get (headersOf lines) name =
      ((lines.filter fun l => sameName name l.name).map HeaderLine.value).getLast? := by
  have hfold : ∀ (lines : List HeaderLine) (m : HeaderMap),
      HeaderMap.get (lines.foldl (fun m l => HeaderMap.set m l.name l.value) m) name =
        ((lines.filter fun l => sameName name l.name).map HeaderLine.value).getLast?.or
          (HeaderMap.get m name) := by
    intro lines
    induction lines with
    | nil => simp
    | cons l rest ih =>
      intro m
      rw [List.foldl_cons, ih, HeaderMap.get_set]
      by_cases h : sameName name l.name = true
      · simp [h, List.getLast?_cons]
      · simp [h]
  rw [headersOf, hfold lines {}]
  simp [HeaderMap.get]

namespace Http1Codec

/-- The request line without its end. -/
def requestStart (req : HttpRequest) : Bytes :=
  methodToString req.method ++ text " " ++ req.url ++ text " " ++
    versionText req.versionMajor req.versionMinor

/-- The status line without its end. -/
def statusStart (resp : HttpResponse) : Bytes :=
  versionText resp.versionMajor resp.versionMinor ++ text " " ++ decimal resp.statusCode ++
    text " " ++ resp.reason

theorem encodedHeaders_written (start : Bytes) (m : HeaderMap) :
    start ++ crlf ++ encodedHeaders m = writeHead ⟨start, m.entries⟩ := by
  simp only [encodedHeaders, writeHead, List.append_assoc]
  rfl

theorem requestStart_oneLine {req : HttpRequest} (h : 13 ∉ req.url) : 13 ∉ requestStart req := by
  have hsp : text " " = [32] := by decide
  simp [requestStart, hsp, (methodToString_plain req.method).2, h, not_mem_versionText (b := 13) (.inl rfl)]

theorem statusStart_oneLine {resp : HttpResponse} (h : 13 ∉ resp.reason) :
    13 ∉ statusStart resp := by
  have hsp : text " " = [32] := by decide
  have hdigits := not_mem_decimal (b := 13) (by decide) resp.statusCode
  simp [statusStart, hsp, hdigits, h, not_mem_versionText (b := 13) (.inl rfl)]

/-- A written request head is read back, whatever follows it. -/
theorem readHead_request {req : HttpRequest} (hurl : 13 ∉ req.url)
    (h : HeaderMap.Clean req.headers) (rest : Bytes) :
    readHead (encodedRequest req ++ rest) =
      some (⟨requestStart req, HeaderMap.fields req.headers⟩, rest) := by
  have heq : encodedRequest req = writeHead ⟨requestStart req, req.headers.entries⟩ :=
    encodedHeaders_written (requestStart req) req.headers
  rw [heq]
  exact @readHead_written ⟨requestStart req, req.headers.entries⟩
    ⟨requestStart_oneLine hurl, h⟩ rest

theorem readHead_response {resp : HttpResponse} (hreason : 13 ∉ resp.reason)
    (h : HeaderMap.Clean resp.headers) (rest : Bytes) :
    readHead (encodedResponse resp ++ rest) =
      some (⟨statusStart resp, HeaderMap.fields resp.headers⟩, rest) := by
  have heq : encodedResponse resp = writeHead ⟨statusStart resp, resp.headers.entries⟩ :=
    encodedHeaders_written (statusStart resp) resp.headers
  rw [heq]
  exact @readHead_written ⟨statusStart resp, resp.headers.entries⟩
    ⟨statusStart_oneLine hreason, h⟩ rest

end Http1Codec

end DeepSeer
