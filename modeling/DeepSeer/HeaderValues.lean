import DeepSeer.ClientDelivery
import DeepSeer.RequestLine
import DeepSeer.WrittenHeads

/-!
The header values that a head still has when it is encoded again. The map keeps
one value for a name, the last that came, so a name that comes twice loses one;
a response also loses the framing headers that are taken out on purpose.
-/
namespace DeepSeer

open ByteMemory ByteText HttpWire Http1Codec Session

/-- The values that came for a name, in order. -/
def receivedValues (lines : List HeaderLine) (name : Bytes) : List Bytes :=
  fieldValues name (lines.map HeaderLine.field)

theorem receivedValues_eq (lines : List HeaderLine) (name : Bytes) :
    receivedValues lines name =
      ((lines.filter fun l => sameName name l.name).map HeaderLine.value).map trim := by
  have hname : ((fun f : Field => nameEq f.1 name) ∘ HeaderLine.field) =
      fun l => sameName name l.name := funext fun l => nameEq_sameName l.name name
  rw [receivedValues, fieldValues, List.filter_map, List.map_map, hname, List.map_map]
  rfl

/-- Of the values that came for a name the map has the last. -/
theorem fieldValues_headersOf (lines : List HeaderLine) (name : Bytes) :
    fieldValues name (HeaderMap.fields (headersOf lines)) =
      (receivedValues lines name).getLast?.toList := by
  rw [HeaderMap.fieldValues_fields, get_headersOf, receivedValues_eq, List.getLast?_map (f := trim)]

/-- At most one value came for each name outside `apart` exactly when no two
lines share such a name. -/
theorem received_once_iff (lines : List HeaderLine) (apart : Bytes → Bool)
    (happart : ∀ a b, sameName a b = true → apart a = apart b) :
    (∀ name, apart name = false → (receivedValues lines name).length ≤ 1) ↔
      lines.Pairwise fun a b => sameName a.name b.name = true → apart a.name = true := by
  simp only [receivedValues_eq, List.length_map]
  induction lines with
  | nil => simp
  | cons l rest ih =>
    rw [List.pairwise_cons, ← ih]
    constructor
    · intro h
      refine ⟨fun b hb hsame => ?_, fun name hname => ?_⟩
      · by_contra hapart
        have hone := h l.name (by simpa using hapart)
        have hself : sameName l.name l.name = true := nameOrder.same_self l.name
        have hmem : b ∈ rest.filter fun l' => sameName l.name l'.name := by simp [hb, hsame]
        have hpos := List.length_pos_of_mem hmem
        simp only [List.filter_cons, hself, if_true, List.length_cons] at hone
        omega
      · have hall := h name hname
        refine Nat.le_trans (List.Sublist.length_le ?_) hall
        exact (List.sublist_cons_self l rest).filter _
    · rintro ⟨hhead, hrest⟩ name hname
      by_cases hsame : sameName name l.name = true
      · have hnone : rest.filter (fun l' => sameName name l'.name) = [] := by
          rw [List.filter_eq_nil_iff]
          intro b hb hnb
          have hlb : sameName l.name b.name = true :=
            nameOrder.same_trans (nameOrder.same_symm hsame) hnb
          have := (happart name l.name hsame).symm.trans hname
          exact absurd ((hhead b hb hlb).symm.trans this) (by decide)
        simp [hsame, hnone]
      · simpa [hsame] using hrest name hname

/-- What a head is, as far as its encoding goes. -/
inductive HeadKind where
  | request
  | response (isTlsMitm : Bool)

/-- The names of the headers that are taken out of a head on purpose. -/
def HeadKind.removed : HeadKind → List Bytes
  | .request => []
  | .response true => [text "Transfer-Encoding"]
  | .response false => [text "Transfer-Encoding", text "Content-Length"]

def HeadKind.removes (k : HeadKind) (name : Bytes) : Bool := k.removed.any (sameName name)

/-- What the session writes for a head that the parser delivers. -/
def HeadKind.Reencodes (k : HeadKind) (lines : List HeaderLine) (info : HeadInfo)
    (bytes : Bytes) : Prop :=
  match k with
  | .request => ∃ (c c' : Http1Codec) (urls : List Bytes) (req : HttpRequest),
      c.type = .request ∧ 13 ∉ urls.flatten ∧
      ((headPieces (urls.map .url) lines).foldl absorb c).handle (.headersComplete info) =
        some (c', [.request req]) ∧
      bytes = (encodeRequest { req with url := originForm req.url } {}).linearize
  | .response isTlsMitm => ∃ (c c' : Http1Codec) (reasons : List Bytes) (resp : HttpResponse),
      c.type = .response ∧ 13 ∉ reasons.flatten ∧
      ((headPieces (reasons.map .status) lines).foldl absorb c).handle (.headersComplete info) =
        some (c', [.response resp]) ∧
      bytes = (encodeResponse (stripFraming isTlsMitm resp) {}).linearize

theorem HeadKind.removes_congr (k : HeadKind) {a b : Bytes} (h : sameName a b = true) :
    k.removes a = k.removes b := by
  have hsame : sameName a = sameName b := funext fun c => nameOrder.same_congr h
  rw [removes, removes, hsame]

/-- What is taken out of a response head is what its kind says. -/
theorem stripFraming_get {isTlsMitm : Bool} (resp : HttpResponse) {name : Bytes}
    (h : (HeadKind.response isTlsMitm).removes name = false) :
    HeaderMap.get (stripFraming isTlsMitm resp).headers name = HeaderMap.get resp.headers name := by
  cases isTlsMitm <;>
    simp only [HeadKind.removes, HeadKind.removed, List.any_cons, List.any_nil, Bool.or_false,
      Bool.or_eq_false_iff] at h <;>
    simp [stripFraming, HeaderMap.get_remove, h]

theorem stripFraming_clean (isTlsMitm : Bool) {resp : HttpResponse}
    (h : HeaderMap.Clean resp.headers) : HeaderMap.Clean (stripFraming isTlsMitm resp).headers := by
  cases isTlsMitm with
  | true => exact h.remove _
  | false => exact (h.remove _).remove _

theorem stripFraming_reason (isTlsMitm : Bool) (resp : HttpResponse) :
    (stripFraming isTlsMitm resp).reason = resp.reason := by
  cases isTlsMitm <;> rfl

/-- What is written for a head is read back with the last value of each name that
is not removed. -/
theorem HeadKind.Reencodes.read {k : HeadKind} {lines : List HeaderLine} {info : HeadInfo}
    {bytes : Bytes} (h : k.Reencodes lines info bytes) :
    ∃ head, readHead bytes = some (head, []) ∧ ∀ name, k.removes name = false →
      fieldValues name head.fields = (receivedValues lines name).getLast?.toList := by
  have hclean := headersOf_clean lines
  cases k with
  | request =>
    obtain ⟨c, c', urls, req, hc, hline, hparsed, rfl⟩ := h
    have hreq := requestPieces_request hc hparsed
    have hread := @readHead_request { req with url := originForm req.url }
      (by rw [hreq]; exact originForm_oneLine hline) (by rw [hreq]; exact hclean) []
    rw [List.append_nil] at hread
    refine ⟨_, by rw [(encodeRequest_proper _).2]; exact hread, fun name _ => ?_⟩
    rw [hreq]
    exact fieldValues_headersOf lines name
  | response isTlsMitm =>
    obtain ⟨c, c', reasons, resp, hc, hline, hparsed, rfl⟩ := h
    rw [responsePieces_complete hc reasons lines info] at hparsed
    simp only [Option.some.injEq, Prod.mk.injEq, List.cons.injEq, Emission.response.injEq,
      and_true] at hparsed
    obtain ⟨-, rfl⟩ := hparsed
    set resp := describedResponse reasons lines info with hresp
    have hread := @readHead_response (stripFraming isTlsMitm resp)
      (by rwa [stripFraming_reason]) (stripFraming_clean isTlsMitm hclean) []
    rw [List.append_nil] at hread
    refine ⟨_, by rw [(encodeResponse_proper _).2]; exact hread, fun name hname => ?_⟩
    rw [HeaderMap.fieldValues_fields, stripFraming_get resp hname,
      ← HeaderMap.fieldValues_fields]
    exact fieldValues_headersOf lines name

/-- The head that is written for a received head has every value that came, for
each name that is not removed on purpose, exactly when no two lines share such a
name up to case. -/
theorem header_values_kept_iff (k : HeadKind) (lines : List HeaderLine) (info : HeadInfo)
    (bytes : Bytes) (h : k.Reencodes lines info bytes) :
    ∃ head, readHead bytes = some (head, []) ∧
      ((∀ name, k.removes name = false →
          Joined (receivedValues lines name) (fieldValues name head.fields)) ↔
        lines.Pairwise fun a b => sameName a.name b.name = true → k.removes a.name = true) := by
  obtain ⟨head, hread, hvalues⟩ := h.read
  refine ⟨head, hread, ?_⟩
  rw [← received_once_iff lines k.removes fun a b => k.removes_congr]
  refine forall₂_congr fun name hname => ?_
  rw [hvalues name hname]
  exact joined_last_iff _

theorem header_values_kept_plain :
    ∃ head, readHead (encodeRequest plainHead {}).linearize = some (head, []) ∧
      ((∀ name, HeadKind.request.removes name = false →
          Joined (receivedValues [.whole (text "Host") (text "h") (by decide)] name)
            (fieldValues name head.fields)) ↔
        [HeaderLine.whole (text "Host") (text "h") (by decide)].Pairwise
          fun a b => sameName a.name b.name = true → HeadKind.request.removes a.name = true) :=
  header_values_kept_iff .request _ { method := text "GET" } _
    ⟨{ type := .request }, _, [text "/"], plainHead, rfl, by decide, rfl, rfl⟩

/-- The answer to a request with two cookies. -/
def cookieAnswer : SessionEvent :=
  received 10 (text "HTTP/1.1 200 OK\r\nSet-Cookie: a=1\r\nset-cookie: b=2\r\n\r\n")
    (responseEvents [text "OK"] [.whole (text "Set-Cookie") (text "a=1") (by decide),
      .whole (text "set-cookie") (text "b=2") (by decide)] { status_code := 200 })

/-- Of two cookies the client is sent one. -/
theorem cookie_lost :
    (readHead (sessionRun promptWorld (.ok (start 7 false false))
        (exchange.take 1 ++ [cookieAnswer])).session.clientStream).map
      (fun r => fieldValues (text "Set-Cookie") r.1.fields) = some [text "b=2"] ∧
    ¬ Joined [text "a=1", text "b=2"] [text "b=2"] :=
  ⟨by decide +kernel, fun h => absurd ((joined_last_iff _).mp h) (by decide)⟩

end DeepSeer
