import DeepSeer.HeadEvents
import DeepSeer.SessionStreams

/-!
The request line that goes to the upstream, against the line that the client
sent: the method comes back from the enumeration, and the target is cut at the
first slash after the first `://`, wherever these are.
-/
namespace DeepSeer

open ByteMemory ByteText HttpWire

/-- An absolute target: a scheme, an authority, and any path and query. -/
structure AbsoluteTarget where
  scheme : Bytes
  authority : Bytes
  path : Bytes := []
  query : Bytes := []
  noColon : 58 ∉ scheme
  noSlash : 47 ∉ authority
  noMark : 63 ∉ authority ∧ 63 ∉ path
  rooted : path = [] ∨ path.head? = some 47
  marked : query = [] ∨ query.head? = some 63

/-- The target of a request that is not a `CONNECT`. -/
inductive Target where
  | origin (rest : Bytes)
  | absolute (t : AbsoluteTarget)
  | asterisk

namespace Target

def text : Target → Bytes
  | .origin rest => 47 :: rest
  | .absolute t => t.scheme ++ ByteText.text "://" ++ t.authority ++ t.path ++ t.query
  | .asterisk => [42]

/-- The target that a server is to be sent. -/
def originForm : Target → Bytes
  | .absolute t => (if t.path = [] then [47] else t.path) ++ t.query
  | t => t.text

/-- The targets that the proxy does not damage. -/
def Kept : Target → Prop
  | .origin rest => ¬ ByteText.text "://" <:+: 47 :: rest
  | .absolute t => t.path ≠ [] ∨ t.query = []
  | .asterisk => True

end Target

namespace Session

/-- A target that begins with a slash is cut wherever it holds `://`. -/
theorem originForm_origin (rest : Bytes) :
    originForm (47 :: rest) = 47 :: rest ↔ ¬ text "://" <:+: 47 :: rest := by
  constructor
  · intro h hin
    obtain ⟨i, hi⟩ : ∃ i, findText (text "://") (47 :: rest) = some i := by
      cases hf : findText (text "://") (47 :: rest) with
      | none => exact absurd hin (findText_eq_none.mp hf)
      | some i => exact ⟨i, rfl⟩
    have hlen := (findText_some hi).1
    have h3 : (text "://").length = 3 := by decide
    simp only [originForm, hi] at h
    split at h
    · next j hj =>
      -- the cut leaves less than the whole target
      obtain ⟨k, -, rfl⟩ := Option.map_eq_some_iff.mp hj
      have := congrArg List.length h
      simp only [List.length_drop, List.length_cons] at this
      omega
    · have := congrArg List.length h
      have h1 : (text "/").length = 1 := by decide
      simp only [h1, List.length_cons] at this hlen
      omega
  · intro hin
    simp [originForm, findText_eq_none.mpr hin]

/-- An absolute target loses its query where its path is empty. -/
theorem originForm_absolute (t : AbsoluteTarget) :
    originForm (Target.absolute t).text = (Target.absolute t).originForm ↔
      t.path ≠ [] ∨ t.query = [] := by
  have hsep : text "://" = [58, 47, 47] := by decide
  have hscheme : findText (text "://") (Target.absolute t).text = some t.scheme.length := by
    simp only [Target.text, hsep, List.append_assoc]
    have h := @findText_split 58 [47, 47] _ t.noColon (t.authority ++ (t.path ++ t.query))
    simpa using h
  have hslash : findFrom 47 (t.scheme.length + 3) (Target.absolute t).text =
      (find 47 (t.path ++ t.query)).map (t.scheme.length + 3 + t.authority.length + ·) := by
    have hskip := @findFrom_skip 47 (t.scheme ++ text "://")
      (t.authority ++ (t.path ++ t.query))
    have h3 : (t.scheme ++ text "://").length = t.scheme.length + 3 := by simp [hsep]
    rw [h3, find_append t.noSlash, Option.map_map] at hskip
    simp only [Target.text, List.append_assoc] at hskip ⊢
    rw [hskip]
    congr 1
    funext i
    simp [Nat.add_assoc]
  have hdrop : ∀ j, (Target.absolute t).text.drop (t.scheme.length + 3 + t.authority.length + j) =
      (t.path ++ t.query).drop j := fun j => by
    have hfront : (t.scheme ++ text "://" ++ t.authority).length =
        t.scheme.length + 3 + t.authority.length := by
      simp only [hsep, List.length_append, List.length_cons, List.length_nil]
    rw [Target.text, List.append_assoc, ← hfront, ← List.drop_drop, List.drop_left]
  have hslashText : text "/" = [47] := by decide
  simp only [originForm, hscheme, hslash, Target.originForm]
  by_cases hpath : t.path = []
  · simp only [hpath, List.nil_append, if_true, ne_eq, not_true_eq_false, false_or] at hdrop ⊢
    cases hf : find 47 t.query with
    | none => simp [hslashText, eq_comm]
    | some j =>
      have hlen := (find_some hf).1
      simp only [Option.map_some, hdrop]
      constructor
      · intro h
        have := congrArg List.length h
        simp only [List.length_drop, List.length_append, List.length_cons] at this
        omega
      · intro h
        simp [h] at hlen
  · have hhead : find 47 (t.path ++ t.query) = some 0 := by
      obtain ⟨rest, hrest⟩ := List.head?_eq_some_iff.mp (t.rooted.resolve_left hpath)
      simp [hrest]
    simp only [hhead, Option.map_some, hdrop, List.drop_zero, if_neg hpath]
    simp [hpath]

/-- What a rewritten target is, for every form of target. -/
theorem originForm_target (t : Target) : originForm t.text = t.originForm ↔ t.Kept := by
  cases t with
  | origin rest => exact originForm_origin rest
  | absolute t => exact originForm_absolute t
  | asterisk => exact iff_of_true (by decide) trivial

end Session

open Session

/-- The request line for a method, a target and a version. -/
def lineOf (method target : Bytes) (info : HeadInfo) : Bytes :=
  method ++ text " " ++ target ++ text " " ++
    Http1Codec.versionText info.http_major.toNat info.http_minor.toNat

/-- Two request lines agree exactly when methods and targets do. -/
theorem lineOf_inj {m m' : Bytes} (hm : 32 ∉ m) (hm' : 32 ∉ m') (t t' : Bytes) (info : HeadInfo) :
    lineOf m t info = lineOf m' t' info ↔ m = m' ∧ t = t' := by
  constructor
  · intro h
    have hsp : text " " = [32] := by decide
    simp only [lineOf, hsp, List.append_assoc, List.cons_append, List.nil_append] at h
    have hf := find_split hm (t ++ 32 :: Http1Codec.versionText info.http_major.toNat
      info.http_minor.toNat)
    rw [h, find_split hm' _, Option.some.injEq] at hf
    obtain ⟨hmm, hrest⟩ := List.append_inj h hf.symm
    exact ⟨hmm, List.append_cancel_right (List.cons.inj hrest).2⟩
  · rintro ⟨rfl, rfl⟩
    rfl

/-- The request line that is forwarded is the client's, with its target in origin
form, exactly when the method has a member and the target is not damaged. -/
theorem request_line_kept_iff (w : World) {c c' : Http1Codec} (hc : c.type = .request)
    (urls : List Bytes) (lines : List HeaderLine) (info : HeadInfo) (req : HttpRequest)
    (hparsed : ((headPieces (urls.map .url) lines).foldl Http1Codec.absorb c).handle
      (.headersComplete info) = some (c', [.request req]))
    (target : Target) (htarget : urls.flatten = target.text) (hline : 13 ∉ urls.flatten)
    (hmethod : 32 ∉ info.method) {s : Session} (hs : s.currentRequest_ = req)
    (hreach : s.reachesUpstream = true) :
    ∃ s' line rest, s.forwardRequest w = .ok s' ∧
      s'.upstreamStream = s.upstreamStream ++ (line ++ crlf ++ rest) ∧ 13 ∉ line ∧
      (line = lineOf info.method target.originForm info ↔
        KnownMethod info.method ∧ target.Kept) := by
  obtain ⟨s', rest, hforward, hstream⟩ := forwardRequest_stream w hreach
  set line := lineOf (methodToString (stringToMethod info.method)) (originForm target.text) info
    with hlineof
  have hsent : forwardedHead s.currentRequest_ =
      line ++ crlf ++ Http1Codec.encodedHeaders (headersOf lines) := by
    rw [hs, Http1Codec.requestPieces_request hc hparsed, hlineof, ← htarget]
    rfl
  have hmember := methodToString_plain (stringToMethod info.method)
  refine ⟨s', line, Http1Codec.encodedHeaders (headersOf lines) ++ rest, hforward, ?_, ?_, ?_⟩
  · rw [hstream, hsent, List.append_assoc (line ++ crlf)]
  · rw [htarget] at hline
    have hcut := originForm_oneLine hline
    have hversion := Http1Codec.not_mem_versionText (b := 13) (.inl rfl) info.http_major.toNat
      info.http_minor.toNat
    have hsp : text " " = [32] := by decide
    simp [hlineof, lineOf, hsp, hmember.2, hcut, hversion]
  · rw [hlineof, lineOf_inj hmember.1 hmethod, methodToString_stringToMethod, originForm_target]

/-- The head of `GET / HTTP/1.1` with the host `h`, as it comes out of the codec. -/
def plainHead : HttpRequest :=
  { method := .GET, url := text "/", host := text "h"
    headers := HeaderMap.set {} (text "Host") (text "h") }

theorem request_line_kept_plain :
    let s : Session := { upstream_ := some { id := 1, socket_ := 10 }, currentRequest_ := plainHead }
    ∃ s' line rest, s.forwardRequest promptWorld = .ok s' ∧
      s'.upstreamStream = s.upstreamStream ++ (line ++ crlf ++ rest) ∧ 13 ∉ line ∧
      (line = lineOf (text "GET") (Target.origin []).originForm { method := text "GET" } ↔
        KnownMethod (text "GET") ∧ (Target.origin []).Kept) :=
  request_line_kept_iff promptWorld (c := { type := .request }) rfl [text "/"]
    [.whole (text "Host") (text "h") (by decide)] { method := text "GET" } plainHead rfl
    (.origin []) (by decide) (by decide) (by decide) rfl rfl

/-- A `://` in the query of a target that begins with a slash cuts the target. -/
theorem query_promoted :
    cutLine (sessionRun promptWorld (.ok (start 7 false false))
      [received 7 (text "GET /r?u=http://x/y HTTP/1.1\r\nHost: h\r\n\r\n")
        (requestEvents [text "/r?u=http://x/y"] [.whole (text "Host") (text "h") (by decide)]
          { method := text "GET" } ++ [.messageComplete])]).session.upstreamStream =
      some (text "GET /y HTTP/1.1", text "Host: h\r\n\r\n") := by
  decide +kernel

end DeepSeer
