import DeepSeer.HttpWire

/-!
The responses of a connection as a reader frames them that does not know what
they answer: it takes for every response the body that its head announces. The
answer to a `HEAD` request announces a body and has none, so such a reader takes
what follows it for its body.
-/
namespace HttpWire

open ByteMemory ByteText

/-- The data of the chunks that have come, up to what is no chunk. -/
def chunkData : Nat → Bytes → Bytes
  | 0, _ => []
  | n + 1, bs =>
    match cutLine bs with
    | none => []
    | some (line, rest) =>
      match chunkSize line with
      | none | some 0 => []
      | some size =>
        rest.take size ++
          match rest.drop size with
          | 13 :: 10 :: tail => chunkData n tail
          | _ => []

/-- The responses of a connection with the body data that has come for each; the
last may be in progress. -/
def framed : Nat → Bytes → List (Head × Bytes)
  | 0, _ => []
  | n + 1, bs =>
    match readHead bs with
    | none => []
    | some (head, rest) =>
      if (statusOf head.start).any bodiless then (head, []) :: framed n rest
      else
        match framing head.fields with
        | .length size =>
          (head, rest.take size) :: if size ≤ rest.length then framed n (rest.drop size) else []
        | .chunked =>
          match readChunks (rest.length + 1) rest with
          | some (body, after) => (head, body) :: framed n after
          | none => [(head, chunkData (rest.length + 1) rest)]
        | .unframed => [(head, rest)]

/-- All that a reader makes of the bytes. -/
def frames (bs : Bytes) : List (Head × Bytes) := framed (bs.length + 1) bs

theorem cutLine_append {bs line rest : Bytes} (h : cutLine bs = some (line, rest)) (more : Bytes) :
    cutLine (bs ++ more) = some (line, rest ++ more) := by
  fun_induction cutLine bs generalizing line with
  | case1 tail =>
    simp only [Option.some.injEq, Prod.mk.injEq] at h
    obtain ⟨rfl, rfl⟩ := h
    rfl
  | case2 b tail hb ih =>
    obtain ⟨⟨line', rest'⟩, hcut, heq⟩ := Option.map_eq_some_iff.mp h
    simp only [Prod.mk.injEq] at heq
    obtain ⟨rfl, rfl⟩ := heq
    rw [List.cons_append, cutLine, ih hcut]
    · rfl
    · rintro tail' rfl heq
      cases tail with
      | nil => simp [cutLine] at hcut
      | cons c tail =>
        rw [List.cons_append] at heq
        exact hb tail rfl (by rw [List.head_eq_of_cons_eq heq])
  | case3 => exact absurd h (by simp)

theorem readFields_append {n m : Nat} {bs rest : Bytes} {fields : List Field}
    (h : readFields n bs = some (fields, rest)) (hm : n ≤ m) (more : Bytes) :
    readFields m (bs ++ more) = some (fields, rest ++ more) := by
  induction n generalizing m bs fields with
  | zero => simp [readFields] at h
  | succ n ih =>
    obtain ⟨k, rfl⟩ : ∃ k, m = k + 1 := ⟨m - 1, by omega⟩
    rw [readFields] at h ⊢
    split at h
    · exact absurd h (by simp)
    · next hcut =>
      simp only [Option.some.injEq, Prod.mk.injEq] at h
      obtain ⟨rfl, rfl⟩ := h
      rw [cutLine_append hcut]
    · next line after hne hcut =>
      simp only [Option.bind_eq_bind, Option.bind_eq_some_iff] at h
      obtain ⟨field, hfield, ⟨fields', rest'⟩, hrest, heq⟩ := h
      simp only [Option.some.injEq, Prod.mk.injEq] at heq
      obtain ⟨rfl, rfl⟩ := heq
      have hinner := ih hrest (by omega : n ≤ k)
      rw [cutLine_append hcut]
      cases line with
      | nil => exact absurd rfl hne
      | cons b line => simp [hfield, hinner]

/-- A chunked body is read as it is, whatever follows it. -/
theorem readChunks_append {n m : Nat} {bs body rest : Bytes}
    (h : readChunks n bs = some (body, rest)) (hm : n ≤ m) (more : Bytes) :
    readChunks m (bs ++ more) = some (body, rest ++ more) := by
  induction n generalizing m bs body with
  | zero => simp [readChunks] at h
  | succ n ih =>
    obtain ⟨k, rfl⟩ : ∃ k, m = k + 1 := ⟨m - 1, by omega⟩
    simp only [readChunks, Option.bind_eq_bind, Option.bind_eq_some_iff] at h ⊢
    obtain ⟨⟨line, after⟩, hcut, size, hsize, h⟩ := h
    refine ⟨⟨line, after ++ more⟩, cutLine_append hcut more, size, hsize, ?_⟩
    simp only at h ⊢
    by_cases hz : size = 0
    · rw [if_pos hz] at h ⊢
      obtain ⟨⟨fields, rest'⟩, hfields, heq⟩ := Option.bind_eq_some_iff.mp h
      simp only [Option.some.injEq, Prod.mk.injEq] at heq
      obtain ⟨rfl, rfl⟩ := heq
      have hlen : after.length ≤ (after ++ more).length := by simp
      rw [readFields_append hfields hlen more]
      rfl
    · rw [if_neg hz] at h ⊢
      split at h
      · next tail htail =>
        obtain ⟨⟨body', rest'⟩, hbody, heq⟩ := Option.bind_eq_some_iff.mp h
        simp only [Option.some.injEq, Prod.mk.injEq] at heq
        obtain ⟨rfl, rfl⟩ := heq
        have hlt : size < after.length := by
          have := congrArg List.length htail
          simp only [List.length_drop, List.length_cons] at this
          omega
        have hdrop : (after ++ more).drop size = 13 :: 10 :: (tail ++ more) := by
          rw [List.drop_append_of_le_length (by omega), htail]
          rfl
        rw [hdrop, List.take_append_of_le_length (by omega)]
        simp [ih hbody (by omega : n ≤ k)]
      · exact absurd h (by simp)

theorem readVersion_prefix {bs : Bytes} {version : Nat × Nat} (h : readVersion bs = some version) :
    text "HTTP/" <+: bs := by
  by_contra hno
  have hpre : (text "HTTP/").isPrefixOf bs = false := by
    rwa [← Bool.not_eq_true, List.isPrefixOf_iff_prefix]
  simp [readVersion, hpre] at h

/-- A status line starts with the name of the protocol. -/
theorem readStatusLine_head {line : Bytes} (h : (readStatusLine line).isSome) :
    line.head? = some 72 := by
  obtain ⟨status, hstatus⟩ := Option.isSome_iff_exists.mp h
  simp only [readStatusLine, Option.bind_eq_bind, Option.bind_eq_some_iff] at hstatus
  obtain ⟨blank, -, version, hversion, -⟩ := hstatus
  obtain ⟨rest, hrest⟩ := readVersion_prefix hversion
  have hhttp : text "HTTP/" = 72 :: text "TTP/" := by decide
  rw [← List.take_append_drop blank line, ← hrest, hhttp]
  rfl

/-- A response on the wire, to a request that may have been a `HEAD`. Its body is
coded as its head announces, unless request or status rule a body out. -/
structure Answer where
  toHead : Bool
  head : Head
  coded : Bytes
  content : Bytes
  clean : head.Clean
  status : (readStatusLine head.start).isSome
  conforms : if toHead || (statusOf head.start).any bodiless then coded = [] ∧ content = []
    else readBody (framing (head.fields.map Field.received)) coded = some (content, [])

namespace Answer

def wire (a : Answer) : Bytes := writeHead a.head ++ a.coded

/-- The status rules a body out. -/
def Bodiless (a : Answer) : Prop := (statusOf a.head.start).any bodiless = true

/-- The response has no body by its status, or announces an empty one. -/
def AnnouncesNone (a : Answer) : Prop :=
  a.Bodiless ∨ framing (a.head.fields.map Field.received) = .length 0

instance (a : Answer) : Decidable a.Bodiless := by unfold Bodiless; infer_instance

instance (a : Answer) : Decidable a.AnnouncesNone := by unfold AnnouncesNone; infer_instance

theorem readHead_wire (a : Answer) (rest : Bytes) :
    readHead (a.wire ++ rest) = some (a.head.received, a.coded ++ rest) := by
  rw [wire, List.append_assoc]
  exact readHead_written a.clean _

theorem conforms_empty {a : Answer} (h : a.toHead = true ∨ a.Bodiless) :
    a.coded = [] ∧ a.content = [] := by
  have hc := a.conforms
  rwa [if_pos (by simpa [Bodiless] using h)] at hc

/-- A response whose body is coded as announced is framed as it is. -/
theorem framed_coded {a : Answer} (h : a.toHead = false) (n : Nat) (rest : Bytes) :
    framed (n + 1) (a.wire ++ rest) = (a.head.received, a.content) :: framed n rest := by
  rw [framed, a.readHead_wire]
  by_cases hb : (statusOf a.head.start).any bodiless = true
  · obtain ⟨hcoded, hcontent⟩ := conforms_empty (.inr hb)
    simp [Head.received, hb, hcoded, hcontent]
  have hc := a.conforms
  rw [if_neg (by simpa [h] using hb)] at hc
  simp only [Head.received, hb, Bool.false_eq_true, if_false]
  cases hf : framing (a.head.fields.map Field.received) with
  | length size =>
    simp only [hf, readBody] at hc
    split at hc
    · next hle =>
      simp only [Option.some.injEq, Prod.mk.injEq, List.drop_eq_nil_iff] at hc
      have hsize : size = a.coded.length := by omega
      have hall : a.coded = a.content := by
        rw [← hc.1, hsize, List.take_length]
      simp [hsize, hall]
    · exact absurd hc (by simp)
  | chunked =>
    simp only [hf, readBody] at hc
    have hread := readChunks_append hc
      (show a.coded.length + 1 ≤ (a.coded ++ rest).length + 1 by simp) rest
    rw [hread]
    rfl
  | unframed => simp [hf, readBody] at hc

/-- So is a response without a body that announces none. -/
theorem framed_none {a : Answer} (h : a.toHead = true) (hn : a.AnnouncesNone) (n : Nat)
    (rest : Bytes) :
    framed (n + 1) (a.wire ++ rest) = (a.head.received, a.content) :: framed n rest := by
  obtain ⟨hcoded, hcontent⟩ := conforms_empty (.inl h)
  rw [framed, a.readHead_wire, hcoded, hcontent]
  rcases hn with hb | hz
  · have hb' : (statusOf a.head.start).any bodiless = true := hb
    simp [Head.received, hb']
  · simp [Head.received, hz]

/-- The last response has nothing behind it that could be taken for its body. -/
theorem framed_last {a : Answer} (h : a.toHead = true) (n : Nat) :
    framed (n + 1) a.wire = [(a.head.received, a.content)] := by
  obtain ⟨hcoded, hcontent⟩ := conforms_empty (.inl h)
  have hread := a.readHead_wire []
  have hnil : framed n [] = [] := by
    cases n <;> rfl
  rw [List.append_nil] at hread
  rw [framed, hread, hcoded, hcontent]
  by_cases hb : (statusOf a.head.start).any bodiless = true
  · simp [Head.received, hb, hnil]
  · simp only [Head.received, hb, Bool.false_eq_true, if_false]
    cases framing (a.head.fields.map Field.received) with
    | length size =>
      cases size with
      | zero => simp [hnil]
      | succ size => simp
    | chunked => rfl
    | unframed => rfl

theorem wire_head (a : Answer) (rest : Bytes) : (a.wire ++ rest).head? = some 72 := by
  have hstart := readStatusLine_head a.status
  cases hs : a.head.start with
  | nil => simp [hs] at hstart
  | cons b line =>
    rw [hs] at hstart
    simpa [wire, writeHead, hs] using hstart

end Answer

/-- No chunk starts the way a status line does. -/
theorem chunkSize_status {line : Bytes} (h : line.head? = some 72) : chunkSize line = none := by
  obtain ⟨tail, rfl⟩ := List.head?_eq_some_iff.mp h
  have hhex : hexDigit 72 = none := by decide
  simp [chunkSize, hhex]

theorem cutLine_status {bs line rest : Bytes} (hbs : bs.head? = some 72)
    (h : cutLine bs = some (line, rest)) : line.head? = some 72 := by
  obtain ⟨tail, rfl⟩ := List.head?_eq_some_iff.mp hbs
  rw [cutLine] at h
  · obtain ⟨cut, -, hcut⟩ := Option.map_eq_some_iff.mp h
    rw [← (Prod.mk.inj hcut).1]
    rfl
  · intro _ hcr
    exact absurd hcr (by decide)

theorem readChunks_status {bs : Bytes} (h : bs.head? = some 72) (n : Nat) :
    readChunks n bs = none := by
  cases n with
  | zero => rfl
  | succ n =>
    cases hcut : cutLine bs with
    | none => simp [readChunks, hcut]
    | some cut =>
      have hsize := chunkSize_status (cutLine_status h hcut)
      simp [readChunks, hcut, hsize]

theorem chunkData_status {bs : Bytes} (h : bs.head? = some 72) (n : Nat) : chunkData n bs = [] := by
  cases n with
  | zero => rfl
  | succ n =>
    cases hcut : cutLine bs with
    | none => simp [chunkData, hcut]
    | some cut =>
      have hsize := chunkSize_status (cutLine_status h hcut)
      simp [chunkData, hcut, hsize]

namespace Answer

/-- What follows an answer to a `HEAD` that announces a body is taken for this
body, or at least not framed. -/
theorem framed_head {a : Answer} (h : a.toHead = true) (hn : ¬a.AnnouncesNone) (n : Nat)
    {rest : Bytes} (hrest : rest.head? = some 72) :
    (∃ body later, body ≠ [] ∧ framed (n + 1) (a.wire ++ rest) = (a.head.received, body) :: later) ∨
      framed (n + 1) (a.wire ++ rest) = [(a.head.received, [])] := by
  obtain ⟨hcoded, -⟩ := conforms_empty (.inl h)
  obtain ⟨tail, rfl⟩ := List.head?_eq_some_iff.mp hrest
  have hb : ¬(statusOf a.head.start).any bodiless = true := fun hb => hn (.inl hb)
  rw [framed, a.readHead_wire, hcoded, List.nil_append]
  simp only [Head.received, hb, Bool.false_eq_true, if_false]
  cases hf : framing (a.head.fields.map Field.received) with
  | length size =>
    cases size with
    | zero => exact absurd (.inr hf) hn
    | succ size => exact .inl ⟨_, _, by simp, rfl⟩
  | chunked =>
    rw [readChunks_status hrest, chunkData_status hrest]
    exact .inr rfl
  | unframed => exact .inl ⟨_, _, List.cons_ne_nil _ _, rfl⟩

/-- No answer to a `HEAD` announces a body, unless it is the last. -/
def HeadsAnnounceNone (sent : List Answer) : Prop :=
  ∀ (k : Nat) (a : Answer), sent[k]? = some a → k + 1 < sent.length → a.toHead = true →
    a.AnnouncesNone

theorem headsAnnounceNone_cons (a : Answer) (sent : List Answer) :
    HeadsAnnounceNone (a :: sent) ↔
      (a.toHead = true → sent ≠ [] → a.AnnouncesNone) ∧ HeadsAnnounceNone sent := by
  constructor
  · intro h
    constructor
    · intro htohead hsent
      have hpos := List.length_pos_iff.mpr hsent
      exact h 0 a rfl (by simpa using hpos) htohead
    · intro k b hb hk
      exact h (k + 1) b hb (by simpa using hk)
  · rintro ⟨hfirst, hrest⟩ k b hb hk htohead
    cases k with
    | zero =>
      cases hb
      exact hfirst htohead (List.length_pos_iff.mp (by simpa using hk))
    | succ k => exact hrest k b hb (by simpa using hk) htohead

theorem framed_sent {sent : List Answer} (h : HeadsAnnounceNone sent) {n : Nat}
    (hn : sent.length < n) :
    framed n (sent.flatMap wire) = sent.map fun a => (a.head.received, a.content) := by
  induction sent generalizing n with
  | nil =>
    cases n <;> rfl
  | cons a sent ih =>
    obtain ⟨k, rfl⟩ : ∃ k, n = k + 1 := ⟨n - 1, by omega⟩
    obtain ⟨hfirst, h⟩ := (headsAnnounceNone_cons a sent).mp h
    have hrest := ih h (by simpa using hn : sent.length < k)
    rw [List.flatMap_cons, List.map_cons]
    cases htohead : a.toHead with
    | false => rw [framed_coded htohead, hrest]
    | true =>
      by_cases hlast : sent = []
      · rw [hlast, List.flatMap_nil, List.append_nil, framed_last htohead]
        rfl
      · rw [framed_none htohead (hfirst htohead hlast), hrest]

theorem framed_bodies {sent : List Answer} {n : Nat} (hn : sent.length < n)
    (h : (framed n (sent.flatMap wire)).map Prod.snd = sent.map content) :
    HeadsAnnounceNone sent := by
  induction sent generalizing n with
  | nil =>
    intro k a ha
    exact absurd ha (by simp)
  | cons a sent ih =>
    obtain ⟨k, rfl⟩ : ∃ k, n = k + 1 := ⟨n - 1, by omega⟩
    have hk : sent.length < k := by simpa using hn
    rw [List.flatMap_cons, List.map_cons] at h
    refine (headsAnnounceNone_cons a sent).mpr ?_
    by_cases hlast : sent = []
    · subst hlast
      exact ⟨fun _ hne => absurd rfl hne, fun k a ha => absurd ha (by simp)⟩
    cases htohead : a.toHead with
    | false =>
      rw [framed_coded htohead] at h
      exact ⟨fun hc => absurd hc (by simp), ih hk (List.cons_eq_cons.mp h).2⟩
    | true =>
      have hnone : a.AnnouncesNone := by
        by_contra hnone
        obtain ⟨b, later, rfl⟩ := List.exists_cons_of_ne_nil hlast
        have hrest : ((b :: later).flatMap wire).head? = some 72 := b.wire_head _
        rcases framed_head htohead hnone k hrest with ⟨body, _, hbody, heq⟩ | heq
        · rw [heq] at h
          exact hbody ((List.cons_eq_cons.mp h).1.trans (conforms_empty (.inl htohead)).2)
        · rw [heq] at h
          simp at h
      rw [framed_none htohead hnone] at h
      exact ⟨fun _ _ => hnone, ih hk (List.cons_eq_cons.mp h).2⟩

theorem flatMap_wire_length (sent : List Answer) : sent.length ≤ (sent.flatMap wire).length := by
  induction sent with
  | nil => simp
  | cons a sent ih =>
    have hhead := a.wire_head []
    rw [List.append_nil] at hhead
    obtain ⟨tail, htail⟩ := List.head?_eq_some_iff.mp hhead
    rw [List.flatMap_cons, htail]
    simp only [List.length_cons, List.length_append]
    omega

/-- A reader that takes every body as announced finds each response with its own
body exactly when no answer to a `HEAD` announces one, unless it is the last. -/
theorem frames_iff (sent : List Answer) :
    (frames (sent.flatMap wire)).map Prod.snd = sent.map content ↔ HeadsAnnounceNone sent := by
  have hlen := flatMap_wire_length sent
  constructor
  · intro h
    exact framed_bodies (by omega) h
  · intro h
    rw [frames, framed_sent h (by omega), List.map_map]
    rfl

end Answer

end HttpWire
