import DeepSeer.ByteText

/-!
HTTP/1.1 messages as they are read from the wire: a head of lines that end with
CRLF, header fields split at the first colon, and the body that the fields of
the head delimit. A reader that needs more bytes, or a body that the head does
not delimit, gives no result.
-/
namespace HttpWire

open ByteMemory ByteText

abbrev Field := Bytes × Bytes

structure Head where
  start : Bytes
  fields : List Field
  deriving DecidableEq, Repr

/-- The first line and what follows its CRLF. -/
def cutLine : Bytes → Option (Bytes × Bytes)
  | 13 :: 10 :: rest => some ([], rest)
  | b :: rest => (cutLine rest).map fun cut => (b :: cut.1, cut.2)
  | [] => none

def isBlank (b : UInt8) : Bool := b == 32 || b == 9

/-- Remove the blanks at both ends. -/
def trim (s : Bytes) : Bytes := ((s.dropWhile isBlank).reverse.dropWhile isBlank).reverse

/-- Split a header line at its first colon. -/
def splitField (line : Bytes) : Option Field :=
  (find 58 line).map fun colon => (line.take colon, trim (line.drop (colon + 1)))

/-- Read header lines up to the blank line. -/
def readFields : Nat → Bytes → Option (List Field × Bytes)
  | 0, _ => none
  | n + 1, bs =>
    match cutLine bs with
    | none => none
    | some ([], rest) => some ([], rest)
    | some (line, rest) => do
      let field ← splitField line
      let (fields, rest) ← readFields n rest
      some (field :: fields, rest)

def readHead (bs : Bytes) : Option (Head × Bytes) := do
  let (start, rest) ← cutLine bs
  let (fields, rest) ← readFields rest.length rest
  some (⟨start, fields⟩, rest)

/-- Equality of names up to case. -/
def nameEq (a b : Bytes) : Bool := a.map tolower == b.map tolower

def fieldValues (name : Bytes) (fields : List Field) : List Bytes :=
  (fields.filter fun f => nameEq f.1 name).map (·.2)

/-- The texts are the given values, where values that follow one another may have
been joined with a comma. -/
def Joined (values texts : List Bytes) : Prop :=
  ∃ groups : List (List Bytes), (∀ g ∈ groups, g ≠ []) ∧ groups.flatten = values ∧
    groups.map (List.intercalate (text ", ")) = texts

/-- The last coding of a `Transfer-Encoding` value is `chunked`. -/
def endsChunked (value : Bytes) : Bool :=
  let last := match rfind 44 value with
    | some comma => value.drop (comma + 1)
    | none => value
  nameEq (trim last) (text "chunked")

/-- A `Content-Length` value. -/
def lengthValue (value : Bytes) : Option Nat :=
  if value ≠ [] ∧ value.all isDigit = true then some (digitsValue value) else none

/-- How a head delimits the body. -/
inductive Framing where
  | length (n : Nat)
  | chunked
  | unframed
  deriving DecidableEq, Repr

/-- `Transfer-Encoding` overrides `Content-Length`. -/
def framing (fields : List Field) : Framing :=
  match (fieldValues (text "Transfer-Encoding") fields).getLast? with
  | some value => if endsChunked value then .chunked else .unframed
  | none =>
    match fieldValues (text "Content-Length") fields with
    | [value] => ((lengthValue value).map Framing.length).getD .unframed
    | _ => .unframed

def hexDigit (b : UInt8) : Option Nat :=
  if isDigit b then some (b.toNat - 48)
  else if 97 ≤ tolower b ∧ tolower b ≤ 102 then some ((tolower b).toNat - 87)
  else none

/-- The number at the start of a chunk line, in front of any extension. -/
def chunkSize (line : Bytes) : Option Nat :=
  let digits := line.takeWhile fun b => (hexDigit b).isSome
  let rest := trim (line.dropWhile fun b => (hexDigit b).isSome)
  if digits ≠ [] ∧ (rest = [] ∨ rest.head? = some 59) then
    some (digits.foldl (fun n b => 16 * n + (hexDigit b).getD 0) 0)
  else none

/-- Read chunks up to the last one and the trailer after it. -/
def readChunks : Nat → Bytes → Option (Bytes × Bytes)
  | 0, _ => none
  | n + 1, bs => do
    let (line, rest) ← cutLine bs
    let size ← chunkSize line
    if size = 0 then
      let (_, rest) ← readFields rest.length rest
      some ([], rest)
    else
      match rest.drop size with
      | 13 :: 10 :: tail => do
        let (body, after) ← readChunks n tail
        some (rest.take size ++ body, after)
      | _ => none

/-- Read a body by its framing. -/
def readBody : Framing → Bytes → Option (Bytes × Bytes)
  | .length n, bs => if n ≤ bs.length then some (bs.take n, bs.drop n) else none
  | .chunked, bs => readChunks (bs.length + 1) bs
  | .unframed, _ => none

/-- Read a message: its start line, its body, and what follows it. -/
def readMessage (bs : Bytes) : Option (Bytes × Bytes × Bytes) := do
  let (head, rest) ← readHead bs
  let (body, rest) ← readBody (framing head.fields) rest
  some (head.start, body, rest)

/-- The two numbers of `HTTP/x.y`. -/
def readVersion (bs : Bytes) : Option (Nat × Nat) := do
  let rest ← if (text "HTTP/").isPrefixOf bs then some (bs.drop 5) else none
  let dot ← find 46 rest
  let major ← lengthValue (rest.take dot)
  let minor ← lengthValue (rest.drop (dot + 1))
  some (major, minor)

/-- Method, target and version of a request line. -/
def readRequestLine (line : Bytes) : Option (Bytes × Bytes × Nat × Nat) := do
  let blank ← find 32 line
  let rest := line.drop (blank + 1)
  let next ← find 32 rest
  let (major, minor) ← readVersion (rest.drop (next + 1))
  some (line.take blank, rest.take next, major, minor)

/-- Version, status and reason of a status line; a status has three digits. -/
def readStatusLine (line : Bytes) : Option ((Nat × Nat) × Nat × Bytes) := do
  let blank ← find 32 line
  let version ← readVersion (line.take blank)
  let rest := line.drop (blank + 1)
  let next ← find 32 rest
  let status ← if next = 3 then lengthValue (rest.take next) else none
  some (version, status, rest.drop (next + 1))

/-- The status of a status line: the three digits after the first blank. -/
def statusOf (start : Bytes) : Option Nat := do
  let blank ← find 32 start
  let digits := (start.drop (blank + 1)).takeWhile isDigit
  if digits.length = 3 then some (digitsValue digits) else none

/-- Responses with these statuses have no body whatever their fields say. -/
def bodiless (status : Nat) : Bool := status / 100 == 1 || status == 204 || status == 304

/-- Read all responses of a connection that stays open. -/
def readResponses : Nat → Bytes → Option (List (Nat × Bytes))
  | 0, _ => none
  | n + 1, bs =>
    if bs = [] then some []
    else do
      let (head, rest) ← readHead bs
      let status ← statusOf head.start
      let (body, rest) ←
        if bodiless status then some ([], rest) else readBody (framing head.fields) rest
      let answers ← readResponses n rest
      some ((status, body) :: answers)

/-- A line as it is written. -/
def writeField (field : Field) : Bytes := field.1 ++ text ": " ++ field.2 ++ crlf

def writeHead (head : Head) : Bytes :=
  head.start ++ crlf ++ head.fields.flatMap writeField ++ crlf

/-- Fields that a reader can take apart again. -/
structure Field.Clean (field : Field) : Prop where
  named : field.1 ≠ []
  noColon : 58 ∉ field.1
  nameOneLine : 13 ∉ field.1
  valueOneLine : 13 ∉ field.2

instance (field : Field) : Decidable field.Clean :=
  decidable_of_iff (field.1 ≠ [] ∧ 58 ∉ field.1 ∧ 13 ∉ field.1 ∧ 13 ∉ field.2)
    ⟨fun h => ⟨h.1, h.2.1, h.2.2.1, h.2.2.2⟩,
      fun h => ⟨h.named, h.noColon, h.nameOneLine, h.valueOneLine⟩⟩

/-- A field as it is read: the blanks around its value are not part of it. -/
def Field.received (field : Field) : Field := (field.1, trim field.2)

structure Head.Clean (head : Head) : Prop where
  startOneLine : 13 ∉ head.start
  fields : ∀ field ∈ head.fields, field.Clean

def Head.received (head : Head) : Head := { head with fields := head.fields.map Field.received }

theorem cutLine_line {line : Bytes} (h : 13 ∉ line) (rest : Bytes) :
    cutLine (line ++ crlf ++ rest) = some (line, rest) := by
  induction line with
  | nil => rfl
  | cons b line ih =>
    obtain ⟨hb, hline⟩ : 13 ≠ b ∧ 13 ∉ line := by simpa using h
    rw [List.cons_append, List.cons_append, cutLine, ih hline]
    · rfl
    · rintro tail rfl
      exact absurd rfl hb

theorem trim_blank (value : Bytes) : trim (32 :: value) = trim value := by
  simp [trim, isBlank]

theorem splitField_line {field : Field} (h : field.Clean) :
    splitField (field.1 ++ text ": " ++ field.2) = some field.received := by
  have hsep : text ": " = [58, 32] := by decide
  have hfind : find 58 (field.1 ++ 58 :: 32 :: field.2) = some field.1.length :=
    find_split h.noColon _
  have hline : field.1 ++ text ": " ++ field.2 = field.1 ++ 58 :: 32 :: field.2 := by simp [hsep]
  have hdrop := drop_split field.1 58 (32 :: field.2)
  simp only [splitField, hline, hfind, Option.map_some, List.take_left, hdrop, trim_blank,
    Field.received]

/-- Written fields are read back, whatever follows them. -/
theorem readFields_written {fields : List Field} (h : ∀ field ∈ fields, field.Clean) {n : Nat}
    (hn : fields.length < n) (rest : Bytes) :
    readFields n (fields.flatMap writeField ++ crlf ++ rest) =
      some (fields.map Field.received, rest) := by
  induction fields generalizing n with
  | nil =>
    obtain ⟨k, rfl⟩ : ∃ k, n = k + 1 := ⟨n - 1, by simp at hn; omega⟩
    rfl
  | cons field fields ih =>
    obtain ⟨k, rfl⟩ : ∃ k, n = k + 1 := ⟨n - 1, by simp at hn; omega⟩
    have hf := h field List.mem_cons_self
    have hrest := ih (fun f hf => h f (List.mem_cons_of_mem _ hf))
      (by simpa using hn : fields.length < k)
    have hone : 13 ∉ field.1 ++ text ": " ++ field.2 := by
      have hsep : (13 : UInt8) ∉ text ": " := by decide
      simp [hf.nameOneLine, hf.valueOneLine, hsep]
    have hcut := cutLine_line hone (fields.flatMap writeField ++ crlf ++ rest)
    have hassoc : (field :: fields).flatMap writeField ++ crlf ++ rest =
        field.1 ++ text ": " ++ field.2 ++ crlf ++ (fields.flatMap writeField ++ crlf ++ rest) := by
      simp [writeField]
    obtain ⟨b, tail, hb⟩ : ∃ b tail, field.1 ++ text ": " ++ field.2 = b :: tail := by
      cases hname : field.1 with
      | nil => exact absurd hname hf.named
      | cons b tail => exact ⟨b, tail ++ text ": " ++ field.2, by simp⟩
    have hsplit := splitField_line hf
    rw [hassoc, readFields, hcut]
    rw [hb] at hsplit ⊢
    simp only [hsplit, hrest, Option.bind_eq_bind, Option.bind_some, List.map_cons]

theorem writeFields_length (fields : List Field) :
    fields.length ≤ (fields.flatMap writeField).length := by
  induction fields with
  | nil => simp
  | cons field fields ih =>
    simp only [List.flatMap_cons, writeField, crlf, List.length_append, List.length_cons]
    omega

/-- A written head is read back, whatever follows it. -/
theorem readHead_written {head : Head} (h : head.Clean) (rest : Bytes) :
    readHead (writeHead head ++ rest) = some (head.received, rest) := by
  have hcut := cutLine_line h.startOneLine (head.fields.flatMap writeField ++ crlf ++ rest)
  have hassoc : writeHead head ++ rest =
      head.start ++ crlf ++ (head.fields.flatMap writeField ++ crlf ++ rest) := by
    simp [writeHead]
  have hlen : head.fields.length < (head.fields.flatMap writeField ++ crlf ++ rest).length := by
    have hle := writeFields_length head.fields
    simp only [List.length_append, crlf, List.length_cons]
    omega
  have hfields := readFields_written h.fields hlen rest
  rw [hassoc, readHead, hcut]
  simp only [Option.bind_eq_bind, Option.bind_some, hfields, Head.received]

theorem Joined.same (values : List Bytes) : Joined values values := by
  refine ⟨values.map fun v => [v], by simp, by simp [List.flatten_eq_flatMap, List.flatMap_map], ?_⟩
  simp [List.map_map, Function.comp_def, List.intercalate]

theorem intercalate_longer {value : Bytes} {rest : List Bytes} (h : rest ≠ []) (sep : Bytes) :
    (List.intercalate sep (rest ++ [value])).length ≥ sep.length + value.length := by
  induction rest with
  | nil => exact absurd rfl h
  | cons a rest ih =>
    cases rest with
    | nil => simp [List.intercalate]
    | cons b rest =>
      have := ih (by simp)
      simp only [List.cons_append, List.intercalate, List.intersperse_cons_cons, List.flatten_cons,
        List.length_append] at this ⊢
      omega

/-- The last of several values is not all of them joined. -/
theorem joined_last_iff (values : List Bytes) :
    Joined values values.getLast?.toList ↔ values.length ≤ 1 := by
  constructor
  · rintro ⟨groups, hne, hflat, hmap⟩
    by_contra hlen
    obtain ⟨front, value, rfl⟩ : ∃ front value, values = front ++ [value] := by
      rcases List.eq_nil_or_concat values with rfl | ⟨front, value, h⟩
      · simp at hlen
      · exact ⟨front, value, by simpa using h⟩
    have hfront : front ≠ [] := fun hnil => by simp [hnil] at hlen
    simp only [List.getLast?_append, List.getLast?_singleton, Option.some_or, Option.toList_some]
      at hmap
    obtain ⟨g, rfl, hg⟩ := List.map_eq_singleton_iff.mp hmap
    have hlonger := @intercalate_longer value front hfront (text ", ")
    have hsep : (text ", ").length = 2 := by decide
    rw [List.flatten_singleton] at hflat
    rw [← hflat, hg, hsep] at hlonger
    omega
  · intro h
    have hsame : values.getLast?.toList = values := by
      rcases values with _ | ⟨value, _ | ⟨_, _⟩⟩
      · rfl
      · rfl
      · simp at h
    rw [hsame]
    exact .same values

theorem cutLine_length {bs line rest : Bytes} (h : cutLine bs = some (line, rest)) :
    bs.length = line.length + 2 + rest.length := by
  fun_induction cutLine bs generalizing line with
  | case1 tail =>
    simp only [Option.some.injEq, Prod.mk.injEq] at h
    obtain ⟨rfl, rfl⟩ := h
    simp
    omega
  | case2 b tail _ ih =>
    obtain ⟨⟨line', rest'⟩, hcut, heq⟩ := Option.map_eq_some_iff.mp h
    simp only [Prod.mk.injEq] at heq
    obtain ⟨rfl, rfl⟩ := heq
    have := ih hcut
    simp only [List.length_cons]
    omega
  | case3 => exact absurd h (by simp)

theorem readFields_length {n : Nat} {bs : Bytes} {fields : List Field} {rest : Bytes}
    (h : readFields n bs = some (fields, rest)) : rest.length + 2 ≤ bs.length := by
  induction n generalizing bs fields with
  | zero => simp [readFields] at h
  | succ n ih =>
    rw [readFields] at h
    split at h
    · exact absurd h (by simp)
    · next hcut =>
      have hlen := cutLine_length hcut
      simp only [Option.some.injEq, Prod.mk.injEq] at h
      rw [hlen, ← h.2]
      simp
      omega
    · next line after _ hcut =>
      have hlen := cutLine_length hcut
      simp only [Option.bind_eq_bind, Option.bind_eq_some_iff] at h
      obtain ⟨field, -, ⟨fields', rest'⟩, hrest, heq⟩ := h
      simp only [Option.some.injEq, Prod.mk.injEq] at heq
      obtain ⟨-, rfl⟩ := heq
      have := ih hrest
      omega

theorem chunkSize_nonempty {line : Bytes} {size : Nat} (h : chunkSize line = some size) :
    0 < line.length := by
  cases line with
  | nil => simp [chunkSize] at h
  | cons => simp

/-- A chunked body is at least five bytes shorter than what delimits it. -/
theorem readChunks_length {n : Nat} {bs body rest : Bytes} (h : readChunks n bs = some (body, rest)) :
    body.length + rest.length + 5 ≤ bs.length := by
  induction n generalizing bs body with
  | zero => simp [readChunks] at h
  | succ n ih =>
    simp only [readChunks, Option.bind_eq_bind, Option.bind_eq_some_iff] at h
    obtain ⟨⟨line, after⟩, hcut, size, hsize, h⟩ := h
    have hlen := cutLine_length hcut
    have hpos : 0 < line.length := chunkSize_nonempty hsize
    simp only at h
    split at h
    · obtain ⟨⟨fields, rest'⟩, hfields, heq⟩ := Option.bind_eq_some_iff.mp h
      simp only [Option.some.injEq, Prod.mk.injEq] at heq
      obtain ⟨rfl, rfl⟩ := heq
      have hrest := readFields_length hfields
      simp only [List.length_nil] at hlen hrest ⊢
      omega
    · split at h
      · next tail htail =>
        obtain ⟨⟨body', rest'⟩, hbody, heq⟩ := Option.bind_eq_some_iff.mp h
        simp only [Option.some.injEq, Prod.mk.injEq] at heq
        obtain ⟨rfl, rfl⟩ := heq
        have hinner := ih hbody
        have hdrop : (after.drop size).length = tail.length + 2 := by simp [htail]
        simp only [List.length_append, List.length_take, List.length_drop] at hlen hdrop ⊢
        omega
      · exact absurd h (by simp)

/-- A body of a known length is all that is left exactly where it is what is left. -/
theorem readBody_length_iff (body rest : Bytes) :
    readBody (.length body.length) rest = some (body, []) ↔ rest = body := by
  simp only [readBody]
  constructor
  · intro h
    split at h
    · simp only [Option.some.injEq, Prod.mk.injEq] at h
      rw [← List.take_append_drop body.length rest, h.1, h.2, List.append_nil]
    · exact absurd h (by simp)
  · rintro rfl
    simp

/-- Data that is not coded in chunks is not read back as a chunked body. -/
theorem readBody_chunked_ne (body : Bytes) : readBody .chunked body ≠ some (body, []) := by
  intro h
  have hlen := readChunks_length h
  simp only [List.length_nil] at hlen
  omega

end HttpWire
