import DeepSeer.MagikaBounds
import DeepSeer.WhileLoop
import Mathlib.Data.List.DropRight

/-!
The tokens of a payload against the description of the preprocessing: two halves,
one of the bytes behind the leading whitespace and one of those before the
trailing whitespace, each padded at its inner edge.
-/
namespace Magika

open ByteMemory CountedLoops WhileLoop

/-- A pass of the loop that strips the front. It has no position where it looks
outside of the payload. -/
def begPass (payload : Array UInt8) (begStart : Nat) : Pass Nat (Option Nat) :=
  if begStart < payload.size then
    match load payload begStart with
    | none => .leave none
    | some b => if isWhitespace b then .again (begStart + 1) else .leave (some begStart)
  else .leave (some begStart)

/-- A pass of the loop that strips the end. -/
def endPass (payload : Array UInt8) (endPos : Nat) : Pass Nat (Option Nat) :=
  if 0 < endPos then
    match load payload (endPos - 1) with
    | none => .leave none
    | some b => if isWhitespace b then .again (endPos - 1) else .leave (some endPos)
  else .leave (some endPos)

def lstrip (payload : Bytes) : Bytes := payload.dropWhile isWhitespace

def rstrip (payload : Bytes) : Bytes := payload.rdropWhile isWhitespace

/-- The bytes that the first half shows. -/
def begRegion (payload : Bytes) : Bytes := (lstrip payload).take kBegSize

/-- The bytes that the second half shows. -/
def endRegion (payload : Bytes) : Bytes := (rstrip payload).rtake kEndSize

/-- The preprocessing as it is described. -/
def preprocess (payload : Bytes) : List Nat :=
  (begRegion payload).map UInt8.toNat ++
    List.replicate (kBegSize - (begRegion payload).length) kPaddingToken ++
    (List.replicate (kEndSize - (endRegion payload).length) kPaddingToken ++
      (endRegion payload).map UInt8.toNat)

theorem begRegion_length (payload : Bytes) : (begRegion payload).length ≤ kBegSize := by
  rw [begRegion, List.length_take]
  exact Nat.min_le_left _ _

theorem endRegion_length (payload : Bytes) : (endRegion payload).length ≤ kEndSize := by
  rw [endRegion, List.rtake, List.length_drop]
  omega

/-- Where the front of a payload ends. -/
theorem lstrip_eq (payload : Bytes) :
    lstrip payload = payload.drop (payload.takeWhile isWhitespace).length := by
  have hcut := @List.takeWhile_append_dropWhile _ isWhitespace payload
  calc lstrip payload
      = (payload.takeWhile isWhitespace ++ lstrip payload).drop
          (payload.takeWhile isWhitespace).length := List.drop_left.symm
    _ = payload.drop (payload.takeWhile isWhitespace).length := by rw [lstrip, hcut]

/-- Where the end of a payload begins. -/
theorem rstrip_eq (payload : Bytes) : rstrip payload =
    payload.take (payload.length - (payload.reverse.takeWhile isWhitespace).length) := by
  have hcut := lstrip_eq payload.reverse
  rw [rstrip, List.rdropWhile]
  change (lstrip payload.reverse).reverse = _
  rw [hcut, List.reverse_drop, List.reverse_reverse, List.length_reverse]

theorem begRegion_eq (payload : Bytes) :
    (payload.drop (payload.takeWhile isWhitespace).length).take
      (min kBegSize (payload.length - (payload.takeWhile isWhitespace).length)) =
        begRegion payload := by
  rw [begRegion, lstrip_eq, List.take_eq_take_iff, List.length_drop]
  omega

theorem endRegion_eq (payload : Bytes) {endPos : Nat} (h : rstrip payload = payload.take endPos)
    (hle : endPos ≤ payload.length) :
    (payload.drop (endPos - min kEndSize endPos)).take (min kEndSize endPos) =
      endRegion payload := by
  have hlength : (payload.take endPos).length = endPos := by
    rw [List.length_take]
    omega
  have hstart : endPos - kEndSize = endPos - min kEndSize endPos := by omega
  have hcount : min kEndSize endPos = endPos - (endPos - min kEndSize endPos) := by omega
  rw [endRegion, h, List.rtake, hlength, hstart, List.drop_take, ← hcount]

/-- The first elements that satisfy `p` end where one does not, or with the list. -/
theorem takeWhile_eq_take {α : Type} {p : α → Bool} {l : List α} {s : Nat}
    (hall : ∀ a ∈ l.take s, p a = true) (hstop : ∀ a, l[s]? = some a → p a = false) :
    l.takeWhile p = l.take s := by
  conv_lhs => rw [← List.take_append_drop s l]
  rw [List.takeWhile_append_of_pos hall]
  cases hrest : l.drop s with
  | nil => rw [List.takeWhile_nil, List.append_nil]
  | cons a rest =>
    have hget : l[s]? = some a := by rw [← List.head?_drop, hrest, List.head?_cons]
    rw [List.takeWhile_cons_of_neg (by simp [hstop a hget]), List.append_nil]

/-- A pass of the front goes on at whitespace and stops at anything else. -/
theorem begPass_cases (payload : Bytes) (s : Nat) :
    (∃ b, payload[s]? = some b ∧ isWhitespace b = true ∧
      begPass payload.toArray s = .again (s + 1)) ∨
    ((∀ b, payload[s]? = some b → isWhitespace b = false) ∧
      begPass payload.toArray s = .leave (some s)) := by
  unfold begPass load
  rw [List.size_toArray, List.getElem?_toArray]
  by_cases hlt : s < payload.length
  · rw [if_pos hlt, List.getElem?_eq_getElem hlt]
    cases hspace : isWhitespace payload[s] with
    | true => exact .inl ⟨_, rfl, hspace, by simp [hspace]⟩
    | false => exact .inr ⟨fun b hb => Option.some.inj hb ▸ hspace, by simp [hspace]⟩
  · rw [if_neg hlt, List.getElem?_eq_none (not_lt.mp hlt)]
    exact .inr ⟨fun b hb => absurd hb (by simp), rfl⟩

/-- A pass of the end looks at the byte before its position. -/
theorem endPass_cases (payload : Bytes) {s : Nat} (hle : s ≤ payload.length) :
    (∃ k b, s = k + 1 ∧ payload[k]? = some b ∧ isWhitespace b = true ∧
      endPass payload.toArray s = .again k) ∨
    ((∀ k b, s = k + 1 → payload[k]? = some b → isWhitespace b = false) ∧
      endPass payload.toArray s = .leave (some s)) := by
  cases s with
  | zero => exact .inr ⟨fun k b hk => absurd hk (by omega), rfl⟩
  | succ k =>
    unfold endPass load
    rw [if_pos (Nat.succ_pos k), Nat.add_sub_cancel, List.getElem?_toArray,
      List.getElem?_eq_getElem hle]
    cases hspace : isWhitespace payload[k] with
    | true => exact .inl ⟨k, _, rfl, List.getElem?_eq_getElem hle, hspace, by simp [hspace]⟩
    | false =>
      refine .inr ⟨fun j b hj hb => ?_, by simp [hspace]⟩
      cases hj
      rw [List.getElem?_eq_getElem hle] at hb
      exact Option.some.inj hb ▸ hspace

/-- The stripping loop of the front stops behind the leading whitespace. -/
theorem begLoop_eq (payload : Bytes) :
    iterate (begPass payload.toArray) (payload.length + 1) 0 =
      some (some (payload.takeWhile isWhitespace).length) := by
  have hloop : ∃ r, iterate (begPass payload.toArray) (payload.length + 1) 0 = some r ∧
      r = some (payload.takeWhile isWhitespace).length := by
    refine iterate_correct
      (fun s => s ≤ payload.length ∧ ∀ b ∈ payload.take s, isWhitespace b = true)
      (fun s => payload.length - s) _ ?_ ?_ ⟨Nat.zero_le _, by simp⟩ (by omega)
    · rintro s s' ⟨hle, hall⟩ hpass
      rcases begPass_cases payload s with ⟨b, hb, hspace, hp⟩ | ⟨-, hp⟩ <;>
        rw [hp] at hpass <;> cases hpass
      have hlt := (List.getElem?_eq_some_iff.mp hb).1
      refine ⟨⟨hlt, ?_⟩, by omega⟩
      rw [List.take_add_one, hb]
      intro c hc
      rcases List.mem_append.mp hc with hc | hc
      · exact hall c hc
      · rwa [List.mem_singleton.mp hc]
    · rintro s r ⟨hle, hall⟩ hpass
      rcases begPass_cases payload s with ⟨b, -, -, hp⟩ | ⟨hstop, hp⟩ <;>
        rw [hp] at hpass <;> cases hpass
      rw [takeWhile_eq_take hall hstop, List.length_take, Nat.min_eq_left hle]
  obtain ⟨r, hr, rfl⟩ := hloop
  exact hr

/-- The stripping loop of the end stops before the trailing whitespace. -/
theorem endLoop_eq (payload : Bytes) :
    iterate (endPass payload.toArray) (payload.length + 1) payload.length =
      some (some (payload.length - (payload.reverse.takeWhile isWhitespace).length)) := by
  have hloop : ∃ r, iterate (endPass payload.toArray) (payload.length + 1) payload.length =
      some r ∧ r = some (payload.length - (payload.reverse.takeWhile isWhitespace).length) := by
    refine iterate_correct
      (fun s => s ≤ payload.length ∧ ∀ b ∈ payload.drop s, isWhitespace b = true)
      (fun s => s) _ ?_ ?_ ⟨Nat.le_refl _, by simp⟩ (by omega)
    · rintro s s' ⟨hle, hall⟩ hpass
      rcases endPass_cases payload hle with ⟨k, b, rfl, hb, hspace, hp⟩ | ⟨-, hp⟩ <;>
        rw [hp] at hpass <;> cases hpass
      obtain ⟨hlt, hget⟩ := List.getElem?_eq_some_iff.mp hb
      refine ⟨⟨by omega, ?_⟩, by omega⟩
      rw [List.drop_eq_getElem_cons hlt, hget]
      exact List.forall_mem_cons.mpr ⟨hspace, hall⟩
    · rintro s r ⟨hle, hall⟩ hpass
      rcases endPass_cases payload hle with ⟨k, b, -, -, -, hp⟩ | ⟨hstop, hp⟩ <;>
        rw [hp] at hpass <;> cases hpass
      -- the last bytes are the first ones of the reversed payload
      have hback : payload.reverse.take (payload.length - s) = (payload.drop s).reverse :=
        List.reverse_drop.symm
      have hstop' : ∀ b, payload.reverse[payload.length - s]? = some b →
          isWhitespace b = false := by
        intro b hb
        have hlt := (List.getElem?_eq_some_iff.mp hb).1
        rw [List.length_reverse] at hlt
        rw [List.getElem?_reverse hlt] at hb
        exact hstop _ b (by omega) hb
      rw [takeWhile_eq_take (fun b hb => hall b (by simpa [hback] using hb)) hstop', hback,
        List.length_reverse, List.length_drop, Nat.sub_sub_self hle]
  obtain ⟨r, hr, rfl⟩ := hloop
  exact hr

/-- The padding of the two halves is one block between them. -/
theorem preprocess_eq (payload : Bytes) : preprocess payload =
    (begRegion payload).map UInt8.toNat ++
      (List.replicate (kInputLen - (begRegion payload).length - (endRegion payload).length)
        kPaddingToken ++ (endRegion payload).map UInt8.toNat) := by
  have hbeg := begRegion_length payload
  have hfin := endRegion_length payload
  have hcount : kInputLen - (begRegion payload).length - (endRegion payload).length =
      (kBegSize - (begRegion payload).length) + (kEndSize - (endRegion payload).length) := by
    unfold kInputLen
    omega
  rw [preprocess, hcount, ← List.replicate_append_replicate]
  simp only [List.append_assoc]

theorem preprocess_length (payload : Bytes) : (preprocess payload).length = kInputLen := by
  have hbeg := begRegion_length payload
  have hfin := endRegion_length payload
  rw [preprocess_eq]
  simp only [List.length_append, List.length_map, List.length_replicate]
  unfold kInputLen at *
  omega

theorem mem_preprocess {payload : Bytes} {t : Nat} (h : t ∈ preprocess payload) :
    t ≤ kPaddingToken := by
  have hbyte : ∀ bytes : Bytes, t ∈ bytes.map UInt8.toNat → t ≤ kPaddingToken := by
    intro bytes hmem
    obtain ⟨b, -, rfl⟩ := List.mem_map.mp hmem
    exact Nat.le_of_lt b.toNat_lt
  rw [preprocess_eq] at h
  rcases List.mem_append.mp h with hbeg | hrest
  · exact hbyte _ hbeg
  · rcases List.mem_append.mp hrest with hpad | hfin
    · exact Nat.le_of_eq (List.eq_of_mem_replicate hpad)
    · exact hbyte _ hfin

/-- Only the inner edges of the halves are padded. -/
theorem preprocess_padding (payload : Bytes) (i : Nat) :
    (preprocess payload)[i]? = some kPaddingToken ↔
      (begRegion payload).length ≤ i ∧ i < kInputLen - (endRegion payload).length := by
  have hbeg := begRegion_length payload
  have hfin := endRegion_length payload
  have hbyte : ∀ (bytes : Bytes) (j : Nat), (bytes.map UInt8.toNat)[j]? ≠ some kPaddingToken := by
    intro bytes j heq
    obtain ⟨b, -, hb⟩ := List.mem_map.mp (List.mem_of_getElem? heq)
    have hlt := b.toNat_lt
    unfold kPaddingToken at hb
    omega
  rw [preprocess_eq]
  by_cases hfirst : i < (begRegion payload).length
  · rw [List.getElem?_append_left (by rwa [List.length_map])]
    exact ⟨fun h => absurd h (hbyte _ _), fun h => by omega⟩
  · rw [List.getElem?_append_right (by rw [List.length_map]; omega), List.length_map]
    by_cases hpad : i < kInputLen - (endRegion payload).length
    · rw [List.getElem?_append_left (by rw [List.length_replicate]; omega),
        List.getElem?_replicate, if_pos (by omega)]
      exact ⟨fun _ => ⟨by omega, hpad⟩, fun _ => rfl⟩
    · rw [List.getElem?_append_right (by rw [List.length_replicate]; omega)]
      exact ⟨fun h => absurd h (hbyte _ _), fun h => absurd h.2 hpad⟩

/-- Less padding behind the same front. -/
theorem take_padded {α : Type} {front : List α} {cut total : Nat} {a : α}
    (hfront : front.length ≤ cut) (hcut : cut ≤ total) :
    (front ++ List.replicate (total - front.length) a).take cut =
      front ++ List.replicate (cut - front.length) a := by
  rw [List.take_append, List.take_of_length_le hfront, List.take_replicate,
    Nat.min_eq_left (Nat.sub_le_sub_right hcut _)]

theorem extractInputTokens_toList (payload : Bytes) :
    Gives (extractInputTokens payload) fun tokens => tokens.toList = preprocess payload := by
  unfold extractInputTokens
  dsimp only
  split
  · next hnil =>
    subst hnil
    have hbeg : begRegion [] = [] := rfl
    have hfin : endRegion [] = [] := rfl
    refine .some ?_
    rw [preprocess_eq, hbeg, hfin, Array.toList_replicate]
    simp
  · set begStart := (payload.takeWhile isWhitespace).length with hbegStart
    set begCount := min kBegSize (payload.length - begStart) with hbegCount
    set endPos := payload.length - (payload.reverse.takeWhile isWhitespace).length with hendPos
    set endCount := min kEndSize endPos with hendCount
    have hbegle : begStart ≤ payload.length := (List.takeWhile_sublist _).length_le
    have hsize : (Array.replicate kInputLen kPaddingToken).size = kBegSize + kEndSize :=
      Array.size_replicate
    have hbegin : begStart + begCount ≤ payload.toArray.size := by
      rw [List.size_toArray]
      omega
    have hregion : (payload.drop begStart).take begCount = begRegion payload :=
      begRegion_eq payload
    have hbegLength : (begRegion payload).length = begCount := by
      rw [← hregion, List.length_take, List.length_drop]
      omega
    have hfirst := forLoop_copy UInt8.toNat begStart 0 hbegin
      (show 0 + begCount ≤ (Array.replicate kInputLen kPaddingToken).size by omega)
    simp only [Nat.zero_add, List.take_zero, List.nil_append, Array.toList_replicate,
      List.drop_replicate, hregion] at hfirst
    apply hfirst.bind
    intro tokens htokens
    have htokensSize : tokens.size = kBegSize + kEndSize := by
      rw [← Array.length_toList, htokens, List.length_append, List.length_map,
        List.length_replicate, hbegLength]
      unfold kInputLen
      omega
    have hend : endPos - endCount + endCount ≤ payload.toArray.size := by
      rw [List.size_toArray]
      omega
    have hfinal : (payload.drop (endPos - endCount)).take endCount = endRegion payload :=
      endRegion_eq payload (rstrip_eq payload) (by omega)
    have hfinLength : (endRegion payload).length = endCount := by
      rw [← hfinal, List.length_take, List.length_drop]
      omega
    have hsecond := forLoop_copy UInt8.toNat (endPos - endCount)
      (kBegSize + (kEndSize - endCount)) hend
      (show kBegSize + (kEndSize - endCount) + endCount ≤ tokens.size by omega)
    refine hsecond.imp fun w hw => ⟨hw.1, ?_⟩
    have hend' : kBegSize + (kEndSize - endCount) + endCount = tokens.toList.length := by
      rw [Array.length_toList, htokensSize]
      omega
    have hkept : tokens.toList.take (kBegSize + (kEndSize - endCount)) =
        (begRegion payload).map UInt8.toNat ++
          List.replicate (kInputLen - begCount - endCount) kPaddingToken := by
      have hlength : ((begRegion payload).map UInt8.toNat).length = begCount := by
        rw [List.length_map, hbegLength]
      have hcount : kBegSize + (kEndSize - endCount) - begCount =
          kInputLen - begCount - endCount := by
        unfold kInputLen
        omega
      rw [htokens, ← hlength, take_padded (by omega) (by unfold kInputLen; omega), hlength, hcount]
    have hw' := hw.2
    change w.toList = preprocess payload
    rw [hkept, List.toList_toArray, hfinal, hend', List.drop_length, List.append_nil] at hw'
    rw [hw', preprocess_eq, hbegLength, hfinLength, List.append_assoc]

/-- The tokens of a payload are those of the description, for every payload. -/
theorem extractInputTokens_preprocess (payload : Bytes) :
    iterate (begPass payload.toArray) (payload.length + 1) 0 =
        some (some (payload.takeWhile isWhitespace).length) ∧
      iterate (endPass payload.toArray) (payload.length + 1) payload.length =
        some (some (payload.length - (payload.reverse.takeWhile isWhitespace).length)) ∧
      ∃ tokens, extractInputTokens payload = some tokens ∧
        tokens.toList = preprocess payload ∧ tokens.size = 2048 ∧
        (∀ t ∈ tokens.toList, t ≤ 256) ∧
        ∀ i, load tokens i = some 256 ↔
          (begRegion payload).length ≤ i ∧ i < 2048 - (endRegion payload).length := by
  refine ⟨begLoop_eq payload, endLoop_eq payload, ?_⟩
  obtain ⟨tokens, htokens, hlist⟩ := extractInputTokens_toList payload
  refine ⟨tokens, htokens, hlist, ?_, fun t ht => ?_, fun i => ?_⟩
  · rw [← Array.length_toList, hlist, preprocess_length]
    rfl
  · rw [hlist] at ht
    exact mem_preprocess ht
  · rw [load, ← Array.getElem?_toList, hlist]
    exact preprocess_padding payload i

end Magika
