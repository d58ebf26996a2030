import DeepSeer.ByteMemory
import Mathlib.Data.List.Infix
import Mathlib.Data.List.TakeWhile

/-!
Byte strings as texts: literals, decimal numerals, the searches of a C++
string and the conversion `stoi`. A search gives the position of the first or
last match, or nothing where the library returns `npos`.
-/
namespace ByteText

open ByteMemory

/-- The bytes of a text literal. -/
def text (s : String) : Bytes := s.toList.map fun c => UInt8.ofNat c.toNat

/-- The decimal numeral of a number. -/
def decimal (n : Nat) : Bytes := (Nat.toDigits 10 n).map fun c => UInt8.ofNat c.toNat

def crlf : Bytes := [13, 10]

/-- `s.find(c)`. -/
def find (c : UInt8) (s : Bytes) : Option Nat := s.findIdx? (· == c)

/-- `s.find(c, pos)`. -/
def findFrom (c : UInt8) (pos : Nat) (s : Bytes) : Option Nat :=
  (find c (s.drop pos)).map (pos + ·)

/-- `s.rfind(c)`. -/
def rfind (c : UInt8) (s : Bytes) : Option Nat :=
  (find c s.reverse).map fun i => s.length - 1 - i

/-- `s.find(pattern)` for a pattern of several bytes. -/
def findText (pattern : Bytes) : Bytes → Option Nat
  | [] => if pattern.isPrefixOf [] then some 0 else none
  | b :: rest =>
    if pattern.isPrefixOf (b :: rest) then some 0 else (findText pattern rest).map (· + 1)

/-- `isspace` of the C locale. -/
def isSpace (b : UInt8) : Bool := b == 32 || (9 ≤ b && b ≤ 13)

def isDigit (b : UInt8) : Bool := 48 ≤ b && b ≤ 57

/-- `tolower` of the C locale. -/
def tolower (b : UInt8) : UInt8 := if 65 ≤ b && b ≤ 90 then b + 32 else b

/-- The value of a run of decimal digits. -/
def digitsValue (s : Bytes) : Nat := s.foldl (fun n b => 10 * n + (b.toNat - 48)) 0

/-- The sign in front of a numeral, and what follows it. -/
def splitSign : Bytes → Bool × Bytes
  | 45 :: rest => (true, rest)
  | 43 :: rest => (false, rest)
  | s => (false, s)

/-- `std::stoi`: leading blanks, a sign and at least one digit, with a value
inside `int`; it throws where this is `none`. -/
def stoi (s : Bytes) : Option Int :=
  let (negative, rest) := splitSign (s.dropWhile isSpace)
  let digits := rest.takeWhile isDigit
  if digits = [] then none
  else
    let value : Int := if negative then -(digitsValue digits) else digitsValue digits
    if -2147483648 ≤ value ∧ value ≤ 2147483647 then some value else none

/-- `std::stoul`: as `std::stoi`, but with a value inside `unsigned long`, which a
sign negates. -/
def stoul (s : Bytes) : Option Nat :=
  let (negative, rest) := splitSign (s.dropWhile isSpace)
  let digits := rest.takeWhile isDigit
  if digits = [] then none
  else if 18446744073709551616 ≤ digitsValue digits then none
  else if negative then
    some ((18446744073709551616 - digitsValue digits) % 18446744073709551616)
  else some (digitsValue digits)

theorem find_eq_none {c : UInt8} {s : Bytes} : find c s = none ↔ c ∉ s := by
  simp only [find, List.findIdx?_eq_none_iff, beq_eq_false_iff_ne, ne_eq]
  exact ⟨fun h hc => h c hc rfl, fun h b hb hbc => h (hbc ▸ hb)⟩

/-- The first match lies where the text before it does not contain the byte. -/
theorem find_append {c : UInt8} {front : Bytes} (h : c ∉ front) (rest : Bytes) :
    find c (front ++ rest) = (find c rest).map (front.length + ·) := by
  have hf : front.findIdx? (· == c) = none := find_eq_none.mpr h
  simp only [find, List.findIdx?_append, hf, Option.none_or]
  cases rest.findIdx? (· == c) <;> simp [Nat.add_comm]

@[simp] theorem find_cons_self (c : UInt8) (rest : Bytes) : find c (c :: rest) = some 0 := by
  simp [find, List.findIdx?_cons]

theorem find_split {c : UInt8} {front : Bytes} (h : c ∉ front) (rest : Bytes) :
    find c (front ++ c :: rest) = some front.length := by
  simp [find_append h]

/-- What lies behind the byte that a text is cut at. -/
theorem drop_split (front : Bytes) (c : UInt8) (rest : Bytes) :
    (front ++ c :: rest).drop (front.length + 1) = rest := by
  rw [← List.drop_drop, List.drop_left]
  rfl

theorem findFrom_skip {c : UInt8} {skipped : Bytes} (rest : Bytes) :
    findFrom c skipped.length (skipped ++ rest) = (find c rest).map (skipped.length + ·) := by
  simp [findFrom]

theorem find_some {c : UInt8} {s : Bytes} {i : Nat} (h : find c s = some i) :
    i < s.length ∧ c ∉ s.take i ∧ s[i]? = some c := by
  obtain ⟨hi, hc, hb⟩ := List.findIdx?_eq_some_iff_getElem.mp h
  have hi' : s[i] = c := by simpa using hc
  refine ⟨hi, ?_, by rw [List.getElem?_eq_getElem hi, hi']⟩
  intro hmem
  obtain ⟨j, hj, hjc⟩ := List.getElem_of_mem hmem
  have hj' : j < i := by
    rw [List.length_take] at hj
    omega
  have := hb j hj'
  simp only [List.getElem_take] at hjc
  simp [hjc] at this

/-- The last match lies where the text behind it does not contain the byte. -/
theorem rfind_split {c : UInt8} {back : Bytes} (h : c ∉ back) (front : Bytes) :
    rfind c (front ++ c :: back) = some front.length := by
  have hback : c ∉ back.reverse := by simpa using h
  have hlength : (front ++ c :: back).length - 1 - back.length = front.length := by
    simp only [List.length_append, List.length_cons]
    omega
  rw [rfind, List.reverse_append, List.reverse_cons, List.append_assoc, List.singleton_append,
    find_split hback, Option.map_some, List.length_reverse, hlength]

theorem rfind_some {c : UInt8} {s : Bytes} {i : Nat} (h : rfind c s = some i) :
    ∃ front back, s = front ++ c :: back ∧ c ∉ back ∧ front.length = i := by
  obtain ⟨j, hj, rfl⟩ := Option.map_eq_some_iff.mp h
  obtain ⟨hlt, hnot, hat⟩ := find_some hj
  have hreverse : s.reverse = s.reverse.take j ++ c :: s.reverse.drop (j + 1) := by
    have hget : s.reverse[j] = c := by
      rw [List.getElem?_eq_getElem hlt] at hat
      exact Option.some.inj hat
    rw [← hget, List.getElem_cons_drop, List.take_append_drop]
  refine ⟨(s.reverse.drop (j + 1)).reverse, (s.reverse.take j).reverse, ?_, by simpa using hnot, ?_⟩
  · have hs := congrArg List.reverse hreverse
    simpa using hs
  · rw [List.length_reverse] at hlt
    simp only [List.length_reverse, List.length_drop]
    omega

/-- A numeral with no digit behind it is what a conversion reads. -/
theorem numeral_parts {s tail : Bytes} (hs : s.all isDigit = true) (hne : s ≠ [])
    (ht : tail.head?.all (!isDigit ·) = true) :
    splitSign ((s ++ tail).dropWhile isSpace) = (false, s ++ tail) ∧
      (s ++ tail).takeWhile isDigit = s := by
  have hall : ∀ b ∈ s, isDigit b = true := fun b hb => List.all_eq_true.mp hs b hb
  constructor
  · cases s with
    | nil => exact absurd rfl hne
    | cons b rest =>
      have hb := hall b List.mem_cons_self
      have hrange : 48 ≤ b.toNat ∧ b.toNat ≤ 57 := by
        simpa [isDigit, UInt8.le_iff_toNat_le] using hb
      have hspace : isSpace b = false := by
        have hne32 : b ≠ 32 := by
          rintro rfl
          exact absurd hrange.1 (by decide)
        have hnot : ¬ b ≤ 13 := by
          intro hle
          have hle' : b.toNat ≤ 13 := UInt8.le_iff_toNat_le.mp hle
          omega
        simp [isSpace, hne32, hnot]
      rw [List.cons_append, List.dropWhile_cons_of_neg (by simp [hspace])]
      unfold splitSign
      split
      · next heq =>
        cases heq
        exact absurd hrange.1 (by decide)
      · next heq =>
        cases heq
        exact absurd hrange.1 (by decide)
      · rfl
  · rw [List.takeWhile_append_of_pos hall]
    cases tail with
    | nil => simp
    | cons b rest =>
      have hb : isDigit b = false := by simpa using ht
      rw [List.takeWhile_cons_of_neg (by simp [hb]), List.append_nil]

theorem stoi_numeral {s tail : Bytes} (hs : s.all isDigit = true) (hne : s ≠ [])
    (ht : tail.head?.all (!isDigit ·) = true) :
    stoi (s ++ tail) = if digitsValue s ≤ 2147483647 then some (digitsValue s : Int) else none := by
  obtain ⟨hsign, hdigits⟩ := numeral_parts hs hne ht
  simp only [stoi, hsign, hdigits, hne, if_false, Bool.false_eq_true]
  by_cases hle : digitsValue s ≤ 2147483647
  · rw [if_pos hle, if_pos (by omega)]
  · rw [if_neg hle, if_neg (by omega)]

theorem stoul_numeral {s tail : Bytes} (hs : s.all isDigit = true) (hne : s ≠ [])
    (ht : tail.head?.all (!isDigit ·) = true) :
    stoul (s ++ tail) =
      if digitsValue s < 18446744073709551616 then some (digitsValue s) else none := by
  obtain ⟨hsign, hdigits⟩ := numeral_parts hs hne ht
  simp only [stoul, hsign, hdigits, hne, if_false, Bool.false_eq_true]
  by_cases hlt : digitsValue s < 18446744073709551616
  · rw [if_pos hlt, if_neg (Nat.not_le_of_lt hlt)]
  · rw [if_neg hlt, if_pos (Nat.le_of_not_lt hlt)]

/-- A text does not convert where its first byte is of no numeral. -/
theorem stoi_eq_none {b : UInt8} (hdigit : isDigit b = false) (hspace : isSpace b = false)
    (hminus : b ≠ 45) (hplus : b ≠ 43) (rest : Bytes) : stoi (b :: rest) = none := by
  have hsign : splitSign (b :: rest) = (false, b :: rest) := by
    unfold splitSign
    split
    · next heq => exact absurd (List.cons.inj heq).1 hminus
    · next heq => exact absurd (List.cons.inj heq).1 hplus
    · rfl
  have hdrop : (b :: rest).dropWhile isSpace = b :: rest :=
    List.dropWhile_cons_of_neg (by simp [hspace])
  have hdigits : (b :: rest).takeWhile isDigit = [] :=
    List.takeWhile_cons_of_neg (by simp [hdigit])
  simp only [stoi, hdrop, hsign, hdigits, if_true]

/-- No numeral begins with a byte of this range. -/
theorem stoi_above {b : UInt8} (hlow : 46 ≤ b.toNat) (hdigit : isDigit b = false) (rest : Bytes) :
    stoi (b :: rest) = none := by
  have hne : ∀ c : UInt8, c.toNat < 46 → b ≠ c := by
    rintro c hc rfl
    omega
  have hnot : ¬ b ≤ 13 := by
    intro hle
    have hle' : b.toNat ≤ 13 := UInt8.le_iff_toNat_le.mp hle
    omega
  refine stoi_eq_none hdigit ?_ (hne 45 (by decide)) (hne 43 (by decide)) rest
  simp [isSpace, hne 32 (by decide), hnot]

theorem digitsValue_four {s : Bytes} (h : s.all isDigit = true) (hlength : s.length ≤ 4) :
    digitsValue s ≤ 9999 := by
  have hdigit : ∀ b ∈ s, b.toNat - 48 ≤ 9 := by
    intro b hb
    have hrange := List.all_eq_true.mp h b hb
    simp only [isDigit, UInt8.le_iff_toNat_le, Bool.and_eq_true, decide_eq_true_eq] at hrange
    have h57 : b.toNat ≤ 57 := hrange.2
    omega
  rcases s with _ | ⟨b, _ | ⟨c, _ | ⟨d, _ | ⟨e, _ | ⟨f, rest⟩⟩⟩⟩⟩
  all_goals simp only [List.forall_mem_cons, List.length_cons, digitsValue, List.foldl] at *
  all_goals omega

/-- The text up to the first match. -/
theorem take_find {c : UInt8} {s : Bytes} {i : Nat} (h : find c s = some i) :
    s.take i = s.takeWhile (· != c) := by
  induction s generalizing i with
  | nil => cases h
  | cons b rest ih =>
    by_cases hb : b = c
    · subst hb
      rw [find_cons_self] at h
      cases h
      simp
    · have hrest : find c (b :: rest) = (find c rest).map (1 + ·) :=
        @find_append c [b] (by simpa using Ne.symm hb) rest
      rw [hrest] at h
      obtain ⟨j, hj, rfl⟩ := Option.map_eq_some_iff.mp h
      rw [Nat.add_comm, List.take_succ_cons, ih hj, List.takeWhile_cons_of_pos (by simpa using hb)]

theorem takeWhile_find {c : UInt8} {s : Bytes} (h : find c s = none) :
    s.takeWhile (· != c) = s := by
  rw [List.takeWhile_eq_self_iff]
  intro b hb
  have hne : b ≠ c := by
    rintro rfl
    exact find_eq_none.mp h hb
  simpa using hne

theorem findText_eq_none {pattern s : Bytes} : findText pattern s = none ↔ ¬ pattern <:+: s := by
  induction s with
  | nil =>
    simp only [findText, List.infix_nil]
    cases pattern <;> simp
  | cons b rest ih =>
    simp only [findText, List.infix_cons_iff]
    by_cases hp : pattern.isPrefixOf (b :: rest) = true
    · simp [hp, List.isPrefixOf_iff_prefix.mp hp]
    · have hp' : ¬ pattern <+: b :: rest := fun h => hp (List.isPrefixOf_iff_prefix.mpr h)
      simp [hp, hp', ih]

theorem findText_some {pattern s : Bytes} {i : Nat} (h : findText pattern s = some i) :
    i + pattern.length ≤ s.length ∧ pattern <+: s.drop i := by
  induction s generalizing i with
  | nil =>
    simp only [findText] at h
    split at h
    · next hp =>
      have hnil : pattern = [] := by simpa using hp
      have hi : i = 0 := by simpa using h.symm
      simp [hnil, hi]
    · exact absurd h (by simp)
  | cons b rest ih =>
    simp only [findText] at h
    split at h
    · next hp =>
      have hp' := List.isPrefixOf_iff_prefix.mp hp
      have hi : 0 = i := by simpa using h
      subst hi
      exact ⟨by simpa using hp'.length_le, hp'⟩
    · obtain ⟨j, hj, rfl⟩ := Option.map_eq_some_iff.mp h
      obtain ⟨hlen, hpre⟩ := ih hj
      exact ⟨by simp only [List.length_cons]; omega, by simpa using hpre⟩

/-- The first byte of the pattern does not occur before the match. -/
theorem findText_split {p : UInt8} {pattern front : Bytes} (h : p ∉ front) (rest : Bytes) :
    findText (p :: pattern) (front ++ p :: pattern ++ rest) = some front.length := by
  induction front with
  | nil =>
    have hp : (p :: pattern).isPrefixOf (p :: pattern ++ rest) = true :=
      List.isPrefixOf_iff_prefix.mpr (List.prefix_append _ _)
    rw [List.nil_append, List.cons_append, findText]
    rw [List.cons_append] at hp
    simp [hp]
  | cons b front ih =>
    obtain ⟨hb, hf⟩ : p ≠ b ∧ p ∉ front := by simpa using h
    have hne : ¬ (p :: pattern).isPrefixOf (b :: (front ++ p :: pattern ++ rest)) = true := by
      simp [hb]
    rw [List.cons_append, List.cons_append, findText, if_neg hne, ih hf]
    simp

theorem decimal_ne_nil (n : Nat) : decimal n ≠ [] := by
  simp [decimal, Nat.toDigits_ne_nil]

/-- The byte of a digit has the value of the character. -/
theorem digit_byte {n : Nat} {c : Char} (h : c ∈ Nat.toDigits 10 n) :
    (UInt8.ofNat c.toNat).toNat = c.toNat ∧ isDigit (UInt8.ofNat c.toNat) = true := by
  have hd : c.isDigit = true := Nat.isDigit_of_mem_toDigits (by decide) (by decide) h
  have hle : 48 ≤ c.toNat ∧ c.toNat ≤ 57 := by
    simp only [Char.isDigit, Bool.and_eq_true, decide_eq_true_eq, ge_iff_le,
      UInt32.le_iff_toNat_le] at hd
    exact hd
  have hn : (UInt8.ofNat c.toNat).toNat = c.toNat := by
    simp only [UInt8.toNat_ofNat']
    omega
  refine ⟨hn, ?_⟩
  simp only [isDigit, UInt8.le_iff_toNat_le, hn, Bool.and_eq_true, decide_eq_true_eq]
  exact hle

theorem decimal_digits (n : Nat) : (decimal n).all isDigit = true := by
  rw [decimal, List.all_map, List.all_eq_true]
  exact fun c hc => (digit_byte hc).2

/-- A byte that is no digit is not in a numeral. -/
theorem not_mem_decimal {b : UInt8} (h : isDigit b = false) (n : Nat) : b ∉ decimal n :=
  fun hb => absurd (h.symm.trans (List.all_eq_true.mp (decimal_digits n) b hb)) (by decide)

/-- A numeral has the value it was printed from. -/
theorem digitsValue_decimal (n : Nat) : digitsValue (decimal n) = n := by
  have hvalue : digitsValue (decimal n) = Nat.ofDigitChars 10 (Nat.toDigits 10 n) 0 := by
    simp only [digitsValue, decimal, List.foldl_map, Nat.ofDigitChars]
    exact List.foldl_ext _ _ _ fun acc c hc => by rw [(digit_byte hc).1]; rfl
  rw [hvalue, Nat.ofDigitChars_ten_toDigits]

theorem decimal_injective {m n : Nat} (h : decimal m = decimal n) : m = n := by
  rw [← digitsValue_decimal m, h, digitsValue_decimal]

/-- The numbers from 100 to 999 are those with three digits. -/
theorem decimal_length {n : Nat} (h : 100 ≤ n) (h' : n ≤ 999) : (decimal n).length = 3 := by
  have hle := (Nat.length_toDigits_le_iff (n := n) (k := 3) (b := 10) (by decide) (by decide)).mpr
    (by omega)
  have hgt : ¬ (Nat.toDigits 10 n).length ≤ 2 := fun hle' => by
    have := (Nat.length_toDigits_le_iff (by decide) (by decide)).mp hle'
    omega
  rw [decimal, List.length_map]
  omega

end ByteText
