import DeepSeer.ByteText
import DeepSeer.SortedMap

/-!
The header map: names compared without case, one value for a name. Texts are
byte strings throughout.
-/
namespace DeepSeer

open ByteMemory ByteText SortedMap

/-- `std::lexicographical_compare` on the lower-case bytes. -/
def CaseInsensitiveLess : Bytes → Bytes → Bool
  | [], [] => false
  | [], _ :: _ => true
  | _ :: _, [] => false
  | c₁ :: a, c₂ :: b =>
    if (tolower c₁).toNat < (tolower c₂).toNat then true
    else if (tolower c₂).toNat < (tolower c₁).toNat then false
    else CaseInsensitiveLess a b

theorem caseInsensitiveLess_asymm {a b : Bytes} (h : CaseInsensitiveLess a b = true) :
    CaseInsensitiveLess b a = false := by
  induction a generalizing b with
  | nil =>
    cases b with
    | nil => exact absurd h (by simp [CaseInsensitiveLess])
    | cons => rfl
  | cons c₁ a ih =>
    cases b with
    | nil => exact absurd h (by simp [CaseInsensitiveLess])
    | cons c₂ b =>
      simp only [CaseInsensitiveLess] at h ⊢
      by_cases h₁ : (tolower c₁).toNat < (tolower c₂).toNat
      · rw [if_neg (by omega), if_pos h₁]
      · by_cases h₂ : (tolower c₂).toNat < (tolower c₁).toNat
        · simp [h₁, h₂] at h
        · simp only [h₁, h₂, if_false] at h ⊢
          exact ih h

theorem caseInsensitiveLess_negTrans {a b c : Bytes} (hab : CaseInsensitiveLess a b = false)
    (hbc : CaseInsensitiveLess b c = false) : CaseInsensitiveLess a c = false := by
  induction a generalizing b c with
  | nil =>
    cases b with
    | nil => exact hbc
    | cons => simp [CaseInsensitiveLess] at hab
  | cons c₁ a ih =>
    cases b with
    | nil =>
      cases c with
      | nil => rfl
      | cons => simp [CaseInsensitiveLess] at hbc
    | cons c₂ b =>
      cases c with
      | nil => rfl
      | cons c₃ c =>
        simp only [CaseInsensitiveLess] at hab hbc ⊢
        have h₁₂ : ¬ (tolower c₁).toNat < (tolower c₂).toNat := fun h => by simp [h] at hab
        have h₂₃ : ¬ (tolower c₂).toNat < (tolower c₃).toNat := fun h => by simp [h] at hbc
        rw [if_neg (by omega)]
        by_cases h₃₁ : (tolower c₃).toNat < (tolower c₁).toNat
        · rw [if_pos h₃₁]
        · rw [if_neg h₁₂, if_neg (by omega)] at hab
          rw [if_neg h₂₃, if_neg (by omega)] at hbc
          rw [if_neg h₃₁]
          exact ih hab hbc

/-- The order of the header map. -/
def nameOrder : Comparator Bytes where
  less := CaseInsensitiveLess
  asymm := caseInsensitiveLess_asymm
  negTrans := caseInsensitiveLess_negTrans

/-- Two names that are the same up to case. -/
abbrev sameName (a b : Bytes) : Bool := nameOrder.same a b

/-- Names are the same for the map exactly when they agree up to case. -/
theorem sameName_iff {a b : Bytes} : sameName a b = true ↔ a.map tolower = b.map tolower := by
  rw [sameName, Comparator.same_iff]
  change CaseInsensitiveLess a b = false ∧ CaseInsensitiveLess b a = false ↔ _
  induction a generalizing b with
  | nil => cases b <;> simp [CaseInsensitiveLess]
  | cons c₁ a ih =>
    cases b with
    | nil => simp [CaseInsensitiveLess]
    | cons c₂ b =>
      simp only [CaseInsensitiveLess, List.map_cons, List.cons.injEq]
      by_cases h₁ : (tolower c₁).toNat < (tolower c₂).toNat
      · have hne : tolower c₁ ≠ tolower c₂ := fun h => by simp [h] at h₁
        simp [h₁, hne]
      · by_cases h₂ : (tolower c₂).toNat < (tolower c₁).toNat
        · have hne : tolower c₁ ≠ tolower c₂ := fun h => by simp [h] at h₂
          simp [h₂, hne]
        · have he : tolower c₁ = tolower c₂ := UInt8.toNat_inj.mp (by omega)
          simp only [he, Nat.lt_irrefl, if_false, true_and]
          exact ih

/-- The map of `HeaderMap`, in the order in which it is visited. -/
abbrev HeaderMap := SortedMap nameOrder Bytes

namespace HeaderMap

def set (m : HeaderMap) (name value : Bytes) : HeaderMap := m.assign name value

def append (m : HeaderMap) (name value : Bytes) : HeaderMap :=
  match m.lookup name with
  | some _ => m.update name fun held => held ++ text ", " ++ value
  | none => m.assign name value

def remove (m : HeaderMap) (name : Bytes) : HeaderMap := m.erase name

def get (m : HeaderMap) (name : Bytes) : Option Bytes := m.lookup name

theorem get_set (m : HeaderMap) (name other value : Bytes) :
    (m.set name value).get other = if sameName other name then some value else m.get other :=
  lookup_assign m name other value

theorem get_remove (m : HeaderMap) (name other : Bytes) :
    (m.remove name).get other = if sameName other name then none else m.get other :=
  lookup_erase m name other

end HeaderMap

end DeepSeer
