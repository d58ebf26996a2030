import DeepSeer.MagikaForward
import DeepSeer.UnorderedValues

/-!
Which class a payload gets where some values are no numbers. The pool passes over
such values, and a score that is none leaves the whole softmax without numbers.
-/
namespace Magika

open ByteMemory CountedLoops FilledArrays UnorderedValues

/-- What the classification relies on: a comparison that leaves the values unordered
which are no numbers, and operations that give none where an operand is none. -/
structure Propagates (fa : FloatArith) (num : Word → Prop) : Prop where
  less : Comparison fa.less num
  add : ∀ a b, num (fa.add a b) → num a ∧ num b
  sub : ∀ a b, num (fa.sub a b) → num a ∧ num b
  div : ∀ a b, num (fa.div a b) → num a ∧ num b
  exp : ∀ a, num (fa.exp a) → num a

variable {fa : FloatArith} {num : Word → Prop} {m : MagikaModel}

namespace Network

theorem globalMaxPool_eq (rows : Nat) (x : Table) (c : Nat) :
    globalMaxPool fa rows x c = largestOf fa.less fa.minusInfinity (fun s => x s c) rows := rfl

end Network

/-- The pool gives each channel its largest number, or minus infinity where it has
none. -/
theorem globalMaxPool_numbers (h : Comparison fa.less num) (hinf : num fa.minusInfinity)
    {rows : Nat} {x : Table} {input output : Array Word} (hin : Flat rows kConvOut x input)
    (hbound : rows * kConvOut ≤ 2 ^ 32) (hout : output.size = kConvOut) :
    ∃ pooled, globalMaxPool fa input output rows = some pooled ∧ pooled.size = kConvOut ∧
      ∀ c, c < kConvOut → ∃ v, load pooled c = some v ∧ num v ∧
        (∀ s, s < rows → fa.less v (x s c) = false) ∧
        (v = fa.minusInfinity ∨ ∃ s, s < rows ∧ v = x s c) := by
  have hholds : Holds kConvOut (weight output) output :=
    ⟨hout, fun j hj => load_weight (Nat.le_of_eq hout.symm) hj⟩
  obtain ⟨pooled, hpool, hsize, hvalues⟩ := globalMaxPool_holds fa hin hbound hholds
  refine ⟨pooled, hpool, hsize, ?_⟩
  intro c hc
  refine ⟨Network.globalMaxPool fa rows x c, hvalues c hc, ?_⟩
  rw [Network.globalMaxPool_eq]
  exact ⟨h.number_largestOf hinf rows, (h.not_less_largestOf _ rows).2, largestOf_mem _ rows⟩

/-- An arithmetic of 32-bit numbers in which the largest word is no number. -/
def countingArith : FloatArith :=
  let lift (op : Word → Word → Word) (a b : Word) : Word :=
    if a = 0xffffffff ∨ b = 0xffffffff then 0xffffffff else op a b
  { add := lift (· + ·), sub := lift (· - ·), mul := lift (· * ·), div := lift (· / ·)
    less := fun a b => decide (a ≠ 0xffffffff ∧ b ≠ 0xffffffff ∧ a < b)
    sqrt := id, tanh := id, exp := id, ofNat := UInt32.ofNat
    kSqrt2OverPi := 1, cubic := 1, half := 1, kLnEps := 1, minusInfinity := 0 }

theorem countingArith_propagates : Propagates countingArith (· ≠ 0xffffffff) where
  less := by
    constructor
    · intro a b h
      simp only [countingArith, decide_eq_true_eq] at h
      exact ⟨h.1, h.2.1⟩
    · intro a
      simp [countingArith]
    · intro a b c hab hbc
      simp only [countingArith, decide_eq_true_eq] at hab hbc ⊢
      exact ⟨hab.1, hbc.2.1, UInt32.lt_trans hab.2.2 hbc.2.2⟩
    · intro a b c hb hac
      simp only [countingArith, decide_eq_true_eq] at hac ⊢
      by_cases hlt : a < b
      · exact .inl ⟨hac.1, hb, hlt⟩
      · exact .inr ⟨hb, hac.2.1, UInt32.lt_of_le_of_lt (UInt32.not_lt.mp hlt) hac.2.2⟩
  add := by
    intro a b h
    by_contra hnot
    exact h (if_pos (by tauto))
  sub := by
    intro a b h
    by_contra hnot
    exact h (if_pos (by tauto))
  div := by
    intro a b h
    by_contra hnot
    exact h (if_pos (by tauto))
  exp := fun _ h => h

theorem globalMaxPool_numbers_blank :
    ∃ pooled, globalMaxPool countingArith (Array.replicate 1024 7) (Array.replicate 512 0) 2 =
        some pooled ∧ pooled.size = kConvOut ∧
      ∀ c, c < kConvOut → ∃ v, load pooled c = some v ∧ v ≠ 0xffffffff ∧
        (∀ s, s < 2 → countingArith.less v 7 = false) ∧
        (v = countingArith.minusInfinity ∨ ∃ s, s < 2 ∧ v = 7) :=
  globalMaxPool_numbers countingArith_propagates.less (by decide)
    (show Flat 2 kConvOut (fun _ _ => 7) _ from holds_replicate 1024 7) (by decide)
    (by simp [kConvOut])

end Magika
