import Mathlib.Data.List.Nodup
import Mathlib.Logic.Equiv.Basic

/-!
Places that own at most one resource each. A resource is put in an empty place, changes
places with what another one owns, and is dropped; it has one owner until then and is
dropped once.
-/
namespace UniqueOwners

/-- What each place owns, and the dropped resources with the latest first. -/
structure Owners (ι α : Type) where
  held : ι → Option α := fun _ => none
  dropped : List α := []

variable {ι α : Type}

namespace Owners

theorem ext_held {o o' : Owners ι α} (hh : ∀ i, o.held i = o'.held i)
    (hd : o.dropped = o'.dropped) : o = o' := by
  obtain ⟨held, dropped⟩ := o
  obtain ⟨held', dropped'⟩ := o'
  obtain rfl : held = held' := funext hh
  obtain rfl : dropped = dropped' := hd
  rfl

/-- Just the resources that were made are owned or dropped, each by one place or once. -/
structure Sole (made : α → Prop) (o : Owners ι α) : Prop where
  owner : ∀ {i j a}, o.held i = some a → o.held j = some a → i = j
  kept : ∀ {i a}, o.held i = some a → a ∉ o.dropped
  once : o.dropped.Nodup
  made : ∀ a, made a ↔ (∃ i, o.held i = some a) ∨ a ∈ o.dropped

theorem sole_new : Sole (fun _ => False) ({} : Owners ι α) where
  owner := fun h => nomatch h
  kept := fun h => nomatch h
  once := List.nodup_nil
  made := by simp

theorem Sole.congr {made made' : α → Prop} {o : Owners ι α} (h : Sole made o)
    (hm : ∀ a, made' a ↔ made a) : Sole made' o :=
  ⟨h.owner, h.kept, h.once, fun a => (hm a).trans (h.made a)⟩

variable [DecidableEq ι]

def put (o : Owners ι α) (i : ι) (a : α) : Owners ι α :=
  { o with held := Function.update o.held i (some a) }

def swap (o : Owners ι α) (i j : ι) : Owners ι α :=
  { o with held := fun k => o.held (Equiv.swap i j k) }

def drop (o : Owners ι α) (i : ι) : Owners ι α where
  held := Function.update o.held i none
  dropped := (o.held i).toList ++ o.dropped

/-- The place drops its own resource for the one of the other place. -/
def assign (o : Owners ι α) (i j : ι) : Owners ι α :=
  if i = j then o else (o.drop i).swap i j

variable {made : α → Prop} {o : Owners ι α} {i j k : ι} {a : α}

@[simp] theorem put_held_self : (o.put i a).held i = some a := Function.update_self ..
@[simp] theorem put_dropped : (o.put i a).dropped = o.dropped := rfl
@[simp] theorem swap_held : (o.swap i j).held k = o.held (Equiv.swap i j k) := rfl
@[simp] theorem swap_dropped : (o.swap i j).dropped = o.dropped := rfl
@[simp] theorem drop_held_self : (o.drop i).held i = none := Function.update_self ..
@[simp] theorem drop_dropped : (o.drop i).dropped = (o.held i).toList ++ o.dropped := rfl

theorem put_held_of_ne (h : k ≠ i) : (o.put i a).held k = o.held k := Function.update_of_ne h ..

theorem drop_held_of_ne (h : k ≠ i) : (o.drop i).held k = o.held k := Function.update_of_ne h ..

/-- A new resource goes to an empty place. -/
theorem Sole.put (h : Sole made o) (hi : o.held i = none) (ha : ¬ made a) :
    Sole (fun b => made b ∨ b = a) (o.put i a) := by
  have hold : ∀ {k b}, (o.put i a).held k = some b → k = i ∧ b = a ∨ k ≠ i ∧ o.held k = some b := by
    intro k b hk
    by_cases hki : k = i
    · subst hki
      rw [put_held_self, Option.some.injEq] at hk
      exact .inl ⟨rfl, hk.symm⟩
    · rw [put_held_of_ne hki] at hk
      exact .inr ⟨hki, hk⟩
  have hfresh : ∀ k, o.held k ≠ some a := fun k hk => ha ((h.made a).mpr (.inl ⟨k, hk⟩))
  refine ⟨?_, ?_, h.once, ?_⟩
  · intro k l b hk hl
    rcases hold hk with ⟨hki, hb⟩ | ⟨-, hk⟩ <;> rcases hold hl with ⟨hli, hb'⟩ | ⟨-, hl⟩
    · exact hki.trans hli.symm
    · exact absurd (hb ▸ hl) (hfresh l)
    · exact absurd (hb' ▸ hk) (hfresh k)
    · exact h.owner hk hl
  · intro k b hk
    rcases hold hk with ⟨-, hb⟩ | ⟨-, hk⟩
    · exact fun hd => ha ((h.made a).mpr (.inr (hb ▸ hd)))
    · exact h.kept hk
  · intro b
    rw [h.made b]
    constructor
    · rintro ((⟨k, hk⟩ | hd) | rfl)
      · have hki : k ≠ i := by
          rintro rfl
          exact absurd (hi.symm.trans hk) (by simp)
        exact .inl ⟨k, (put_held_of_ne hki).trans hk⟩
      · exact .inr hd
      · exact .inl ⟨i, put_held_self⟩
    · rintro (⟨k, hk⟩ | hd)
      · rcases hold hk with ⟨-, hb⟩ | ⟨-, hk⟩
        · exact .inr hb
        · exact .inl (.inl ⟨k, hk⟩)
      · exact .inl (.inr hd)

theorem Sole.swap (h : Sole made o) (i j : ι) : Sole made (o.swap i j) where
  owner := fun hk hl => (Equiv.swap i j).injective (h.owner hk hl)
  kept := fun hk => h.kept hk
  once := h.once
  made := by
    intro a
    rw [h.made a]
    refine or_congr_left ⟨?_, fun ⟨k, hk⟩ => ⟨_, hk⟩⟩
    rintro ⟨k, hk⟩
    exact ⟨Equiv.swap i j k, by simpa using hk⟩

theorem Sole.drop (h : Sole made o) (i : ι) : Sole made (o.drop i) := by
  have hold : ∀ {k a}, (o.drop i).held k = some a → k ≠ i ∧ o.held k = some a := by
    intro k a hk
    by_cases hki : k = i
    · subst hki
      exact absurd (drop_held_self.symm.trans hk) (by simp)
    · exact ⟨hki, (drop_held_of_ne hki).symm.trans hk⟩
  have hdropped : ∀ a, a ∈ (o.drop i).dropped ↔ o.held i = some a ∨ a ∈ o.dropped := by
    intro a
    simp
  refine ⟨fun hk hl => h.owner (hold hk).2 (hold hl).2, ?_, ?_, ?_⟩
  · intro k a hk hd
    obtain ⟨hki, hk⟩ := hold hk
    rcases (hdropped a).mp hd with hi | hd
    · exact hki (h.owner hk hi)
    · exact h.kept hk hd
  · rw [drop_dropped]
    cases hi : o.held i with
    | none => exact h.once
    | some a => exact List.nodup_cons.mpr ⟨h.kept hi, h.once⟩
  · intro a
    rw [h.made a, hdropped a]
    constructor
    · rintro (⟨k, hk⟩ | hd)
      · by_cases hki : k = i
        · exact .inr (.inl (hki ▸ hk))
        · exact .inl ⟨k, (drop_held_of_ne hki).trans hk⟩
      · exact .inr (.inr hd)
    · rintro (⟨k, hk⟩ | hi | hd)
      · exact .inl ⟨k, (hold hk).2⟩
      · exact .inl ⟨i, hi⟩
      · exact .inr hd

theorem drop_empty (h : o.held i = none) : o.drop i = o := by
  refine ext_held (fun k => ?_) (by simp [h])
  by_cases hk : k = i
  · rw [hk, drop_held_self, h]
  · exact drop_held_of_ne hk

/-- A resource can be put in a temporary place and moved. -/
theorem put_moved {t : ι} (ht : o.held t = none) (hi : o.held i = none) (hne : t ≠ i) (a : α) :
    ((o.put t a).swap i t).drop t = o.put i a := by
  rw [drop_empty (by rw [swap_held, Equiv.swap_apply_right, put_held_of_ne (Ne.symm hne), hi])]
  refine ext_held (fun k => ?_) rfl
  rw [swap_held]
  by_cases hki : k = i
  · rw [hki, Equiv.swap_apply_left, put_held_self, put_held_self]
  rw [put_held_of_ne hki]
  by_cases hkt : k = t
  · rw [hkt, Equiv.swap_apply_right, put_held_of_ne (Ne.symm hne), hi, ht]
  · rw [Equiv.swap_apply_of_ne_of_ne hki hkt, put_held_of_ne hkt]

/-- An assignment by way of a temporary place: the resource goes there and changes places
with the one of the target, which is dropped. -/
theorem assign_eq (t : ι) (ht : o.held t = none) (hi : t ≠ i) (hj : t ≠ j) :
    ((o.swap t j).swap t i).drop t = o.assign i j := by
  unfold assign
  split
  · next heq =>
    subst heq
    have hback : (o.swap t i).swap t i = o := ext_held (fun k => by simp) rfl
    rw [hback, drop_empty ht]
  · next hij =>
    refine ext_held (fun k => ?_) ?_
    · by_cases hkt : k = t
      · subst hkt
        rw [drop_held_self, swap_held, Equiv.swap_apply_of_ne_of_ne hi hj, drop_held_of_ne hi, ht]
      rw [drop_held_of_ne hkt]
      by_cases hki : k = i
      · subst hki
        rw [swap_held, swap_held, swap_held, Equiv.swap_apply_right, Equiv.swap_apply_left,
          Equiv.swap_apply_left, drop_held_of_ne (Ne.symm hij)]
      rw [swap_held, Equiv.swap_apply_of_ne_of_ne hkt hki]
      by_cases hkj : k = j
      · subst hkj
        rw [swap_held, swap_held, Equiv.swap_apply_right, Equiv.swap_apply_right,
          drop_held_self, ht]
      · rw [swap_held, swap_held, Equiv.swap_apply_of_ne_of_ne hkt hkj,
          Equiv.swap_apply_of_ne_of_ne hki hkj, drop_held_of_ne hki]
    · simp [Equiv.swap_apply_of_ne_of_ne (Ne.symm hi) hij]

end Owners

end UniqueOwners
