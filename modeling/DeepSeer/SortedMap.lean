import Mathlib.Data.List.Pairwise
import Mathlib.Order.Defs.Unbundled

/-!
Ordered maps over a comparison, as `std::map` is: the entries are kept strictly
sorted, and two keys are the same key when neither is less than the other. The
sortedness is a field of the map, so every lookup may use it.
-/
namespace SortedMap

/-- A strict weak order that is given by a test. -/
structure Comparator (κ : Type) where
  less : κ → κ → Bool
  asymm : ∀ {a b}, less a b = true → less b a = false
  negTrans : ∀ {a b c}, less a b = false → less b c = false → less a c = false

namespace Comparator

variable {κ : Type} (cmp : Comparator κ)

def same (a b : κ) : Bool := !cmp.less a b && !cmp.less b a

theorem same_iff {a b : κ} : cmp.same a b = true ↔ cmp.less a b = false ∧ cmp.less b a = false := by
  simp [same]

theorem irrefl (a : κ) : cmp.less a a = false := by
  cases h : cmp.less a a with
  | false => rfl
  | true => exact absurd (cmp.asymm h) (by simp [h])

@[simp] theorem same_self (a : κ) : cmp.same a a = true := by simp [same, cmp.irrefl]

theorem same_symm {a b : κ} (h : cmp.same a b = true) : cmp.same b a = true := by
  obtain ⟨h₁, h₂⟩ := (same_iff cmp).mp h
  exact (same_iff cmp).mpr ⟨h₂, h₁⟩

theorem same_comm (a b : κ) : cmp.same a b = cmp.same b a := by
  simp only [same, Bool.and_comm]

theorem same_trans {a b c : κ} (hab : cmp.same a b = true) (hbc : cmp.same b c = true) :
    cmp.same a c = true := by
  obtain ⟨h₁, h₂⟩ := (same_iff cmp).mp hab
  obtain ⟨h₃, h₄⟩ := (same_iff cmp).mp hbc
  exact (same_iff cmp).mpr ⟨cmp.negTrans h₁ h₃, cmp.negTrans h₄ h₂⟩

/-- Keys that are the same key compare in the same way with all others. -/
theorem same_congr {a b c : κ} (h : cmp.same a b = true) : cmp.same a c = cmp.same b c := by
  cases hac : cmp.same a c with
  | true => exact (cmp.same_trans (cmp.same_symm h) hac).symm
  | false =>
    cases hbc : cmp.same b c with
    | false => rfl
    | true => exact absurd (cmp.same_trans h hbc) (by simp [hac])

theorem less_trans {a b c : κ} (hab : cmp.less a b = true) (hbc : cmp.less b c = true) :
    cmp.less a c = true := by
  cases hac : cmp.less a c with
  | true => rfl
  | false =>
    have := cmp.negTrans hac (cmp.asymm hbc)
    simp [hab] at this

theorem not_same_of_less {a b : κ} (h : cmp.less a b = true) : cmp.same a b = false := by
  simp [same, h]

theorem strictWeakOrder : IsStrictWeakOrder κ fun a b => cmp.less a b = true where
  irrefl a := by simp [cmp.irrefl]
  trans _ _ _ := cmp.less_trans
  incomp_trans a b c hab hbc := by
    simp only [Bool.not_eq_true] at hab hbc ⊢
    exact ⟨cmp.negTrans hab.1 hbc.1, cmp.negTrans hbc.2 hab.2⟩

end Comparator

end SortedMap

/-- A map as the strictly sorted list of its entries. -/
structure SortedMap {κ : Type} (cmp : SortedMap.Comparator κ) (ν : Type) where
  entries : List (κ × ν)
  sorted : entries.Pairwise (fun a b => cmp.less a.1 b.1 = true)

namespace SortedMap

variable {κ ν : Type} {cmp : Comparator κ}

instance : EmptyCollection (SortedMap cmp ν) := ⟨⟨[], .nil⟩⟩

instance [DecidableEq κ] [DecidableEq ν] : DecidableEq (SortedMap cmp ν) :=
  fun ⟨a, _⟩ ⟨b, _⟩ => decidable_of_iff (a = b) (by simp)

@[simp] theorem entries_empty : (({} : SortedMap cmp ν)).entries = [] := rfl

/-- `map[key] = value` on the entries. An entry for the key keeps its key. -/
def assignEntries (cmp : Comparator κ) (key : κ) (value : ν) : List (κ × ν) → List (κ × ν)
  | [] => [(key, value)]
  | e :: rest =>
    if cmp.less key e.1 then (key, value) :: e :: rest
    else if cmp.less e.1 key then e :: assignEntries cmp key value rest
    else (e.1, value) :: rest

theorem mem_assignEntries {key : κ} {value : ν} {l : List (κ × ν)} {e : κ × ν}
    (h : e ∈ assignEntries cmp key value l) : e.1 = key ∨ ∃ e' ∈ l, e'.1 = e.1 := by
  induction l with
  | nil =>
    have he : e = (key, value) := by simpa [assignEntries] using h
    exact .inl (by rw [he])
  | cons head rest ih =>
    simp only [assignEntries] at h
    split at h
    · rcases List.mem_cons.mp h with rfl | h
      · exact .inl rfl
      · exact .inr ⟨e, h, rfl⟩
    · split at h
      · rcases List.mem_cons.mp h with rfl | h
        · exact .inr ⟨e, List.mem_cons_self, rfl⟩
        · rcases ih h with h | ⟨e', he', h⟩
          · exact .inl h
          · exact .inr ⟨e', List.mem_cons_of_mem _ he', h⟩
      · rcases List.mem_cons.mp h with rfl | h
        · exact .inr ⟨head, List.mem_cons_self, rfl⟩
        · exact .inr ⟨e, List.mem_cons_of_mem _ h, rfl⟩

/-- What holds of the new key and value and of all old ones holds of all. -/
theorem assignEntries_all {P : κ → Prop} {Q : ν → Prop} {key : κ} {value : ν} (hk : P key)
    (hv : Q value) {l : List (κ × ν)} (h : ∀ e ∈ l, P e.1 ∧ Q e.2) :
    ∀ e ∈ assignEntries cmp key value l, P e.1 ∧ Q e.2 := by
  induction l with
  | nil => simpa [assignEntries] using ⟨hk, hv⟩
  | cons head rest ih =>
    obtain ⟨hhead, hrest⟩ := List.forall_mem_cons.mp h
    simp only [assignEntries]
    split
    · exact List.forall_mem_cons.mpr ⟨⟨hk, hv⟩, h⟩
    · split
      · exact List.forall_mem_cons.mpr ⟨hhead, ih hrest⟩
      · exact List.forall_mem_cons.mpr ⟨⟨hhead.1, hv⟩, hrest⟩

theorem assignEntries_sorted (key : κ) (value : ν) {l : List (κ × ν)}
    (h : l.Pairwise (fun a b => cmp.less a.1 b.1 = true)) :
    (assignEntries cmp key value l).Pairwise (fun a b => cmp.less a.1 b.1 = true) := by
  induction l with
  | nil => simp [assignEntries]
  | cons head rest ih =>
    obtain ⟨hhead, hrest⟩ := List.pairwise_cons.mp h
    simp only [assignEntries]
    split
    · next hlt =>
      refine List.pairwise_cons.mpr ⟨?_, h⟩
      intro e he
      rcases List.mem_cons.mp he with rfl | he
      · exact hlt
      · exact cmp.less_trans hlt (hhead e he)
    · split
      · next hgt =>
        refine List.pairwise_cons.mpr ⟨?_, ih hrest⟩
        intro e he
        rcases mem_assignEntries he with hk | ⟨e', he', hk⟩
        · rw [hk]
          exact hgt
        · rw [← hk]
          exact hhead e' he'
      · exact List.pairwise_cons.mpr ⟨hhead, hrest⟩

/-- `map[key] = value`. -/
def assign (m : SortedMap cmp ν) (key : κ) (value : ν) : SortedMap cmp ν :=
  ⟨assignEntries cmp key value m.entries, assignEntries_sorted key value m.sorted⟩

/-- The value at `map.find(key)`. -/
def lookup (m : SortedMap cmp ν) (key : κ) : Option ν :=
  (m.entries.find? fun e => cmp.same key e.1).map (·.2)

/-- `map.erase(map.find(key))` where the key is there. -/
def erase (m : SortedMap cmp ν) (key : κ) : SortedMap cmp ν :=
  ⟨m.entries.eraseP fun e => cmp.same key e.1, m.sorted.sublist List.eraseP_sublist⟩

/-- Change the value at `map.find(key)` where the key is there. -/
def update (m : SortedMap cmp ν) (key : κ) (f : ν → ν) : SortedMap cmp ν :=
  ⟨m.entries.map fun e => if cmp.same key e.1 then (e.1, f e.2) else e, by
    rw [List.pairwise_map]
    exact m.sorted.imp fun {a b} h => by split <;> split <;> exact h⟩

@[simp] theorem lookup_empty (key : κ) : (({} : SortedMap cmp ν)).lookup key = none := rfl

theorem lookup_assign (m : SortedMap cmp ν) (key other : κ) (value : ν) :
    (m.assign key value).lookup other =
      if cmp.same other key then some value else m.lookup other := by
  obtain ⟨l, hl⟩ := m
  simp only [lookup, assign]
  clear hl
  induction l with
  | nil => by_cases h : cmp.same other key = true <;> simp [assignEntries, h]
  | cons e rest ih =>
    simp only [assignEntries]
    split
    · by_cases h : cmp.same other key = true <;> simp [h]
    · next hlt =>
      split
      · next hgt =>
        by_cases h : cmp.same other e.1 = true
        · -- the key lies behind this entry, so it is another key
          have hk : cmp.same other key = false := by
            rw [cmp.same_congr h]
            exact cmp.not_same_of_less hgt
          simp [h, hk]
        · simp only [List.find?_cons, h]
          exact ih
      · next hgt =>
        have hsame : cmp.same key e.1 = true :=
          (cmp.same_iff).mpr ⟨by simpa using hlt, by simpa using hgt⟩
        have hcongr : cmp.same other e.1 = cmp.same other key := by
          rw [cmp.same_comm other, cmp.same_comm other, cmp.same_congr hsame]
        by_cases h : cmp.same other key = true <;> simp [h, hcongr]

/-- Of a strictly sorted list at most one entry has a given key. -/
theorem filter_same (m : SortedMap cmp ν) (key : κ) :
    (m.entries.filter fun e => cmp.same key e.1).map (·.2) = (m.lookup key).toList := by
  obtain ⟨l, hl⟩ := m
  simp only [lookup]
  induction l with
  | nil => rfl
  | cons e rest ih =>
    obtain ⟨he, hrest⟩ := List.pairwise_cons.mp hl
    by_cases h : cmp.same key e.1 = true
    · have hnone : rest.filter (fun e => cmp.same key e.1) = [] := by
        rw [List.filter_eq_nil_iff]
        intro e' he'
        rw [cmp.same_congr h, cmp.not_same_of_less (he e' he')]
        decide
      simp [h, hnone]
    · simpa [h] using ih hrest

theorem lookup_erase (m : SortedMap cmp ν) (key other : κ) :
    (m.erase key).lookup other = if cmp.same other key then none else m.lookup other := by
  obtain ⟨l, hl⟩ := m
  simp only [lookup, erase]
  induction l with
  | nil => simp
  | cons e rest ih =>
    obtain ⟨he, hrest⟩ := List.pairwise_cons.mp hl
    by_cases hk : cmp.same key e.1 = true
    · simp only [List.eraseP_cons, hk, cond_true]
      by_cases ho : cmp.same other key = true
      · have hnone : rest.find? (fun e => cmp.same other e.1) = none := by
          rw [List.find?_eq_none]
          intro e' he'
          rw [cmp.same_congr (cmp.same_trans ho hk), cmp.not_same_of_less (he e' he')]
          decide
        simp [ho, hnone]
      · have hoe : cmp.same other e.1 = false := by
          rw [cmp.same_comm, ← cmp.same_congr hk, cmp.same_comm]
          simpa using ho
        simp [ho, hoe]
    · simp only [List.eraseP_cons, hk, cond_false]
      by_cases hoe : cmp.same other e.1 = true
      · have ho : cmp.same other key = false := by
          rw [cmp.same_congr hoe, cmp.same_comm]
          simpa using hk
        simp [hoe, ho]
      · simp only [List.find?_cons, hoe]
        exact ih hrest

theorem lookup_update (m : SortedMap cmp ν) (key other : κ) (f : ν → ν) :
    (m.update key f).lookup other =
      if cmp.same other key then (m.lookup other).map f else m.lookup other := by
  have hkeys : ((fun e : κ × ν => cmp.same other e.1) ∘
      fun e => if cmp.same key e.1 then (e.1, f e.2) else e) = fun e => cmp.same other e.1 := by
    funext e
    by_cases h : cmp.same key e.1 = true <;> simp [h]
  simp only [lookup, update, List.find?_map, hkeys]
  cases hfind : m.entries.find? (fun e => cmp.same other e.1) with
  | none => simp
  | some e =>
    have hother : cmp.same other e.1 = true := by simpa using List.find?_some hfind
    have hkey : cmp.same key e.1 = cmp.same other key := by
      rw [cmp.same_congr hother, cmp.same_comm]
    by_cases h : cmp.same other key = true <;> simp [hkey, h]

/-- What is found is the value of an entry, and there is no other for the key. -/
theorem lookup_eq_some (m : SortedMap cmp ν) {key : κ} {value : ν} :
    m.lookup key = some value ↔ ∃ e ∈ m.entries, cmp.same key e.1 = true ∧ e.2 = value := by
  have hfilter : value ∈ (m.entries.filter fun e => cmp.same key e.1).map (·.2) ↔
      ∃ e ∈ m.entries, cmp.same key e.1 = true ∧ e.2 = value := by
    simp only [List.mem_map, List.mem_filter, and_assoc]
  rw [← hfilter, filter_same, Option.mem_toList]

/-- A key behind all others is put at the end. -/
theorem assignEntries_last {key : κ} {value : ν} {l : List (κ × ν)}
    (h : ∀ e ∈ l, cmp.less e.1 key = true) :
    assignEntries cmp key value l = l ++ [(key, value)] := by
  induction l with
  | nil => rfl
  | cons e rest ih =>
    obtain ⟨he, hrest⟩ := List.forall_mem_cons.mp h
    simp [assignEntries, he, cmp.asymm he, ih hrest]

/-- The entries of a map, set one after another, make the map. -/
theorem assign_entries (m : SortedMap cmp ν) :
    m.entries.foldl (fun m e => m.assign e.1 e.2) ({} : SortedMap cmp ν) = m := by
  have hfold : ∀ (l : List (κ × ν)) (m : SortedMap cmp ν),
      (m.entries ++ l).Pairwise (fun a b => cmp.less a.1 b.1 = true) →
      (l.foldl (fun m e => m.assign e.1 e.2) m).entries = m.entries ++ l := by
    intro l
    induction l with
    | nil => simp
    | cons e rest ih =>
      intro m h
      have hlast : (m.assign e.1 e.2).entries = m.entries ++ [e] :=
        assignEntries_last fun a ha =>
          (List.pairwise_append.mp h).2.2 a ha e List.mem_cons_self
      rw [List.foldl_cons, ih _ (by simpa [hlast] using h), hlast, List.append_assoc]
      rfl
  have hentries := hfold m.entries {} (by simpa using m.sorted)
  obtain ⟨l, hl⟩ := m
  generalize hr : List.foldl _ _ _ = r at hentries ⊢
  obtain ⟨l', hl'⟩ := r
  simp only [entries_empty, List.nil_append] at hentries
  subst hentries
  rfl

end SortedMap
