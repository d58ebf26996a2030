import Mathlib.Data.Finset.Card
import Mathlib.Data.List.Basic
import Mathlib.Data.List.TakeWhile

/-!
Bounded lists of entries in the order of their latest use. `recency` orders the
keys of a whole history of uses; a list that holds at most `n` entries holds the
first `n` of them, so what it holds is told by the history alone: a key is gone
as soon as `n` other keys have been used since.
-/
namespace LruLists

variable {κ ν : Type} [DecidableEq κ]

/-- The keys of a history of uses, both given latest first. -/
def recency : List κ → List κ
  | [] => []
  | k :: uses => k :: (recency uses).filter (· ≠ k)

/-- How many uses have come since the latest use of `k`. -/
def age (k : κ) (uses : List κ) : Nat := uses.idxOf k

/-- How many other keys have been used since the latest use of `k`. -/
def since (k : κ) (uses : List κ) : Nat := (uses.takeWhile (· ≠ k)).toFinset.card

@[simp] theorem mem_recency {k : κ} {uses : List κ} : k ∈ recency uses ↔ k ∈ uses := by
  induction uses with
  | nil => rfl
  | cons j uses ih =>
    by_cases h : k = j
    · simp [recency, h]
    · simp [recency, h, ih]

theorem nodup_recency (uses : List κ) : (recency uses).Nodup := by
  induction uses with
  | nil => exact List.nodup_nil
  | cons j uses ih =>
    apply List.nodup_cons.mpr
    constructor
    · simp
    · exact ih.filter _

/-- An earlier place in the order of recency is a later use. -/
theorem pairwise_recency (uses : List κ) :
    (recency uses).Pairwise fun a b => age a uses < age b uses := by
  induction uses with
  | nil => exact .nil
  | cons j uses ih =>
    apply List.Pairwise.cons
    · intro b hb
      have hne : b ≠ j := by simpa using (List.mem_filter.mp hb).2
      rw [age, age, List.idxOf_cons_self, List.idxOf_cons_ne uses hne.symm]
      omega
    · apply (ih.filter _).imp_of_mem
      intro a b ha hb hlt
      have hja : a ≠ j := by simpa using (List.mem_filter.mp ha).2
      have hjb : b ≠ j := by simpa using (List.mem_filter.mp hb).2
      rw [age, age, List.idxOf_cons_ne uses hja.symm, List.idxOf_cons_ne uses hjb.symm]
      rw [age, age] at hlt
      omega

theorem takeWhile_filter_ne {j k : κ} (h : k ≠ j) (l : List κ) :
    (l.filter (· ≠ j)).takeWhile (· ≠ k) = (l.takeWhile (· ≠ k)).filter (· ≠ j) := by
  induction l with
  | nil => rfl
  | cons a l ih =>
    by_cases hk : a = k
    · subst hk
      simp [h]
    · by_cases hj : a = j
      · subst hj
        simpa [hk] using ih
      · simpa [hk, hj] using ih

theorem takeWhile_recency (k : κ) (uses : List κ) :
    ((recency uses).takeWhile (· ≠ k)).toFinset = (uses.takeWhile (· ≠ k)).toFinset := by
  induction uses with
  | nil => rfl
  | cons j uses ih =>
    by_cases h : j = k
    · simp [recency, h]
    · have hfront : (recency (j :: uses)).takeWhile (· ≠ k) =
          j :: ((recency uses).takeWhile (· ≠ k)).filter (· ≠ j) := by
        rw [recency, List.takeWhile_cons_of_pos (by simpa using h),
          takeWhile_filter_ne (Ne.symm h)]
      have hback : (j :: uses).takeWhile (· ≠ k) = j :: uses.takeWhile (· ≠ k) :=
        List.takeWhile_cons_of_pos (by simpa using h)
      rw [hfront, hback, List.toFinset_cons, List.toFinset_cons, ← ih]
      ext a
      by_cases ha : a = j <;> simp [ha]

/-- The place of a key in the order of recency is the number of keys used since. -/
theorem idxOf_recency (k : κ) (uses : List κ) : (recency uses).idxOf k = since k uses := by
  have hplace : (recency uses).idxOf k = ((recency uses).takeWhile (· ≠ k)).length := by
    induction recency uses with
    | nil => rfl
    | cons a l ih =>
      by_cases h : a = k
      · simp [h]
      · rw [List.idxOf_cons_ne l h, List.takeWhile_cons_of_pos (by simpa using h), ih,
          List.length_cons]
  have hnodup : ((recency uses).takeWhile (· ≠ k)).Nodup :=
    (nodup_recency uses).sublist (List.takeWhile_sublist _)
  rw [hplace, ← List.toFinset_card_of_nodup hnodup, takeWhile_recency, since]

/-- A key is among the first `n` while fewer than `n` others were used since. -/
theorem mem_take_recency {k : κ} {n : Nat} {uses : List κ} :
    k ∈ (recency uses).take n ↔ k ∈ uses ∧ since k uses < n := by
  constructor
  · intro h
    have hmem : k ∈ recency uses := List.mem_of_mem_take h
    rw [← idxOf_recency]
    exact ⟨mem_recency.mp hmem, (List.mem_take_iff_idxOf_lt hmem).mp h⟩
  · intro h
    apply (List.mem_take_iff_idxOf_lt (mem_recency.mpr h.1)).mpr
    rw [idxOf_recency]
    exact h.2

theorem filter_ne_of_not_mem {k : κ} {l : List κ} (h : k ∉ l) : l.filter (· ≠ k) = l := by
  apply List.filter_eq_self.mpr
  intro a ha
  simpa using ne_of_mem_of_not_mem ha h

/-- Of a list without repetitions, taking out one key moves one other key up. -/
theorem take_filter_ne {k : κ} {l : List κ} (h : l.Nodup) (n : Nat) :
    ((l.take (n + 1)).filter (· ≠ k)).take n = (l.filter (· ≠ k)).take n := by
  induction l generalizing n with
  | nil => rfl
  | cons a l ih =>
    have htail := List.nodup_cons.mp h
    by_cases hk : a = k
    · subst hk
      have hfirst : a ∉ l.take n := fun hmem => htail.1 (List.mem_of_mem_take hmem)
      rw [List.take_succ_cons, List.filter_cons_of_neg (by simp),
        List.filter_cons_of_neg (by simp), filter_ne_of_not_mem hfirst,
        filter_ne_of_not_mem htail.1, List.take_take, Nat.min_self]
    · cases n with
      | zero => rfl
      | succ n =>
        rw [List.take_succ_cons, List.filter_cons_of_pos (by simpa using hk),
          List.filter_cons_of_pos (by simpa using hk), List.take_succ_cons, List.take_succ_cons,
          ih htail.2]

/-- One more use, seen by the first `n` keys alone. -/
theorem take_recency_cons (k : κ) (uses : List κ) (n : Nat) :
    (recency (k :: uses)).take (n + 1) =
      (k :: ((recency uses).take (n + 1)).filter (· ≠ k)).take (n + 1) := by
  rw [recency, List.take_succ_cons, List.take_succ_cons, take_filter_ne (nodup_recency uses)]

/-- A list with distinct keys is a rearrangement of one entry and those of other keys. -/
theorem perm_filter_key {l : List (κ × ν)} (h : (l.map Prod.fst).Nodup) {k : κ} {v : ν}
    (hmem : (k, v) ∈ l) : l.Perm ((k, v) :: l.filter (·.1 ≠ k)) := by
  induction l with
  | nil => cases hmem
  | cons entry rest ih =>
    obtain ⟨hnot, hrest⟩ := List.nodup_cons.mp h
    by_cases hk : entry.1 = k
    · have hothers : ∀ other ∈ rest, other.1 ≠ k := by
        rintro other hother rfl
        exact hnot (hk ▸ List.mem_map_of_mem hother)
      have hentry : entry = (k, v) := by
        rcases List.mem_cons.mp hmem with heq | hin
        · exact heq.symm
        · exact absurd rfl (hothers (k, v) hin)
      rw [List.filter_cons_of_neg (by simpa using hk), hentry,
        List.filter_eq_self.mpr fun other hother => by simpa using hothers other hother]
    · have hin : (k, v) ∈ rest := by
        rcases List.mem_cons.mp hmem with heq | hin
        · exact absurd (congrArg Prod.fst heq).symm hk
        · exact hin
      rw [List.filter_cons_of_pos (by simpa using hk)]
      exact ((ih hrest hin).cons entry).trans (.swap _ _ _)

end LruLists

/-- At most `n` entries, one for a key, the most recently used one first. -/
structure LruList (κ ν : Type) (n : Nat) where
  entries : List (κ × ν)
  nodup : (entries.map Prod.fst).Nodup
  bounded : entries.length ≤ n

/-- The calls on a bounded list. -/
inductive LruCall (κ ν : Type) where
  | get (k : κ)
  | put (k : κ) (v : ν)
  deriving DecidableEq, Repr

namespace LruList

open LruLists

variable {κ ν : Type} [DecidableEq κ] {n : Nat}

def empty : LruList κ ν n := ⟨[], List.nodup_nil, Nat.zero_le n⟩

def keys (l : LruList κ ν n) : List κ := l.entries.map Prod.fst

def find (l : LruList κ ν n) (k : κ) : Option ν := l.entries.lookup k

theorem nodup_front {k : κ} {l : List (κ × ν)} (v : ν) (h : (l.map Prod.fst).Nodup) :
    (((k, v) :: l.filter (·.1 ≠ k)).map Prod.fst).Nodup := by
  rw [List.map_cons]
  apply List.nodup_cons.mpr
  constructor
  · simp
  · exact h.sublist (List.filter_sublist.map Prod.fst)

/-- The entry of `k` becomes the first one; the last one goes if there is no room. -/
def put (l : LruList κ ν n) (k : κ) (v : ν) : LruList κ ν n where
  entries := ((k, v) :: l.entries.filter (·.1 ≠ k)).take n
  nodup := (nodup_front v l.nodup).sublist ((List.take_sublist n _).map Prod.fst)
  bounded := by simp

/-- An entry that is found becomes the first one. -/
def get (l : LruList κ ν n) (k : κ) : LruList κ ν n :=
  match l.find k with
  | none => l
  | some v => l.put k v

def step (l : LruList κ ν n) : LruCall κ ν → LruList κ ν n
  | .get k => l.get k
  | .put k v => l.put k v

/-- Whether `k` has been used, and fewer than `n` other keys since. -/
def cached (n : Nat) (k : κ) (uses : List κ) : Bool :=
  decide (k ∈ uses) && decide (since k uses < n)

/-- The uses of a history of calls: what is put, and what is got and is there.
Calls and uses are given latest first. -/
def uses (n : Nat) : List (LruCall κ ν) → List κ
  | [] => []
  | .put k _ :: past => k :: uses n past
  | .get k :: past => if cached n k (uses n past) then k :: uses n past else uses n past

/-- What was put last under a key. -/
def latestPut (k : κ) : List (LruCall κ ν) → Option ν
  | [] => none
  | .put j v :: past => if j = k then some v else latestPut k past
  | .get _ :: past => latestPut k past

theorem entries_put (l : LruList κ ν n) (k : κ) (v : ν) :
    (l.put k v).entries = ((k, v) :: l.entries.filter (·.1 ≠ k)).take n := rfl

theorem keys_put (l : LruList κ ν n) (k : κ) (v : ν) :
    (l.put k v).keys = (k :: l.keys.filter (· ≠ k)).take n := by
  rw [keys, put, List.map_take, List.map_cons, keys, List.filter_map]
  rfl

theorem find_isSome (l : LruList κ ν n) (k : κ) : (l.find k).isSome ↔ k ∈ l.keys := by
  simp [find, keys]

theorem lookup_of_mem {l : List (κ × ν)} (h : (l.map Prod.fst).Nodup) {k : κ} {v : ν}
    (hmem : (k, v) ∈ l) : l.lookup k = some v := by
  induction l with
  | nil => cases hmem
  | cons e rest ih =>
    rw [List.map_cons, List.nodup_cons] at h
    rcases List.mem_cons.mp hmem with rfl | hrest
    · exact List.lookup_cons_self
    · have hne : k ≠ e.1 := ne_of_mem_of_not_mem (List.mem_map_of_mem (f := Prod.fst) hrest) h.1
      rw [List.lookup_cons, beq_false_of_ne hne]
      exact ih h.2 hrest

theorem lookup_take {k : κ} {l : List (κ × ν)} (h : k ∈ (l.take n).map Prod.fst) :
    (l.take n).lookup k = l.lookup k := by
  induction l generalizing n with
  | nil => rw [List.take_nil]
  | cons e rest ih =>
    cases n with
    | zero => cases h
    | succ n =>
      rw [List.take_succ_cons, List.lookup_cons, List.lookup_cons]
      by_cases hk : k = e.1
      · simp [hk]
      · have hrest : k ∈ (rest.take n).map Prod.fst := by
          rw [List.take_succ_cons, List.map_cons] at h
          exact (List.mem_cons.mp h).resolve_left hk
        rw [ih hrest]

theorem lookup_filter_ne {j k : κ} (h : j ≠ k) (l : List (κ × ν)) :
    (l.filter (·.1 ≠ k)).lookup j = l.lookup j := by
  induction l with
  | nil => rfl
  | cons e rest ih =>
    by_cases hk : e.1 = k
    · have hj : (j == e.1) = false := by simpa [hk] using h
      rw [List.filter_cons_of_neg (by simpa using hk), ih, List.lookup_cons, hj]
    · rw [List.filter_cons_of_pos (by simpa using hk), List.lookup_cons, List.lookup_cons, ih]

/-- What is found after a `put` is what was put, or was there before. -/
theorem find_put {l : LruList κ ν n} {j k : κ} {u v : ν} (h : (l.put k v).find j = some u) :
    (j = k ∧ u = v) ∨ (j ≠ k ∧ l.find j = some u) := by
  have hmem : j ∈ (l.put k v).keys := (find_isSome _ j).mp (by rw [h]; rfl)
  have hall : ((k, v) :: l.entries.filter (·.1 ≠ k)).lookup j = some u := by
    rw [← lookup_take hmem]
    exact h
  rw [List.lookup_cons] at hall
  by_cases hk : j = k
  · left
    subst hk
    exact ⟨rfl, by simpa [eq_comm] using hall⟩
  · right
    have hne : (j == k) = false := by simpa using hk
    rw [lookup_filter_ne hk, hne] at hall
    exact ⟨hk, hall⟩

/-- The list holds what the history of the calls says. -/
structure Recalls (l : LruList κ ν n) (past : List (LruCall κ ν)) : Prop where
  keys : l.keys = (recency (uses n past)).take n
  values : ∀ k v, l.find k = some v → latestPut k past = some v

theorem recalls_empty : Recalls (empty : LruList κ ν n) [] := by
  constructor
  · simp [LruList.keys, empty, uses, recency]
  · intro k v h
    simp [find, empty] at h

theorem cached_iff {k : κ} {us : List κ} :
    cached n k us = true ↔ k ∈ (recency us).take n := by
  simp [cached, mem_take_recency]

theorem Recalls.found {l : LruList κ ν n} {past : List (LruCall κ ν)} (h : Recalls l past)
    (k : κ) : (l.find k).isSome ↔ cached n k (uses n past) = true := by
  rw [find_isSome, h.keys, cached_iff]

/-- What is found under a key, by the history alone. -/
theorem Recalls.find {l : LruList κ ν n} {past : List (LruCall κ ν)} (h : Recalls l past)
    (k : κ) : l.find k = if cached n k (uses n past) then latestPut k past else none := by
  cases hf : l.find k with
  | none =>
    have hc : ¬cached n k (uses n past) = true := by simp [← h.found, hf]
    rw [if_neg hc]
  | some v =>
    have hc : cached n k (uses n past) = true := by simp [← h.found, hf]
    rw [if_pos hc, h.values k v hf]

theorem mem_uses_of_latestPut {k : κ} {v : ν} {past : List (LruCall κ ν)}
    (h : latestPut k past = some v) : k ∈ uses n past := by
  induction past with
  | nil => cases h
  | cons call past ih =>
    cases call with
    | get j =>
      have hmem := ih h
      rw [uses]
      split
      · exact List.mem_cons_of_mem j hmem
      · exact hmem
    | put j u =>
      rw [latestPut] at h
      rw [uses]
      by_cases hj : j = k
      · rw [hj]
        exact List.mem_cons_self
      · rw [if_neg hj] at h
        exact List.mem_cons_of_mem j (ih h)

/-- The key is found under the value put last, unless `n` others were used since. -/
theorem Recalls.find_since {l : LruList κ ν n} {past : List (LruCall κ ν)} (h : Recalls l past)
    (k : κ) :
    l.find k = if since k (uses n past) < n then latestPut k past else none := by
  rw [h.find]
  by_cases hs : since k (uses n past) < n
  · rw [if_pos hs]
    split
    · rfl
    · next hc =>
      cases hp : latestPut k past with
      | none => rfl
      | some v => exact absurd (by simp [cached, hs, mem_uses_of_latestPut hp]) hc
  · simp [cached, hs]

theorem take_recency_front {l us : List κ} (h : l = (recency us).take n) (k : κ) :
    (k :: l.filter (· ≠ k)).take n = (recency (k :: us)).take n := by
  subst h
  cases n with
  | zero => rfl
  | succ n => exact (take_recency_cons k us n).symm

theorem Recalls.put {l : LruList κ ν n} {past : List (LruCall κ ν)} (h : Recalls l past) (k : κ)
    (v : ν) : Recalls (l.put k v) (.put k v :: past) := by
  constructor
  · rw [keys_put, uses, take_recency_front h.keys]
  · intro j u hu
    rw [latestPut]
    rcases find_put hu with hjk | hjk
    · rw [if_pos hjk.1.symm, hjk.2]
    · rw [if_neg (Ne.symm hjk.1)]
      exact h.values j u hjk.2

theorem Recalls.get {l : LruList κ ν n} {past : List (LruCall κ ν)} (h : Recalls l past) (k : κ) :
    Recalls (l.get k) (.get k :: past) := by
  unfold LruList.get
  cases hf : l.find k with
  | none =>
    have hc : ¬cached n k (uses n past) = true := by simp [← h.found, hf]
    constructor
    · rw [uses, if_neg hc]
      exact h.keys
    · exact h.values
  | some v =>
    have hc : cached n k (uses n past) = true := by simp [← h.found, hf]
    constructor
    · rw [keys_put, uses, if_pos hc, take_recency_front h.keys]
    · intro j u hu
      rw [latestPut]
      rcases find_put hu with hjk | hjk
      · rw [hjk.1, hjk.2]
        exact h.values k v hf
      · exact h.values j u hjk.2

theorem Recalls.step {l : LruList κ ν n} {past : List (LruCall κ ν)} (h : Recalls l past)
    (call : LruCall κ ν) : Recalls (l.step call) (call :: past) := by
  cases call with
  | get k => exact h.get k
  | put k v => exact h.put k v

theorem entries_put_self (l : LruList κ ν n) {k : κ} (v : ν) (h : k ∈ l.keys) :
    (l.put k v).entries = (k, v) :: l.entries.filter (·.1 ≠ k) := by
  obtain ⟨e, he, hk⟩ := List.mem_map.mp h
  have hlt : (l.entries.filter (·.1 ≠ k)).length < l.entries.length :=
    List.length_filter_lt_length_iff_exists.mpr ⟨e, he, by simp [hk]⟩
  have hle := l.bounded
  apply List.take_of_length_le
  rw [List.length_cons]
  omega

theorem filter_entries_new (l : LruList κ ν n) {k : κ} (h : k ∉ l.keys) :
    l.entries.filter (·.1 ≠ k) = l.entries := by
  apply List.filter_eq_self.mpr
  intro e he
  have hne : e.1 ≠ k := ne_of_mem_of_not_mem (List.mem_map_of_mem he) h
  simpa using hne

theorem entries_put_room (l : LruList κ ν n) {k : κ} (v : ν) (h : k ∉ l.keys)
    (hroom : l.entries.length < n) : (l.put k v).entries = (k, v) :: l.entries := by
  have hfront := filter_entries_new l h
  rw [entries_put, hfront]
  exact List.take_of_length_le hroom

/-- A new key in a full list costs the last entry, and no other. -/
theorem entries_put_full (l : LruList κ ν n) {k : κ} (v : ν) (h : k ∉ l.keys) (hn : 0 < n)
    (hfull : n ≤ l.entries.length) : (l.put k v).entries = (k, v) :: l.entries.dropLast := by
  have hfront := filter_entries_new l h
  have hlen : l.entries.length = n := Nat.le_antisymm l.bounded hfull
  obtain ⟨m, rfl⟩ : ∃ m, n = m + 1 := ⟨n - 1, by omega⟩
  rw [entries_put, hfront, List.take_succ_cons, List.dropLast_eq_take, hlen, Nat.add_sub_cancel]

end LruList
