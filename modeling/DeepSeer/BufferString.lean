import DeepSeer.Buffer
import Mathlib.Algebra.GroupWithZero.Nat

/-!
The buffer as a byte string. `Represents b c` relates the slice vector, the
drained prefix and the cached length to the content `c`; each operation of the
buffer is then the operation on strings that its name says, and a whole run of
operations over any number of buffers is a run over strings.
-/
namespace DeepSeer

open ByteMemory WhileLoop

namespace Slice

/-- `readPos <= writePos <= capacity`. -/
structure Ordered (s : Slice) : Prop where
  read_le : s.readPos_ ≤ s.writePos_
  write_le : s.writePos_ ≤ s.capacity_

@[simp] theorem data_length (s : Slice) : s.data.length = s.length := by
  simp [data, length]

@[simp] theorem reservation_length (s : Slice) : s.reservation.length = s.available := by
  simp [reservation, available]

@[simp] theorem ofCapacity_data (n : Nat) : (ofCapacity n).data = [] := rfl
@[simp] theorem ofCapacity_length (n : Nat) : (ofCapacity n).length = 0 := rfl
@[simp] theorem ofCapacity_available (n : Nat) : (ofCapacity n).available = n := rfl
@[simp] theorem fill_length (s : Slice) (bytes : Bytes) : (s.fill bytes).length = s.length := rfl
@[simp] theorem fill_available (s : Slice) (bytes : Bytes) :
    (s.fill bytes).available = s.available := rfl

theorem ofCapacity_ordered (n : Nat) : (ofCapacity n).Ordered := ⟨Nat.le_refl 0, Nat.zero_le n⟩

theorem fill_ordered {s : Slice} (h : s.Ordered) (bytes : Bytes) : (s.fill bytes).Ordered :=
  ⟨h.read_le, h.write_le⟩

theorem commit_ordered {s : Slice} (h : s.Ordered) {n : Nat} (hn : n ≤ s.available) :
    (s.commit n).Ordered := by
  have hr := h.read_le
  have hw := h.write_le
  simp only [available] at hn
  constructor <;> simp only [commit] <;> omega

theorem commit_length {s : Slice} (h : s.Ordered) (n : Nat) :
    (s.commit n).length = s.length + n := by
  have := h.read_le
  simp only [commit, length]
  omega

/-- Committing after a fill appends the first bytes that were copied in. -/
theorem fill_commit_data {s : Slice} (h : s.Ordered) (bytes : Bytes) {n : Nat}
    (hn : n ≤ bytes.length) : ((s.fill bytes).commit n).data = s.data ++ bytes.take n := by
  have hr := h.read_le
  have hsplit : s.writePos_ + n - s.readPos_ = (s.writePos_ - s.readPos_) + n := by omega
  have hend : s.readPos_ + (s.writePos_ - s.readPos_) = s.writePos_ := by omega
  simp only [data, fill, commit, hsplit, read_add, hend]
  rw [read_write_before _ _ _ _ _ (by omega), read_write_prefix _ _ _ _ hn]

theorem drain_ordered {s : Slice} (h : s.Ordered) {n : Nat} (hn : n ≤ s.length) :
    (s.drain n).Ordered := by
  have hr := h.read_le
  have hw := h.write_le
  simp only [length] at hn
  constructor <;> simp only [drain] <;> omega

@[simp] theorem drain_length (s : Slice) (n : Nat) : (s.drain n).length = s.length - n := by
  simp only [drain, length]
  omega

theorem drain_data (s : Slice) {n : Nat} (hn : n ≤ s.length) :
    (s.drain n).data = s.data.drop n := by
  simp only [length] at hn
  simp only [data, drain]
  rw [read_drop _ _ _ _ hn, show s.writePos_ - (s.readPos_ + n) = s.writePos_ - s.readPos_ - n by omega]

end Slice

theorem onBack_append (f : Slice → Slice) (front : List Slice) (s : Slice) :
    onBack f (front ++ [s]) = front ++ [f s] := by
  induction front with
  | nil => rfl
  | cons a rest ih =>
    cases rest with
    | nil => rfl
    | cons b rest => simpa [onBack] using ih

namespace Buffer

/-- What a slice vector has to do with the string it holds, the cached length
apart: the slices are ordered, the drained prefix is inside the vector and, if
there is one, shorter than half of it, and the rest holds the content. -/
structure Shape (b : Buffer) (c : Bytes) : Prop where
  ordered : ∀ s ∈ b.slices_, s.Ordered
  front : b.frontSlice_ ≤ b.slices_.length
  sparse : b.frontSlice_ = 0 ∨ 2 * b.frontSlice_ < b.slices_.length
  content : b.linearize = c

/-- The representation invariant of a buffer with content `c`. -/
structure Represents (b : Buffer) (c : Bytes) : Prop extends Shape b c where
  total : b.totalLength_ = c.length

/-- Every active slice has data. -/
def Live (b : Buffer) : Prop := ∀ s ∈ b.slices, 0 < s.length

theorem represents_empty : Represents {} [] :=
  ⟨⟨by simp, Nat.le_refl 0, .inl rfl, rfl⟩, rfl⟩

theorem live_empty : Live {} := by simp [Live, slices]

theorem flatMap_data_length (l : List Slice) :
    (l.flatMap Slice.data).length = (l.map Slice.length).sum := by
  simp [List.length_flatMap]

/-- The cached length is the sum over the active slices. -/
theorem Represents.total_eq_sum {b : Buffer} {c : Bytes} (h : Represents b c) :
    b.totalLength_ = ((b.slices_.drop b.frontSlice_).map Slice.length).sum := by
  rw [h.total, ← h.content, linearize, flatMap_data_length]

/-- The vector after `ensureBack` ends in an active slice with room. -/
theorem ensureBack_back {b : Buffer} {c : Bytes} (h : Shape b c) (wanted : Nat) :
    ∃ init s, (b.ensureBack wanted).slices_ = init ++ [s] ∧ 0 < s.available ∧
      b.frontSlice_ ≤ init.length := by
  have hf := h.front
  by_cases hb : b.backAvailable = 0
  · refine ⟨b.slices_, Slice.ofCapacity (max wanted kDefaultCapacity), by simp [ensureBack, hb], ?_, hf⟩
    have : kDefaultCapacity = 16384 := rfl
    simp only [Slice.ofCapacity_available]
    omega
  · rcases List.eq_nil_or_concat b.slices_ with he | ⟨init, s, he⟩
    · simp [backAvailable, he] at hb
    · refine ⟨init, s, by simp [ensureBack, hb, he], ?_, ?_⟩
      · simp only [backAvailable, he, List.concat_eq_append, List.getLast?_concat, Option.map_some,
          Option.getD_some] at hb
        omega
      · have hs := h.sparse
        simp only [he, List.concat_eq_append, List.length_append, List.length_singleton] at hs
        omega

theorem ensureBack_shape {b : Buffer} {c : Bytes} (h : Shape b c) (wanted : Nat) :
    Shape (b.ensureBack wanted) c := by
  unfold ensureBack
  split
  · have hf := h.front
    refine ⟨?_, ?_, ?_, ?_⟩
    · intro s hs
      rcases List.mem_append.mp hs with hs | hs
      · exact h.ordered s hs
      · simp only [List.mem_singleton] at hs
        rw [hs]
        exact Slice.ofCapacity_ordered _
    · simp only [List.length_append, List.length_singleton]
      omega
    · have hs := h.sparse
      simp only [List.length_append, List.length_singleton]
      omega
    · rw [← h.content]
      simp [linearize, List.drop_append_of_le_length hf]
  · exact h

@[simp] theorem ensureBack_total (b : Buffer) (wanted : Nat) :
    (b.ensureBack wanted).totalLength_ = b.totalLength_ := by
  unfold ensureBack
  split <;> rfl

@[simp] theorem ensureBack_front (b : Buffer) (wanted : Nat) :
    (b.ensureBack wanted).frontSlice_ = b.frontSlice_ := by
  unfold ensureBack
  split <;> rfl

theorem backAvailable_eq {b : Buffer} {init : List Slice} {s : Slice}
    (h : b.slices_ = init ++ [s]) : b.backAvailable = s.available := by
  simp [backAvailable, h]

/-- Appending to the last slice appends to the content. -/
theorem onBack_shape {b : Buffer} {c : Bytes} {init : List Slice} {s : Slice} {f : Slice → Slice}
    {suffix : Bytes} (h : Shape b c) (he : b.slices_ = init ++ [s])
    (hf : b.frontSlice_ ≤ init.length) (hord : (f s).Ordered) (hdata : (f s).data = s.data ++ suffix) :
    Shape { b with slices_ := onBack f b.slices_ } (c ++ suffix) := by
  have hc := h.content
  have hs := h.sparse
  refine ⟨?_, ?_, ?_, ?_⟩
  · intro t ht
    simp only [he, onBack_append] at ht
    rcases List.mem_append.mp ht with ht | ht
    · exact h.ordered t (by simp [he, ht])
    · simp only [List.mem_singleton] at ht
      rw [ht]
      exact hord
  · simp only [he, onBack_append, List.length_append, List.length_singleton]
    omega
  · simpa [he, onBack_append] using hs
  · rw [← hc]
    simp [linearize, he, onBack_append, List.drop_append_of_le_length hf, hdata, List.append_assoc]

/-- The active slices when the last one is changed. -/
theorem onBack_live {b : Buffer} {init : List Slice} {s : Slice} {f : Slice → Slice}
    (he : b.slices_ = init ++ [s]) (hf : b.frontSlice_ ≤ init.length) (hpos : 0 < (f s).length)
    (hinit : ∀ t ∈ init.drop b.frontSlice_, 0 < t.length) :
    Live { b with slices_ := onBack f b.slices_ } := by
  intro t ht
  simp only [slices, he, onBack_append, List.drop_append_of_le_length hf] at ht
  rcases List.mem_append.mp ht with ht | ht
  · exact hinit t ht
  · simp only [List.mem_singleton] at ht
    rw [ht]
    exact hpos

/-- When every slice of a buffer has data, all but the new last one have it
after `ensureBack`. -/
theorem ensureBack_live {b : Buffer} (h : b.Live) (wanted : Nat) {init : List Slice} {s : Slice}
    (he : (b.ensureBack wanted).slices_ = init ++ [s]) (hf : b.frontSlice_ ≤ init.length) :
    ∀ t ∈ init.drop b.frontSlice_, 0 < t.length := by
  intro t ht
  apply h t
  unfold ensureBack at he
  split at he
  · obtain ⟨rfl, -⟩ := List.append_inj' he rfl
    exact ht
  · rw [slices, he, List.drop_append_of_le_length hf]
    exact List.mem_append_left _ ht

/-- The copy loop of `add` ends, appends what was left to copy and leaves no
active slice empty that was not. -/
theorem addLoop_spec {b : Buffer} {c : Bytes} (data : Bytes) (n : Nat) (stuck : Buffer)
    (h : Shape b c) (ht : b.totalLength_ = c.length + data.length) (hn : data.length < n) :
    Represents (loop addPass n stuck (b, data)) (c ++ data) ∧
      (b.Live → (loop addPass n stuck (b, data)).Live) := by
  refine loop_correct
    (fun p => ∃ c', Shape p.1 c' ∧ p.1.totalLength_ = c'.length + p.2.length ∧
      c' ++ p.2 = c ++ data ∧ (b.Live → p.1.Live))
    (fun p => p.2.length)
    (fun r => Represents r (c ++ data) ∧ (b.Live → r.Live)) ?_ ?_
    ⟨c, h, ht, rfl, id⟩ hn
  · rintro ⟨d, data⟩ p' ⟨c', hs, ht, hc, hlive⟩ hp
    dsimp only at hs ht hc hlive
    cases data with
    | nil => simp [addPass] at hp
    | cons byte rest =>
      simp only [addPass, Pass.again.injEq] at hp
      subst hp
      have hlen : 0 < (byte :: rest).length := Nat.succ_pos _
      generalize byte :: rest = data at *
      have hs' := ensureBack_shape hs data.length
      obtain ⟨init, s, he, hpos, hf⟩ := ensureBack_back hs data.length
      have ho : s.Ordered := hs'.ordered s (by rw [he]; simp)
      rw [backAvailable_eq he]
      set k := min s.available data.length with hk
      have hkpos : 0 < k := by omega
      have htake : (data.take k).length = k := by simp only [List.length_take]; omega
      refine ⟨⟨c' ++ data.take k, ?_, ?_, ?_, ?_⟩, ?_⟩
      · refine onBack_shape (f := fun s => (s.fill (data.take k)).commit k) hs' he
          (by simpa using hf) ?_ ?_
        · exact Slice.commit_ordered (Slice.fill_ordered ho _) (Nat.min_le_left _ _)
        · rw [Slice.fill_commit_data ho _ (by omega), List.take_take, Nat.min_self]
      · simp only [ensureBack_total, ht, List.length_append, htake, List.length_drop]
        omega
      · rw [List.append_assoc, List.take_append_drop, hc]
      · intro hb
        refine onBack_live (f := fun s => (s.fill (data.take k)).commit k) he (by simpa using hf) ?_ ?_
        · rw [Slice.commit_length (Slice.fill_ordered ho _)]
          omega
        · simpa using ensureBack_live (hlive hb) data.length he hf
      · simp only [List.length_drop]
        omega
  · rintro ⟨d, data⟩ r ⟨c', hs, ht, hc, hlive⟩ hp
    cases data with
    | nil =>
      simp only [addPass, Pass.leave.injEq] at hp
      subst hp
      simp only [List.append_nil] at hc
      subst hc
      exact ⟨⟨hs, by simpa using ht⟩, hlive⟩
    | cons byte rest => simp [addPass] at hp

theorem add_spec {b : Buffer} {c : Bytes} (h : Represents b c) (data : Bytes) :
    Represents (b.add data) (c ++ data) ∧ (b.Live → (b.add data).Live) :=
  addLoop_spec (b := { b with totalLength_ := b.totalLength_ + data.length }) data _ _
    ⟨h.ordered, h.front, h.sparse, h.content⟩ (by simp [h.total]) (Nat.lt_succ_self _)

theorem add_represents {b : Buffer} {c : Bytes} (h : Represents b c) (data : Bytes) :
    Represents (b.add data) (c ++ data) := (add_spec h data).1

theorem reserve_represents {b : Buffer} {c : Bytes} (h : Represents b c) (hint : Nat) :
    Represents (b.reserve hint) c :=
  ⟨ensureBack_shape h.toShape hint, by simpa [reserve] using h.total⟩

theorem region_length (b : Buffer) : b.region.length = b.backAvailable := by
  simp only [region, backAvailable]
  cases b.slices_.getLast? <;> simp

/-- The region that `reserve` returns is never empty. -/
theorem reserve_region_pos {b : Buffer} {c : Bytes} (h : Shape b c) (hint : Nat) :
    0 < (b.reserve hint).region.length := by
  obtain ⟨init, s, he, hpos, -⟩ := ensureBack_back h hint
  rw [region_length, reserve, backAvailable_eq he]
  exact hpos

theorem onBack_fill_commit (bytes : Bytes) (n : Nat) (l : List Slice) :
    onBack (fun s => s.commit n) (onBack (fun s => s.fill bytes) l) =
      onBack (fun s => (s.fill bytes).commit n) l := by
  rcases List.eq_nil_or_concat l with rfl | ⟨front, t, rfl⟩
  · rfl
  · simp only [List.concat_eq_append, onBack_append]

/-- Reserve, copy bytes to the region and commit the first `n` of them. -/
theorem reserve_commit_represents {b : Buffer} {c : Bytes} (h : Represents b c) (hint n : Nat)
    (bytes : Bytes) (hn : n ≤ bytes.length) (hr : n ≤ (b.reserve hint).region.length) :
    Represents (((b.reserve hint).fill bytes).commit n) (c ++ bytes.take n) := by
  obtain ⟨init, s, he, -, hf⟩ := ensureBack_back h.toShape hint
  have hs := ensureBack_shape h.toShape hint
  have ho : s.Ordered := hs.ordered s (by rw [he]; simp)
  have hav : n ≤ s.available := by rwa [region_length, reserve, backAvailable_eq he] at hr
  have hshape := onBack_shape (f := fun s => (s.fill bytes).commit n) hs he
    (by simpa using hf) (Slice.commit_ordered (Slice.fill_ordered ho _) hav)
    (Slice.fill_commit_data ho bytes hn)
  have htake : (bytes.take n).length = n := by simp [hn]
  refine ⟨?_, ?_⟩
  · simpa only [commit, fill, reserve, onBack_fill_commit] using
      ⟨hshape.ordered, hshape.front, hshape.sparse, hshape.content⟩
  · simp only [commit, fill, reserve, ensureBack_total, h.total, List.length_append, htake]

/-- A commit of at least one byte leaves no slice empty. -/
theorem reserve_commit_live {b : Buffer} {c : Bytes} (h : Represents b c) (hl : b.Live)
    (hint : Nat) {n : Nat} (bytes : Bytes) (hn : 0 < n) :
    (((b.reserve hint).fill bytes).commit n).Live := by
  obtain ⟨init, s, he, -, hf⟩ := ensureBack_back h.toShape hint
  have ho : s.Ordered := (ensureBack_shape h.toShape hint).ordered s (by rw [he]; simp)
  have hlive := onBack_live (f := fun s => (s.fill bytes).commit n) he (by simpa using hf)
    (by rw [Slice.commit_length (Slice.fill_ordered ho _)]; omega)
    (by simpa using ensureBack_live hl hint he hf)
  intro t ht
  apply hlive t
  simpa only [slices, commit, fill, reserve, onBack_fill_commit] using ht

/-- What the loop of `drain` maintains, over the buffer and the bytes to go. -/
structure Draining (b : Buffer) (c : Bytes) (n : Nat) (p : Buffer × Nat) : Prop where
  ordered : ∀ s ∈ p.1.slices_, s.Ordered
  front : p.1.frontSlice_ ≤ p.1.slices_.length
  slices : p.1.slices_.length = b.slices_.length
  total : p.1.totalLength_ = b.totalLength_
  remaining : p.2 ≤ n
  drained : n - p.2 ≤ c.length
  content : p.1.linearize = c.drop (n - p.2)
  live : b.Live → p.1.Live

/-- Splitting off the first active slice. -/
theorem slices_cons {b : Buffer} {slice : Slice} (h : b.slices_[b.frontSlice_]? = some slice) :
    b.slices_.drop b.frontSlice_ = slice :: b.slices_.drop (b.frontSlice_ + 1) := by
  obtain ⟨hlt, hget⟩ := List.getElem?_eq_some_iff.mp h
  rw [List.drop_eq_getElem_cons hlt, hget]

/-- The active slices where the first one has been drained. -/
theorem slices_drained {b : Buffer} {slice : Slice} (h : b.slices_[b.frontSlice_]? = some slice)
    (drained : Slice) :
    slices { b with
        slices_ := b.slices_.set b.frontSlice_ drained
        frontSlice_ := if drained.length = 0 then b.frontSlice_ + 1 else b.frontSlice_ } =
      if drained.length = 0 then b.slices_.drop (b.frontSlice_ + 1)
      else drained :: b.slices_.drop (b.frontSlice_ + 1) := by
  have hlt := (List.getElem?_eq_some_iff.mp h).1
  have hrest : (b.slices_.set b.frontSlice_ drained).drop (b.frontSlice_ + 1) =
      b.slices_.drop (b.frontSlice_ + 1) := List.drop_set_of_lt (Nat.lt_succ_self _)
  unfold slices
  dsimp only
  split
  · exact hrest
  · rw [List.drop_eq_getElem_cons (by simpa using hlt), List.getElem_set_self, hrest]

/-- One pass drains the first active slice by as much as it can. -/
theorem drainPass_draining {b : Buffer} {c : Bytes} {n : Nat} {p p' : Buffer × Nat}
    (h : Draining b c n p) (hp : drainPass p = .again p') :
    Draining b c n p' ∧
      p'.2 + (p'.1.slices_.length - p'.1.frontSlice_) <
        p.2 + (p.1.slices_.length - p.1.frontSlice_) := by
  obtain ⟨d, remaining⟩ := p
  cases hget : d.slices_[d.frontSlice_]? with
  | none => simp [drainPass, hget] at hp
  | some slice =>
    by_cases hr : remaining = 0
    · simp [drainPass, hget, hr] at hp
    · simp only [drainPass, hget, hr, if_false, Pass.again.injEq] at hp
      subst hp
      have hlt := (List.getElem?_eq_some_iff.mp hget).1
      have ho : slice.Ordered := h.ordered slice (List.mem_of_getElem? hget)
      have hcons := slices_cons hget
      have hcontent := h.content
      have hrem := h.remaining
      have hdrained := h.drained
      simp only [linearize, hcons, List.flatMap_cons] at hcontent hrem hdrained
      set k := min remaining slice.length with hk
      have hkl : k ≤ slice.length := Nat.min_le_right _ _
      have hkdata : k ≤ slice.data.length := by simpa using hkl
      have hlen := congrArg List.length hcontent
      simp only [List.length_append, Slice.data_length, List.length_drop] at hlen
      have hslices := slices_drained hget (slice.drain k)
      have hrest : (slice.drain k).data ++ (d.slices_.drop (d.frontSlice_ + 1)).flatMap Slice.data =
          c.drop (n - (remaining - k)) := by
        rw [Slice.drain_data _ hkl, ← List.drop_append_of_le_length hkdata, hcontent, List.drop_drop]
        congr 1
        omega
      refine ⟨⟨?_, ?_, ?_, h.total, by simp only; omega, by simp only; omega, ?_, ?_⟩, ?_⟩
      · intro s hs
        rcases List.mem_or_eq_of_mem_set hs with hs | rfl
        · exact h.ordered s hs
        · exact Slice.drain_ordered ho hkl
      · simp only [List.length_set]
        split <;> omega
      · simpa using h.slices
      · refine (congrArg (List.flatMap Slice.data) hslices).trans ?_
        split
        · next hz =>
          have hnil : (slice.drain k).data = [] := List.eq_nil_of_length_eq_zero (by simpa using hz)
          rw [← hrest, hnil, List.nil_append]
        · rw [List.flatMap_cons]
          exact hrest
      · intro hb s hs
        have hlive := h.live hb
        simp only [Live, slices, hcons] at hlive
        rw [hslices] at hs
        split at hs
        · exact hlive s (List.mem_cons_of_mem _ hs)
        · rcases List.mem_cons.mp hs with rfl | hs
          · omega
          · exact hlive s (List.mem_cons_of_mem _ hs)
      · simp only [List.length_set, Slice.drain_length]
        split <;> omega

/-- The loop of `drain` ends with nothing to go or with nothing left. -/
theorem drainLoop_draining {b : Buffer} {c : Bytes} (h : Represents b c) (n : Nat) :
    Draining b c n (b.drainLoop n) ∧
      ((b.drainLoop n).2 = 0 ∨ (b.drainLoop n).1.frontSlice_ = (b.drainLoop n).1.slices_.length) := by
  refine loop_correct (Draining b c n)
    (fun p => p.2 + (p.1.slices_.length - p.1.frontSlice_))
    (fun p => Draining b c n p ∧ (p.2 = 0 ∨ p.1.frontSlice_ = p.1.slices_.length))
    (fun p p' hi hp => drainPass_draining hi hp) ?_ ?_ ?_
  · rintro ⟨d, remaining⟩ r hi hp
    cases hget : d.slices_[d.frontSlice_]? with
    | none =>
      simp only [drainPass, hget, Pass.leave.injEq] at hp
      subst hp
      have := List.getElem?_eq_none_iff.mp hget
      have := hi.front
      exact ⟨hi, .inr (by simp only at *; omega)⟩
    | some slice =>
      by_cases hr : remaining = 0
      · simp only [drainPass, hget, hr, if_true, Pass.leave.injEq] at hp
        subst hp
        rw [hr] at hi
        exact ⟨hi, .inl rfl⟩
      · simp [drainPass, hget, hr] at hp
  · exact ⟨h.ordered, h.front, rfl, rfl, Nat.le_refl n, by simp, by simp [h.content], id⟩
  · simp only
    omega

/-- What a buffer with the drained prefix cut off represents. -/
theorem compactSlices_shape {b : Buffer} {c : Bytes} (ho : ∀ s ∈ b.slices_, s.Ordered)
    (hc : b.linearize = c) : Shape b.compactSlices c := by
  refine ⟨?_, Nat.zero_le _, .inl rfl, ?_⟩
  · intro s hs
    exact ho s (List.mem_of_mem_drop hs)
  · simpa [linearize, compactSlices] using hc

theorem drain_spec {b : Buffer} {c : Bytes} (h : Represents b c) (n : Nat) :
    Represents (b.drain n) (c.drop n) ∧ (b.Live → (b.drain n).Live) := by
  obtain ⟨hd, hend⟩ := drainLoop_draining h n
  rcases hp : b.drainLoop n with ⟨d, remaining⟩
  rw [hp] at hd hend
  have hcontent := hd.content
  have hdrained := hd.drained
  have hfront := hd.front
  have htotal := hd.total
  have hlive := hd.live
  dsimp only at hcontent hdrained hfront htotal hend hlive
  have hdrop : c.drop (n - remaining) = c.drop n := by
    rcases hend with hz | hz
    · rw [hz, Nat.sub_zero]
    · have hnil : d.linearize = [] := by simp [linearize, hz]
      rw [hnil] at hcontent
      have hle := List.drop_eq_nil_iff.mp hcontent.symm
      rw [← hcontent, List.drop_eq_nil_iff.mpr (by omega)]
  have hlen : d.totalLength_ - (n - remaining) = (c.drop n).length := by
    rw [← hdrop, htotal, h.total, List.length_drop]
  rw [hdrop] at hcontent
  simp only [drain, hp]
  split
  next hz =>
    have hnil : c.drop n = [] := by rw [← hcontent]; simp [linearize, hz]
    exact ⟨⟨⟨by simp, Nat.le_refl 0, .inl rfl, by simp [linearize, hnil]⟩, hlen⟩,
      fun _ => by simp [Live, slices]⟩
  next hz =>
    split
    · exact ⟨⟨compactSlices_shape hd.ordered hcontent, hlen⟩, fun hb => hlive hb⟩
    next hsparse =>
      exact ⟨⟨⟨hd.ordered, hfront, .inr (by simp only; omega), hcontent⟩, hlen⟩, hlive⟩

theorem drain_represents {b : Buffer} {c : Bytes} (h : Represents b c) (n : Nat) :
    Represents (b.drain n) (c.drop n) := (drain_spec h n).1

/-- Both buffers after a move: all content in one, none in the other. -/
theorem move_represents {b other : Buffer} {c c' : Bytes} (h : Represents b c)
    (h' : Represents other c') :
    Represents (b.move other).1 (c ++ c') ∧ Represents (b.move other).2 [] := by
  refine ⟨?_, represents_empty⟩
  have hshape : Shape (if b.frontSlice_ > 0 then b.compactSlices else b) c := by
    split
    · exact compactSlices_shape h.ordered h.content
    · exact h.toShape
  have htotal : (if b.frontSlice_ > 0 then b.compactSlices else b).totalLength_ = b.totalLength_ := by
    split <;> rfl
  have hzero : (if b.frontSlice_ > 0 then b.compactSlices else b).frontSlice_ = 0 := by
    split
    · rfl
    · omega
  simp only [move]
  generalize (if b.frontSlice_ > 0 then b.compactSlices else b) = d at *
  have hcontent := hshape.content
  simp only [linearize, hzero, List.drop_zero] at hcontent
  refine ⟨⟨?_, by simp [hzero], .inl hzero, ?_⟩, ?_⟩
  · intro s hs
    rcases List.mem_append.mp hs with hs | hs
    · exact hshape.ordered s hs
    · exact h'.ordered s (List.mem_of_mem_drop hs)
  · simp [linearize, hzero, hcontent, ← h'.content]
  · simp only [htotal, h.total, h'.total, List.length_append]

theorem move_live {b other : Buffer} (h : b.Live) (h' : other.Live) : (b.move other).1.Live := by
  intro s hs
  have hzero : (if b.frontSlice_ > 0 then b.compactSlices else b).frontSlice_ = 0 := by
    split
    · rfl
    · omega
  have hslices : (if b.frontSlice_ > 0 then b.compactSlices else b).slices_ = b.slices := by
    split
    · rfl
    · rw [slices, show b.frontSlice_ = 0 by omega, List.drop_zero]
  simp only [move, slices, hzero, List.drop_zero, hslices] at hs
  rcases List.mem_append.mp hs with hs | hs
  · exact h s hs
  · exact h' s hs

/-- A buffer as the proxy builds them: a string in slices that all have data. -/
structure Proper (b : Buffer) : Prop where
  represents : b.Represents b.linearize
  live : b.Live

theorem Represents.self {b : Buffer} {c : Bytes} (h : b.Represents c) : b.Represents b.linearize := by
  rw [h.content]
  exact h

/-- Any buffer that its own operations build. -/
abbrev Sound := { b : Buffer // b.Represents b.linearize }

theorem proper_empty : Proper {} := ⟨represents_empty, live_empty⟩

theorem Proper.add {b : Buffer} (h : b.Proper) (data : Bytes) :
    (b.add data).Proper ∧ (b.add data).linearize = b.linearize ++ data := by
  obtain ⟨hr, hl⟩ := add_spec h.represents data
  exact ⟨⟨hr.self, hl h.live⟩, hr.content⟩

theorem Proper.drain {b : Buffer} (h : b.Proper) (n : Nat) :
    (b.drain n).Proper ∧ (b.drain n).linearize = b.linearize.drop n := by
  obtain ⟨hr, hl⟩ := drain_spec h.represents n
  exact ⟨⟨hr.self, hl h.live⟩, hr.content⟩

theorem Proper.move {b other : Buffer} (h : b.Proper) (h' : other.Proper) :
    (b.move other).1.Proper ∧ (b.move other).1.linearize = b.linearize ++ other.linearize := by
  have hr := (move_represents h.represents h'.represents).1
  exact ⟨⟨hr.self, move_live h.live h'.live⟩, hr.content⟩

/-- The buffer of a read: some bytes committed to a fresh reservation. -/
theorem proper_received {bytes : Bytes} (hint : Nat) (hne : bytes ≠ [])
    (hlen : bytes.length ≤ (({} : Buffer).reserve hint).backAvailable) :
    (((({} : Buffer).reserve hint).fill bytes).commit bytes.length).Proper ∧
      (((({} : Buffer).reserve hint).fill bytes).commit bytes.length).linearize = bytes := by
  have hr := reserve_commit_represents represents_empty hint bytes.length bytes (Nat.le_refl _)
    (by rwa [region_length])
  have hl := reserve_commit_live represents_empty live_empty hint bytes
    (List.length_pos_iff.mpr hne)
  have hc := hr.content
  rw [List.nil_append, List.take_length] at hc
  exact ⟨⟨hr.self, hl⟩, hc⟩

theorem empty_iff {b : Buffer} {c : Bytes} (h : b.Represents c) : b.empty = true ↔ c = [] := by
  simp [empty, h.total]

end Buffer

end DeepSeer
