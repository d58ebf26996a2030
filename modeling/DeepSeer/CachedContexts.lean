import DeepSeer.CertCache
import DeepSeer.RefCounts
import DeepSeer.Runs

/-!
The reference counts of the contexts that a cache and others share. Each call that the
cache makes acts on the counters at once, so an operation that drops a reference before
it takes one can destroy a context in between. The others hold references of their own
and drop no others; a context is given to `put` only while it is alive.
-/
namespace DeepSeer

open ByteMemory RefCounts Runs

/-- The counters. A context is dead once its counter has reached zero; `calls` are those
of the cache, the latest first, and `outside` counts the references of the others. -/
structure CtxCounts where
  count : SslCtx → Nat := fun _ => 0
  dead : SslCtx → Bool := fun _ => false
  outside : SslCtx → Nat := fun _ => 0
  calls : List CtxCall := []

namespace CtxCounts

def up (c : CtxCounts) (x : SslCtx) : CtxCounts :=
  { c with count := Function.update c.count x (c.count x + 1) }

/-- `SSL_CTX_free`; the last reference takes the context with it. -/
def down (c : CtxCounts) (x : SslCtx) : CtxCounts :=
  { c with
    count := Function.update c.count x (c.count x - 1)
    dead := Function.update c.dead x (c.dead x || decide (c.count x ≤ 1)) }

/-- A call of the cache. -/
def perform (c : CtxCounts) (call : CtxCall) : CtxCounts :=
  let c := { c with calls := call :: c.calls }
  match call with
  | .upRef x => c.up x
  | .free x => c.down x

def alive (c : CtxCounts) (x : SslCtx) : Bool := !c.dead x && decide (1 ≤ c.count x)

end CtxCounts

namespace CertCache

/-- The contexts that the entries store. -/
def contexts (c : CertCache) : List SslCtx := c.entries.map Prod.snd

/-- How many entries store the context. -/
def stored (c : CertCache) (x : SslCtx) : Nat := c.contexts.count x

/-- The contexts of the entries that a `put` replaces or evicts. -/
def released (c : CertCache) (hostname : Bytes) : List SslCtx :=
  match c.map_ hostname with
  | some it => ((c.order_.lookup it).map Entry.ctx).toList
  | none => if c.maxEntries_ ≤ c.size then c.contexts.getLast?.toList else []

/-- The calls of the destructor. -/
def destroyCalls (c : CertCache) : List CtxCall := c.order_.map fun node => .free node.2.ctx

end CertCache

/-- A cache that is shared with others. -/
structure SharedCache where
  cache : CertCache
  destroyed : Bool := false
  counts : CtxCounts := {}

/-- What can happen. The others make a context, or take or drop a reference of their own. -/
inductive CacheEvent where
  | make (ctx : SslCtx)
  | hold (ctx : SslCtx)
  | release (ctx : SslCtx)
  | get (hostname : Bytes)
  | put (hostname : Bytes) (ctx : SslCtx)
  | destroy

namespace SharedCache

/-- The event can happen. A new context is one that has never been. -/
def possible (s : SharedCache) : CacheEvent → Bool
  | .make ctx => !s.counts.dead ctx && decide (s.counts.count ctx = 0)
  | .hold ctx => s.counts.alive ctx
  | .release ctx => decide (1 ≤ s.counts.outside ctx)
  | .get _ => !s.destroyed
  | .put _ ctx => !s.destroyed && s.counts.alive ctx
  | .destroy => !s.destroyed

def take (s : SharedCache) (ctx : SslCtx) : SharedCache :=
  let c := s.counts.up ctx
  { s with counts := { c with outside := Function.update c.outside ctx (c.outside ctx + 1) } }

def drop (s : SharedCache) (ctx : SslCtx) : SharedCache :=
  let c := s.counts.down ctx
  { s with counts := { c with outside := Function.update c.outside ctx (c.outside ctx - 1) } }

/-- The cache that an operation leaves, and the calls that it makes one after another. -/
def operated (s : SharedCache) (destroyed : Bool) :
    Option (CertCache × List CtxCall) → SharedCache
  | none => s
  | some (cache, calls) =>
    ⟨cache, destroyed, calls.foldl CtxCounts.perform s.counts⟩

/-- What an event that can happen does. -/
def effect (s : SharedCache) : CacheEvent → SharedCache
  | .make ctx => s.take ctx
  | .hold ctx => s.take ctx
  | .release ctx => s.drop ctx
  | .get hostname => s.operated s.destroyed ((s.cache.get hostname).map fun r => (r.1, []))
  | .put hostname ctx => s.operated s.destroyed (s.cache.put hostname ctx)
  | .destroy => s.operated true
      (some ({ maxEntries_ := s.cache.maxEntries_ }, s.cache.destroyCalls))

/-- An event that cannot happen leaves everything as it is. -/
def step (s : SharedCache) (e : CacheEvent) : SharedCache :=
  if s.possible e then s.effect e else s

/-- The contexts of the entries that an event replaces, evicts or destroys. -/
def released (s : SharedCache) (e : CacheEvent) : List SslCtx :=
  if s.possible e then
    match e with
    | .put hostname _ => s.cache.released hostname
    | .destroy => s.cache.contexts
    | _ => []
  else []

def refOf : CtxCall → Ref SslCtx
  | .upRef x => .take x
  | .free x => .drop x

def freed : CtxCall → Option SslCtx
  | .upRef _ => none
  | .free x => some x

/-- The references that the cache holds are those of its entries, and every context that
an entry stores is alive. -/
structure Sound (s : SharedCache) : Prop where
  holds : ∀ x, Holds x (s.counts.calls.map refOf) (s.cache.stored x)
  alive : ∀ x, 1 ≤ s.cache.stored x → s.counts.alive x = true

/-- One reference is dropped for each entry that goes. -/
def ReleasesOnce (s : SharedCache) (e : CacheEvent) : Prop :=
  ∃ calls, (s.step e).counts.calls = calls ++ s.counts.calls ∧
    calls.filterMap freed = (s.released e).reverse

/-- A `put` does not drop the last reference of the context that it stores. -/
def Spares (s : SharedCache) (e : CacheEvent) : Prop :=
  ∀ hostname ctx, e = .put hostname ctx → ctx ∈ s.released e → 2 ≤ s.counts.count ctx

end SharedCache

namespace CertCache

variable {c : CertCache} {hostname : Bytes}

theorem destroyCalls_eq (c : CertCache) : c.destroyCalls = c.contexts.map CtxCall.free := by
  simp [destroyCalls, contexts, entries]

theorem Mirrors.keys (h : Mirrors c) : (c.entries.map Prod.fst).Nodup := by
  rw [keys_entries]
  exact h.hostnames

/-- A `get` leaves the contexts that are stored. -/
theorem Mirrors.get_contexts (h : Mirrors c) (hostname : Bytes) :
    ∃ c' r, c.get hostname = some (c', r) ∧ Mirrors c' ∧ c'.maxEntries_ = c.maxEntries_ ∧
      c.contexts.Perm c'.contexts := by
  cases hit : c.map_ hostname with
  | none => exact ⟨c, none, get_miss hit, h, rfl, List.Perm.refl _⟩
  | some it =>
    obtain ⟨ctx, hlook, hget⟩ := get_hit h hit
    obtain ⟨ctx', hlook', hin⟩ := h.lookup hit
    rw [hlook] at hlook'
    cases hlook'
    obtain ⟨hmirrors, hentries⟩ := h.front hit ctx
    refine ⟨_, _, hget, hmirrors, rfl, ?_⟩
    have hmem : (hostname, ctx) ∈ c.entries :=
      List.mem_map_of_mem (f := fun node => (node.2.hostname, node.2.ctx)) hin
    rw [contexts, contexts, hentries]
    exact (LruLists.perm_filter_key h.keys hmem).map Prod.snd

theorem released_hit {it : Node} {old : SslCtx} (h : Mirrors c)
    (hit : c.map_ hostname = some it) (hin : (it, ⟨hostname, old⟩) ∈ c.order_) :
    c.released hostname = [old] := by
  rw [released, hit]
  dsimp only
  rw [LruList.lookup_of_mem h.nodes hin]
  rfl

theorem released_room (hit : c.map_ hostname = none) (hroom : ¬ c.maxEntries_ ≤ c.size) :
    c.released hostname = [] := by
  rw [released, hit]
  exact if_neg hroom

theorem released_full {init : List SslCtx} {last : SslCtx} (hit : c.map_ hostname = none)
    (hfull : c.maxEntries_ ≤ c.size) (hlast : c.contexts = init ++ [last]) :
    c.released hostname = [last] := by
  rw [released, hit]
  dsimp only
  rw [if_pos hfull, hlast, List.getLast?_append_of_ne_nil _ (by simp)]
  rfl

/-- What a `put` releases is one context at most. -/
theorem released_short (c : CertCache) (hostname : Bytes) :
    (c.released hostname).length ≤ 1 := by
  unfold released
  split
  · exact Option.length_toList_le
  · split
    · exact Option.length_toList_le
    · exact Nat.zero_le 1

/-- A `put` drops the references of what it releases, and then takes one. -/
theorem Mirrors.put_contexts (h : Mirrors c) (hmax : 1 ≤ c.maxEntries_) (hostname : Bytes)
    (ctx : SslCtx) :
    ∃ c' rest, c.put hostname ctx =
        some (c', (c.released hostname).map .free ++ [.upRef ctx]) ∧
      Mirrors c' ∧ c'.maxEntries_ = c.maxEntries_ ∧
      c.contexts.Perm (c.released hostname ++ rest) ∧ c'.contexts = ctx :: rest := by
  cases hit : c.map_ hostname with
  | some it =>
    obtain ⟨old, hin, hput⟩ := put_hit h hit ctx
    obtain ⟨hmirrors, hentries⟩ := h.front hit ctx
    have hmem : (hostname, old) ∈ c.entries :=
      List.mem_map_of_mem (f := fun node => (node.2.hostname, node.2.ctx)) hin
    rw [released_hit h hit hin]
    refine ⟨_, (c.entries.filter (·.1 ≠ hostname)).map Prod.snd, hput, hmirrors, rfl, ?_, ?_⟩
    · exact (LruLists.perm_filter_key h.keys hmem).map Prod.snd
    · rw [contexts, hentries]
      rfl
  | none =>
    have hnew : hostname ∉ c.hostnames := h.missing.mp hit
    by_cases hfull : c.maxEntries_ ≤ c.size
    · have hne : c.order_ ≠ [] := by
        rintro hnil
        rw [size, hnil, List.length_nil] at hfull
        omega
      have horder := (List.dropLast_append_getLast hne).symm
      obtain ⟨c', hevict, hmirrors, hrest, hmax'⟩ := h.evict horder
      have hnew' : hostname ∉ c'.hostnames := by
        rw [CertCache.hostnames, hrest]
        exact fun hmem => hnew (List.map_subset _ (List.dropLast_subset c.order_) hmem)
      have hcontexts : c.contexts = c'.contexts ++ [(c.order_.getLast hne).2.ctx] := by
        rw [contexts, contexts, entries, entries, hrest]
        conv_lhs => rw [horder]
        simp
      rw [released_full hit hfull hcontexts]
      refine ⟨c'.insert hostname ctx, c'.contexts, ?_, hmirrors.insert hnew' ctx, hmax', ?_, rfl⟩
      · have hput : c.order_.length ≥ c.maxEntries_ := hfull
        simp only [CertCache.put, hit, if_pos hput, hevict, Option.map_some, List.map_cons,
          List.map_nil]
      · rw [hcontexts]
        exact List.perm_append_comm
    · rw [released_room hit hfull]
      refine ⟨c.insert hostname ctx, c.contexts, ?_, h.insert hnew ctx, rfl, List.Perm.refl _, rfl⟩
      have hput : ¬ c.order_.length ≥ c.maxEntries_ := hfull
      simp only [CertCache.put, hit, if_neg hput, List.map_nil, List.nil_append]

end CertCache

namespace CtxCounts

variable {c : CtxCounts} {l rest : List SslCtx}

/-- The counters, where the entries store the contexts of the list. -/
structure Balanced (l : List SslCtx) (c : CtxCounts) : Prop where
  holds : ∀ x, Holds x (c.calls.map SharedCache.refOf) (l.count x)
  count : ∀ x, c.count x = c.outside x + l.count x
  dead : ∀ x, c.dead x = true → c.count x = 0

theorem Balanced.perm {l' : List SslCtx} (h : Balanced l c) (hp : l.Perm l') : Balanced l' c :=
  ⟨fun x => hp.count_eq x ▸ h.holds x, fun x => hp.count_eq x ▸ h.count x, h.dead⟩

theorem Balanced.free {y : SslCtx} (h : Balanced (y :: l) c) :
    Balanced l (c.perform (.free y)) := by
  have hy := h.count y
  rw [List.count_cons_self] at hy
  refine ⟨fun x => ?_, fun x => ?_, fun x hx => ?_⟩
  · refine (h.holds x).drop y ?_
    by_cases hyx : y = x
    · simp [hyx]
    · simp [hyx, List.count_cons_of_ne]
  · by_cases hyx : x = y
    · subst hyx
      change Function.update c.count x (c.count x - 1) x = c.outside x + l.count x
      rw [Function.update_self]
      omega
    · have hx := h.count x
      rw [List.count_cons_of_ne (Ne.symm hyx)] at hx
      exact (Function.update_of_ne hyx _ _).trans hx
  · by_cases hyx : x = y
    · subst hyx
      change Function.update c.count x (c.count x - 1) x = 0
      change Function.update c.dead x (c.dead x || decide (c.count x ≤ 1)) x = true at hx
      rw [Function.update_self] at hx ⊢
      have hdead : c.dead x = false := by
        by_contra hd
        have := h.dead x (by simpa using hd)
        omega
      rw [hdead, Bool.false_or, decide_eq_true_eq] at hx
      omega
    · change Function.update c.dead y _ x = true at hx
      rw [Function.update_of_ne hyx] at hx
      exact (Function.update_of_ne hyx _ _).trans (h.dead x hx)

theorem Balanced.upRef {y : SslCtx} (h : Balanced l c) (hy : c.dead y = false) :
    Balanced (y :: l) (c.perform (.upRef y)) := by
  refine ⟨fun x => ?_, fun x => ?_, fun x hx => ?_⟩
  · refine (h.holds x).take y ?_
    by_cases hyx : y = x
    · simp [hyx]
    · simp [hyx, List.count_cons_of_ne]
  · have hx := h.count x
    by_cases hyx : x = y
    · subst hyx
      change Function.update c.count x (c.count x + 1) x = c.outside x + (x :: l).count x
      rw [Function.update_self, List.count_cons_self]
      omega
    · rw [List.count_cons_of_ne (Ne.symm hyx)]
      exact (Function.update_of_ne hyx _ _).trans hx
  · have hyx : x ≠ y := by
      rintro rfl
      exact absurd (hy.symm.trans hx) (by decide)
    exact (Function.update_of_ne hyx _ _).trans (h.dead x hx)

theorem Balanced.frees (l : List SslCtx) {c : CtxCounts} (h : Balanced (l ++ rest) c) :
    Balanced rest ((l.map CtxCall.free).foldl perform c) := by
  induction l generalizing c with
  | nil => exact h
  | cons y l ih => exact ih h.free

theorem Balanced.alive (h : Balanced l c) {x : SslCtx} (hx : 1 ≤ l.count x) : c.alive x = true := by
  have hcount := h.count x
  have hdead : c.dead x = false := by
    by_contra hd
    have := h.dead x (by simpa using hd)
    omega
  simp only [CtxCounts.alive, hdead, Bool.not_false, Bool.true_and, decide_eq_true_eq]
  omega

theorem foldl_calls (calls : List CtxCall) (c : CtxCounts) :
    (calls.foldl perform c).calls = calls.reverse ++ c.calls := by
  induction calls generalizing c with
  | nil => rfl
  | cons call calls ih =>
    have hcall : (c.perform call).calls = call :: c.calls := by
      cases call <;> rfl
    rw [List.foldl_cons, ih, hcall, List.reverse_cons, List.append_assoc, List.singleton_append]

theorem down_dead (c : CtxCounts) (x y : SslCtx) (h : c.dead x = false) :
    (c.perform (.free y)).dead x = decide (x = y ∧ c.count x ≤ 1) := by
  by_cases hyx : x = y
  · subst hyx
    change Function.update c.dead x (c.dead x || decide (c.count x ≤ 1)) x = _
    simp [h]
  · change Function.update c.dead y _ x = _
    rw [Function.update_of_ne hyx, h]
    simp [hyx]

end CtxCounts

namespace SharedCache

open CtxCounts

variable {s : SharedCache}

/-- The cache is intact, and the counters know the references of its entries. -/
structure Inv (s : SharedCache) : Prop where
  mirrors : s.cache.Mirrors
  maxEntries : 1 ≤ s.cache.maxEntries_
  balanced : Balanced s.cache.contexts s.counts

theorem operated_counts (destroyed : Bool) (cache : CertCache) (calls : List CtxCall) :
    (s.operated destroyed (some (cache, calls))).counts = calls.foldl perform s.counts := rfl

theorem Inv.sound (h : Inv s) : Sound s := ⟨h.balanced.holds, fun _ hx => h.balanced.alive hx⟩

theorem alive_parts {c : CtxCounts} {x : SslCtx} (h : c.alive x = true) :
    c.dead x = false ∧ 1 ≤ c.count x := by
  simpa [CtxCounts.alive] using h

theorem Inv.take (h : Inv s) {ctx : SslCtx} (hdead : s.counts.dead ctx = false) :
    Inv (s.take ctx) := by
  refine ⟨h.mirrors, h.maxEntries, h.balanced.holds, fun x => ?_, fun x hx => ?_⟩
  · have hcount := h.balanced.count x
    by_cases hxc : x = ctx
    · subst hxc
      simp only [SharedCache.take, CtxCounts.up, Function.update_self]
      omega
    · simpa only [SharedCache.take, CtxCounts.up, Function.update_of_ne hxc] using hcount
  · have hxc : x ≠ ctx := by
      rintro rfl
      exact absurd (hdead.symm.trans hx) (by decide)
    exact (Function.update_of_ne hxc _ _).trans (h.balanced.dead x hx)

theorem Inv.drop (h : Inv s) {ctx : SslCtx} (hheld : 1 ≤ s.counts.outside ctx) :
    Inv (s.drop ctx) := by
  have hctx := h.balanced.count ctx
  refine ⟨h.mirrors, h.maxEntries, h.balanced.holds, fun x => ?_, fun x hx => ?_⟩
  · have hcount := h.balanced.count x
    by_cases hxc : x = ctx
    · subst hxc
      simp only [SharedCache.drop, CtxCounts.down, Function.update_self]
      omega
    · simpa only [SharedCache.drop, CtxCounts.down, Function.update_of_ne hxc] using hcount
  · by_cases hxc : x = ctx
    · subst hxc
      have hdead : s.counts.dead x = false := by
        by_contra hd
        have := h.balanced.dead x (by simpa using hd)
        omega
      simp only [SharedCache.drop, CtxCounts.down, Function.update_self, hdead, Bool.false_or,
        decide_eq_true_eq] at hx ⊢
      omega
    · simp only [SharedCache.drop, CtxCounts.down, Function.update_of_ne hxc] at hx ⊢
      exact h.balanced.dead x hx

/-- After its frees a `put` finds its context alive exactly where it has not dropped the
last reference of it. -/
theorem dead_after_frees {c : CtxCounts} {x : SslCtx} {l : List SslCtx} (hl : l.length ≤ 1)
    (h : c.dead x = false) : ((l.map CtxCall.free).foldl perform c).dead x =
      decide (x ∈ l ∧ c.count x ≤ 1) := by
  rcases l with _ | ⟨y, _ | ⟨z, rest⟩⟩
  · simpa using h
  · rw [List.map_cons, List.foldl_cons]
    refine (down_dead c x y h).trans ?_
    simp
  · simp at hl

theorem Inv.put (h : Inv s) {hostname : Bytes} {ctx : SslCtx} (halive : s.counts.alive ctx = true)
    (hspares : ctx ∈ s.cache.released hostname → 2 ≤ s.counts.count ctx) :
    Inv (s.operated s.destroyed (s.cache.put hostname ctx)) := by
  obtain ⟨c', rest, hput, hmirrors, hmax, hperm, hcontexts⟩ :=
    h.mirrors.put_contexts h.maxEntries hostname ctx
  rw [hput]
  refine ⟨hmirrors, hmax ▸ h.maxEntries, ?_⟩
  change Balanced c'.contexts _
  rw [hcontexts, operated_counts, List.foldl_append]
  refine ((h.balanced.perm hperm).frees _).upRef ?_
  rw [dead_after_frees (CertCache.released_short ..) (alive_parts halive).1]
  simp only [decide_eq_false_iff_not, not_and, Nat.not_le]
  exact hspares

theorem Inv.step (h : Inv s) {e : CacheEvent} (hspares : Spares s e) : Inv (s.step e) := by
  unfold SharedCache.step
  split
  · next hpossible =>
    cases e with
    | make ctx =>
      simp only [possible, Bool.and_eq_true, Bool.not_eq_true', decide_eq_true_eq] at hpossible
      exact h.take hpossible.1
    | hold ctx => exact h.take (alive_parts hpossible).1
    | release ctx => exact h.drop (by simpa [possible] using hpossible)
    | get hostname =>
      obtain ⟨c', r, hget, hmirrors, hmax, hperm⟩ := h.mirrors.get_contexts hostname
      change Inv (s.operated s.destroyed ((s.cache.get hostname).map fun r => (r.1, [])))
      rw [hget]
      exact ⟨hmirrors, hmax ▸ h.maxEntries, h.balanced.perm hperm⟩
    | put hostname ctx =>
      refine h.put ?_ fun hmem => hspares hostname ctx rfl ?_
      · simp only [possible, Bool.and_eq_true] at hpossible
        exact hpossible.2
      · rw [SharedCache.released, if_pos hpossible]
        exact hmem
    | destroy =>
      refine ⟨CertCache.mirrors_new _, h.maxEntries, ?_⟩
      change Balanced [] (s.cache.destroyCalls.foldl perform s.counts)
      rw [CertCache.destroyCalls_eq]
      refine Balanced.frees s.cache.contexts ?_
      rw [List.append_nil]
      exact h.balanced
  · exact h

theorem step_possible {e : CacheEvent} (h : s.possible e = true) : s.step e = s.effect e := if_pos h

/-- A `put` that drops the last reference of its context stores a dead one. -/
theorem Inv.unsound (h : Inv s) {e : CacheEvent} (hspares : ¬ Spares s e) : ¬ Sound (s.step e) := by
  intro hsound
  refine hspares ?_
  rintro hostname ctx rfl hmem
  have hpossible : s.possible (.put hostname ctx) = true := by
    by_contra hn
    rw [released, if_neg hn] at hmem
    cases hmem
  rw [released, if_pos hpossible] at hmem
  have halive : s.counts.alive ctx = true := by
    simp only [possible, Bool.and_eq_true] at hpossible
    exact hpossible.2
  obtain ⟨c', rest, hput, -, -, -, hcontexts⟩ :=
    h.mirrors.put_contexts h.maxEntries hostname ctx
  rw [step_possible hpossible, effect, hput] at hsound
  have hstored := hsound.alive ctx (by
    change 1 ≤ c'.contexts.count ctx
    rw [hcontexts, List.count_cons_self]
    omega)
  rw [operated_counts, List.foldl_append] at hstored
  have hdead : (((s.cache.released hostname).map CtxCall.free).foldl perform s.counts).dead ctx =
      false := (alive_parts hstored).1
  rw [dead_after_frees (CertCache.released_short ..) (alive_parts halive).1] at hdead
  simp only [decide_eq_false_iff_not, not_and, Nat.not_le] at hdead
  exact hdead hmem

theorem filterMap_frees (l : List SslCtx) : (l.map CtxCall.free).filterMap freed = l := by
  rw [List.filterMap_map]
  exact List.filterMap_some

theorem Inv.releasesOnce (h : Inv s) (e : CacheEvent) : ReleasesOnce s e := by
  by_cases hpossible : s.possible e = true
  · have hnone : ∀ s' : SharedCache, s'.counts.calls = s.counts.calls → s.step e = s' →
        s.released e = [] → ReleasesOnce s e := by
      rintro s' hcalls rfl hreleased
      exact ⟨[], hcalls, by rw [hreleased]; rfl⟩
    cases e with
    | make ctx =>
      exact hnone (s.take ctx) rfl (step_possible hpossible) (by simp [released])
    | hold ctx => exact hnone (s.take ctx) rfl (step_possible hpossible) (by simp [released])
    | release ctx => exact hnone (s.drop ctx) rfl (step_possible hpossible) (by simp [released])
    | get hostname =>
      obtain ⟨c', r, hget, -⟩ := h.mirrors.get_contexts hostname
      refine hnone _ ?_ (step_possible hpossible) (by simp [released])
      rw [effect, hget]
      rfl
    | put hostname ctx =>
      obtain ⟨c', rest, hput, -⟩ := h.mirrors.put_contexts h.maxEntries hostname ctx
      refine ⟨((s.cache.released hostname).map CtxCall.free ++ [CtxCall.upRef ctx]).reverse, ?_, ?_⟩
      · rw [step_possible hpossible, effect, hput, operated_counts, foldl_calls]
      · rw [released, if_pos hpossible, List.filterMap_reverse, List.filterMap_append,
          filterMap_frees]
        simp [freed]
    | destroy =>
      refine ⟨s.cache.destroyCalls.reverse, ?_, ?_⟩
      · rw [step_possible hpossible, effect, operated_counts, foldl_calls]
      · rw [released, if_pos hpossible, List.filterMap_reverse, CertCache.destroyCalls_eq,
          filterMap_frees]
  · refine ⟨[], ?_, ?_⟩
    · rw [SharedCache.step, if_neg hpossible]
      rfl
    · unfold SharedCache.released
      rw [if_neg hpossible]
      rfl

/-- A new cache, before any context has been made. -/
def fresh (maxEntries : Nat) : SharedCache where
  cache := { maxEntries_ := maxEntries }

theorem fresh_inv {maxEntries : Nat} (hmax : 1 ≤ maxEntries) : Inv (fresh maxEntries) where
  mirrors := CertCache.mirrors_new maxEntries
  maxEntries := hmax
  balanced := ⟨fun x => holds_nil x, fun _ => rfl, fun _ _ => rfl⟩

/-- The references are right in every state of a run, and dropped once for each entry
that goes, exactly where no `put` drops the last reference of the context it stores. -/
theorem sound_iff_spares {maxEntries : Nat} (hmax : 1 ≤ maxEntries) (events : List CacheEvent) :
    ((∀ k, Sound (run step (fresh maxEntries) (events.take k))) ∧
      ∀ k e, events[k]? = some e → ReleasesOnce (run step (fresh maxEntries) (events.take k)) e) ↔
    Along step Spares (fresh maxEntries) events := by
  have hstep : ∀ s e, Inv s → Spares s e → Inv (s.step e) := fun _ _ hs hspares => hs.step hspares
  have halways : (∀ k, Sound (run step (fresh maxEntries) (events.take k))) ↔
      Along step Spares (fresh maxEntries) events :=
    always_iff (fun _ hs => Inv.sound hs) hstep (fun _ _ hs hspares => Inv.unsound hs hspares)
      (fresh_inv hmax) events
  constructor
  · exact fun h => halways.mp h.1
  · intro h
    refine ⟨halways.mpr h, fun k e _ => ?_⟩
    have hinv : Inv (run step (fresh maxEntries) (events.take k)) :=
      run_invariant Inv hstep (fresh_inv hmax) (h.take k)
    exact hinv.releasesOnce e

/-- A context that only its entry references is looked up and cached again. -/
def cachedAgain : List CacheEvent :=
  [.make 1, .put [97] 1, .release 1, .get [97], .put [97] 1]

theorem sound_iff_spares_cachedAgain :
    ((∀ k, Sound (run step (fresh 2) (cachedAgain.take k))) ∧
      ∀ k e, cachedAgain[k]? = some e → ReleasesOnce (run step (fresh 2) (cachedAgain.take k)) e) ↔
    Along step Spares (fresh 2) cachedAgain :=
  sound_iff_spares (by decide) cachedAgain

/-- A context that only its entry references takes the place of that entry. -/
def evictedAgain : List CacheEvent := [.make 1, .put [97] 1, .release 1, .put [98] 1]

/-- An entry then stores a context whose counter had reached zero. -/
theorem put_destroys_its_context :
    ((run step (fresh 2) cachedAgain).cache.contexts = [1] ∧
      (run step (fresh 2) cachedAgain).counts.dead 1 = true ∧
      ¬ Sound (run step (fresh 2) cachedAgain)) ∧
    (run step (fresh 1) evictedAgain).cache.contexts = [1] ∧
      (run step (fresh 1) evictedAgain).counts.dead 1 = true ∧
      ¬ Sound (run step (fresh 1) evictedAgain) := by
  have hunsound : ∀ s : SharedCache, s.cache.contexts = [1] → s.counts.dead 1 = true →
      ¬ Sound s := by
    intro s hcontexts hdead hsound
    have halive := hsound.alive 1 (by rw [CertCache.stored, hcontexts]; decide)
    rw [(alive_parts halive).1] at hdead
    cases hdead
  exact ⟨⟨by decide, by decide, hunsound _ (by decide) (by decide)⟩,
    by decide, by decide, hunsound _ (by decide) (by decide)⟩

end SharedCache

end DeepSeer
