import DeepSeer.ByteMemory
import DeepSeer.LruLists
import Mathlib.Logic.Function.Basic

/-!
The cache of forged certificates. The entries are in the nodes of a list, which
stay where they are while the list is relinked, and the map gives the node of a
hostname; an iterator is good for as long as its node is in the list. The cache
is the bounded list of the latest uses, and its map never holds an iterator
that has gone bad.
-/
namespace DeepSeer

open ByteMemory LruLists

/-- An `SSL_CTX` object, by its address. -/
abbrev SslCtx := Nat

/-- A call that takes or drops a reference of an `SSL_CTX`. -/
inductive CtxCall where
  | upRef (ctx : SslCtx)
  | free (ctx : SslCtx)
  deriving DecidableEq, Repr

namespace CertCache

structure Entry where
  hostname : Bytes
  ctx : SslCtx
  deriving DecidableEq, Repr

/-- The nodes of a list, numbered as they are made. -/
abbrev Node := Nat

/-- `order_.splice(order_.begin(), order_, it)`, for an iterator that is good. -/
def splice (order : List (Node × Entry)) (it : Node) : Option (List (Node × Entry)) :=
  (order.lookup it).map fun entry => (it, entry) :: order.filter (·.1 ≠ it)

def withCtx (it : Node) (ctx : SslCtx) (node : Node × Entry) : Node × Entry :=
  if node.1 = it then (it, ⟨node.2.hostname, ctx⟩) else node

/-- `it->ctx = ctx`, for an iterator that is good. -/
def setCtx (order : List (Node × Entry)) (it : Node) (ctx : SslCtx) :
    Option (List (Node × Entry)) :=
  (order.lookup it).map fun _ => order.map (withCtx it ctx)

end CertCache

/-- `map_` gives the node of a hostname; `nodes` counts the nodes made so far. -/
structure CertCache where
  maxEntries_ : Nat
  order_ : List (CertCache.Node × CertCache.Entry) := []
  map_ : Bytes → Option CertCache.Node := fun _ => none
  nodes : Nat := 0

namespace CertCache

/-- `get`, with the null pointer as `none`. It has no result at all where it
would follow an iterator that has gone bad. -/
def get (c : CertCache) (hostname : Bytes) : Option (CertCache × Option SslCtx) :=
  match c.map_ hostname with
  | none => some (c, none)
  | some it =>
    (splice c.order_ it).bind fun order =>
      (order.lookup it).map fun entry => ({ c with order_ := order }, some entry.ctx)

/-- The entry at the back goes; there has to be one. -/
def evict (c : CertCache) : Option (CertCache × List CtxCall) :=
  c.order_.getLast?.map fun back =>
    ({ c with
        map_ := Function.update c.map_ back.2.hostname none
        order_ := c.order_.dropLast },
      [.free back.2.ctx])

/-- The end of `put`: a new entry at the front. -/
def insert (c : CertCache) (hostname : Bytes) (ctx : SslCtx) : CertCache :=
  { c with
    order_ := (c.nodes, ⟨hostname, ctx⟩) :: c.order_
    map_ := Function.update c.map_ hostname (some c.nodes)
    nodes := c.nodes + 1 }

/-- `put`, with the reference counting calls it makes. -/
def put (c : CertCache) (hostname : Bytes) (ctx : SslCtx) : Option (CertCache × List CtxCall) :=
  match c.map_ hostname with
  | some it =>
    (c.order_.lookup it).bind fun entry =>
      (setCtx c.order_ it ctx).bind fun order =>
        (splice order it).map fun order =>
          ({ c with order_ := order }, [.free entry.ctx, .upRef ctx])
  | none =>
    if c.order_.length ≥ c.maxEntries_ then
      c.evict.map fun evicted => (evicted.1.insert hostname ctx, evicted.2 ++ [.upRef ctx])
    else some (c.insert hostname ctx, [.upRef ctx])

def size (c : CertCache) : Nat := c.order_.length

/-- The cache after a call, whatever the call returns. -/
def step (c : CertCache) : LruCall Bytes SslCtx → Option CertCache
  | .get hostname => (c.get hostname).map Prod.fst
  | .put hostname ctx => (c.put hostname ctx).map Prod.fst

/-- The cache after a list of calls. -/
def run (c : CertCache) (calls : List (LruCall Bytes SslCtx)) : Option CertCache :=
  calls.foldlM step c

def entries (c : CertCache) : List (Bytes × SslCtx) :=
  c.order_.map fun node => (node.2.hostname, node.2.ctx)

def hostnames (c : CertCache) : List Bytes := c.order_.map (·.2.hostname)

/-- The map and the list are mirror images. -/
structure Mirrors (c : CertCache) : Prop where
  nodes : (c.order_.map Prod.fst).Nodup
  hostnames : c.hostnames.Nodup
  made : ∀ node ∈ c.order_, node.1 < c.nodes
  map : ∀ hostname it, c.map_ hostname = some it ↔
    ∃ entry, (it, entry) ∈ c.order_ ∧ entry.hostname = hostname

theorem mirrors_new (maxEntries : Nat) : Mirrors { maxEntries_ := maxEntries } where
  nodes := List.nodup_nil
  hostnames := List.nodup_nil
  made := by simp
  map := by simp

theorem keys_entries (c : CertCache) : c.entries.map Prod.fst = c.hostnames := by
  simp [entries, hostnames]

theorem Mirrors.lookup {c : CertCache} (h : Mirrors c) {hostname : Bytes} {it : Node}
    (hit : c.map_ hostname = some it) :
    ∃ ctx, c.order_.lookup it = some ⟨hostname, ctx⟩ ∧ (it, ⟨hostname, ctx⟩) ∈ c.order_ := by
  obtain ⟨⟨host, ctx⟩, hmem, rfl⟩ := (h.map hostname it).mp hit
  exact ⟨ctx, LruList.lookup_of_mem h.nodes hmem, hmem⟩

/-- The other nodes are those of the other hostnames. -/
theorem Mirrors.node_iff {c : CertCache} (h : Mirrors c) {hostname : Bytes} {it : Node}
    (hit : c.map_ hostname = some it) {node : Node × Entry} (hmem : node ∈ c.order_) :
    node.1 = it ↔ node.2.hostname = hostname := by
  obtain ⟨ctx, hlook, hin⟩ := h.lookup hit
  constructor
  · rintro rfl
    have hnode : c.order_.lookup node.1 = some node.2 := LruList.lookup_of_mem h.nodes hmem
    rw [hlook] at hnode
    rw [← Option.some.inj hnode]
  · intro hname
    have hnode : c.map_ hostname = some node.1 :=
      (h.map hostname node.1).mpr ⟨node.2, hmem, hname⟩
    exact Option.some.inj (hnode.symm.trans hit)

theorem Mirrors.missing {c : CertCache} (h : Mirrors c) {hostname : Bytes} :
    c.map_ hostname = none ↔ hostname ∉ c.hostnames := by
  constructor
  · intro hnone hmem
    obtain ⟨node, hnode, hname⟩ := List.mem_map.mp hmem
    have := (h.map hostname node.1).mpr ⟨node.2, hnode, hname⟩
    rw [hnone] at this
    cases this
  · intro hnot
    cases hit : c.map_ hostname with
    | none => rfl
    | some it =>
      obtain ⟨entry, hmem, rfl⟩ := (h.map hostname it).mp hit
      exact absurd (List.mem_map_of_mem (f := fun node => node.2.hostname) hmem) hnot

/-- The list with the entry of a hostname, whose context may be a new one, at the front. -/
def front (c : CertCache) (it : Node) (entry : Entry) : CertCache :=
  { c with order_ := (it, entry) :: c.order_.filter (·.1 ≠ it) }

theorem Mirrors.front {c : CertCache} (h : Mirrors c) {hostname : Bytes} {it : Node}
    (hit : c.map_ hostname = some it) (ctx : SslCtx) :
    Mirrors (c.front it ⟨hostname, ctx⟩) ∧
      (c.front it ⟨hostname, ctx⟩).entries =
        (hostname, ctx) :: c.entries.filter (·.1 ≠ hostname) := by
  have hfilter : c.order_.filter (·.1 ≠ it) = c.order_.filter (·.2.hostname ≠ hostname) := by
    apply List.filter_congr
    intro node hmem
    simp [h.node_iff hit hmem]
  have hnodes : (c.order_.filter (·.1 ≠ it)).map Prod.fst =
      (c.order_.map Prod.fst).filter (· ≠ it) := by
    rw [List.filter_map]
    rfl
  have hnames : (c.order_.filter (·.1 ≠ it)).map (·.2.hostname) =
      c.hostnames.filter (· ≠ hostname) := by
    rw [hfilter, CertCache.hostnames, List.filter_map]
    rfl
  constructor
  · constructor
    · simp only [CertCache.front, List.map_cons, hnodes]
      exact List.nodup_cons.mpr ⟨by simp, h.nodes.filter _⟩
    · simp only [CertCache.hostnames, CertCache.front, List.map_cons, hnames]
      exact List.nodup_cons.mpr ⟨by simp, h.hostnames.filter _⟩
    · intro node hmem
      rcases List.mem_cons.mp hmem with rfl | hrest
      · obtain ⟨old, _, hin⟩ := h.lookup hit
        exact h.made (it, ⟨hostname, old⟩) hin
      · exact h.made node (List.mem_of_mem_filter hrest)
    · intro name node
      by_cases hname : name = hostname
      · subst hname
        simp only [CertCache.front, hit, List.mem_cons, List.mem_filter]
        constructor
        · rintro ⟨⟩
          exact ⟨⟨name, ctx⟩, .inl rfl, rfl⟩
        · rintro ⟨entry, hcase, hentry⟩
          rcases hcase with hcase | hcase
          · rw [(Prod.mk.inj hcase).1]
          · exact absurd ((h.node_iff hit hcase.1).mpr hentry) (by simpa using hcase.2)
      · rw [CertCache.front]
        simp only [h.map name node, List.mem_cons]
        constructor
        · rintro ⟨entry, hmem, rfl⟩
          refine ⟨entry, .inr (List.mem_filter.mpr ⟨hmem, ?_⟩), rfl⟩
          have := mt (h.node_iff hit hmem).mp hname
          simpa using this
        · rintro ⟨entry, hcase, rfl⟩
          rcases hcase with hcase | hcase
          · exact absurd (congrArg Entry.hostname (Prod.mk.inj hcase).2) hname
          · exact ⟨entry, List.mem_of_mem_filter hcase, rfl⟩
  · rw [CertCache.entries, CertCache.front, List.map_cons, hfilter, CertCache.entries,
      List.filter_map]
    rfl

theorem splice_front {c : CertCache} {it : Node} {entry : Entry}
    (h : c.order_.lookup it = some entry) :
    splice c.order_ it = some (c.front it entry).order_ := by
  rw [splice, h]
  rfl

theorem get_hit {c : CertCache} (h : Mirrors c) {hostname : Bytes} {it : Node}
    (hit : c.map_ hostname = some it) : ∃ ctx, c.order_.lookup it = some ⟨hostname, ctx⟩ ∧
      c.get hostname = some (c.front it ⟨hostname, ctx⟩, some ctx) := by
  obtain ⟨ctx, hlook, -⟩ := h.lookup hit
  refine ⟨ctx, hlook, ?_⟩
  simp [get, hit, splice_front hlook, front]

theorem get_miss {c : CertCache} {hostname : Bytes} (hit : c.map_ hostname = none) :
    c.get hostname = some (c, none) := by
  simp [get, hit]

theorem lookup_withCtx {order : List (Node × Entry)} {it : Node} {entry : Entry}
    (h : order.lookup it = some entry) (ctx : SslCtx) :
    (order.map (withCtx it ctx)).lookup it = some ⟨entry.hostname, ctx⟩ := by
  induction order with
  | nil => cases h
  | cons node rest ih =>
    rw [List.lookup_cons] at h
    rw [List.map_cons]
    by_cases hk : node.1 = it
    · subst hk
      rw [beq_self_eq_true] at h
      rw [← Option.some.inj h, withCtx, if_pos rfl, List.lookup_cons_self]
    · have hne : (it == node.1) = false := by simpa using Ne.symm hk
      rw [hne] at h
      rw [withCtx, if_neg hk, List.lookup_cons, hne]
      exact ih h

theorem filter_withCtx (order : List (Node × Entry)) (it : Node) (ctx : SslCtx) :
    (order.map (withCtx it ctx)).filter (·.1 ≠ it) = order.filter (·.1 ≠ it) := by
  induction order with
  | nil => rfl
  | cons node rest ih =>
    rw [List.map_cons]
    by_cases hk : node.1 = it
    · rw [withCtx, if_pos hk, List.filter_cons_of_neg (by simp),
        List.filter_cons_of_neg (by simpa using hk), ih]
    · rw [withCtx, if_neg hk, List.filter_cons_of_pos (by simpa using hk),
        List.filter_cons_of_pos (by simpa using hk), ih]

/-- The assignment reaches one node, which the splice then moves. -/
theorem put_hit {c : CertCache} (h : Mirrors c) {hostname : Bytes} {it : Node}
    (hit : c.map_ hostname = some it) (ctx : SslCtx) : ∃ old,
      (it, ⟨hostname, old⟩) ∈ c.order_ ∧
      c.put hostname ctx = some (c.front it ⟨hostname, ctx⟩, [.free old, .upRef ctx]) := by
  obtain ⟨old, hlook, hin⟩ := h.lookup hit
  have hset : setCtx c.order_ it ctx = some (c.order_.map (withCtx it ctx)) := by
    rw [setCtx, hlook]
    rfl
  have hsplice : splice (c.order_.map (withCtx it ctx)) it =
      some (c.front it ⟨hostname, ctx⟩).order_ := by
    rw [splice, lookup_withCtx hlook, filter_withCtx]
    rfl
  exact ⟨old, hin, by simp [put, hit, hlook, hset, hsplice, front]⟩

theorem Mirrors.evict {c : CertCache} (h : Mirrors c) {init : List (Node × Entry)}
    {back : Node × Entry} (horder : c.order_ = init ++ [back]) :
    ∃ c', c.evict = some (c', [.free back.2.ctx]) ∧ Mirrors c' ∧ c'.order_ = init ∧
      c'.maxEntries_ = c.maxEntries_ := by
  have hnodes := h.nodes
  have hnames := h.hostnames
  rw [horder, List.map_append] at hnodes
  rw [CertCache.hostnames, horder, List.map_append] at hnames
  have hlast : c.evict = some ({ c with
      map_ := Function.update c.map_ back.2.hostname none
      order_ := init }, [.free back.2.ctx]) := by
    simp [CertCache.evict, horder]
  refine ⟨_, hlast, ⟨?_, ?_, ?_, ?_⟩, rfl, rfl⟩
  · exact hnodes.sublist (List.sublist_append_left _ _)
  · exact hnames.sublist (List.sublist_append_left _ _)
  · intro node hmem
    exact h.made node (by rw [horder]; exact List.mem_append_left _ hmem)
  · intro name it
    have hmap := h.map name it
    rw [horder] at hmap
    have hapart : ∀ node ∈ init, node.2.hostname ≠ back.2.hostname := by
      intro node hmem heq
      have := List.disjoint_of_nodup_append hnames (List.mem_map_of_mem hmem)
      exact this (by simp [heq])
    change Function.update c.map_ back.2.hostname none name = some it ↔
      ∃ entry, (it, entry) ∈ init ∧ entry.hostname = name
    by_cases hname : name = back.2.hostname
    · subst hname
      rw [Function.update_self]
      constructor
      · rintro ⟨⟩
      · rintro ⟨entry, hmem, hentry⟩
        exact absurd hentry (hapart _ hmem)
    · rw [Function.update_of_ne hname, hmap]
      constructor
      · rintro ⟨entry, hmem, hentry⟩
        rcases List.mem_append.mp hmem with hmem | hmem
        · exact ⟨entry, hmem, hentry⟩
        · rw [← List.mem_singleton.mp hmem] at hname
          exact absurd hentry.symm hname
      · rintro ⟨entry, hmem, hentry⟩
        exact ⟨entry, List.mem_append_left _ hmem, hentry⟩

theorem Mirrors.insert {c : CertCache} (h : Mirrors c) {hostname : Bytes}
    (hnew : hostname ∉ c.hostnames) (ctx : SslCtx) : Mirrors (c.insert hostname ctx) := by
  constructor
  · apply List.nodup_cons.mpr
    constructor
    · intro hmem
      obtain ⟨node, hnode, hn⟩ := List.mem_map.mp hmem
      have hlt := h.made node hnode
      exact Nat.ne_of_lt hlt hn
    · exact h.nodes
  · exact List.nodup_cons.mpr ⟨hnew, h.hostnames⟩
  · intro node hmem
    rcases List.mem_cons.mp hmem with rfl | hmem
    · exact Nat.lt_succ_self _
    · exact Nat.lt_succ_of_lt (h.made node hmem)
  · intro name it
    rw [CertCache.insert]
    by_cases hname : name = hostname
    · subst hname
      simp only [Function.update_self, List.mem_cons]
      constructor
      · rintro ⟨⟩
        exact ⟨⟨name, ctx⟩, .inl rfl, rfl⟩
      · rintro ⟨entry, hcase, hentry⟩
        rcases hcase with hcase | hcase
        · rw [(Prod.mk.inj hcase).1]
        · subst hentry
          exact absurd (List.mem_map_of_mem (f := fun node => node.2.hostname) hcase) hnew
    · simp only [Function.update_of_ne hname, h.map name it, List.mem_cons]
      constructor
      · rintro ⟨entry, hmem, hentry⟩
        exact ⟨entry, .inr hmem, hentry⟩
      · rintro ⟨entry, hcase, rfl⟩
        rcases hcase with hcase | hcase
        · exact absurd (congrArg Entry.hostname (Prod.mk.inj hcase).2) hname
        · exact ⟨entry, hcase, rfl⟩

/-- The cache as the bounded list of its latest uses. -/
structure Refines (c : CertCache) {n : Nat} (l : LruList Bytes SslCtx n) : Prop where
  mirrors : Mirrors c
  maxEntries : c.maxEntries_ = n
  entries : c.entries = l.entries

theorem refines_new (n : Nat) :
    Refines { maxEntries_ := n } (LruList.empty : LruList Bytes SslCtx n) where
  mirrors := mirrors_new n
  maxEntries := rfl
  entries := rfl

theorem Refines.hostnames {c : CertCache} {n : Nat} {l : LruList Bytes SslCtx n}
    (h : Refines c l) : c.hostnames = l.keys := by
  rw [← keys_entries, h.entries]
  rfl

theorem Refines.size {c : CertCache} {n : Nat} {l : LruList Bytes SslCtx n}
    (h : Refines c l) : c.size = l.entries.length := by
  rw [← h.entries, CertCache.size, CertCache.entries, List.length_map]

/-- A hit and a `put` of a hostname that is there bring its entry to the front. -/
theorem Refines.front {c : CertCache} {n : Nat} {l : LruList Bytes SslCtx n} (h : Refines c l)
    {hostname : Bytes} {it : Node} (hit : c.map_ hostname = some it) (ctx : SslCtx) :
    Refines (c.front it ⟨hostname, ctx⟩) (l.put hostname ctx) := by
  have hfront := h.mirrors.front hit ctx
  have hmem : hostname ∈ l.keys := by
    rw [← h.hostnames]
    by_contra hnot
    rw [h.mirrors.missing.mpr hnot] at hit
    cases hit
  refine ⟨hfront.1, h.maxEntries, ?_⟩
  rw [hfront.2, h.entries, l.entries_put_self ctx hmem]

theorem Refines.get {c : CertCache} {n : Nat} {l : LruList Bytes SslCtx n} (h : Refines c l)
    (hostname : Bytes) :
    ∃ c', c.get hostname = some (c', l.find hostname) ∧ Refines c' (l.get hostname) := by
  cases hit : c.map_ hostname with
  | none =>
    have hnone : l.find hostname = none := by
      have hnot := h.mirrors.missing.mp hit
      rw [h.hostnames, ← l.find_isSome hostname] at hnot
      simpa using hnot
    refine ⟨c, by rw [get_miss hit, hnone], ?_⟩
    rwa [LruList.get, hnone]
  | some it =>
    obtain ⟨ctx, hlook, hget⟩ := get_hit h.mirrors hit
    have hfind : l.find hostname = some ctx := by
      rw [LruList.find, ← h.entries]
      apply LruList.lookup_of_mem
      · rw [keys_entries]
        exact h.mirrors.hostnames
      · obtain ⟨ctx', hlook', hin⟩ := h.mirrors.lookup hit
        rw [hlook] at hlook'
        cases hlook'
        exact List.mem_map_of_mem (f := fun node => (node.2.hostname, node.2.ctx)) hin
    refine ⟨_, by rw [hget, hfind], ?_⟩
    rw [LruList.get, hfind]
    exact h.front hit ctx

theorem Refines.put {c : CertCache} {n : Nat} {l : LruList Bytes SslCtx n} (h : Refines c l)
    (hn : 0 < n) (hostname : Bytes) (ctx : SslCtx) :
    ∃ c' refs, c.put hostname ctx = some (c', refs) ∧ Refines c' (l.put hostname ctx) := by
  cases hit : c.map_ hostname with
  | some it =>
    obtain ⟨old, -, hput⟩ := put_hit h.mirrors hit ctx
    exact ⟨_, _, hput, h.front hit ctx⟩
  | none =>
    have hnew : hostname ∉ c.hostnames := h.mirrors.missing.mp hit
    have hkeys : hostname ∉ l.keys := by rwa [← h.hostnames]
    have hsize : c.order_.length = l.entries.length := h.size
    by_cases hfull : c.maxEntries_ ≤ c.order_.length
    · have hmax := h.maxEntries
      have hne : c.order_ ≠ [] := by
        rintro hnil
        rw [hnil, List.length_nil] at hfull
        omega
      have horder := (List.dropLast_append_getLast hne).symm
      obtain ⟨c', hevict, hmirrors, hrest, hmax'⟩ := h.mirrors.evict horder
      have hnew' : hostname ∉ c'.hostnames := by
        rw [CertCache.hostnames, hrest]
        intro hmem
        exact hnew (List.map_subset _ (List.dropLast_subset c.order_) hmem)
      refine ⟨c'.insert hostname ctx, [.free (c.order_.getLast hne).2.ctx] ++ [.upRef ctx], ?_,
        hmirrors.insert hnew' ctx, ?_, ?_⟩
      · simp only [CertCache.put, hit, ge_iff_le, hfull, if_true, hevict, Option.map_some]
      · exact hmax'.trans hmax
      · rw [l.entries_put_full ctx hkeys hn (by omega), ← h.entries, CertCache.entries,
          CertCache.entries, ← List.map_dropLast, ← hrest]
        rfl
    · have hmax := h.maxEntries
      refine ⟨c.insert hostname ctx, [.upRef ctx], ?_, h.mirrors.insert hnew ctx, hmax, ?_⟩
      · simp only [CertCache.put, hit, ge_iff_le, hfull, if_false]
      · rw [l.entries_put_room ctx hkeys (by omega), ← h.entries]
        rfl

theorem Refines.step {c : CertCache} {n : Nat} {l : LruList Bytes SslCtx n} (h : Refines c l)
    (hn : 0 < n) (call : LruCall Bytes SslCtx) :
    ∃ c', c.step call = some c' ∧ Refines c' (l.step call) := by
  cases call with
  | get hostname =>
    obtain ⟨c', hget, href⟩ := h.get hostname
    exact ⟨c', by simp [CertCache.step, hget], href⟩
  | put hostname ctx =>
    obtain ⟨c', refs, hput, href⟩ := h.put hn hostname ctx
    exact ⟨c', by simp [CertCache.step, hput], href⟩

/-- Every list of calls can be made, and leaves what its history says. -/
theorem run_recalls {c : CertCache} {n : Nat} {l : LruList Bytes SslCtx n}
    {past : List (LruCall Bytes SslCtx)} (h : Refines c l) (hp : l.Recalls past) (hn : 0 < n)
    (calls : List (LruCall Bytes SslCtx)) :
    ∃ c' l', run c calls = some c' ∧ Refines c' (l' : LruList Bytes SslCtx n) ∧
      l'.Recalls (calls.reverse ++ past) := by
  induction calls generalizing c l past with
  | nil => exact ⟨c, l, rfl, h, hp⟩
  | cons call rest ih =>
    obtain ⟨c', hstep, href⟩ := h.step hn call
    obtain ⟨c'', l'', hrun, href', hp'⟩ := ih href (hp.step call)
    refine ⟨c'', l'', ?_, href', ?_⟩
    · rw [run, List.foldlM_cons, hstep]
      exact hrun
    · simpa using hp'

/-- A cache for `maxEntries` hostnames, after any calls, is the list of the
latest uses: what it holds, what `get` finds and what `put` drops is told by
the history of the calls. -/
theorem lru_of_history (maxEntries : Nat) (hmax : 1 ≤ maxEntries)
    (calls : List (LruCall Bytes SslCtx)) :
    ∃ c, run { maxEntries_ := maxEntries } calls = some c ∧
      c.size ≤ maxEntries ∧ c.hostnames.Nodup ∧
      (∀ hostname it, c.map_ hostname = some it ↔
        ∃ entry, (it, entry) ∈ c.order_ ∧ entry.hostname = hostname) ∧
      (∀ hostname ∈ c.hostnames, hostname ∈ LruList.uses maxEntries calls.reverse) ∧
      c.hostnames.Pairwise (fun a b =>
        age a (LruList.uses maxEntries calls.reverse) <
          age b (LruList.uses maxEntries calls.reverse)) ∧
      (∀ hostname, ∃ c', c.get hostname = some (c',
        if since hostname (LruList.uses maxEntries calls.reverse) < maxEntries then
          LruList.latestPut hostname calls.reverse
        else none)) ∧
      ∀ hostname ctx, ∃ c' refs, c.put hostname ctx = some (c', refs) ∧
        c'.entries = (hostname, ctx) ::
          if hostname ∈ c.hostnames then c.entries.filter (·.1 ≠ hostname)
          else if c.size < maxEntries then c.entries else c.entries.dropLast := by
  obtain ⟨c, l, hrun, href, hpast⟩ :=
    run_recalls (refines_new maxEntries) LruList.recalls_empty hmax calls
  rw [List.append_nil] at hpast
  have hnames : c.hostnames =
      (recency (LruList.uses maxEntries calls.reverse)).take maxEntries := by
    rw [href.hostnames, hpast.keys]
  have hsize := href.size
  refine ⟨c, hrun, ?_, href.mirrors.hostnames, href.mirrors.map, ?_, ?_, ?_, ?_⟩
  · rw [hsize]
    exact l.bounded
  · intro hostname hmem
    rw [hnames] at hmem
    exact mem_recency.mp (List.mem_of_mem_take hmem)
  · rw [hnames]
    exact (pairwise_recency _).sublist (List.take_sublist _ _)
  · intro hostname
    obtain ⟨c', hget, -⟩ := href.get hostname
    exact ⟨c', by rw [hget, hpast.find_since]⟩
  · intro hostname ctx
    obtain ⟨c', refs, hput, href'⟩ := href.put hmax hostname ctx
    refine ⟨c', refs, hput, ?_⟩
    rw [href'.entries]
    split
    · next hmem =>
      rw [l.entries_put_self ctx (href.hostnames ▸ hmem), href.entries]
    · next hmem =>
      rw [href.hostnames] at hmem
      split
      · next hroom => rw [l.entries_put_room ctx hmem (hsize ▸ hroom), href.entries]
      · next hfull =>
        rw [l.entries_put_full ctx hmem hmax (by omega), href.entries]

theorem lru_of_history_two : ∃ c,
    run { maxEntries_ := 2 } [.put [97] 1, .put [98] 2, .get [97], .put [99] 3] = some c ∧
      c.size ≤ 2 := by
  obtain ⟨c, hrun, hsize, -⟩ :=
    lru_of_history 2 (by decide) [.put [97] 1, .put [98] 2, .get [97], .put [99] 3]
  exact ⟨c, hrun, hsize⟩

end CertCache

end DeepSeer
