import DeepSeer.CodecObjects
import DeepSeer.FallibleRuns
import Mathlib.Logic.Equiv.Basic

/-!
What moves and swaps make of a codec: nothing. Its pointers lead to itself wherever it
is, and it decodes as one that stays in its place.
-/
namespace DeepSeer

open ByteMemory FallibleRuns CodecNote

/-- The object where its pointers lead to the address. -/
def CodecObject.placed (o : CodecObject) (a : Nat) : CodecObject :=
  { o with data := a, settings := a }

namespace CodecMemory

variable {m : CodecMemory} {a b : Nat} {o o' : CodecObject}

/-- What the user of a codec has heard. -/
def heard (m : CodecMemory) (id : Nat) : List Emission :=
  (m.told.filter fun t => t.1 = id).map Prod.snd

/-- Objects point to themselves, and each is what the notes tell of it. -/
structure Rooted (m : CodecMemory) : Prop where
  self : ∀ {a o}, m.objects a = some o → o.data = a ∧ o.settings = a ∧ o.settings_ = true
  known : ∀ {a o}, m.objects a = some o → o.id < m.ids
  told : ∀ t ∈ m.told, t.1 < m.ids
  unique : ∀ {a b o o'}, m.objects a = some o → m.objects b = some o' → o.id = o'.id → a = b
  replays : ∀ {a o}, m.objects a = some o →
    parseOf o.id m.log = some (o.codec, o.callbacks_, m.heard o.id)

theorem rooted_new : Rooted {} where
  self := fun h => nomatch h
  known := fun h => nomatch h
  told := fun _ h => nomatch h
  unique := fun h => nomatch h
  replays := fun h => nomatch h

theorem parseOf_note (id : Nat) (log : List CodecNote) (n : CodecNote) :
    parseOf id (log ++ [n]) = follow id (parseOf id log) n := by
  simp [parseOf]

theorem set_objects_self : (m.set a (some o)).objects a = some o := Function.update_self ..

theorem set_objects_ne (h : b ≠ a) {x : Option CodecObject} :
    (m.set a x).objects b = m.objects b := Function.update_of_ne h ..

theorem Rooted.placed_self (h : Rooted m) (ho : m.objects a = some o) : o.placed a = o := by
  obtain ⟨hdata, hsettings, -⟩ := h.self ho
  cases o
  cases hdata
  cases hsettings
  rfl

/-- A codec that begins at a free address. -/
theorem Rooted.begin (h : Rooted m) (ha : m.objects a = none) (hat : o.placed a = o)
    (hsettings : o.settings_ = true) (hid : o.id = m.ids) :
    Rooted ((m.set a (some o)).begin o) := by
  have hold : ∀ {b o'}, ((m.set a (some o)).begin o).objects b = some o' →
      b = a ∧ o' = o ∨ b ≠ a ∧ m.objects b = some o' := by
    intro b o' hb
    change (m.set a (some o)).objects b = some o' at hb
    by_cases hba : b = a
    · subst hba
      rw [set_objects_self] at hb
      exact .inl ⟨rfl, (Option.some.inj hb).symm⟩
    · rw [set_objects_ne hba] at hb
      exact .inr ⟨hba, hb⟩
  have hlog : ∀ id, parseOf id ((m.set a (some o)).begin o).log =
      if m.ids = id then some (o.codec, o.callbacks_, []) else parseOf id m.log :=
    fun id => parseOf_note id m.log _
  refine ⟨fun hb => ?_, fun hb => ?_, fun t ht => ?_, fun hb hc heq => ?_, fun hb => ?_⟩
  · rcases hold hb with ⟨rfl, rfl⟩ | ⟨-, hb⟩
    · exact ⟨congrArg CodecObject.data hat.symm, congrArg CodecObject.settings hat.symm, hsettings⟩
    · exact h.self hb
  · rcases hold hb with ⟨-, rfl⟩ | ⟨-, hb⟩
    · exact hid ▸ Nat.lt_succ_self _
    · exact (h.known hb).trans (Nat.lt_succ_self _)
  · exact (h.told t ht).trans (Nat.lt_succ_self _)
  · rcases hold hb with ⟨hba, hob⟩ | ⟨-, hb⟩ <;> rcases hold hc with ⟨hca, hoc⟩ | ⟨-, hc⟩
    · exact hba.trans hca.symm
    · rw [hob, hid] at heq
      exact absurd heq.symm (h.known hc).ne
    · rw [hoc, hid] at heq
      exact absurd heq (h.known hb).ne
    · exact h.unique hb hc heq
  · rcases hold hb with ⟨-, heq⟩ | ⟨-, hb⟩
    · rw [heq, hlog, if_pos hid.symm]
      have hnone : m.told.filter (fun t => t.1 = o.id) = [] := by
        rw [List.filter_eq_nil_iff]
        intro t ht
        have := h.told t ht
        simp only [decide_eq_true_eq]
        omega
      change _ = some (_, _, (m.told.filter _).map Prod.snd)
      rw [hnone]
      rfl
    · rw [hlog, if_neg (h.known hb).ne']
      exact h.replays hb

/-- Objects change places, with their pointers. -/
def exchange (m : CodecMemory) (a b : Nat) : CodecMemory :=
  { m with objects := fun k => (m.objects (Equiv.swap a b k)).map fun o => o.placed k }

theorem Rooted.exchange (h : Rooted m) (a b : Nat) : Rooted (m.exchange a b) := by
  have hold : ∀ {k o}, (m.exchange a b).objects k = some o →
      ∃ o', m.objects (Equiv.swap a b k) = some o' ∧ o'.placed k = o :=
    fun hk => Option.map_eq_some_iff.mp hk
  refine ⟨fun hk => ?_, fun hk => ?_, h.told, fun hk hl heq => ?_, fun hk => ?_⟩
  · obtain ⟨o', ho', rfl⟩ := hold hk
    exact ⟨rfl, rfl, (h.self ho').2.2⟩
  · obtain ⟨o', ho', rfl⟩ := hold hk
    exact (h.known ho' :)
  · obtain ⟨o', ho', rfl⟩ := hold hk
    obtain ⟨o'', ho'', rfl⟩ := hold hl
    exact (Equiv.swap a b).injective (h.unique ho' ho'' heq)
  · obtain ⟨o', ho', rfl⟩ := hold hk
    exact (h.replays ho' :)

theorem Rooted.destroy (h : Rooted m) (a : Nat) : Rooted (m.destroy a) := by
  have hold : ∀ {b o}, (m.destroy a).objects b = some o → m.objects b = some o := by
    intro b o hb
    by_cases hba : b = a
    · subst hba
      exact absurd ((Function.update_self ..).symm.trans hb) (by simp)
    · exact (set_objects_ne hba).symm.trans hb
  exact ⟨fun hb => h.self (hold hb), fun hb => h.known (hold hb), h.told,
    fun hb hc => h.unique (hold hb) (hold hc), fun hb => h.replays (hold hb)⟩

theorem get_some (ho : m.objects a = some o) : m.get a = .ok o := by
  rw [get, ho]

theorem ext_objects {m m' : CodecMemory} (ho : ∀ k, m.objects k = m'.objects k)
    (hl : m.log = m'.log) (ht : m.told = m'.told) (hi : m.ids = m'.ids) : m = m' := by
  obtain ⟨objects, log, told, ids⟩ := m
  obtain ⟨objects', log', told', ids'⟩ := m'
  obtain rfl : objects = objects' := funext ho
  obtain rfl : log = log' := hl
  obtain rfl : told = told' := ht
  obtain rfl : ids = ids' := hi
  rfl

theorem set_objects {x : Option CodecObject} {k : Nat} :
    (m.set a x).objects k = if k = a then x else m.objects k := Function.update_apply ..

theorem exchange_eq (h : Rooted m) (ha : m.objects a = some o) (hb : m.objects b = some o') :
    m.exchange a b = (m.set a (some (o'.placed a))).set b (some (o.placed b)) := by
  refine ext_objects (fun k => ?_) rfl rfl rfl
  rw [set_objects, set_objects]
  unfold exchange
  dsimp only
  by_cases hkb : k = b
  · rw [if_pos hkb, hkb, Equiv.swap_apply_right, ha]
    rfl
  rw [if_neg hkb]
  by_cases hka : k = a
  · rw [if_pos hka, hka, Equiv.swap_apply_left, hb]
    rfl
  rw [if_neg hka, Equiv.swap_apply_of_ne_of_ne hka hkb]
  cases hk : m.objects k with
  | none => rfl
  | some o'' => exact congrArg some (h.placed_self hk)

/-- A swap is an exchange of the objects. -/
theorem Rooted.swap_eq (h : Rooted m) (ha : m.objects a = some o) (hb : m.objects b = some o') :
    m.swap a b = .ok (m.exchange a b) := by
  obtain ⟨mine, hmine⟩ : ∃ x, ((m.set a (some o')).set b (some o)).objects a = some x ∧
      x.placed a = o'.placed a := by
    rw [set_objects, set_objects, if_pos rfl]
    split
    · next hab =>
      subst hab
      exact ⟨o, rfl, by rw [Option.some.inj (ha.symm.trans hb)]⟩
    · exact ⟨o', rfl, rfl⟩
  obtain ⟨theirs, htheirs⟩ : ∃ x, (((m.set a (some o')).set b (some o)).set a
      (some (mine.placed a))).objects b = some x ∧ x.placed b = o.placed b := by
    rw [set_objects, set_objects, if_pos rfl]
    split
    · next hba =>
      subst hba
      exact ⟨mine.placed b, rfl, hmine.2.trans (by rw [Option.some.inj (ha.symm.trans hb)])⟩
    · exact ⟨o, rfl, rfl⟩
  have hend : m.swap a b = .ok ((((m.set a (some o')).set b (some o)).set a
      (some (mine.placed a))).set b (some (theirs.placed b))) := by
    have hget : (((m.set a (some o')).set b (some o)).set a
        (some { mine with data := a, settings := a })).get b = .ok theirs := get_some htheirs.1
    unfold CodecMemory.swap
    simp only [get_some ha, get_some hb, get_some hmine.1, hget, bind, Except.bind]
    rfl
  rw [hend, exchange_eq h ha hb, hmine.2, htheirs.2]
  refine congrArg Except.ok (ext_objects (fun k => ?_) rfl rfl rfl)
  simp only [set_objects]
  grind

/-- A move construction is an exchange with the free address, where a codec then begins
of what the members are left with. -/
theorem Rooted.moveConstruct_eq (h : Rooted m) (ha : m.objects a = none)
    (hb : m.objects b = some o) (left : Left) : ∃ old : CodecObject,
      (old.placed b = old ∧ old.settings_ = true ∧ old.id = m.ids) ∧
      m.moveConstruct a b left = .ok (((m.exchange a b).set b (some old)).begin old) := by
  obtain ⟨hdata, hsettings, htable⟩ := h.self hb
  have hne : a ≠ b := by
    rintro rfl
    exact absurd (ha.symm.trans hb) (by simp)
  refine ⟨{ o with codec := left.codec o.codec, callbacks_ := left.callbacks_, id := m.ids },
    ⟨?_, htable, rfl⟩, ?_⟩
  · simp only [CodecObject.placed, hdata, hsettings]
  · unfold CodecMemory.moveConstruct
    simp only [get_some hb, bind, Except.bind]
    refine congrArg Except.ok (ext_objects (fun k => ?_) rfl rfl rfl)
    change (CodecMemory.set _ _ _).objects k = (CodecMemory.set _ _ _).objects k
    rw [set_objects, set_objects, set_objects]
    unfold CodecMemory.exchange
    dsimp only
    by_cases hka : k = a
    · rw [if_pos hka, if_neg (hka ▸ hne), hka, Equiv.swap_apply_left, hb]
      rfl
    rw [if_neg hka]
    by_cases hkb : k = b
    · rw [if_pos hkb, if_pos hkb]
    rw [if_neg hkb, if_neg hkb, Equiv.swap_apply_of_ne_of_ne hka hkb]
    cases hk : m.objects k with
    | none => rfl
    | some o' => exact congrArg some (h.placed_self hk).symm

theorem exchange_free (ha : m.objects a = none) : (m.exchange a b).objects b = none := by
  simp [exchange, ha]

theorem Rooted.moveConstruct (h : Rooted m) (ha : m.objects a = none)
    (hb : m.objects b = some o) (left : Left) : ∃ m', m.moveConstruct a b left = .ok m' ∧
      Rooted m' ∧ ∀ k, k = a ∨ (m.objects k).isSome = true → (m'.objects k).isSome = true := by
  obtain ⟨old, ⟨hplaced, htable, hid⟩, he⟩ := h.moveConstruct_eq ha hb left
  refine ⟨_, he, (h.exchange a b).begin (exchange_free ha) hplaced htable hid, fun k hk => ?_⟩
  change (CodecMemory.set _ _ _).objects k |>.isSome
  rw [set_objects]
  by_cases hkb : k = b
  · rw [if_pos hkb]
    rfl
  rw [if_neg hkb]
  unfold CodecMemory.exchange
  rw [Option.isSome_map]
  by_cases hka : k = a
  · rw [hka, Equiv.swap_apply_left, hb]
    rfl
  · rw [Equiv.swap_apply_of_ne_of_ne hka hkb]
    exact hk.resolve_left hka

theorem Rooted.moveAssign (h : Rooted m) {t : Nat} (ht : m.objects t = none)
    (ha : (m.objects a).isSome) (hb : m.objects b = some o) (left : Left) :
    ∃ m', m.moveAssign a b t left = .ok m' ∧ Rooted m' := by
  obtain ⟨m₁, he, h₁, hsome⟩ := h.moveConstruct ht hb left
  obtain ⟨o₁, ho₁⟩ := Option.isSome_iff_exists.mp (hsome t (.inl rfl))
  obtain ⟨o₂, ho₂⟩ := Option.isSome_iff_exists.mp (hsome a (.inr ha))
  refine ⟨(m₁.exchange t a).destroy t, ?_, (h₁.exchange t a).destroy t⟩
  unfold CodecMemory.moveAssign
  simp only [he, h₁.swap_eq ho₁ ho₂, bind, Except.bind]

/-- A codec that goes on in its place, with a note that tells what becomes of it. -/
theorem Rooted.goOn (h : Rooted m) (ha : m.objects a = some o) (o' : CodecObject)
    (hplaced : o'.placed a = o')
    (htable : o'.settings_ = true) (hid : o'.id = o.id)
    (n : CodecNote) (more : List Emission)
    (hself : follow o.id (parseOf o.id m.log) n =
      some (o'.codec, o'.callbacks_, m.heard o.id ++ more))
    (hother : ∀ id x, id ≠ o.id → follow id x n = x) :
    Rooted { (m.set a (some o')).note n with told := m.told ++ more.map fun e => (o.id, e) } := by
  have hold : ∀ {b x}, (m.set a (some o')).objects b = some x →
      b = a ∧ x = o' ∨ b ≠ a ∧ m.objects b = some x := by
    intro b x hb
    rw [set_objects] at hb
    by_cases hba : b = a
    · rw [if_pos hba] at hb
      exact .inl ⟨hba, (Option.some.inj hb).symm⟩
    · rw [if_neg hba] at hb
      exact .inr ⟨hba, hb⟩
  have hbefore : ∀ {b x}, (m.set a (some o')).objects b = some x →
      ∃ y, m.objects b = some y ∧ y.id = x.id := by
    intro b x hb
    rcases hold hb with ⟨rfl, rfl⟩ | ⟨-, hb⟩
    · exact ⟨o, ha, hid.symm⟩
    · exact ⟨x, hb, rfl⟩
  have hheard : ∀ id, (m.told ++ more.map fun e => (o.id, e)).filter (fun t => t.1 = id) =
      m.told.filter (fun t => t.1 = id) ++
        if id = o.id then more.map fun e => (o.id, e) else [] := by
    intro id
    rw [List.filter_append]
    congr 1
    by_cases hsame : id = o.id
    · rw [if_pos hsame, List.filter_eq_self]
      simp [hsame]
    · rw [if_neg hsame, List.filter_eq_nil_iff]
      simp [Ne.symm hsame]
  refine ⟨fun hb => ?_, fun hb => ?_, fun t htold => ?_, fun hb hc heq => ?_, fun hb => ?_⟩
  · rcases hold hb with ⟨rfl, rfl⟩ | ⟨-, hb⟩
    · exact ⟨congrArg CodecObject.data hplaced.symm, congrArg CodecObject.settings hplaced.symm,
        htable⟩
    · exact h.self hb
  · obtain ⟨y, hy, hyid⟩ := hbefore hb
    exact hyid ▸ h.known hy
  · rcases List.mem_append.mp htold with htold | htold
    · exact h.told t htold
    · obtain ⟨e, -, rfl⟩ := List.mem_map.mp htold
      exact h.known ha
  · obtain ⟨y, hy, hyid⟩ := hbefore hb
    obtain ⟨z, hz, hzid⟩ := hbefore hc
    exact h.unique hy hz (hyid.trans (heq.trans hzid.symm))
  · change parseOf _ (m.log ++ [n]) = some (_, _, ((m.told ++ _).filter _).map Prod.snd)
    rw [parseOf_note, hheard]
    rcases hold hb with ⟨-, heq⟩ | ⟨hba, hb⟩
    · rw [heq, hid, hself, if_pos rfl, List.map_append, List.map_map]
      simp [heard, Function.comp_def]
    · have hne := fun hsame => hba (h.unique hb ha hsame)
      rw [if_neg hne, hother _ _ hne, List.append_nil]
      exact h.replays hb

/-- The memory while an object decodes, with the codec as far as it has come. -/
def went (m : CodecMemory) (a : Nat) (o : CodecObject) (x : Http1Codec × List Emission) :
    CodecMemory :=
  { m.set a (some { o with codec := x.1 }) with told := m.told ++ x.2.map fun e => (o.id, e) }

/-- The result of a codec that stays in its place, in memory. -/
def cameOut (f : Http1Codec × List Emission → CodecMemory) :
    Option (Http1Codec × List Emission) → Except CodecFault CodecMemory
  | none => .error .exception
  | some x => .ok (f x)

theorem parserEvent_went (hself : o.data = a ∧ o.settings = a ∧ o.settings_ = true)
    (x : Http1Codec × List Emission) (ev : ParserEvent) :
    parserEvent a (m.went a o x) ev =
      cameOut (m.went a o) (Http1Codec.hear o.callbacks_ x ev) := by
  obtain ⟨hdata, hsettings, htable⟩ := hself
  have hget : (m.went a o x).get a = .ok { o with codec := x.1 } := get_some set_objects_self
  unfold parserEvent Http1Codec.hear
  simp only [hget, bind, Except.bind, hsettings, hdata, htable, if_true]
  cases x.1.handle ev with
  | none => rfl
  | some r =>
    refine congrArg Except.ok (ext_objects (fun k => ?_) rfl ?_ rfl)
    · change (CodecMemory.set _ _ _).objects k = (CodecMemory.set _ _ _).objects k
      rw [set_objects, set_objects]
      split
      · rw [hdata, hsettings, htable]
      · next hk =>
        change (CodecMemory.set _ _ _).objects k = _
        rw [set_objects, if_neg hk]
    · simp [went, CodecMemory.set]

theorem parserEvents_went (hself : o.data = a ∧ o.settings = a ∧ o.settings_ = true)
    (events : List ParserEvent) (x : Http1Codec × List Emission) :
    events.foldlM (parserEvent a) (m.went a o x) =
      cameOut (m.went a o) (events.foldlM (Http1Codec.hear o.callbacks_) x) := by
  induction events generalizing x with
  | nil => rfl
  | cons ev rest ih =>
    rw [List.foldlM_cons, List.foldlM_cons, parserEvent_went hself x ev]
    cases Http1Codec.hear o.callbacks_ x ev with
    | none => rfl
    | some y => exact ih y

theorem went_self (ha : m.objects a = some o) : m.went a o (o.codec, []) = m := by
  refine ext_objects (fun k => ?_) rfl ?_ rfl
  · change (CodecMemory.set _ _ _).objects k = _
    rw [set_objects]
    split
    · next hk => rw [hk, ha]
    · rfl
  · simp [went]

/-- A decode reaches the codec that it was called on. -/
theorem Rooted.decode_eq (h : Rooted m) (ha : m.objects a = some o) (report : ParserReport) :
    m.decode a report =
      cameOut ((m.note (.decoded o.id report)).went a o) (o.codec.parse o.callbacks_ report) := by
  have hself := h.self ha
  unfold CodecMemory.decode Http1Codec.parse
  simp only [get_some ha, bind, Except.bind]
  split
  · exact congrArg Except.ok (went_self (m := m.note _) ha).symm
  · have hfold := parserEvents_went (m := m.note (.decoded o.id report)) hself report.events
      (o.codec, [])
    rw [went_self (m := m.note (.decoded o.id report)) ha] at hfold
    rw [hfold]
    cases report.events.foldlM (Http1Codec.hear o.callbacks_) (o.codec, []) with
    | none => rfl
    | some x =>
      have hget : ((m.note (.decoded o.id report)).went a o x).get a =
          .ok { o with codec := x.1 } := get_some set_objects_self
      simp only [cameOut, hget, Option.map_some]
      refine congrArg Except.ok (ext_objects (fun k => ?_) rfl rfl rfl)
      change (CodecMemory.set _ _ _).objects k = (CodecMemory.set _ _ _).objects k
      rw [set_objects, set_objects]
      split
      · rfl
      · next hk =>
        change (CodecMemory.set _ _ _).objects k = _
        rw [set_objects, if_neg hk]

theorem tell_other {id k : Nat} (h : id ≠ k) (x : Option Parse) (report : ParserReport)
    (cbs : CodecCallbacks) :
    follow id x (.decoded k report) = x ∧ follow id x (.callbacks k cbs) = x := by
  simp [follow, Ne.symm h]

/-- A step keeps the objects rooted or lets an exception out of a callback. -/
theorem Rooted.step (h : Rooted m) {act : CodecAct} (hact : m.Allowed act) :
    Ends (m.step act) Rooted (· = .exception) := by
  cases act with
  | construct a type => exact h.begin hact rfl rfl rfl
  | moveConstruct a b left =>
    obtain ⟨o, ho⟩ := Option.isSome_iff_exists.mp hact.2
    obtain ⟨m', he, hm', -⟩ := h.moveConstruct hact.1 ho left
    simp only [CodecMemory.step, he]
    exact hm'
  | moveAssign a b t left =>
    obtain ⟨o, ho⟩ := Option.isSome_iff_exists.mp hact.2.1
    obtain ⟨m', he, hm'⟩ := h.moveAssign hact.2.2 hact.1 ho left
    simp only [CodecMemory.step, he]
    exact hm'
  | swap a b =>
    obtain ⟨o, ho⟩ := Option.isSome_iff_exists.mp hact.1
    obtain ⟨o', ho'⟩ := Option.isSome_iff_exists.mp hact.2
    simp only [CodecMemory.step, h.swap_eq ho ho']
    exact h.exchange a b
  | destroy a => exact h.destroy a
  | setCallbacks a cbs =>
    obtain ⟨o, ho⟩ := Option.isSome_iff_exists.mp hact
    have hplaced : ({ o with callbacks_ := cbs } : CodecObject).placed a =
        { o with callbacks_ := cbs } := by
      simp only [CodecObject.placed, (h.self ho).1, (h.self ho).2.1]
    have hend := h.goOn ho { o with callbacks_ := cbs } hplaced (h.self ho).2.2 rfl
      (.callbacks o.id cbs) [] (by rw [h.replays ho]; simp [follow])
      fun id x hne => (tell_other hne x {} cbs).2
    simp only [CodecMemory.step, CodecMemory.setCallbacks, get_some ho, bind, Except.bind]
    rw [List.map_nil, List.append_nil] at hend
    exact hend
  | decode a report =>
    obtain ⟨o, ho⟩ := Option.isSome_iff_exists.mp hact
    simp only [CodecMemory.step, h.decode_eq ho]
    cases hparse : o.codec.parse o.callbacks_ report with
    | none => rfl
    | some x =>
      have hplaced : ({ o with codec := x.1 } : CodecObject).placed a =
          { o with codec := x.1 } := by
        simp only [CodecObject.placed, (h.self ho).1, (h.self ho).2.1]
      exact h.goOn ho { o with codec := x.1 } hplaced (h.self ho).2.2 rfl
        (.decoded o.id report) x.2 (by rw [h.replays ho]; simp [follow, hparse])
        fun id y hne => (tell_other hne y report {}).1

/-- In every run of codecs that are constructed, moved, swapped, destroyed and used, each
callback acts on the codec whose `decode` makes it, and a codec and what its user has
heard are at all times those of its own decodes, wherever it was moved in between. -/
theorem moved_codecs_decode (acts : List CodecAct) (h : Permitted step Allowed {} acts) :
    Ends (acts.foldlM step {})
      (fun m => ∀ a o, m.objects a = some o → o.data = a ∧ o.settings = a ∧
        parseOf o.id m.log = some (o.codec, o.callbacks_, m.heard o.id))
      (· = .exception) := by
  have hend := Ends.foldlM_permitted (fun _ _ hm hact => Rooted.step hm hact) rooted_new h
  exact hend.mono (fun m hm a o ho => ⟨(hm.self ho).1, (hm.self ho).2.1, hm.replays ho⟩)
    fun _ => id

/-- A request codec that is moved, assigned to itself and swapped between two pieces of a
request line. -/
def movedRequest : List CodecAct :=
  [.construct 1 .request, .setCallbacks 1 { onRequest := true },
    .decode 1 ⟨[.messageBegin, .url [47]], .ok⟩, .construct 3 .response,
    .moveConstruct 2 1 {}, .destroy 1, .moveAssign 2 2 1 {}, .swap 2 3,
    .decode 3 ⟨[.url [97], .headersComplete { method := [71, 69, 84] }, .messageComplete], .ok⟩]

theorem movedRequest_permitted : Permitted step Allowed {} movedRequest := by
  decide +kernel

theorem moved_codecs_decode_request : Ends (movedRequest.foldlM step {})
    (fun m => ∀ a o, m.objects a = some o → o.data = a ∧ o.settings = a ∧
      parseOf o.id m.log = some (o.codec, o.callbacks_, m.heard o.id))
    (· = .exception) :=
  moved_codecs_decode movedRequest movedRequest_permitted

end CodecMemory

end DeepSeer
