import DeepSeer.Sockets

/-!
The descriptors that sockets keep, told by the files they lead to. However often the
kernel uses a descriptor again, a call on sockets does with the files what it means for
their owners.
-/
namespace DeepSeer

open Runs UniqueOwners

namespace SocketRun

variable {s : SocketRun} {o : FileOwners} {p q k : Place} {fd : Fd}

theorem setFd_fd : (s.setFd p fd).fd_ k = if k = p then fd else s.fd_ k := by
  simp [setFd, Function.update_apply]

theorem platformClose_fd : (s.platformClose fd).fd_ = s.fd_ := by
  unfold platformClose
  split <;> rfl

theorem platformClose_exists : (s.platformClose fd).exists_ = s.exists_ := by
  unfold platformClose
  split <;> rfl

theorem close_fd : (s.close p).fd_ k = if k = p then kInvalidFd else s.fd_ k := by
  unfold close
  split
  · rw [setFd_fd, platformClose_fd]
  · next hp =>
    split
    · next hk => exact hk ▸ not_not.mp hp
    · rfl

theorem close_exists : (s.close p).exists_ = s.exists_ := by
  unfold close
  split
  · exact platformClose_exists
  · rfl

theorem moveConstruct_fd : (s.moveConstruct p q).fd_ k =
    if k = p then s.fd_ q else if k = q then kInvalidFd else s.fd_ k := by
  simp only [moveConstruct, construct, setFd_fd]

theorem swap_fd : (s.swap p q).fd_ k = s.fd_ (Equiv.swap p q k) := by
  simp only [swap, setFd_fd, Equiv.swap_apply_def]
  grind

/-- To move into a place without a descriptor is to swap with it. -/
theorem moveConstruct_swap (hp : ¬ s.valid p) :
    s.moveConstruct p q = { s.swap p q with exists_ := Function.update s.exists_ p true } := by
  have hfd : (s.moveConstruct p q).fd_ = (s.swap p q).fd_ := by
    funext k
    have hnone : s.fd_ p = kInvalidFd := not_not.mp hp
    rw [moveConstruct_fd, swap_fd, Equiv.swap_apply_def]
    grind
  calc s.moveConstruct p q = { s with
        fd_ := (s.moveConstruct p q).fd_, exists_ := Function.update s.exists_ p true } := rfl
    _ = _ := by rw [hfd]; rfl

theorem release_swap (hq : ¬ s.valid q) : s.release p q = s.swap p q := by
  have hnone : s.fd_ q = kInvalidFd := not_not.mp hq
  unfold release swap
  rw [hnone]

/-- The files are where the owners have them, and every descriptor that is kept leads to
one. -/
structure Refines (s : SocketRun) (o : FileOwners) : Prop where
  held : ∀ p, s.file p = o.owners.held p
  kept : ∀ p, s.valid p → (s.file p).isSome
  invalid : s.table kInvalidFd = none
  closed : s.closed = o.owners.dropped
  good : s.badCloses = 0
  files : s.files = o.files
  sole : o.owners.Sole (· < o.files)

theorem refines_new : Refines {} {} where
  held _ := rfl
  kept := fun p hp => absurd rfl hp
  invalid := rfl
  closed := rfl
  good := rfl
  files := rfl
  sole := Owners.sole_new.congr fun n => by simp

theorem Refines.objects (h : Refines s o) (e : Place → Bool) :
    Refines { s with exists_ := e } o :=
  ⟨h.held, h.kept, h.invalid, h.closed, h.good, h.files, h.sole⟩

theorem Refines.swap (h : Refines s o) (p q : Place) :
    Refines (s.swap p q) { o with owners := o.owners.swap p q } where
  held k := by
    have hk := h.held (Equiv.swap p q k)
    unfold file at hk ⊢
    rw [swap_fd]
    exact hk
  kept k hk := by
    have hk' := h.kept (Equiv.swap p q k)
    unfold valid file at hk'
    unfold valid at hk
    unfold file
    rw [swap_fd] at hk ⊢
    exact hk' hk
  invalid := h.invalid
  closed := h.closed
  good := h.good
  files := h.files
  sole := h.sole.swap p q

theorem Refines.empty (h : Refines s o) (hp : ¬ s.valid p) : o.owners.held p = none := by
  rw [← h.held p, file, not_not.mp hp]
  exact h.invalid

/-- A close is of an open descriptor, which no other place keeps. -/
theorem Refines.close (h : Refines s o) (p : Place) :
    Refines (s.close p) { o with owners := o.owners.drop p } := by
  unfold SocketRun.close
  split
  · next hp =>
    obtain ⟨n, hn⟩ := Option.isSome_iff_exists.mp (h.kept p hp)
    have hheld : o.owners.held p = some n := (h.held p).symm.trans hn
    have hother : ∀ k, k ≠ p → s.fd_ k ≠ s.fd_ p := by
      intro k hk heq
      have hkn : o.owners.held k = some n := by
        rw [← h.held k, file, heq]
        exact hn
      exact hk (h.sole.owner hkn hheld)
    have htable : s.platformClose (s.fd_ p) = { s with
        table := Function.update s.table (s.fd_ p) none, closed := n :: s.closed } := by
      unfold platformClose
      rw [show s.table (s.fd_ p) = some n from hn]
    rw [htable]
    have hfile : ∀ k, k ≠ p → SocketRun.file (setFd { s with
        table := Function.update s.table (s.fd_ p) none, closed := n :: s.closed }
        p kInvalidFd) k = s.file k := by
      intro k hk
      unfold file
      rw [setFd_fd, if_neg hk]
      exact Function.update_of_ne (hother k hk) ..
    have hinvalid : Function.update s.table (s.fd_ p) none kInvalidFd = none := by
      rw [Function.update_of_ne (Ne.symm hp)]
      exact h.invalid
    refine ⟨fun k => ?_, fun k hk => ?_, hinvalid, ?_, h.good, h.files, h.sole.drop p⟩
    · by_cases hk : k = p
      · subst hk
        rw [Owners.drop_held_self, file, setFd_fd, if_pos rfl]
        exact hinvalid
      · rw [hfile k hk, Owners.drop_held_of_ne hk, h.held k]
    · by_cases hkp : k = p
      · subst hkp
        exact absurd (by rw [setFd_fd, if_pos rfl]) hk
      · rw [hfile k hkp]
        refine h.kept k fun hnone => hk ?_
        rw [setFd_fd, if_neg hkp]
        exact hnone
    · simp [setFd, h.closed, hheld]
  · next hp =>
    rw [Owners.drop_empty (h.empty hp)]
    exact h

theorem Refines.destroy (h : Refines s o) (p : Place) :
    Refines (s.destroy p) { o with owners := o.owners.drop p } :=
  (h.close p).objects _

/-- A new file goes to a place without a descriptor. -/
theorem Refines.openFd (h : Refines s o) (hp : ¬ s.valid p) (hfd : s.Answers fd) :
    Refines ((s.openFd fd).setFd p fd) (o.put p) := by
  have hother : ∀ k, k ≠ p → ((s.openFd fd).setFd p fd).file k = s.file k := by
    intro k hk
    unfold file
    rw [setFd_fd, if_neg hk]
    by_cases hkfd : s.fd_ k = fd
    · have hfree : s.file k = none := by
        rw [file, hkfd]
        exact hfd.2
      by_cases hv : s.valid k
      · exact absurd (h.kept k hv) (by simp [hfree])
      · exact absurd (hkfd.symm.trans (not_not.mp hv)) hfd.1
    · exact Function.update_of_ne hkfd ..
  have hnew : ((s.openFd fd).setFd p fd).file p = some o.files := by
    unfold file
    rw [setFd_fd, if_pos rfl, ← h.files]
    exact Function.update_self ..
  refine ⟨fun k => ?_, fun k hk => ?_, ?_, h.closed, h.good, ?_, ?_⟩
  · by_cases hk : k = p
    · rw [hk, hnew]
      exact Owners.put_held_self.symm
    · rw [hother k hk, h.held k]
      exact (Owners.put_held_of_ne hk).symm
  · by_cases hkp : k = p
    · rw [hkp, hnew]
      rfl
    · rw [hother k hkp]
      refine h.kept k fun hnone => hk ?_
      rw [setFd_fd, if_neg hkp]
      exact hnone
  · exact (Function.update_of_ne (Ne.symm hfd.1) ..).trans h.invalid
  · exact congrArg (· + 1) h.files
  · refine (h.sole.put (h.empty hp) (a := o.files) (by simp)).congr fun n => ?_
    exact Nat.lt_succ_iff_lt_or_eq

/-- Between two calls there is no temporary object, and no object keeps a descriptor
after its destructor has run. -/
structure Idle (s : SocketRun) : Prop where
  temporary : ¬ s.valid .temporary
  absent : ∀ n, s.exists_ (.socket n) = false → ¬ s.valid (.socket n)

theorem idle_new : Idle {} where
  temporary := fun h => h rfl
  absent := fun _ _ h => h rfl

theorem Refines.moveConstruct (h : Refines s o) (hp : ¬ s.valid p) :
    Refines (s.moveConstruct p q) { o with owners := o.owners.swap p q } := by
  rw [moveConstruct_swap hp]
  exact (h.swap p q).objects _

theorem Refines.moveAssign (h : Refines s o) (hs : Idle s) (hp : .temporary ≠ p)
    (hq : .temporary ≠ q) :
    Refines (s.moveAssign p q) { o with owners := o.owners.assign p q } := by
  rw [← Owners.assign_eq .temporary (h.empty hs.temporary) hp hq]
  exact ((h.moveConstruct hs.temporary).swap .temporary p).destroy .temporary

theorem Refines.receive (h : Refines s o) (hs : Idle s) (hne : .temporary ≠ p)
    (hp : ¬ s.valid p) (hfd : s.Answers fd) : Refines (s.receive p (some fd)) (o.put p) := by
  have htemp : Refines ((s.openFd fd).construct .temporary fd) (o.put .temporary) :=
    (h.openFd hs.temporary hfd).objects _
  have hempty : ¬ ((s.openFd fd).construct .temporary fd).valid p := by
    intro hv
    refine hp ?_
    unfold valid construct at hv
    rw [setFd_fd, if_neg (Ne.symm hne)] at hv
    exact hv
  have hput : o.put p = { o.put .temporary with
      owners := ((o.put .temporary).owners.swap p .temporary).drop .temporary } := by
    unfold FileOwners.put
    rw [Owners.put_moved (h.empty hs.temporary) (h.empty hp) hne]
  rw [hput]
  exact (htemp.moveConstruct hempty).destroy .temporary

theorem Refines.step (h : Refines s o) (hs : Idle s) {a : SocketAct} (ha : s.Allowed a) :
    Refines (s.step a) (o.step a) := by
  have htemp : ∀ n, Place.temporary ≠ .socket n := fun n heq => nomatch heq
  cases a with
  | construct n =>
    have hsame : s.setFd (.socket n) kInvalidFd = s := by
      have hnone : s.fd_ (.socket n) = kInvalidFd := not_not.mp (hs.absent n ha)
      unfold setFd
      rw [← hnone, Function.update_eq_self]
    change Refines (s.construct _ _) o
    unfold SocketRun.construct
    rw [hsame]
    exact h.objects _
  | moveConstruct n m => exact h.moveConstruct (hs.absent n ha.1)
  | moveAssign n m => exact h.moveAssign hs (htemp n) (htemp m)
  | swap n m => exact h.swap _ _
  | createSocket n answer =>
    cases answer with
    | none => exact h
    | some fd => exact h.receive hs (htemp n) (hs.absent n ha.1) (ha.2 fd rfl)
  | accept listening n answer =>
    cases answer with
    | none => exact h
    | some fd => exact h.receive hs (htemp n) (hs.absent n ha.1) (ha.2.2 fd rfl).1
  | release n holder =>
    change Refines (s.release _ _) _
    rw [release_swap ha.2]
    exact h.swap _ _
  | close n => exact h.close _
  | destroy n => exact h.destroy _
  | openPlain holder fd => exact h.openFd ha.1 ha.2
  | closePlain holder => exact h.close _

theorem destroy_fd : (s.destroy p).fd_ k = if k = p then kInvalidFd else s.fd_ k := close_fd

theorem receive_fd : (s.receive p (some fd)).fd_ k =
    if k = .temporary then kInvalidFd else if k = p then fd else s.fd_ k := by
  unfold receive construct openFd
  rw [destroy_fd, moveConstruct_fd]
  simp only [setFd_fd, if_true]
  grind

theorem receive_exists : (s.receive p (some fd)).exists_ k =
    if k = .temporary then false else if k = p then true else s.exists_ k := by
  simp only [receive, destroy, moveConstruct, construct, setFd, openFd,
    Function.update_apply]
  grind

theorem moveAssign_fd : (s.moveAssign p q).fd_ k =
    if k = .temporary then kInvalidFd else if k = p then s.fd_ q
    else if k = q then kInvalidFd else s.fd_ k := by
  unfold moveAssign
  rw [destroy_fd, swap_fd, moveConstruct_fd, Equiv.swap_apply_def]
  grind

theorem moveAssign_exists : (s.moveAssign p q).exists_ k =
    if k = .temporary then false else s.exists_ k := by
  simp only [moveAssign, destroy, swap, moveConstruct, construct, setFd,
    Function.update_apply]
  grind

/-- An object that a call makes valid exists after it. -/
theorem Idle.step (hs : Idle s) {a : SocketAct} (ha : s.Allowed a) : Idle (s.step a) := by
  have htemp : s.fd_ .temporary = kInvalidFd := not_not.mp hs.temporary
  have habsent : ∀ n, s.exists_ (.socket n) = false → s.fd_ (.socket n) = kInvalidFd :=
    fun n hn => not_not.mp (hs.absent n hn)
  suffices h : (s.step a).fd_ .temporary = kInvalidFd ∧ ∀ n,
      (s.step a).exists_ (.socket n) = false → (s.step a).fd_ (.socket n) = kInvalidFd from
    ⟨fun hv => hv h.1, fun n hn hv => hv (h.2 n hn)⟩
  cases a with
  | construct n =>
    simp only [SocketRun.step, construct, setFd_fd, Function.update_apply]
    grind
  | moveConstruct n m =>
    simp only [SocketRun.step, moveConstruct_fd]
    simp only [moveConstruct, construct, setFd, Function.update_apply]
    grind
  | moveAssign n m =>
    simp only [SocketRun.step, moveAssign_fd, moveAssign_exists]
    simp only [Allowed] at ha
    grind
  | swap n m =>
    simp only [SocketRun.step, swap_fd, Equiv.swap_apply_def]
    simp only [swap, setFd]
    simp only [Allowed] at ha
    grind
  | createSocket n answer =>
    cases answer with
    | none => exact ⟨htemp, habsent⟩
    | some fd =>
      simp only [SocketRun.step, receive_fd, receive_exists]
      grind
  | accept listening n answer =>
    cases answer with
    | none => exact ⟨htemp, habsent⟩
    | some fd =>
      simp only [SocketRun.step, receive_fd, receive_exists]
      grind
  | release n holder =>
    simp only [SocketRun.step, release, setFd_fd]
    simp only [setFd]
    grind
  | close n =>
    simp only [SocketRun.step, close_fd, close_exists]
    grind
  | destroy n =>
    simp only [SocketRun.step, destroy_fd]
    simp only [destroy, Function.update_apply]
    grind
  | openPlain holder fd =>
    simp only [SocketRun.step, setFd_fd]
    simp only [setFd, openFd]
    grind
  | closePlain holder =>
    simp only [SocketRun.step, close_fd, close_exists]
    grind

theorem run_refines {acts : List SocketAct} (h : Along step Allowed {} acts) :
    Refines (run step {} acts) (run FileOwners.step {} acts) ∧ Idle (run step {} acts) := by
  have hstep : ∀ s o a, Refines s o ∧ Idle s → Allowed s a →
      Refines (step s a) (FileOwners.step o a) ∧ Idle (step s a) :=
    fun s o a hs ha => ⟨hs.1.step hs.2 ha, hs.2.step ha⟩
  exact run_related _ hstep ⟨refines_new, idle_new⟩ h

/-- Every run of sockets does with the files what its calls mean for their owners, and
closes no descriptor that is not open. -/
theorem sockets_own_files (acts : List SocketAct) (h : Along step Allowed {} acts) :
    let s := run step {} acts
    let o := (run FileOwners.step {} acts).owners
    (∀ p, s.file p = o.held p) ∧ s.closed = o.dropped ∧ s.badCloses = 0 :=
  let hs := (run_refines h).1
  ⟨hs.held, hs.closed, hs.good⟩

/-- A listening socket whose second client gets the descriptor that the first one had,
with an assignment of a socket to itself. -/
def reusedDescriptor : List SocketAct :=
  [.createSocket 0 (some 3), .accept 0 1 (some 4), .construct 2, .moveAssign 2 1,
    .moveAssign 2 2, .close 2, .accept 0 3 (some 4), .moveAssign 1 3, .release 1 0,
    .destroy 2, .destroy 0, .destroy 1, .destroy 3, .closePlain 0]

theorem reusedDescriptor_allowed : Along step Allowed {} reusedDescriptor := by
  unfold reusedDescriptor
  repeat' constructor
  all_goals decide

theorem sockets_own_files_reused :
    let s := run step {} reusedDescriptor
    let o := (run FileOwners.step {} reusedDescriptor).owners
    (∀ p, s.file p = o.held p) ∧ s.closed = o.dropped ∧ s.badCloses = 0 :=
  sockets_own_files reusedDescriptor reusedDescriptor_allowed

/-- In every run, a file is kept by one place until it is closed, and closed once; when
no object and no plain variable keeps one, all files have been closed. -/
theorem files_closed_once (acts : List SocketAct) (h : Along step Allowed {} acts) :
    let s := run step {} acts
    s.closed.Nodup ∧ (∀ n, n < s.files ↔ (∃ p, s.file p = some n) ∨ n ∈ s.closed) ∧
      (∀ p q n, s.file p = some n → s.file q = some n → p = q ∧ n ∉ s.closed) ∧
      ((∀ n, s.exists_ (.socket n) = false) → (∀ n, ¬ s.valid (.plain n)) →
        s.closed.Perm (List.range s.files)) := by
  obtain ⟨hs, hidle⟩ := run_refines h
  dsimp only
  set s := run step {} acts
  have hmade : ∀ n, n < s.files ↔ (∃ p, s.file p = some n) ∨ n ∈ s.closed := by
    intro n
    rw [hs.files, hs.sole.made n, hs.closed]
    simp only [hs.held]
  have honce : s.closed.Nodup := hs.closed ▸ hs.sole.once
  refine ⟨honce, hmade, ?_, ?_⟩
  · intro p q n hp hq
    rw [hs.held] at hp hq
    exact ⟨hs.sole.owner hp hq, hs.closed ▸ hs.sole.kept hp⟩
  · intro hobjects hplain
    have hnone : ∀ p n, s.file p ≠ some n := by
      intro p n hp
      have hvalid : ¬ s.valid p := by
        cases p with
        | socket m => exact hidle.absent m (hobjects m)
        | temporary => exact hidle.temporary
        | plain m => exact hplain m
      exact absurd ((hs.held p).symm.trans hp).symm (by simp [hs.empty hvalid])
    refine (List.perm_ext_iff_of_nodup honce List.nodup_range).mpr fun n => ?_
    rw [List.mem_range, hmade n]
    exact (or_iff_right fun ⟨p, hp⟩ => hnone p n hp).symm

theorem files_closed_once_reused :
    let s := run step {} reusedDescriptor
    s.closed.Nodup ∧ (∀ n, n < s.files ↔ (∃ p, s.file p = some n) ∨ n ∈ s.closed) ∧
      (∀ p q n, s.file p = some n → s.file q = some n → p = q ∧ n ∉ s.closed) ∧
      ((∀ n, s.exists_ (.socket n) = false) → (∀ n, ¬ s.valid (.plain n)) →
        s.closed.Perm (List.range s.files)) :=
  files_closed_once reusedDescriptor reusedDescriptor_allowed

end SocketRun

end DeepSeer
