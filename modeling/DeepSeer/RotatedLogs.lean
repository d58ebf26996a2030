import DeepSeer.FileSink
import DeepSeer.SegmentedLogs

/-!
The files of the sink are the window of a segmented log: the active file holds the
current segment, and the rotated file of an index the completed segment that many
places back.
-/
namespace DeepSeer

open ByteMemory ByteText SegmentedLogs

namespace FileSinkConfig

variable {config : FileSinkConfig}

/-- The paths that the sink writes to. -/
def Owns (config : FileSinkConfig) (p : Path) : Prop :=
  p = config.path ∨ ∃ i, p = config.rotatedPath i

def full (config : FileSinkConfig) (segment : List Bytes) : Bool :=
  config.maxFileSize ≤ segment.flatten.length

theorem rotatedPath_injective {i j : Nat} (h : config.rotatedPath i = config.rotatedPath j) :
    i = j := by
  have hname := congrArg Path.filename h
  simp only [rotatedPath, List.append_assoc, List.append_cancel_left_eq,
    List.append_cancel_right_eq] at hname
  exact decimal_injective hname

/-- The active file is not a rotated one. -/
theorem path_ne_rotated (config : FileSinkConfig) (i : Nat) :
    config.path ≠ config.rotatedPath i := by
  intro h
  have hlength := congrArg List.length (congrArg Path.filename h)
  have hparts := congrArg List.length config.path.stem_extension
  have hdot : (text ".").length = 1 := rfl
  simp only [rotatedPath, List.length_append, hdot] at hlength hparts
  omega

end FileSinkConfig

/-- Operations on files that exist succeed, and so does opening a file. -/
structure FileSystem.Works (sys : FileSystem) : Prop where
  removes : ∀ files p, files p ≠ none → sys.removes files p = true
  renames : ∀ files src dst, files src ≠ none → sys.renames files src dst = true
  opens : ∀ files p, sys.opens files p = true

namespace FileSystem

variable {sys : FileSystem}

theorem remove_eq (h : sys.Works) (files : Files) (p : Path) :
    sys.remove files p = Function.update files p none := by
  unfold remove
  split
  · rfl
  · next hfails =>
    have hnone : files p = none := by
      by_contra hsome
      exact hfails (h.removes files p hsome)
    rw [← hnone, Function.update_eq_self]

/-- A rename to a path without a file moves whatever there is. -/
theorem rename_eq (h : sys.Works) {files : Files} {src dst : Path}
    (hdst : files dst = none) :
    sys.rename files src dst =
      Function.update (Function.update files src none) dst (files src) := by
  unfold rename
  cases hsrc : files src with
  | none =>
    have hsame : Function.update files src none = files := by
      rw [← hsrc, Function.update_eq_self]
    dsimp only
    rw [hsame, ← hdst, Function.update_eq_self]
  | some data =>
    dsimp only
    rw [if_pos (h.renames files src dst (by rw [hsrc]; exact Option.some_ne_none _))]

theorem append_eq (h : sys.Works) (files : Files) (p : Path) :
    sys.append files p = some (Function.update files p (some ((files p).getD [])),
      ((files p).getD []).length) := by
  unfold append
  rw [if_pos (h.opens files p)]

end FileSystem

namespace FileSink

variable {sys : FileSystem} {config : FileSinkConfig} {before : Files}

/-- What the renames do to the files, where the last path is free. -/
structure Shifted (rotatedPath : Nat → Path) (n : Nat) (files files' : Files) : Prop where
  moved : ∀ i, 1 ≤ i → i < n → files' (rotatedPath (i + 1)) = files (rotatedPath i)
  free : 1 ≤ n → files' (rotatedPath 1) = none
  others : ∀ p, (∀ i, 1 ≤ i → i ≤ n → p ≠ rotatedPath i) → files' p = files p

/-- By induction on the index that the renames go down from: the first rename frees
the path that the next one renames to. -/
theorem renameChain_shifted (h : sys.Works) {rotatedPath : Nat → Path}
    (hpaths : ∀ i j, rotatedPath i = rotatedPath j → i = j) (n : Nat) {files : Files}
    (hfree : files (rotatedPath n) = none) :
    Shifted rotatedPath n files (renameChain sys rotatedPath n files) := by
  induction n generalizing files with
  | zero => exact ⟨fun i hi hn => by omega, fun hn => by omega, fun _ _ => rfl⟩
  | succ n ih =>
    cases n with
    | zero => exact ⟨fun i hi hn => by omega, fun _ => hfree, fun _ _ => rfl⟩
    | succ n =>
      have hne : rotatedPath (n + 1) ≠ rotatedPath (n + 2) := fun heq => by
        have := hpaths _ _ heq
        omega
      rw [renameChain, sys.rename_eq h hfree]
      set files₁ := Function.update (Function.update files (rotatedPath (n + 1)) none)
        (rotatedPath (n + 2)) (files (rotatedPath (n + 1))) with hfiles₁
      have hother : ∀ p, p ≠ rotatedPath (n + 1) → p ≠ rotatedPath (n + 2) →
          files₁ p = files p := by
        intro p hp hp'
        rw [hfiles₁, Function.update_of_ne hp', Function.update_of_ne hp]
      have hfree₁ : files₁ (rotatedPath (n + 1)) = none := by
        rw [hfiles₁, Function.update_of_ne hne, Function.update_self]
      have hshift := ih hfree₁
      refine ⟨fun i hi hn => ?_, fun _ => hshift.free (by omega), fun p hp => ?_⟩
      · by_cases hlast : i = n + 1
        · subst hlast
          rw [hshift.others _ fun j _ hj heq => by have := hpaths _ _ heq; omega, hfiles₁,
            Function.update_self]
        · rw [hshift.moved i hi (by omega)]
          refine hother _ (fun heq => hlast (hpaths _ _ heq)) fun heq => ?_
          have := hpaths _ _ heq
          omega
      · rw [hshift.others p fun j hj hn => hp j hj (by omega)]
        exact hother p (hp _ (by omega) (by omega)) (hp _ (by omega) (by omega))

/-- The files show the segmented log, and no other file has changed. -/
structure Shows (config : FileSinkConfig) (before : Files) (j : Segments Bytes) (s : FileSink) :
    Prop where
  configured : s.config_ = config
  file : s.file_ = true
  active : s.files config.path = some j.current.flatten
  rotated : ∀ i, s.files (config.rotatedPath (i + 1)) =
    ((j.completed.take config.maxFiles)[i]?).map List.flatten
  zeroth : s.files (config.rotatedPath 0) = none
  others : ∀ p, ¬ config.Owns p → s.files p = before p
  size : s.currentSize_ = j.current.flatten.length

theorem openFile_eq (h : sys.Works) (s : FileSink) : openFile sys s = { s with
    file_ := true
    currentSize_ := ((s.files s.config_.path).getD []).length
    files := Function.update s.files s.config_.path
      (some ((s.files s.config_.path).getD [])) } := by
  unfold openFile
  rw [sys.append_eq h]

/-- A new sink shows the empty log. -/
theorem construct_shows (h : sys.Works) (hbefore : ∀ p, config.Owns p → before p = none) :
    Shows config before {} (construct sys config before) := by
  have hpath : before config.path = none := hbefore _ (.inl rfl)
  have hrotated : ∀ i, before (config.rotatedPath i) = none := fun i => hbefore _ (.inr ⟨i, rfl⟩)
  have hother : ∀ p, p ≠ config.path →
      Function.update before config.path (some ((before config.path).getD [])) p = before p :=
    fun p hp => Function.update_of_ne hp _ _
  rw [construct, openFile_eq h]
  refine ⟨rfl, rfl, ?_, fun i => ?_, ?_, fun p hp => ?_, ?_⟩
  · dsimp only
    rw [Function.update_self, hpath]
    rfl
  · dsimp only
    rw [hother _ (config.path_ne_rotated _).symm, hrotated]
    simp
  · dsimp only
    rw [hother _ (config.path_ne_rotated _).symm, hrotated]
  · exact hother p fun heq => hp (.inl heq)
  · dsimp only
    rw [hpath]
    rfl

/-- What a rotation does to the sink and its files. -/
structure Rotated (s s' : FileSink) : Prop where
  configured : s'.config_ = s.config_
  file : s'.file_ = true
  size : s'.currentSize_ = 0
  active : s'.files s.config_.path = some []
  first : s'.files (s.config_.rotatedPath 1) = s.files s.config_.path
  moved : ∀ i, 1 ≤ i → i < s.config_.maxFiles →
    s'.files (s.config_.rotatedPath (i + 1)) = s.files (s.config_.rotatedPath i)
  others : ∀ p, p ≠ s.config_.path →
    (∀ i, 1 ≤ i → i ≤ s.config_.maxFiles → p ≠ s.config_.rotatedPath i) → s'.files p = s.files p

/-- The renamed files, with the active one at the first rotated path and a new one in its
place. -/
theorem rotate_eq (h : sys.Works) {s : FileSink} (hn : 1 ≤ s.config_.maxFiles) :
    ∃ shifted, Shifted s.config_.rotatedPath s.config_.maxFiles
        (Function.update s.files (s.config_.rotatedPath s.config_.maxFiles) none) shifted ∧
      s.rotate sys = { s with
        file_ := true
        currentSize_ := 0
        files := Function.update (Function.update (Function.update shifted s.config_.path none)
          (s.config_.rotatedPath 1) (shifted s.config_.path)) s.config_.path (some []) } := by
  have hshift := renameChain_shifted h (fun _ _ => FileSinkConfig.rotatedPath_injective)
    s.config_.maxFiles (Function.update_self (s.config_.rotatedPath s.config_.maxFiles) none s.files)
  refine ⟨_, hshift, ?_⟩
  unfold FileSink.rotate
  rw [openFile_eq h]
  simp only [sys.remove_eq h, sys.rename_eq h (hshift.free hn)]
  rw [Function.update_of_ne (s.config_.path_ne_rotated 1), Function.update_self]
  rfl

theorem rotate_rotated (h : sys.Works) {s : FileSink} (hn : 1 ≤ s.config_.maxFiles) :
    Rotated s (s.rotate sys) := by
  have hpaths : ∀ i k, s.config_.rotatedPath i = s.config_.rotatedPath k → i = k :=
    fun _ _ => FileSinkConfig.rotatedPath_injective
  have hapart : ∀ i, s.config_.path ≠ s.config_.rotatedPath i := s.config_.path_ne_rotated
  obtain ⟨shifted, hshift, hrotate⟩ := rotate_eq h hn
  have hkept : ∀ p, p ≠ s.config_.rotatedPath s.config_.maxFiles →
      Function.update s.files (s.config_.rotatedPath s.config_.maxFiles) none p = s.files p :=
    fun p hp => Function.update_of_ne hp _ _
  have hfiles : ∀ p, p ≠ s.config_.path → p ≠ s.config_.rotatedPath 1 →
      (s.rotate sys).files p = shifted p := by
    intro p hp hp'
    rw [hrotate]
    dsimp only
    rw [Function.update_of_ne hp, Function.update_of_ne hp', Function.update_of_ne hp]
  refine ⟨by rw [hrotate], by rw [hrotate], by rw [hrotate], ?_, ?_, fun i hi hlt => ?_,
    fun p hp hp' => ?_⟩
  · rw [hrotate]
    exact Function.update_self _ _ _
  · rw [hrotate]
    dsimp only
    rw [Function.update_of_ne (hapart 1).symm, Function.update_self,
      hshift.others _ fun i _ _ => hapart i, hkept _ (hapart _)]
  · have hne : s.config_.rotatedPath (i + 1) ≠ s.config_.rotatedPath 1 := fun heq => by
      have := hpaths _ _ heq
      omega
    have hlast : s.config_.rotatedPath i ≠ s.config_.rotatedPath s.config_.maxFiles :=
      fun heq => by
        have := hpaths _ _ heq
        omega
    rw [hfiles _ (hapart _).symm hne, hshift.moved i hi hlt, hkept _ hlast]
  · rw [hfiles p hp (hp' 1 (Nat.le_refl _) hn), hshift.others p hp',
      hkept p (hp' _ hn (Nat.le_refl _))]

/-- A rotation completes the current segment. -/
theorem Shows.rotate (h : sys.Works) (hn : 1 ≤ config.maxFiles) {j : Segments Bytes}
    {s : FileSink} (hs : Shows config before j s) :
    Shows config before ⟨j.current :: j.completed, []⟩ (s.rotate sys) := by
  have hconfig := hs.configured
  subst hconfig
  have hr := rotate_rotated h hn
  have hpaths : ∀ {i k}, s.config_.rotatedPath i = s.config_.rotatedPath k → i = k :=
    FileSinkConfig.rotatedPath_injective
  refine ⟨hr.configured, hr.file, hr.active, fun i => ?_, ?_, fun p hp => ?_, hr.size⟩
  · obtain ⟨n, hmax⟩ : ∃ n, s.config_.maxFiles = n + 1 := ⟨s.config_.maxFiles - 1, by omega⟩
    rw [hmax, List.take_succ_cons]
    cases i with
    | zero =>
      rw [hr.first, hs.active]
      rfl
    | succ i =>
      rw [List.getElem?_cons_succ]
      by_cases hlt : i < n
      · rw [hr.moved (i + 1) (by omega) (by omega), hs.rotated, hmax,
          List.getElem?_take_of_lt (by omega), List.getElem?_take_of_lt hlt]
      · have hbeyond : ∀ k, 1 ≤ k → k ≤ s.config_.maxFiles →
            s.config_.rotatedPath (i + 2) ≠ s.config_.rotatedPath k := by
          intro k _ hk heq
          have := hpaths heq
          omega
        rw [hr.others _ (s.config_.path_ne_rotated _).symm hbeyond, hs.rotated, hmax,
          List.getElem?_eq_none (by rw [List.length_take]; omega),
          List.getElem?_eq_none (by rw [List.length_take]; omega)]
  · rw [hr.others _ (s.config_.path_ne_rotated _).symm fun k hk _ heq => by
      have := hpaths heq
      omega]
    exact hs.zeroth
  · rw [hr.others p (fun heq => hp (.inl heq)) fun k _ _ heq => hp (.inr ⟨k, heq⟩)]
    exact hs.others p hp

/-- A write adds an entry to the log that the files show. -/
theorem Shows.write (h : sys.Works) (hn : 1 ≤ config.maxFiles) {j : Segments Bytes}
    {s : FileSink} (hs : Shows config before j s) (entry : Bytes) :
    Shows config before (j.add config.full entry) (s.write sys entry) := by
  have hconfig := hs.configured
  subst hconfig
  set s₁ : FileSink := { s with
    files := Function.update s.files s.config_.path (some (j.current ++ [entry]).flatten)
    currentSize_ := (j.current ++ [entry]).flatten.length } with hs₁
  have happended : (j.current ++ [entry]).flatten = j.current.flatten ++ entry := by simp
  have hwrite : s.write sys entry = s₁.rotateIfNeeded sys := by
    unfold FileSink.write
    dsimp only
    rw [if_pos hs.file, hs.active, hs.size, hs₁, happended, List.length_append]
    rfl
  have hother : ∀ p, p ≠ s.config_.path → s₁.files p = s.files p :=
    fun p hp => Function.update_of_ne hp _ _
  have hshows : Shows s.config_ before ⟨j.completed, j.current ++ [entry]⟩ s₁ := by
    refine ⟨rfl, hs.file, Function.update_self _ _ _, fun i => ?_, ?_, fun p hp => ?_, rfl⟩
    · rw [hother _ (s.config_.path_ne_rotated _).symm, hs.rotated]
    · rw [hother _ (s.config_.path_ne_rotated _).symm, hs.zeroth]
    · rw [hother p fun heq => hp (.inl heq), hs.others p hp]
  rw [hwrite, rotateIfNeeded, Segments.add, hshows.configured, hshows.size, FileSinkConfig.full]
  by_cases hfull : s.config_.maxFileSize ≤ (j.current ++ [entry]).flatten.length
  · rw [if_neg (Nat.not_lt_of_le hfull), if_pos (by simpa using hfull)]
    exact hshows.rotate h hn
  · rw [if_pos (Nat.lt_of_not_le hfull), if_neg (by simpa using hfull)]
    exact hshows

theorem Shows.writes (h : sys.Works) (hn : 1 ≤ config.maxFiles) {j : Segments Bytes}
    {s : FileSink} (hs : Shows config before j s) (entries : List Bytes) :
    Shows config before (entries.foldl (Segments.add config.full) j)
      (entries.foldl (FileSink.write sys) s) := by
  induction entries generalizing j s with
  | nil => exact hs
  | cons entry rest ih => exact ih (hs.write h hn entry)

/-- How many of the writes rotate the files. -/
def rotations (sys : FileSystem) : FileSink → List Bytes → Nat
  | _, [] => 0
  | s, entry :: rest =>
    (if s.file_ = true ∧ s.config_.maxFileSize ≤ s.currentSize_ + entry.length then 1 else 0) +
      rotations sys (s.write sys entry) rest

theorem Shows.rotations (h : sys.Works) (hn : 1 ≤ config.maxFiles) {j : Segments Bytes}
    {s : FileSink} (hs : Shows config before j s) (entries : List Bytes) :
    (entries.foldl (Segments.add config.full) j).completed.length =
      j.completed.length + FileSink.rotations sys s entries := by
  induction entries generalizing j s with
  | nil => rfl
  | cons entry rest ih =>
    have hadd : (j.add config.full entry).completed.length = j.completed.length +
        if s.file_ = true ∧ s.config_.maxFileSize ≤ s.currentSize_ + entry.length then 1
        else 0 := by
      have happended : (j.current ++ [entry]).flatten.length = s.currentSize_ + entry.length := by
        rw [hs.size]
        simp
      rw [Segments.add, FileSinkConfig.full, happended, hs.configured]
      by_cases hfull : config.maxFileSize ≤ s.currentSize_ + entry.length
      · rw [if_pos (by simpa using hfull), if_pos ⟨hs.file, hfull⟩]
        rfl
      · rw [if_neg (by simpa using hfull), if_neg fun hc => hfull hc.2]
        rfl
    rw [List.foldl_cons, ih (hs.write h hn entry), hadd, FileSink.rotations, Nat.add_assoc]

/-- The rotated files from the given index down to the first, and then the active one. -/
def contents (s : FileSink) (n : Nat) : Bytes :=
  ((List.range n).reverse.map fun i => (s.files (s.config_.rotatedPath (i + 1))).getD []).flatten ++
    (s.files s.config_.path).getD []

/-- The files hold the newest window of what was written, in its order. -/
structure NewestWindow (config : FileSinkConfig) (before : Files) (writes : List Bytes)
    (rotations : Nat) (s : FileSink) (n : Nat) : Prop where
  within : n ≤ config.maxFiles
  contiguous : ∀ i, s.files (config.rotatedPath i) ≠ none ↔ 1 ≤ i ∧ i ≤ n
  others : ∀ p, ¬ config.Owns p → s.files p = before p
  suffix : s.contents n <:+ writes.flatten
  everything : rotations ≤ config.maxFiles → s.contents n = writes.flatten
  /-- Each file holds whole writes that follow on each other. -/
  unsplit : ∃ (older : List Bytes) (segments : List (List Bytes)) (current : List Bytes),
    older ++ segments.reverse.flatten ++ current = writes ∧ segments.length = n ∧
    (∀ i, s.files (config.rotatedPath (i + 1)) = segments[i]?.map List.flatten) ∧
    s.files config.path = some current.flatten
  size : (s.files config.path).map List.length = some s.currentSize_
  small : s.currentSize_ < config.maxFileSize

theorem Shows.contents {j : Segments Bytes} {s : FileSink} (hs : Shows config before j s) :
    s.contents (j.completed.take config.maxFiles).length =
      (j.window config.maxFiles).flatten := by
  set segments := j.completed.take config.maxFiles with hsegments
  have hrotated : (List.range segments.length).map
      (fun i => (s.files (config.rotatedPath (i + 1))).getD []) = segments.map List.flatten := by
    refine List.ext_getElem (by simp) fun i hi hi' => ?_
    have hlt : i < segments.length := by simpa using hi
    simp only [List.getElem_map, List.getElem_range, hs.rotated, ← hsegments,
      List.getElem?_eq_getElem hlt]
    rfl
  unfold FileSink.contents
  rw [hs.configured, List.map_reverse, hrotated, hs.active, Segments.window, ← hsegments,
    List.flatten_append, ← List.map_reverse, ← List.flatten_flatten]
  rfl

/-- After any writes to a new sink the files hold the newest window of them. -/
theorem write_newestWindow (h : sys.Works) (hfiles : 1 ≤ config.maxFiles)
    (hsize : 1 ≤ config.maxFileSize) (hbefore : ∀ p, config.Owns p → before p = none)
    (writes : List Bytes) :
    ∃ n, NewestWindow config before writes (rotations sys (construct sys config before) writes)
      (writes.foldl (write sys) (construct sys config before)) n := by
  have hstart := construct_shows h hbefore
  have hs := hstart.writes h hfiles writes
  have hcount := hstart.rotations h hfiles writes
  set j := writes.foldl (Segments.add config.full) {} with hj
  have hentries : j.entries = writes := Segments.entries_foldl {} writes
  have hopen : config.full j.current = false := by
    have hempty : config.full [] = false := by
      simp only [FileSinkConfig.full, List.flatten_nil, List.length_nil, decide_eq_false_iff_not]
      omega
    exact Segments.current_open hempty {} hempty writes
  have hwindow := Segments.older_window config.maxFiles j
  refine ⟨(j.completed.take config.maxFiles).length, ?_, fun i => ?_, hs.others, ?_,
    fun hle => ?_, ?_, ?_, ?_⟩
  · rw [List.length_take]
    exact Nat.min_le_left _ _
  · cases i with
    | zero => simp [hs.zeroth]
    | succ i =>
      rw [hs.rotated, ne_eq, Option.map_eq_none_iff, List.getElem?_eq_none_iff]
      omega
  · rw [hs.contents, ← hentries, ← hwindow, List.flatten_append]
    exact List.suffix_append _ _
  · have hlength : j.completed.length ≤ config.maxFiles := by
      rw [hcount]
      simpa using hle
    rw [hs.contents, Segments.window_all hlength, hentries]
  · refine ⟨(j.completed.drop config.maxFiles).reverse.flatten, j.completed.take config.maxFiles,
      j.current, ?_, rfl, hs.rotated, hs.active⟩
    rw [List.append_assoc]
    exact hwindow.trans hentries
  · rw [hs.active, hs.size]
    rfl
  · rw [hs.size]
    simpa [FileSinkConfig.full] using hopen

/-- A sink of two rotated files and five bytes. -/
def smallLog : FileSinkConfig where
  path := ⟨text "logs", text "app.log"⟩
  maxFileSize := 5
  maxFiles := 2

theorem smallLog_newestWindow :
    ∃ n, NewestWindow smallLog (fun _ => none) [text "one\n", text "two\n", text "three\n"]
      (rotations ⟨fun _ _ => true, fun _ _ _ => true, fun _ _ => true⟩
        (construct ⟨fun _ _ => true, fun _ _ _ => true, fun _ _ => true⟩ smallLog fun _ => none)
        [text "one\n", text "two\n", text "three\n"])
      ([text "one\n", text "two\n", text "three\n"].foldl
        (write ⟨fun _ _ => true, fun _ _ _ => true, fun _ _ => true⟩)
        (construct ⟨fun _ _ => true, fun _ _ _ => true, fun _ _ => true⟩ smallLog fun _ => none))
      n :=
  write_newestWindow ⟨fun _ _ _ => rfl, fun _ _ _ _ => rfl, fun _ _ => rfl⟩ (by decide) (by decide)
    (fun _ _ => rfl) _

end FileSink

end DeepSeer
