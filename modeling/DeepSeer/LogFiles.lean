import DeepSeer.RotatedLogs
import DeepSeer.SinkLines

/-!
The logger over its sinks. The file sinks share the files of the machine, and a step
of the logger that writes a line is a call of `Sink::write`. Each file sink keeps the
newest window of its own lines, whatever the others write.
-/
namespace DeepSeer

open ByteMemory ByteText Schedules SegmentedLogs

/-- What a sink is made with. -/
inductive SinkKind where
  | console
  | file (config : FileSinkConfig)

/-- A sink without the files and the stream that it shares with others. -/
inductive Sink where
  | console
  | file (config_ : FileSinkConfig) (file_ : Bool) (currentSize_ : Nat)

/-- The members of a file sink. -/
def Sink.ofFile (s : FileSink) : Sink := .file s.config_ s.file_ s.currentSize_

def Sink.kind : Sink → SinkKind
  | console => .console
  | file config _ _ => .file config

/-- The logger, the sinks by their numbers, the files and the standard error stream. -/
structure LogFiles where
  logger : Logger := {}
  sinks : List Sink := []
  files : Files
  stderr : Bytes := []

inductive LogFilesAct where
  | construct (kind : SinkKind)
  | logger (a : LogAction)

/-- The sinks that an action makes. -/
def LogFilesAct.made : LogFilesAct → List SinkKind
  | construct kind => [kind]
  | logger _ => []

namespace LogFiles

section Model

variable (sys : FileSystem)

def construct (s : LogFiles) : SinkKind → LogFiles
  | .console => { s with sinks := s.sinks ++ [.console] }
  | .file config =>
    let sink := FileSink.construct sys config s.files
    { s with sinks := s.sinks ++ [.ofFile sink], files := sink.files }

/-- `Sink::write` of the sink with this number, which is no pointer before there is one. -/
def write (s : LogFiles) (i : Nat) (formatted : Bytes) : Option LogFiles :=
  match s.sinks[i]? with
  | some .console => some { s with stderr := s.stderr ++ formatted }
  | some (.file config file size) =>
    let sink := FileSink.write sys ⟨config, file, size, s.files⟩ formatted
    some { s with sinks := s.sinks.set i (.ofFile sink), files := sink.files }
  | none => none

/-- The sink and the line, where the step of the logger is a write. -/
def written (s : Logger) : LogAction → Option (Nat × Bytes)
  | .advance k =>
    match s.calls[k]? with
    | some (.writing line (sink :: _)) => some (sink, line)
    | _ => none
  | _ => none

/-- The write that a step of the logger is, if it is one. -/
def writeAny (s : LogFiles) : Option (Nat × Bytes) → Option LogFiles
  | some (sink, line) => s.write sys sink line
  | none => some s

def step (s : LogFiles) : LogFilesAct → Option LogFiles
  | .construct kind => some (s.construct sys kind)
  | .logger a => do
    let logger ← s.logger.step a
    let s' ← s.writeAny sys (written s.logger a)
    some { s' with logger := logger }

end Model

def kinds (s : LogFiles) : List SinkKind := s.sinks.map Sink.kind

end LogFiles

namespace SinkKind

def Owns : SinkKind → Path → Prop
  | console, _ => False
  | file config, p => config.Owns p

/-- The sinks share no path. -/
def Apart (a b : SinkKind) : Prop := ∀ p, a.Owns p → ¬ b.Owns p

/-- A file sink keeps a rotated file, and does not rotate an empty one. -/
def Valid : SinkKind → Prop
  | console => True
  | file config => 1 ≤ config.maxFiles ∧ 1 ≤ config.maxFileSize

/-- The sink of this number is the console. -/
def consoles (kinds : List SinkKind) (i : Nat) : Bool :=
  match kinds[i]? with
  | some console => true
  | _ => false

theorem Apart.symm {a b : SinkKind} (h : a.Apart b) : b.Apart a := fun p hb ha => h p ha hb

end SinkKind

namespace Logger

variable {s s' : Logger} {a : LogAction}

/-- A step of the logger is a write, or leaves the lines of all sinks alone. -/
theorem step_written (h : s.step a = some s') :
    (∃ k sink line, LogFiles.written s a = some (sink, line) ∧
      s'.log = .wrote k sink line :: s.log) ∨
    (LogFiles.written s a = none ∧ ∀ p, linesTo p s'.log = linesTo p s.log) := by
  cases step_moves h with
  | enters c hc ha =>
    refine .inr ⟨?_, fun _ => rfl⟩
    cases a with
    | advance k => exact absurd ha (by simp [LogAction.continues])
    | _ => rfl
  | writes k line sink sinks hk =>
    exact .inl ⟨k, sink, line, by simp [LogFiles.written, hk], rfl⟩
  | formats k level message stamp hk => exact .inr ⟨rfl, fun _ => rfl⟩
  | passes k _ _ hk _ | filters k _ _ hk _ | locksShared k _ _ hk _ | unlocksShared k _ hk
  | initializes k _ _ hk | configures k _ _ hk _ | locks k _ hk _ | flushes k _ _ hk
  | clears k hk | sets k _ hk =>
    exact .inr ⟨by simp [LogFiles.written, hk], fun _ => linesTo_quiet rfl⟩

end Logger

namespace LogFiles

variable {sys : FileSystem} {s s' : LogFiles} {config : FileSinkConfig}

/-- The lines that such sinks were given, the first one first. -/
def lines (log : List LogEvent) (p : Nat → Bool) : List Bytes := (linesTo p log).map Prod.snd

/-- The log that the files of sink `i` show. -/
def journal (log : List LogEvent) (config : FileSinkConfig) (i : Nat) : Segments Bytes :=
  (lines log (· = i)).foldl (Segments.add config.full) {}

/-- The sinks with their files as they are now. -/
structure Inv (s : LogFiles) : Prop where
  logger : s.logger.Inv
  shown : ∀ i config file size, s.sinks[i]? = some (.file config file size) →
    FileSink.Shows config s.files (journal s.logger.log config i) ⟨config, file, size, s.files⟩
  stderr : s.stderr = (lines s.logger.log (SinkKind.consoles s.kinds)).flatten
  unknown : linesTo (fun i => decide (s.sinks.length ≤ i)) s.logger.log = []

theorem lines_wrote (k i : Nat) (line : Bytes) (log : List LogEvent) (p : Nat → Bool) :
    lines (.wrote k i line :: log) p = lines log p ++ if p i then [line] else [] := by
  rw [lines, linesTo_cons, List.map_append, lines]
  by_cases hp : p i = true
  · simp [LogEvent.lineTo, hp]
  · simp [LogEvent.lineTo, hp]

theorem journal_wrote_same (k i : Nat) (line : Bytes) (log : List LogEvent)
    (config : FileSinkConfig) : journal (.wrote k i line :: log) config i =
      (journal log config i).add config.full line := by
  rw [journal, lines_wrote, if_pos (by simp), List.foldl_append]
  rfl

theorem journal_wrote_other {i j : Nat} (h : j ≠ i) (k : Nat) (line : Bytes)
    (log : List LogEvent) (config : FileSinkConfig) :
    journal (.wrote k i line :: log) config j = journal log config j := by
  have hne : i ≠ j := fun heq => h heq.symm
  rw [journal, lines_wrote, if_neg (by simpa using hne), List.append_nil, journal]

/-- A write to a sink that there is has no line for one that there is not. -/
theorem unknown_wrote {n i : Nat} (h : i < n) (k : Nat) (line : Bytes) {log : List LogEvent}
    (hlog : linesTo (fun i => decide (n ≤ i)) log = []) :
    linesTo (fun i => decide (n ≤ i)) (.wrote k i line :: log) = [] := by
  rw [linesTo_quiet (by simp [LogEvent.lineTo, h]), hlog]

/-- The files of a sink show the same where others were written to. -/
theorem shows_frame {before : Files} {j : Segments Bytes} {sink : FileSink}
    (h : FileSink.Shows config before j sink) {files : Files}
    (hsame : ∀ p, config.Owns p → files p = sink.files p) :
    FileSink.Shows config files j { sink with files := files } where
  configured := h.configured
  file := h.file
  active := (hsame _ (.inl rfl)).trans h.active
  rotated i := (hsame _ (.inr ⟨i + 1, rfl⟩)).trans (h.rotated i)
  zeroth := (hsame _ (.inr ⟨0, rfl⟩)).trans h.zeroth
  others _ _ := rfl
  size := h.size

/-- The invariant looks at the log of the logger only through the lines. -/
theorem Inv.quiet (hs : s.Inv) {logger : Logger} (hlogger : logger.Inv)
    (hlines : ∀ p, linesTo p logger.log = linesTo p s.logger.log) :
    Inv { s with logger := logger } := by
  refine ⟨hlogger, ?_, ?_, (hlines _).trans hs.unknown⟩
  · intro i config file size hi
    have hjournal : journal logger.log config i = journal s.logger.log config i := by
      rw [journal, lines, hlines, journal, lines]
    exact hjournal ▸ hs.shown i config file size hi
  · have hconsole : lines logger.log (SinkKind.consoles s.kinds) =
        lines s.logger.log (SinkKind.consoles s.kinds) := by
      rw [lines, hlines, lines]
    exact hs.stderr.trans (congrArg List.flatten hconsole.symm)

theorem consoles_kinds {i : Nat} {sink : Sink} (h : s.sinks[i]? = some sink) :
    SinkKind.consoles s.kinds i = (sink matches .console) := by
  simp only [SinkKind.consoles, kinds, List.getElem?_map, h, Option.map_some]
  cases sink <;> rfl

/-- A line for the console is at the end of the stream, and in no file. -/
theorem Inv.writes_console (hs : s.Inv) {i k : Nat} {line : Bytes} {logger : Logger}
    (hi : s.sinks[i]? = some .console) (hlogger : logger.Inv)
    (hlog : logger.log = .wrote k i line :: s.logger.log) :
    Inv { s with logger := logger, stderr := s.stderr ++ line } := by
  have hlt : i < s.sinks.length := (List.getElem?_eq_some_iff.mp hi).1
  refine ⟨hlogger, ?_, ?_, hlog ▸ unknown_wrote hlt k line hs.unknown⟩
  · intro j config file size hj
    have hne : j ≠ i := by
      rintro rfl
      exact absurd (hi.symm.trans hj) (by simp)
    have hshown := hs.shown j config file size hj
    dsimp only
    rw [hlog, journal_wrote_other hne]
    exact hshown
  · have hconsole : SinkKind.consoles s.kinds i = true := consoles_kinds hi
    change s.stderr ++ line = (lines logger.log (SinkKind.consoles s.kinds)).flatten
    rw [hlog, lines_wrote, if_pos hconsole, List.flatten_append, ← hs.stderr]
    simp

/-- A line for a file is the next entry of what its files show, and the files of the
other sinks show what they did. -/
theorem Inv.writes_file (h : sys.Works) (hs : s.Inv) {i k : Nat} {line : Bytes}
    {logger : Logger} {file : Bool} {size : Nat} {sink : FileSink}
    (hi : s.sinks[i]? = some (.file config file size)) (hfiles : 1 ≤ config.maxFiles)
    (hapart : ∀ j config' file size, j ≠ i → s.sinks[j]? = some (.file config' file size) →
      ∀ p, config'.Owns p → ¬ config.Owns p)
    (hlogger : logger.Inv) (hlog : logger.log = .wrote k i line :: s.logger.log)
    (hsink : FileSink.write sys ⟨config, file, size, s.files⟩ line = sink) :
    Inv { s with logger := logger, sinks := s.sinks.set i (.ofFile sink), files := sink.files } ∧
      (s.sinks.set i (.ofFile sink)).map Sink.kind = s.kinds ∧
      ∀ p, ¬ config.Owns p → sink.files p = s.files p := by
  have hlt : i < s.sinks.length := (List.getElem?_eq_some_iff.mp hi).1
  have hwritten := (hs.shown i config file size hi).write h hfiles line
  rw [hsink] at hwritten
  obtain ⟨config₁, file₁, size₁, files₁⟩ := sink
  obtain rfl : config₁ = config := hwritten.configured
  have hkinds : (s.sinks.set i (.ofFile ⟨config₁, file₁, size₁, files₁⟩)).map Sink.kind =
      s.kinds := by
    obtain ⟨_, hget⟩ := List.getElem?_eq_some_iff.mp hi
    have hmap : i < (s.sinks.map Sink.kind).length := by simpa using hlt
    have hkind : Sink.kind (.ofFile ⟨config₁, file₁, size₁, files₁⟩) =
        (s.sinks.map Sink.kind)[i] := by
      simp [hget, Sink.kind, Sink.ofFile]
    rw [List.map_set, hkind, List.set_getElem_self, kinds]
  refine ⟨⟨hlogger, ?_, ?_, ?_⟩, hkinds, hwritten.others⟩
  · intro j config' file' size' hj
    dsimp only at hj ⊢
    rw [hlog]
    by_cases hji : j = i
    · subst hji
      rw [List.getElem?_set_self hlt] at hj
      obtain ⟨rfl, rfl, rfl⟩ := hj
      rw [journal_wrote_same]
      exact shows_frame hwritten fun _ _ => rfl
    · rw [List.getElem?_set_ne fun heq => hji heq.symm] at hj
      rw [journal_wrote_other hji]
      exact shows_frame (hs.shown j config' file' size' hj) fun p hp =>
        hwritten.others p (hapart j config' file' size' hji hj p hp)
  · have hconsole : SinkKind.consoles s.kinds i = false := consoles_kinds hi
    have hstderr := hs.stderr
    change s.stderr = (lines logger.log (SinkKind.consoles (List.map _ _))).flatten
    rw [hkinds, hlog, lines_wrote, hconsole]
    simpa using hstderr
  · rw [List.length_set, hlog]
    exact unknown_wrote hlt k line hs.unknown

/-- Sinks that there are not yet have no lines. -/
theorem Inv.no_lines (hs : s.Inv) {p : Nat → Bool}
    (hp : ∀ i, i < s.sinks.length → p i = false) : linesTo p s.logger.log = [] := by
  rw [linesTo_congr (q := fun _ => false) hs.unknown, linesTo_never]
  intro i hi
  exact hp i (by simpa using hi)

/-- A new sink has no lines, so it is to show an empty log. -/
theorem Inv.adds (hs : s.Inv) (sink : Sink) (files : Files)
    (hsink : ∀ config file size, sink = .file config file size →
      FileSink.Shows config files {} ⟨config, file, size, files⟩)
    (hsame : ∀ (i : Nat) config file size, s.sinks[i]? = some (.file config file size) →
      ∀ p, config.Owns p → files p = s.files p) :
    Inv { s with sinks := s.sinks ++ [sink], files := files } := by
  refine ⟨hs.logger, ?_, ?_, ?_⟩
  · intro i config file size hi
    dsimp only at hi ⊢
    by_cases hlt : i < s.sinks.length
    · rw [List.getElem?_append_left hlt] at hi
      exact shows_frame (hs.shown i config file size hi) (hsame i config file size hi)
    · have hjournal : journal s.logger.log config i = {} := by
        rw [journal, lines, hs.no_lines]
        · rfl
        · intro j hj
          simp only [decide_eq_false_iff_not]
          omega
      rw [List.getElem?_append_right (Nat.le_of_not_lt hlt)] at hi
      have heq : Sink.file config file size = sink :=
        List.mem_singleton.mp (List.mem_of_getElem? hi)
      rw [hjournal]
      exact hsink config file size heq.symm
  · have hconsole : linesTo (SinkKind.consoles ((s.sinks ++ [sink]).map Sink.kind)) s.logger.log =
        linesTo (SinkKind.consoles s.kinds) s.logger.log := by
      refine linesTo_congr hs.unknown fun i hi => ?_
      have hlt : i < (s.sinks.map Sink.kind).length := by simpa using hi
      rw [List.map_append, SinkKind.consoles, SinkKind.consoles, List.getElem?_append_left hlt,
        kinds]
    rw [kinds, lines, hconsole]
    exact hs.stderr
  · refine hs.no_lines fun i hi => ?_
    simp only [List.length_append, List.length_singleton, decide_eq_false_iff_not]
    omega

/-- What an action leaves behind: the sinks that it makes, and the files of no sink. -/
structure Stepped (s s' : LogFiles) (made : List SinkKind) : Prop where
  inv : s'.Inv
  kinds : s'.kinds = s.kinds ++ made
  others : ∀ p, (∀ kind ∈ s'.kinds, ¬ kind.Owns p) → s'.files p = s.files p

theorem mem_kinds {i : Nat} {file : Bool} {size : Nat}
    (h : s.sinks[i]? = some (.file config file size)) : .file config ∈ s.kinds :=
  List.mem_map.mpr ⟨_, List.mem_of_getElem? h, rfl⟩

theorem Inv.constructs (h : sys.Works) (hs : s.Inv) (kind : SinkKind)
    (hapart : ∀ other ∈ s.kinds, other.Apart kind)
    (hfree : ∀ p, kind.Owns p → s.files p = none) :
    Stepped s (s.construct sys kind) [kind] := by
  cases kind with
  | console =>
    refine ⟨hs.adds .console s.files (fun _ _ _ heq => by simp at heq) fun _ _ _ _ _ _ _ => rfl,
      List.map_append, fun _ _ => rfl⟩
  | file config =>
    have hshows := FileSink.construct_shows h hfree
    have hkinds : (s.construct sys (.file config)).kinds = s.kinds ++ [.file config] := by
      simp [LogFiles.construct, LogFiles.kinds, Sink.ofFile, Sink.kind, hshows.configured]
    refine ⟨?_, hkinds, fun p hp => hshows.others p ?_⟩
    · refine hs.adds _ _ ?_ fun i config' file' size' hi p hp => ?_
      · intro config' file' size' heq
        generalize FileSink.construct sys config s.files = sink at hshows heq ⊢
        obtain ⟨config₁, file₁, size₁, files₁⟩ := sink
        obtain rfl : config₁ = config := hshows.configured
        obtain ⟨rfl, rfl, rfl⟩ := heq
        exact shows_frame hshows fun _ _ => rfl
      · exact hshows.others p (hapart _ (mem_kinds hi) p hp)
    · exact hp _ (hkinds ▸ List.mem_append_right _ List.mem_cons_self)

/-- The sinks that can be made beside each other. -/
structure SinkKinds (kinds : List SinkKind) : Prop where
  valid : ∀ kind ∈ kinds, kind.Valid
  apart : kinds.Pairwise SinkKind.Apart

/-- Two sinks of different numbers share no path. -/
theorem SinkKinds.apart_at {kinds : List SinkKind} (h : SinkKinds kinds) {i j : Nat}
    {a b : SinkKind} (hne : i ≠ j) (hi : kinds[i]? = some a) (hj : kinds[j]? = some b) :
    a.Apart b := by
  obtain ⟨hilt, rfl⟩ := List.getElem?_eq_some_iff.mp hi
  obtain ⟨hjlt, rfl⟩ := List.getElem?_eq_some_iff.mp hj
  have hpairs := List.pairwise_iff_getElem.mp h.apart
  rcases Nat.lt_or_gt_of_ne hne with hlt | hlt
  · exact hpairs i j hilt hjlt hlt
  · exact (hpairs j i hjlt hilt hlt).symm

theorem kinds_getElem? {i : Nat} {sink : Sink} (h : s.sinks[i]? = some sink) :
    s.kinds[i]? = some sink.kind := by
  rw [kinds, List.getElem?_map, h, Option.map_some]

theorem Inv.writes (h : sys.Works) (hs : s.Inv) (hkinds : SinkKinds s.kinds) {i k : Nat}
    {line : Bytes} {logger : Logger} (hlogger : logger.Inv)
    (hlog : logger.log = .wrote k i line :: s.logger.log) (hw : s.write sys i line = some s') :
    Stepped s { s' with logger := logger } [] := by
  unfold LogFiles.write at hw
  split at hw
  · next hi =>
    cases hw
    exact ⟨hs.writes_console hi hlogger hlog, (List.append_nil _).symm, fun _ _ => rfl⟩
  · next config file size hi =>
    cases hw
    have hvalid : SinkKind.Valid (.file config) := hkinds.valid _ (mem_kinds hi)
    obtain ⟨hinv, hsame, hothers⟩ := hs.writes_file h hi hvalid.1
      (fun j _ _ _ hne hj => hkinds.apart_at hne (kinds_getElem? hj) (kinds_getElem? hi))
      hlogger hlog rfl
    refine ⟨hinv, hsame.trans (List.append_nil _).symm, fun p hp => ?_⟩
    have hmem : .file config ∈ s.kinds := mem_kinds hi
    rw [← hsame] at hmem
    exact hothers p (hp (.file config) hmem)
  · exact absurd hw (by simp)

/-- What one action leaves behind. -/
theorem Inv.step (h : sys.Works) (hs : s.Inv) {a : LogFilesAct}
    (hkinds : SinkKinds (s.kinds ++ a.made))
    (hfree : ∀ kind ∈ a.made, ∀ p, kind.Owns p → s.files p = none)
    (hstep : s.step sys a = some s') : Stepped s s' a.made := by
  cases a with
  | construct kind =>
    cases hstep
    refine hs.constructs h kind (fun other hother => ?_) (hfree kind List.mem_cons_self)
    exact (List.pairwise_append.mp hkinds.apart).2.2 other hother kind List.mem_cons_self
  | logger a =>
    have hold : SinkKinds s.kinds := by simpa [LogFilesAct.made] using hkinds
    obtain ⟨logger, hlogger, hrest⟩ := Option.bind_eq_some_iff.mp hstep
    obtain ⟨s₁, hs₁, heq⟩ := Option.bind_eq_some_iff.mp hrest
    cases heq
    have hinv := hs.logger.moves (Logger.step_moves hlogger)
    rcases Logger.step_written hlogger with ⟨k, i, line, hwritten, hlog⟩ | ⟨hwritten, hlines⟩
    · rw [hwritten] at hs₁
      exact hs.writes h hold hinv hlog hs₁
    · rw [hwritten] at hs₁
      cases hs₁
      exact ⟨hs.quiet hinv hlines, (List.append_nil _).symm, fun _ _ => rfl⟩

/-- By induction on the actions: the paths of the sinks to come stay free until then. -/
theorem Inv.run (h : sys.Works) (hs : s.Inv) {actions : List LogFilesAct}
    (hkinds : SinkKinds (s.kinds ++ actions.flatMap LogFilesAct.made))
    (hfree : ∀ kind ∈ actions.flatMap LogFilesAct.made, ∀ p, kind.Owns p → s.files p = none)
    (hrun : Schedules.run (LogFiles.step sys) s actions = some s') :
    Stepped s s' (actions.flatMap LogFilesAct.made) := by
  induction actions generalizing s with
  | nil =>
    cases hrun
    exact ⟨hs, (List.append_nil _).symm, fun _ _ => rfl⟩
  | cons a rest ih =>
    obtain ⟨s₁, hstep, hrest⟩ := run_cons hrun
    rw [List.flatMap_cons] at hkinds hfree ⊢
    rw [← List.append_assoc] at hkinds
    have hstepped : Stepped s s₁ a.made := by
      refine hs.step h ⟨fun kind hk => hkinds.valid kind (List.mem_append_left _ hk), ?_⟩
        (fun kind hk => hfree kind (List.mem_append_left _ hk)) hstep
      exact (List.pairwise_append.mp hkinds.apart).1
    have hapart := (List.pairwise_append.mp hkinds.apart).2.2
    rw [← hstepped.kinds] at hkinds hapart
    have hlater := ih hstepped.inv hkinds (fun kind hk p hp => ?_) hrest
    · refine ⟨hlater.inv, by rw [hlater.kinds, hstepped.kinds, List.append_assoc],
        fun p hp => ?_⟩
      rw [hlater.others p hp, hstepped.others p fun kind hk => hp kind ?_]
      exact hlater.kinds ▸ List.mem_append_left _ hk
    · rw [hstepped.others p fun other hother hp' => hapart other hother kind hk p hp' hp]
      exact hfree kind (List.mem_append_right _ hk) p hp

/-- The files hold the newest of the lines, each file whole ones that follow on each
other: `current` in the active file and `segments` in the rotated ones. -/
def Holds (config : FileSinkConfig) (lines : List Bytes) (files : Files) : Prop :=
  ∃ (older : List Bytes) (segments : List (List Bytes)) (current : List Bytes),
    older ++ segments.reverse.flatten ++ current = lines ∧
    segments.length ≤ config.maxFiles ∧ (older ≠ [] → segments.length = config.maxFiles) ∧
    (∀ i, files (config.rotatedPath (i + 1)) = segments[i]?.map List.flatten) ∧
    files config.path = some current.flatten ∧ config.full current = false

theorem Inv.holds (hs : s.Inv) {i : Nat} {file : Bool} {size : Nat}
    (hi : s.sinks[i]? = some (.file config file size)) (hsize : 1 ≤ config.maxFileSize) :
    Holds config (lines s.logger.log (· = i)) s.files := by
  have hshown := hs.shown i config file size hi
  have hentries : (journal s.logger.log config i).entries = lines s.logger.log (· = i) :=
    Segments.entries_foldl {} _
  have hempty : config.full [] = false := by
    simp only [FileSinkConfig.full, List.flatten_nil, List.length_nil, decide_eq_false_iff_not]
    omega
  have hopen : config.full (journal s.logger.log config i).current = false :=
    Segments.current_open hempty {} hempty _
  have hwindow := Segments.older_window config.maxFiles (journal s.logger.log config i)
  set j := journal s.logger.log config i
  refine ⟨(j.completed.drop config.maxFiles).reverse.flatten, j.completed.take config.maxFiles,
    j.current, ?_, ?_, fun holder => ?_, hshown.rotated, hshown.active, hopen⟩
  · rw [List.append_assoc]
    exact hwindow.trans hentries
  · rw [List.length_take]
    exact Nat.min_le_left _ _
  · have hlong : config.maxFiles ≤ j.completed.length := by
      by_contra hshort
      exact holder (by rw [List.drop_eq_nil_of_le (by omega)]; rfl)
    rw [List.length_take, Nat.min_eq_left hlong]

/-- What the sinks hold of the messages of a run that made sinks of these kinds. -/
structure LogsKept (before : Files) (made : List SinkKind) (s : LogFiles) : Prop where
  files : ∀ i config, made[i]? = some (.file config) →
    Holds config (lines s.logger.log (· = i)) s.files
  stderr : s.stderr = (lines s.logger.log (SinkKind.consoles made)).flatten
  told : ∀ p, s.logger.Told p
  others : ∀ p, (∀ kind ∈ made, ¬ kind.Owns p) → s.files p = before p

/-- In every run, each file sink holds the newest window of the lines that it was given,
the console all of them in turn, and the lines are those of the messages. -/
theorem logs_kept (h : sys.Works) (before : Files) (actions : List LogFilesAct)
    (hkinds : SinkKinds (actions.flatMap LogFilesAct.made))
    (hfree : ∀ kind ∈ actions.flatMap LogFilesAct.made, ∀ p, kind.Owns p → before p = none)
    (s : LogFiles)
    (hrun : Schedules.run (LogFiles.step sys) { files := before } actions = some s) :
    LogsKept before (actions.flatMap LogFilesAct.made) s := by
  have hstart : Inv { files := before } :=
    ⟨Logger.inv_initial, fun i _ _ _ hi => absurd hi (by simp), rfl, rfl⟩
  obtain ⟨hinv, hsinks, hothers⟩ := hstart.run h hkinds hfree hrun
  rw [show LogFiles.kinds { files := before } = [] from rfl, List.nil_append] at hsinks
  rw [← hsinks] at hkinds ⊢
  refine ⟨fun i config hi => ?_, hinv.stderr, hinv.logger.told, hothers⟩
  have hvalid := hkinds.valid _ (List.mem_of_getElem? hi)
  rw [kinds, List.getElem?_map] at hi
  obtain ⟨sink, hsink, hkind⟩ := Option.map_eq_some_iff.mp hi
  cases sink with
  | console => exact absurd hkind (by simp [Sink.kind])
  | file config' file size =>
    obtain rfl : config' = config := SinkKind.file.inj hkind
    exact hinv.holds hsink hvalid.2

theorem owns_parent_path {p : Path} (h : config.Owns p) :
    p.parent_path = config.path.parent_path := by
  rcases h with rfl | ⟨i, rfl⟩
  · rfl
  · rfl

/-- A file sink, the console, and a file sink in another directory. -/
def mixedSinks : List SinkKind :=
  [.file ⟨⟨text "DeepSeerLogs", text "proxylog"⟩, 40, 2⟩, .console,
    .file { path := ⟨text "audit", text "proxylog"⟩ }]

/-- A message to the first two sinks, while a third one is configured, and one to all. -/
def mixedRun : List LogFilesAct := mixedSinks.map .construct ++
  [.logger (.init .Info [0, 1]), .logger (.log .Warn [0x68]), .logger (.advance 0),
    .logger (.advance 0), .logger (.advance 1),
    .logger (.format 1 ⟨126, 5, 16, 14, 23, 5, 123, 0xa3f2⟩), .logger (.advance 1),
    .logger (.init .Info [0, 1, 2]), .logger (.advance 1), .logger (.advance 1),
    .logger (.advance 1), .logger (.advance 2), .logger (.advance 2), .logger (.log .Error [0x69]),
    .logger (.advance 3), .logger (.format 3 ⟨126, 5, 16, 14, 23, 6, 0, 0xa3f2⟩),
    .logger (.advance 3), .logger (.advance 3), .logger (.advance 3), .logger (.advance 3)]

theorem mixedSinks_kinds : SinkKinds mixedSinks := by
  refine ⟨?_, ?_⟩
  · simp [mixedSinks, SinkKind.Valid]
  · have hapart : SinkKind.Apart (.file ⟨⟨text "DeepSeerLogs", text "proxylog"⟩, 40, 2⟩)
        (.file { path := ⟨text "audit", text "proxylog"⟩ }) := by
      intro p hp hp'
      have heq := (owns_parent_path hp).symm.trans (owns_parent_path hp')
      exact absurd heq (by decide)
    refine .cons ?_ (.cons (fun _ _ _ hp => hp.elim) (.cons (by simp) .nil))
    exact List.forall_mem_cons.mpr ⟨fun _ _ hp => hp,
      List.forall_mem_cons.mpr ⟨hapart, by simp⟩⟩

theorem logs_kept_mixed : ∃ s,
    Schedules.run (LogFiles.step ⟨fun _ _ => true, fun _ _ _ => true, fun _ _ => true⟩)
      { files := fun _ => none } mixedRun = some s ∧
    LogsKept (fun _ => none) (mixedRun.flatMap LogFilesAct.made) s := by
  obtain ⟨s, hrun⟩ := Option.isSome_iff_exists.mp (show (Schedules.run
    (LogFiles.step ⟨fun _ _ => true, fun _ _ _ => true, fun _ _ => true⟩)
      { files := fun _ => none } mixedRun).isSome = true by decide +kernel)
  exact ⟨s, hrun, logs_kept ⟨fun _ _ _ => rfl, fun _ _ _ _ => rfl, fun _ _ => rfl⟩ _ mixedRun
    mixedSinks_kinds (fun _ _ _ _ => rfl) s hrun⟩

end LogFiles

end DeepSeer
