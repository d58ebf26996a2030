import DeepSeer.HeaderMap
import DeepSeer.Runs

/-!
A header map over all of its operations. What it holds for a name is the fold of the
operations on that name, whatever is done to the others; and its observers are the
views of one strictly sorted list, apart from `empty`.
-/
namespace DeepSeer

open ByteMemory ByteText SortedMap Runs

/-- The names are equal up to ASCII case. -/
def SameUpToCase (a b : Bytes) : Prop := a.map tolower = b.map tolower

instance (a b : Bytes) : Decidable (SameUpToCase a b) := by
  unfold SameUpToCase
  infer_instance

inductive HeaderOp where
  | set (name value : Bytes)
  | append (name value : Bytes)
  | remove (name : Bytes)
  deriving DecidableEq, Repr

namespace HeaderOp

def name : HeaderOp → Bytes
  | .set name _ | .append name _ | .remove name => name

def perform (m : HeaderMap) : HeaderOp → HeaderMap
  | .set name value => m.set name value
  | .append name value => m.append name value
  | .remove name => m.remove name

/-- What the operation makes of the value of its own name. -/
def onValue (held : Option Bytes) : HeaderOp → Option Bytes
  | .set _ value => some value
  | .append _ value =>
    match held with
    | some before => some (before ++ text ", " ++ value)
    | none => some value
  | .remove _ => none

end HeaderOp

/-- The headers after some operations on a new map. -/
def headers (ops : List HeaderOp) : HeaderMap := run HeaderOp.perform {} ops

namespace HeaderMap

/-- `headers_.contains(name)`. -/
def has (m : HeaderMap) (name : Bytes) : Bool := (m.lookup name).isSome

def size (m : HeaderMap) : Nat := m.entries.length

/-- `return headers_.size();` -/
def empty (m : HeaderMap) : Bool := m.size != 0

/-- The entries from `begin()` to `end()`. -/
def visited (m : HeaderMap) : List (Bytes × Bytes) := m.entries

theorem get_append (m : HeaderMap) (name other value : Bytes) :
    (m.append name value).get other =
      if sameName other name then HeaderOp.onValue (m.get other) (.append name value)
      else m.get other := by
  have hsame : sameName other name = true → m.lookup other = m.lookup name := by
    intro h
    simp only [lookup]
    congr 2
    funext e
    exact nameOrder.same_congr h
  unfold append get
  cases hname : m.lookup name with
  | some held =>
    simp only [lookup_update]
    by_cases h : sameName other name = true
    · simp [h, hsame h, hname, HeaderOp.onValue]
    · simp [h]
  | none =>
    simp only [lookup_assign]
    by_cases h : sameName other name = true
    · simp [h, hsame h, hname, HeaderOp.onValue]
    · simp [h]

/-- One operation changes the value of its own name only. -/
theorem get_perform (m : HeaderMap) (op : HeaderOp) (name : Bytes) :
    (op.perform m).get name =
      if SameUpToCase name op.name then op.onValue (m.get name) else m.get name := by
  have hiff : sameName name op.name = true ↔ SameUpToCase name op.name := sameName_iff
  simp only [← hiff]
  cases op with
  | set other value => exact get_set m other name value
  | append other value => exact get_append m other name value
  | remove other => exact get_remove m other name

theorem get_run (m : HeaderMap) (ops : List HeaderOp) (name : Bytes) :
    (run HeaderOp.perform m ops).get name =
      (ops.filter fun op => SameUpToCase name op.name).foldl HeaderOp.onValue (m.get name) := by
  induction ops generalizing m with
  | nil => rfl
  | cons op rest ih =>
    rw [run_cons, ih, get_perform]
    by_cases h : SameUpToCase name op.name <;> simp [h]

end HeaderMap

theorem caseInsensitiveLess_incomparable (a b : Bytes) :
    (¬ CaseInsensitiveLess a b = true ∧ ¬ CaseInsensitiveLess b a = true) ↔ SameUpToCase a b := by
  rw [SameUpToCase, ← sameName_iff, sameName, Comparator.same_iff]
  simp [nameOrder]

/-- After any operations a header map holds for each name the fold of the operations on
it, an operation leaves all other names alone, and this rests on a strict weak order in
which the entries stay strictly sorted and names equal up to case are the same. -/
theorem headers_fold (ops : List HeaderOp) :
    (∀ name, (headers ops).get name =
      (ops.filter fun op => SameUpToCase name op.name).foldl HeaderOp.onValue none) ∧
    (∀ (op : HeaderOp) name, ¬ SameUpToCase name op.name →
      (op.perform (headers ops)).get name = (headers ops).get name) ∧
    (IsStrictWeakOrder Bytes fun a b => CaseInsensitiveLess a b = true) ∧
    (∀ a b, (¬ CaseInsensitiveLess a b = true ∧ ¬ CaseInsensitiveLess b a = true) ↔
      SameUpToCase a b) ∧
    (headers ops).entries.Pairwise fun a b => CaseInsensitiveLess a.1 b.1 = true := by
  refine ⟨fun name => ?_, fun op name h => ?_, ?_, caseInsensitiveLess_incomparable, ?_⟩
  · exact HeaderMap.get_run {} ops name
  · rw [HeaderMap.get_perform, if_neg h]
  · exact nameOrder.strictWeakOrder
  · exact (headers ops).sorted

example : (headers [.set (text "Via") (text "a"), .append (text "VIA") (text "b"),
    .remove (text "Host")]).get (text "via") = some (text "a, b") := by decide

/-- What the observers of a map, `empty` apart, have to do with one another. -/
structure Coherent (m : HeaderMap) : Prop where
  increasing : m.visited.Pairwise fun a b => CaseInsensitiveLess a.1 b.1 = true
  once : ∀ name, (m.visited.filter fun e => SameUpToCase name e.1).length ≤ 1
  size : m.size = m.visited.length
  has : ∀ name, m.has name = true ↔ ∃ value, m.get name = some value
  get : ∀ name value, m.get name = some value ↔
    ∃ e ∈ m.visited, SameUpToCase name e.1 ∧ e.2 = value

structure ObserversAgree (m : HeaderMap) : Prop extends Coherent m where
  empty : m.empty = true ↔ m.size = 0

theorem coherent (m : HeaderMap) : Coherent m where
  increasing := m.sorted
  once name := by
    have hfilter : (m.visited.filter fun e => SameUpToCase name e.1) =
        m.entries.filter fun e => nameOrder.same name e.1 := by
      apply List.filter_congr
      intro e _
      rw [Bool.eq_iff_iff, decide_eq_true_iff]
      exact sameName_iff.symm
    have hone := congrArg List.length (m.filter_same name)
    rw [List.length_map] at hone
    rw [hfilter, hone]
    cases m.lookup name <;> simp
  size := rfl
  has name := Option.isSome_iff_exists
  get name value := by
    simp only [SameUpToCase, ← sameName_iff]
    exact m.lookup_eq_some

/-- `empty` says the opposite of what it should. -/
theorem empty_iff_size (m : HeaderMap) : m.empty = true ↔ m.size ≠ 0 := bne_iff_ne

/-- After any operations all observers agree but `empty`, which holds exactly where there
are entries. -/
theorem observers_disagree (ops : List HeaderOp) :
    Coherent (headers ops) ∧ ¬ ObserversAgree (headers ops) := by
  refine ⟨coherent _, fun h => ?_⟩
  have hwrong : (headers ops).size ≠ 0 ↔ (headers ops).size = 0 :=
    (empty_iff_size _).symm.trans h.empty
  by_cases hsize : (headers ops).size = 0
  · exact hwrong.mpr hsize hsize
  · exact hsize (hwrong.mp hsize)

/-- A new map has no entries and is not empty. -/
theorem new_not_empty :
    (headers []).size = 0 ∧ (headers []).empty = false ∧ ¬ ObserversAgree (headers []) :=
  ⟨rfl, rfl, fun h => absurd (h.empty.mpr rfl) (by decide)⟩

end DeepSeer
