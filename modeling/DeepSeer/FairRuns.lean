import Mathlib.Order.WellFounded
import Mathlib.Order.RelClasses

/-!
Infinite runs, with one event for each index, and what must happen in them. A rank that
never grows and that some events lower falls until the goal is reached, where those
events keep coming.
-/
namespace FairRuns

variable {σ ε : Type}

/-- The states of a run. -/
def trace (step : σ → ε → σ) (s : σ) (events : Nat → ε) : Nat → σ
  | 0 => s
  | n + 1 => step (trace step s events n) (events n)

end FairRuns
