/-!
# Searching a list from one end

Where a test holds of the items at the start of a list and of no later ones, `runLength` counts
them in few probes: steps that double find an end, and halving finds the place. It is defined for
any test at all, and which items are probed decides then.
-/
namespace NodeWorkflow.Sorting
variable {α : Type}

/-- The place between `low` and `high` where a test ceases to hold. Each step halves the distance; a
middle between two places is the later one if `upward` does not hold. -/
def bisect (upward : Bool) (keep : α → Bool) (xs : List α) : Nat → Nat → Nat → Nat
  | 0, low, _ => low
  | fuel + 1, low, high =>
    if low < high then
      let half := (high - low) / 2
      let middle := if upward then low + half else high - 1 - half
      if (xs[middle]?).any keep then bisect upward keep xs fuel (middle + 1) high
      else bisect upward keep xs fuel low middle
    else low

/-- Doubles the step from `last`, where a test holds, until it does not hold at `next` or the list
ends. -/
def leap (keep : α → Bool) (xs : List α) : Nat → Nat → Nat → Nat × Nat
  | 0, last, next => (last, next)
  | fuel + 1, last, next =>
    match xs[next]? with
    | none => (last, xs.length)
    | some x => if keep x then leap keep xs fuel next (2 * next + 1) else (last, next)

def runLength (upward : Bool) (keep : α → Bool) (xs : List α) : Nat :=
  if (xs.head?).any keep then
    let (last, next) := leap keep xs xs.length 0 1
    bisect upward keep xs xs.length (last + 1) next
  else 0

end NodeWorkflow.Sorting
