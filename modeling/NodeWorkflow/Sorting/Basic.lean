import NodeWorkflow.Sorting.Merge
import NodeWorkflow.Sorting.Run

/-!
# Sorting by merging runs

The runs of a list are merged pairwise. The power of the border between two runs says how far up
their merge stands in a balanced tree; a border of higher power is merged away before one of lower
power. Where any two items compare this is the stable sorted list, and it is defined for any test
at all.
-/
namespace NodeWorkflow.Sorting
variable {α : Type}

/-- A run in a list, and the power of the border behind it. -/
structure Stretch (α : Type) where
  start : Nat
  items : List α
  power : Nat

/-- The power of the border between neighbouring runs in a list: how many binary digits tell their
middles apart, as parts of the list. `low` is where the first starts. -/
def power (total low firstLength secondLength : Nat) : Nat :=
  let first := 2 * low + firstLength
  let second := first + firstLength + secondLength
  ((List.range (total + 1)).find? fun digits =>
    first * Nat.pow 2 digits / total != second * Nat.pow 2 digits / total).getD 0

abbrev Merges := StateM Nat

def join (before : α → α → Bool) (first second : Stretch α) : Merges (Stretch α) := do
  let (items, patience) := merge before (← get) first.items second.items
  set patience
  return ⟨first.start, items, second.power⟩

/-- Merges the stretches on top of a pile whose borders have a power above the given one. -/
def collapse (before : α → α → Bool) (power : Nat) :
    Stretch α → List (Stretch α) → Merges (Stretch α × List (Stretch α))
  | top, [] => return (top, [])
  | top, below :: pile => do
    if power < below.power then collapse before power (← join before below top) pile
    else return (top, below :: pile)

/-- Merges all stretches of a pile. Of three on top the uppermost waits if it is longer than the
lowest. -/
def finish (before : α → α → Bool) : Stretch α → List (Stretch α) → Merges (List α)
  | top, [] => return top.items
  | top, [below] => return (← join before below top).items
  | top, below :: third :: pile => do
    if third.items.length < top.items.length then
      finish before top ((← join before third below) :: pile)
    else finish before (← join before below top) (third :: pile)
termination_by _ pile => pile.length

def pileUp (before : α → α → Bool) (total : Nat) :
    Stretch α → List (Stretch α) → List (List α) → Merges (List α)
  | top, pile, [] => finish before top pile
  | top, pile, next :: later => do
    let power := power total top.start top.items.length next.length
    let start := top.start + top.items.length
    let (top, pile) ← collapse before power top pile
    pileUp before total ⟨start, next, 0⟩ ({ top with power := power } :: pile) later

def sort (before : α → α → Bool) (xs : List α) : List α :=
  match runs before (leastRun xs.length 0 xs.length) xs.length xs with
  | [] => []
  | first :: later =>
    ((pileUp before xs.length ⟨0, first, 0⟩ [] later).run Merging.longStretch).1

end NodeWorkflow.Sorting
