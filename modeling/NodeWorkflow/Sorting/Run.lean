import NodeWorkflow.Sorting.Search

/-!
# Runs

A list is cut into runs in rising order. A run that falls is turned round, and one that is too short
takes in the items after it, each at the place that bisection finds.
-/
namespace NodeWorkflow.Sorting
variable {α : Type}

/-- The longest start in which no item comes before the one in front of it, and what follows. -/
def risingRun (before : α → α → Bool) : α → List α → List α × List α
  | a, [] => ([a], [])
  | a, b :: rest =>
    if before b a then ([a], b :: rest)
    else ((a :: (risingRun before b rest).1), (risingRun before b rest).2)

def fallingRun (before : α → α → Bool) : α → List α → List α × List α
  | a, [] => ([a], [])
  | a, b :: rest =>
    if before b a then ((a :: (fallingRun before b rest).1), (fallingRun before b rest).2)
    else ([a], b :: rest)

def startRun (before : α → α → Bool) : List α → List α × List α
  | [] => ([], [])
  | [a] => ([a], [])
  | a :: b :: rest =>
    if before b a then
      let (run, others) := fallingRun before a (b :: rest)
      (run.reverse, others)
    else risingRun before a (b :: rest)

/-- Puts an item behind the items that it does not come before. -/
def insert (before : α → α → Bool) (sorted : List α) (item : α) : List α :=
  let place := bisect true (fun other => !before item other) sorted sorted.length 0 sorted.length
  sorted.insertIdx place item

/-- The least length of a run in a list of some length, as far as the list reaches: the length
itself below 64, and otherwise its first six binary digits, rounded up. -/
def leastRun : Nat → Nat → Nat → Nat
  | 0, odd, n => n + odd
  | fuel + 1, odd, n => if n < 64 then n + odd else leastRun fuel (max odd (n % 2)) (n / 2)

/-- Cuts a list into runs of at least `least` items, the last one apart. -/
def runs (before : α → α → Bool) (least : Nat) : Nat → List α → List (List α)
  | 0, _ => []
  | _, [] => []
  | fuel + 1, xs =>
    let (run, others) := startRun before xs
    let missing := least - run.length
    (others.take missing).foldl (insert before) run ::
      runs before least fuel (others.drop missing)

end NodeWorkflow.Sorting
