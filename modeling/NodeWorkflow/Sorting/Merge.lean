import NodeWorkflow.Sorting.Search

/-!
# Merging two runs

Two runs are merged from the end at which the shorter one lies. Items are compared one by one until
one side wins often in a row; then whole stretches are looked for, as long as these are long.
-/
namespace NodeWorkflow.Sorting
variable {α : Type}

/-- A merge on its way. `kept` holds the item that comes last. -/
structure Merging (α : Type) where
  /-- The items in their places, the last one first. -/
  placed : List α
  kept : List α
  other : List α
  /-- How often in a row one side wins before stretches are looked for. -/
  patience : Nat

/-- Which run is kept, and which of two items comes first. -/
structure Contest (α : Type) where
  /-- Whether the merge goes up from the least items. -/
  upward : Bool
  /-- Whether an item of the other run comes before one of the kept run. -/
  wins : α → α → Bool

namespace Merging

def isOver (m : Merging α) : Bool := m.other.isEmpty || m.kept.length ≤ 1

def placeKept (count : Nat) (m : Merging α) : Merging α :=
  { m with placed := (m.kept.take count).reverse ++ m.placed, kept := m.kept.drop count }

def placeOther (count : Nat) (m : Merging α) : Merging α :=
  { m with placed := (m.other.take count).reverse ++ m.placed, other := m.other.drop count }

def result (m : Merging α) : List α := m.placed.reverse ++ m.other ++ m.kept

/-- Compares item by item until one side has won as often in a row as patience lasts. -/
def compareItems (c : Contest α) : Nat → Nat → Nat → Merging α → Merging α
  | 0, _, _, m => m
  | fuel + 1, keptWins, otherWins, m =>
    if m.isOver || m.patience ≤ max keptWins otherWins then m
    else match m.kept, m.other with
      | k :: _, o :: _ =>
        if c.wins o k then compareItems c fuel 0 (otherWins + 1) (m.placeOther 1)
        else compareItems c fuel (keptWins + 1) 0 (m.placeKept 1)
      | _, _ => m

/-- Places the kept items before the next other one, and then this; counts the former. -/
def passKept (c : Contest α) (m : Merging α) : Merging α × Nat :=
  match m.isOver, m.other with
  | false, o :: _ =>
    let count := runLength c.upward (fun k => !c.wins o k) m.kept
    let m := m.placeKept count
    (if m.isOver then m else m.placeOther 1, count)
  | _, _ => (m, 0)

def passOther (c : Contest α) (m : Merging α) : Merging α × Nat :=
  match m.isOver, m.kept with
  | false, k :: _ =>
    let count := runLength c.upward (fun o => c.wins o k) m.other
    let m := m.placeOther count
    (if m.isOver then m else m.placeKept 1, count)
  | _, _ => (m, 0)

/-- Places a stretch of either run; the lower one's goes first. Gives the longer of the counts. -/
def passBoth (c : Contest α) (m : Merging α) : Merging α × Nat :=
  if c.upward then
    let (m, keptCount) := m.passKept c
    let (m, otherCount) := m.passOther c
    (m, max keptCount otherCount)
  else
    let (m, otherCount) := m.passOther c
    let (m, keptCount) := m.passKept c
    (m, max keptCount otherCount)

def longStretch : Nat := 7

/-- Places stretches as long as there are long ones. Patience shrinks while this goes on and grows
when it ends. -/
def passStretches (c : Contest α) : Nat → Merging α → Merging α
  | 0, m => m
  | fuel + 1, m =>
    let (m, count) := m.passBoth c
    if m.isOver then m
    else if longStretch ≤ count then
      passStretches c fuel { m with patience := max 1 (m.patience - 1) }
    else { m with patience := m.patience + 1 }

def run (c : Contest α) : Nat → Merging α → Merging α
  | 0, m => m
  | fuel + 1, m =>
    let m := m.compareItems c fuel 0 0
    if m.isOver then m
    else run c fuel (m.passStretches c fuel)

end Merging

/-- Merges a kept run and another one, given the patience; gives what is left of it. The first of
the other items is known to come first. -/
def contest (c : Contest α) (patience : Nat) (kept other : List α) : List α × Nat :=
  let start : Merging α := ⟨[], kept, other, patience⟩
  let m := (start.placeOther 1).run c (kept.length + other.length)
  (m.result, m.patience)

/-- Merges two neighbouring runs, given the patience; gives what is left of it. The items at the
outer ends that stay in their places take no part. -/
def merge (before : α → α → Bool) (patience : Nat) (low high : List α) : List α × Nat :=
  match high.head?, low.getLast? with
  | some first, some last =>
    let lead := runLength true (fun x => !before first x) low
    let tail := runLength false (fun x => !before x last) high.reverse
    let kept := low.drop lead
    let lower := high.take (high.length - tail)
    if kept.isEmpty || lower.isEmpty then (low ++ high, patience)
    else
      let (middle, patience) :=
        if kept.length ≤ lower.length then
          contest ⟨true, fun o k => before o k⟩ patience kept lower
        else
          let (reversed, patience) :=
            contest ⟨false, fun o k => before k o⟩ patience lower.reverse kept.reverse
          (reversed.reverse, patience)
      (low.take lead ++ middle ++ high.drop (high.length - tail), patience)
  | _, _ => (low ++ high, patience)

end NodeWorkflow.Sorting
