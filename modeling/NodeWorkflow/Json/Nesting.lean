import NodeWorkflow.Json.Basic

/-!
# Nesting of data

How deep data nests: a scalar is one level, and a list or an object one more than its parts.
-/
namespace NodeWorkflow.Json

mutual

def nestsWithin (levels : Nat) : Json → Bool
  | .scalar _ => 1 ≤ levels
  | .list xs => 1 ≤ levels && itemsNestWithin (levels - 1) xs
  | .obj es => 1 ≤ levels && entriesNestWithin (levels - 1) es

def itemsNestWithin (levels : Nat) : List Json → Bool
  | [] => true
  | x :: xs => nestsWithin levels x && itemsNestWithin levels xs

def entriesNestWithin (levels : Nat) : List (Scalar × Json) → Bool
  | [] => true
  | (_, v) :: es => nestsWithin levels v && entriesNestWithin levels es

end

end NodeWorkflow.Json
