import NodeWorkflow.Json.Basic

/-!
# Equality of data

Two relations: identity of data, which is decidable, and equality of values, which compares numbers
by value and disregards the order of entries. Parts of lists and objects are compared as keys are:
what is not a number equals nothing, but one thing agrees with itself.
-/
namespace NodeWorkflow.Json

mutual

/-- Whether two parts agree. Two objects agree if they are of one size and every key of the first
has an agreeing value in the second. -/
def agrees : Json → Json → Bool
  | .scalar a, .scalar b => a.agrees b
  | .list xs, .list ys => agreesItems xs ys
  | .obj xs, .obj ys => xs.length == ys.length && agreesEntries xs ys
  | _, _ => false

def agreesItems : List Json → List Json → Bool
  | [], [] => true
  | x :: xs, y :: ys => agrees x y && agreesItems xs ys
  | _, _ => false

def agreesEntries : List (Scalar × Json) → List (Scalar × Json) → Bool
  | [], _ => true
  | (k, x) :: xs, ys =>
    (match Entries.get? k ys with
      | some y => agrees x y
      | none => false) && agreesEntries xs ys

end

def same : Json → Json → Bool
  | .scalar a, .scalar b => a.same b
  | v, w => v.agrees w

mutual

def decEq : (v w : Json) → Decidable (v = w)
  | .scalar a, .scalar b =>
    if h : a = b then .isTrue (by rw [h]) else .isFalse (by simpa using h)
  | .list xs, .list ys => match decEqItems xs ys with
    | .isTrue h => .isTrue (by rw [h])
    | .isFalse h => .isFalse (by simpa using h)
  | .obj xs, .obj ys => match decEqEntries xs ys with
    | .isTrue h => .isTrue (by rw [h])
    | .isFalse h => .isFalse (by simpa using h)
  | .scalar _, .list _ | .scalar _, .obj _ | .list _, .scalar _
  | .list _, .obj _ | .obj _, .scalar _ | .obj _, .list _ => .isFalse (by simp)

def decEqItems : (xs ys : List Json) → Decidable (xs = ys)
  | [], [] => .isTrue rfl
  | x :: xs, y :: ys => match decEq x y, decEqItems xs ys with
    | .isTrue h, .isTrue hs => .isTrue (by rw [h, hs])
    | .isFalse h, _ => .isFalse (by simp [h])
    | _, .isFalse h => .isFalse (by simp [h])
  | [], _ :: _ | _ :: _, [] => .isFalse (by simp)

def decEqEntries : (xs ys : List (Scalar × Json)) → Decidable (xs = ys)
  | [], [] => .isTrue rfl
  | (k, x) :: xs, (l, y) :: ys =>
    match (inferInstance : Decidable (k = l)), decEq x y, decEqEntries xs ys with
    | .isTrue hk, .isTrue h, .isTrue hs => .isTrue (by rw [hk, h, hs])
    | .isFalse hk, _, _ => .isFalse (by simp [hk])
    | _, .isFalse h, _ => .isFalse (by simp [h])
    | _, _, .isFalse hs => .isFalse (by simp [hs])
  | [], _ :: _ | _ :: _, [] => .isFalse (by simp)

end

instance : DecidableEq Json := decEq

end NodeWorkflow.Json
