import NodeWorkflow.Json.Basic
import NodeWorkflow.Text.Half

/-!
# Order of scalars

Texts are in the order of their code points and numbers in that of their values, without rounding.
-/
namespace NodeWorkflow.Scalar

/-- The rank of a number: finite ones lie between the infinities and are counted in the least power
of two. -/
def rank? : Scalar → Option (Int × Int)
  | .float (.nan _) => none
  | .float (.infinite negative) => some (if negative then -1 else 1, 0)
  | .float (.finite negative m e) => some (0, Number.Binary64.aligned negative m e (-1074))
  | a => a.int?.map fun n => (0, n * Nat.pow 2 1074)

/-- Whether a scalar comes before another. What is not a number comes before nothing and after
nothing. -/
def before (a b : Scalar) : Bool :=
  match a, b with
  | .str s, .str t => Text.before s t
  | a, b => match rank? a, rank? b with
    | some x, some y => x.1 < y.1 || (x.1 == y.1 && x.2 < y.2)
    | _, _ => false

def reaches (a : Scalar) (n : Int) : Bool := a.rank?.isSome && !a.before (.int n)

end NodeWorkflow.Scalar
