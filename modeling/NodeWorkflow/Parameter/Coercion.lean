import NodeWorkflow.Parameter.Spec
import NodeWorkflow.Number.Numeral
import NodeWorkflow.Text.Blank

/-!
# Coercion of parameter values

A value is turned into text or into a finite number, as its parameter demands.
-/
namespace NodeWorkflow
open Number

namespace ParameterType

/-- A binary number that came from `value`; it must be finite. -/
def finite (value : Json) (x : Binary64) : Except ValueFault Json :=
  if x.isFinite then .ok (.float x) else .error (.notFinite value)

/-- The number that a text denotes. What is no integer numeral is read as a binary number, also an
integer numeral with too many digits. -/
def numberOfText (s : String) : Except ValueFault Json :=
  let body := Text.trim s.toList
  match readInteger body with
  | .value n => .ok (.int n)
  | _ => match readBinary64? body with
    | some x => finite (.str s) x
    | none => .error (.notNumeral (String.ofList body))

def toNumber : Json → Except ValueFault Json
  | .str s => numberOfText s
  | .int n => .ok (.int n)
  | .float x => finite (.float x) x
  | value => .error (.notNumber value)

def coerce : ParameterType → Json → Except ValueFault Json
  | .number, value => toNumber value
  | .string, value => .ok (.str value.text)

end ParameterType
end NodeWorkflow
