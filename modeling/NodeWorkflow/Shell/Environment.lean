import NodeWorkflow.Json.Reader
import NodeWorkflow.Machine
import NodeWorkflow.Settings
import NodeWorkflow.Shell.Loose
import NodeWorkflow.Shell.Truth
import NodeWorkflow.Text.Blank

/-!
# The environment

What the service is told from outside: environment variables, which override the defaults of
settings, and a clock. A variable is a prefix and the name of a setting, in letters of any case; of
variables that differ only in case the last counts. A list is given as JSON text.
-/
namespace NodeWorkflow

inductive SettingsFault where
  /-- The text of a list is not JSON. -/
  | unreadable
  /-- A value is not of the kind that its setting demands. -/
  | invalid
  /-- The text of a list nests too deep. -/
  | tooDeep
  /-- A text of the environment has no bytes. -/
  | notBytes
  /-- A text of the environment holds the character zero, which ends a text there. -/
  | holdsZero
  /-- The name of a variable holds the sign that ends names. -/
  | badName
  /-- A variable has no name. -/
  | noName

namespace Settings

abbrev Environment := List (String × String)

/-- Whether a text has bytes. Of the halves of surrogate pairs 128 low ones stand for a byte
each. -/
def hasBytes (s : String) : Bool :=
  (Text.points s).all fun p => !p.isHalf || (0xdc80 ≤ p.code && p.code ≤ 0xdcff)

def variableFault? (e : String × String) : Option SettingsFault :=
  let zero := Char.ofNat 0
  if !hasBytes e.1 || !hasBytes e.2 then some .notBytes
  else if e.1.contains zero || e.2.contains zero then some .holdsZero
  else if e.1.contains '=' then some .badName
  else if e.1.isEmpty then some .noName
  else none

def given? (env : Environment) (setting : String) : Option String :=
  (env.reverse.find? fun e => Text.lower e.1 = "workflow_compiler_" ++ setting).map (·.2)

/-- The white space of Unicode, to which the information separators do not belong. -/
def isSpace (c : Char) : Bool := Text.isBlank c && !(28 ≤ c.toNat && c.toNat ≤ 31)

def integer? (s : String) : Option Int :=
  Number.readLoose? ((s.toList.dropWhile isSpace).reverse.dropWhile isSpace).reverse

def orInvalid {α : Type} : Option α → Except SettingsFault α
  | some a => .ok a
  | none => .error .invalid

def texts? : Json → Option (List String)
  | .list xs => xs.mapM fun
    | .str s => some s
    | _ => none
  | _ => none

/-- Reads the JSON text of a list. The text of null leaves the setting as it is. -/
def readList [Machine] (env : Environment) (setting : String) :
    Except SettingsFault (Option Json) :=
  match given? env setting with
  | none => .ok none
  | some s => match Json.readWithin Machine.textLevels s with
    | .error .tooDeep => .error .tooDeep
    | .error _ => .error .unreadable
    | .ok v => .ok (if v.isNull then none else some v)

def override {α β : Type} (given : Option β) (convert : β → Option α) (default : α) :
    Except SettingsFault α :=
  match given with
  | none => .ok default
  | some v => orInvalid (convert v)

/-- The settings in an environment. All variables are checked and all lists read before any value
is. -/
def ofEnvironment [Machine] (env : Environment) : Except SettingsFault Settings := do
  if let some fault := env.findSome? variableFault? then throw fault
  let uiNodeTypes ← readList env "ui_node_types"
  let corsOrigins ← readList env "cors_origins"
  let text (setting : String) (default : String) := (given? env setting).getD default
  return {
    appName := text "app_name" default.appName
    debug := ← override (given? env "debug") Text.truthOf? default.debug
    host := text "host" default.host
    port := ← override (given? env "port") integer? default.port
    logLevel := text "log_level" default.logLevel
    uiNodeTypes := ← override uiNodeTypes texts? default.uiNodeTypes
    zeroIndexOutputs := ← override (given? env "zero_index_outputs") Text.truthOf?
      default.zeroIndexOutputs
    corsOrigins := ← override corsOrigins texts? default.corsOrigins }

end Settings

/-- The time on a clock in whole seconds, cut toward zero. -/
def wholeSeconds? : Scalar → Option Int
  | .float x => x.truncate?
  | .str s => match Number.readInteger (Text.trim s.toList) with
    | .value n => some n
    | _ => none
  | a => a.int?

end NodeWorkflow
