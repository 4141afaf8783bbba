import NodeWorkflow.Compile.Depth
import NodeWorkflow.Json.Order
import NodeWorkflow.Json.Reader
import NodeWorkflow.Sharing.Drawn
import NodeWorkflow.Sorting.Basic
import NodeWorkflow.Template.Basic
import NodeWorkflow.Template.Bundled

/-!
# The catalogue of templates

Templates by name. Their workflows are documents of a workspace, in which the graphs that are made
from them live too, because these share parts with them.
-/
namespace NodeWorkflow

/-- A template of the catalogue; its workflow is a document. -/
structure Listing where
  name : Scalar
  description : Json
  parameters : Registry
  document : Nat

structure Catalogue where
  workspace : Workspace
  listings : Entries Listing

namespace Catalogue

def empty : Catalogue := ⟨.empty, []⟩

/-- Adds a template; one of the same name is replaced. The name must be a scalar. -/
def register (c : Catalogue) (t : Template) : Except Fault Catalogue :=
  match t.name with
  | .scalar name =>
    let (workspace, document) := c.workspace.add (.own t.workflow)
    .ok ⟨workspace, Entries.put name ⟨name, t.description, t.parameters, document⟩ c.listings⟩
  | _ => .error .keyNotScalar

def registerData (c : Catalogue) (data : Json) : Except Fault Catalogue := do
  c.register (← Template.ofJson data)

def get (c : Catalogue) (name : Json) : Except Fault Listing :=
  match name with
  | .scalar key => match Entries.get? key c.listings with
    | some listing => .ok listing
    | none => .error (.templateUnknown name)
  | _ => .error .keyNotScalar

/-- Whether names can be put in order: all are texts, all are numbers, or there is one at most. -/
def areOrdered (names : List Scalar) : Bool :=
  let isText : Scalar → Bool
    | .str _ => true
    | _ => false
  names.length ≤ 1 || names.all isText || names.all fun a => !isText a && a != .null

def sorted (c : Catalogue) : Except Fault (Entries Listing) :=
  if areOrdered (c.listings.map (·.1)) then
    .ok (Sorting.sort (fun a b => a.1.before b.1) c.listings)
  else .error .notOrdered

def names (c : Catalogue) : Except Fault (List Scalar) :=
  c.sorted.map fun entries => entries.map (·.1)

def all (c : Catalogue) : Except Fault (List Listing) :=
  c.sorted.map fun entries => entries.map (·.2)

/-- Forgets the templates. The graphs made from them stay. -/
def clear (c : Catalogue) : Catalogue := { c with listings := [] }

/-- How the loading of files ends: the catalogue, what was reported, and the number of templates
loaded. -/
structure Loading where
  catalogue : Catalogue
  events : List Event
  result : Except Fault Nat

/-- Why a file is skipped whose data is no template: it lacks a key or has a bad value where a
template must have one. `none` for the faults that are not a matter of the file. -/
def skipReason? : Fault → Option String
  | .keyMissing key => some (Text.quoted key)
  | .value cause => some cause.message
  | _ => none

/-- Characters with one for every line break. -/
def withPlainBreaks : List Char → List Char
  | '\r' :: '\n' :: rest => '\n' :: withPlainBreaks rest
  | '\r' :: rest => '\n' :: withPlainBreaks rest
  | c :: rest => c :: withPlainBreaks rest
  | [] => []

/-- The data in a file. -/
def readFile [Machine] (text : String) : Except Json.ReadFault Json :=
  Json.readWithin Machine.textLevels (String.ofList (withPlainBreaks text.toList))

/-- Loads files in order. A file that is no template is skipped. -/
def loadFiles [Machine] (directory : String) : Nat → List (String × String) → Catalogue → Loading
  | loaded, [], c => ⟨c, [.templatesLoaded loaded directory], .ok loaded⟩
  | loaded, (file, text) :: files, c =>
    let skip (reason : String) : Loading :=
      let rest := loadFiles directory loaded files c
      { rest with events := .templateSkipped file reason :: rest.events }
    match readFile text with
    | .error fault => match fault.message? with
      | some reason => skip reason
      | none => ⟨c, [], .error .tooDeep⟩
    | .ok data => match Template.ofJson data with
      | .error fault => match skipReason? fault with
        | some reason => skip reason
        | none => ⟨c, [], .error fault⟩
      | .ok template => match c.register template with
        | .error fault => ⟨c, [], .error fault⟩
        | .ok c => loadFiles directory (loaded + 1) files c

def isTemplateFile (name : String) : Bool := ".json".toList.isSuffixOf name.toList

/-- Loads the template files of a directory in the order of their names; `none` stands for a
directory that does not exist. -/
def loadDirectory [Machine] (c : Catalogue) (directory : String)
    (files : Option (List (String × String))) : Loading :=
  match files with
  | none => ⟨c, [.directoryMissing directory], .ok 0⟩
  | some files =>
    let named := files.filter fun f => isTemplateFile f.1
    loadFiles directory 0 (named.mergeSort fun a b => !Text.before b.1 a.1) c

def loadBundled (c : Catalogue) (directory : String) : Loading :=
  match c.registerData Template.Bundled.data with
  | .error fault => ⟨c, [], .error fault⟩
  | .ok c => ⟨c, [.templatesLoaded 1 directory], .ok 1⟩

def compile [Machine] (c : Catalogue) (options : Compile.Options) (doc : Nat) :
    Catalogue × Traced Nat :=
  match Compile.overrun? Machine.copyLevels options (c.workspace.value doc) with
  | some run => (c, ⟨run.events, run.result.map fun _ => doc⟩)
  | none =>
    let (workspace, run) := c.workspace.compile options doc
    ({ c with workspace := workspace }, run)

def load [Machine] (c : Catalogue) (name : Json) (options : Compile.Options) :
    Catalogue × Traced Nat :=
  match c.get name with
  | .error fault => (c, .fail fault)
  | .ok listing => c.compile options listing.document

def inject [Machine] (c : Catalogue) (doc : Nat) (parameters : Registry) (values : Json) :
    Catalogue × Traced Unit :=
  let run := NodeWorkflow.inject (Workspace.surface doc) parameters values c.workspace
  ({ c with workspace := run.state }, match run.fault with
    | none => ⟨run.events, .ok ()⟩
    | some fault => ⟨run.events, .error fault⟩)

def apply [Machine] (c : Catalogue) (doc : Nat) (parameters : Registry) (values : Json) :
    Catalogue × Traced Nat :=
  if (c.workspace.value doc).nestsWithin Machine.copyLevels then
    let (workspace, copy) := c.workspace.copy doc
    let (c, run) := { c with workspace := workspace }.inject copy parameters values
    (c, ⟨run.events, run.result.map fun _ => copy⟩)
  else (c, .fail .tooDeep)

end Catalogue
end NodeWorkflow
