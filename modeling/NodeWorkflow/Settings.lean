import NodeWorkflow.Compile.Workflow

/-!
# Settings

What the service is run with, and the options that it compiles with.
-/
namespace NodeWorkflow

structure Settings where
  appName : String
  debug : Bool
  host : String
  port : Int
  logLevel : String
  uiNodeTypes : List String
  zeroIndexOutputs : Bool
  corsOrigins : List String

namespace Settings

def default : Settings where
  appName := "Workflow Compiler"
  debug := false
  host := "0.0.0.0"
  port := 8000
  logLevel := "INFO"
  uiNodeTypes := ["SetNode", "GetNode", "Fast Groups Muter (rgthree)", "Bookmark (rgthree)", "Note",
    "Note Plus (mtb)", "PreviewImage", "MaraScottDisplayInfo_v2"]
  zeroIndexOutputs := false
  corsOrigins := ["http://localhost:5173", "http://localhost:3000"]

def compileOptions (settings : Settings) : Compile.Options :=
  ⟨settings.uiNodeTypes.map .str, Compile.Normalizer.standard, settings.zeroIndexOutputs⟩

end Settings
end NodeWorkflow
