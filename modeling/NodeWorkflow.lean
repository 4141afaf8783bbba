import NodeWorkflow.Json.Writer
import NodeWorkflow.Service.Handler
import NodeWorkflow.Shell.Environment
import NodeWorkflow.Shell.Framework
import NodeWorkflow.Proofs.Compile.Closed
import NodeWorkflow.Proofs.Compile.Links
import NodeWorkflow.Proofs.Parameter.Account
import NodeWorkflow.Proofs.Parameter.Order
import NodeWorkflow.Proofs.Parameter.Validity
import NodeWorkflow.Proofs.Service.Compile
import NodeWorkflow.Proofs.Template.Isolation
import NodeWorkflow.Proofs.Parameter.Reading
import NodeWorkflow.Proofs.Path.Laws
import NodeWorkflow.Proofs.Parameter.Completion
import NodeWorkflow.Proofs.Compile.Entries
import NodeWorkflow.Proofs.Compile.Supply
import NodeWorkflow.Proofs.Compile.Unresolved
import NodeWorkflow.Proofs.Template.Loading
import NodeWorkflow.Proofs.Compile.Structure
import NodeWorkflow.Proofs.Compile.Recompilation
import NodeWorkflow.Proofs.Editor.RoundTrip
import NodeWorkflow.Proofs.Sorting.Run
import NodeWorkflow.Proofs.Sorting.Merge
import NodeWorkflow.Proofs.Sorting.Basic
import NodeWorkflow.Proofs.Template.Listings
import NodeWorkflow.Proofs.Service.Templates
import NodeWorkflow.Proofs.Path.Print
import NodeWorkflow.Proofs.Path.Lookup
import NodeWorkflow.Proofs.Parameter.Repetition
import NodeWorkflow.Proofs.Template.Copies
import NodeWorkflow.Proofs.Compile.Filtering
import NodeWorkflow.Proofs.Compile.Indices
import NodeWorkflow.Proofs.Compile.Arrangement
import NodeWorkflow.Proofs.Compile.Locality
import NodeWorkflow.Proofs.Compile.Merging
import NodeWorkflow.Proofs.Compile.Slots
import NodeWorkflow.Proofs.Compile.ClipTypes
import NodeWorkflow.Proofs.Parameter.Coercion
import NodeWorkflow.Proofs.Validation.Course
