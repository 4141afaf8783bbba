import NodeWorkflow.Proofs.Compile.Refusal
import NodeWorkflow.Proofs.Shell.Framework
import NodeWorkflow.Service.Handler

/-!
# How the service answers workflows that are malformed

A request to compile is answered with a workflow, or refused with a message and a node, if and only
if its workflow is regular and what is answered can be sent. Otherwise the service fails. This is so
in every framework that keeps to its documentation.
-/
namespace NodeWorkflow.Service
open Compile

/-- The response holds a result, or the reason and the node of a refusal. -/
def Response.Settles (response : Response) : Prop :=
  response.status = 200 ∨ response.status = 422 ∧ ∃ message id, response.body = .json
    (.ofFields [("detail", .ofFields [("message", .str message), ("node_id", textOrNull id)])])

/-- What a compilation gives can be told: the framework can send the workflow, and texts have no
halves of surrogate pairs. -/
def Framework.Tells (F : Framework) (run : Traced Json) : Prop :=
  match run.result with
  | .ok workflow => (F.present (.object .any) workflow).isSome ∧
      ∀ warning ∈ run.warnings, Text.isWhole warning
  | .error (.shape cause) => Text.isWhole cause.message ∧ ∀ id ∈ cause.nodeId?, Text.isWhole id
  | .error _ => True

namespace Framework.Documented

variable {F : Framework} (hF : F.Documented) {run : Traced Json}
include hF

theorem isSome_present_record (fields : List (String × Schema × Json))
    (hnodup : (fields.map Prod.fst).Nodup) :
    (F.present (.record (fields.map fun f => (f.1, f.2.1)))
      (.ofFields (fields.map fun f => (f.1, f.2.2)))).isSome ↔
      ∀ f ∈ fields, (F.present f.2.1 f.2.2).isSome := by
  rw [hF.present_record fields hnodup, Option.isSome_map, Option.isSome_mapM]
  simp only [Option.isSome_map]

theorem isSome_present_texts {xs : List String} :
    (F.present (.list .text) (texts xs)).isSome ↔ ∀ x ∈ xs, Text.isWhole x := by
  rw [texts, hF.present_list, Option.isSome_map, Option.isSome_mapM, List.forall_mem_map]
  refine forall₂_congr fun x _ => ?_
  rw [hF.present_text]
  split <;> simp [*]

theorem isSome_present_workflow {workflow : Json} {warnings : List String} :
    (F.present .workflow (workflowData workflow warnings)).isSome ↔
      (F.present (.object .any) workflow).isSome ∧ ∀ warning ∈ warnings, Text.isWhole warning := by
  have hrecord := hF.isSome_present_record
    [("workflow", .object .any, workflow), ("warnings", .list .text, texts warnings)] (by simp)
  rw [← hF.isSome_present_texts, Schema.workflow, workflowData]
  simpa using hrecord

theorem renders_refusal {message : String} {id : Option String} :
    F.renders (.ofFields [("message", .str message), ("node_id", textOrNull id)]) = true ↔
      Text.isWhole message ∧ ∀ node ∈ id, Text.isWhole node := by
  have hkeys : Text.isWhole "message" ∧ Text.isWhole "node_id" := by decide
  rw [hF.renders_fields _ (by simp [hkeys])]
  cases id <;> simp [textOrNull, hF.renders_text, hF.renders_null]

theorem settles_compile (hstructural : FailsIn Fault.IsStructural run.result)
    (htells : F.Tells run) : (F.respond .workflow (Answer.ofTraced run fun workflow =>
      workflowData workflow run.warnings).outcome).Settles := by
  unfold Framework.Tells at htells
  unfold Answer.ofTraced
  cases hrun : run.result with
  | ok workflow =>
    rw [hrun] at htells
    obtain ⟨shown, hshown⟩ := Option.isSome_iff_exists.mp (hF.isSome_present_workflow.mpr htells)
    rw [hF.respond_returned hshown]
    exact .inl rfl
  | error fault =>
    obtain ⟨cause, rfl⟩ := hstructural fault hrun
    rw [hrun] at htells
    dsimp only [Answer.ofFault]
    rw [hF.respond_refused (hF.renders_refusal.mpr htells)]
    exact .inr ⟨rfl, cause.message, cause.nodeId?, rfl⟩

theorem fails_compile (h : ¬ (FailsIn Fault.IsStructural run.result ∧ F.Tells run)) :
    (F.respond .workflow (Answer.ofTraced run fun workflow =>
      workflowData workflow run.warnings).outcome).status = 500 := by
  unfold Framework.Tells at h
  unfold Answer.ofTraced
  cases hrun : run.result with
  | ok workflow =>
    simp only [hrun, failsIn_ok, true_and] at h
    exact hF.respond_invalid
      (Option.not_isSome_iff_eq_none.mp (mt hF.isSome_present_workflow.mp h))
  | error fault =>
    cases fault with
    | shape cause =>
      simp only [hrun, failsIn_error, Fault.isStructural_shape, true_and] at h
      exact hF.respond_unrendered (Bool.eq_false_iff.mpr (mt hF.renders_refusal.mp h))
    | _ => exact hF.respond_failed _

end Framework.Documented

variable {body : CompileRequest}

theorem namesKeys_compileOptions (settings : Settings) :
    ∀ e ∈ (compileOptions settings body).normalizers, e.2.NamesKeys := by
  unfold compileOptions
  dsimp only
  split
  · exact fun e he => Normalizer.namesKeys_standard he
  · simp

/-- The workflow of a request is regular and what is answered can be sent. -/
structure Answerable [Machine] (F : Framework) (settings : Settings) (body : CompileRequest) :
    Prop where
  regular : Regular Machine.copyLevels (compileOptions settings body).uiTypes body.workflow
  told : F.Tells (compileWithin Machine.copyLevels (compileOptions settings body) body.workflow)

/-- A compilation gives a workflow or a structural fault if and only if the data is regular. A
request to compile is settled if it can be answered, and otherwise the service fails. -/
theorem compiled_or_refused_iff_regular [Machine] {options : Options}
    (hnormalizers : ∀ e ∈ options.normalizers, ∃ name, (name, e.2) ∈ Normalizer.standard)
    (levels : Nat) (data : Json) {F : Framework} (hF : F.Documented) (server : Server)
    {request : Request} (hreceived : F.receive request = .ok (.compile body)) :
    (FailsIn Fault.IsStructural (compileWithin levels options data).result ↔
      Regular levels options.uiTypes data) ∧
    (Answerable F server.settings body → (handle F server request).2.response.Settles) ∧
    (¬ Answerable F server.settings body → (handle F server request).2.response.status = 500) := by
  refine ⟨failsIn_compileWithin fun e he => ?_, ?_⟩
  · obtain ⟨name, hmem⟩ := hnormalizers e he
    exact Normalizer.namesKeys_standard hmem
  · have hregular := @failsIn_compileWithin (compileOptions server.settings body)
      Machine.copyLevels body.workflow (namesKeys_compileOptions server.settings)
    simp only [handle, hreceived]
    refine ⟨fun h => hF.settles_compile (hregular.mpr h.regular) h.told, fun h => ?_⟩
    exact hF.fails_compile fun hreply => h ⟨hregular.mp hreply.1, hreply.2⟩

def countedLinks : Json := .ofFields [("nodes", .list []), ("links", .int 5)]

def countedRequest : Request :=
  ⟨"POST", ["", "api", "compile"],
    some "\x7b\x22workflow\x22:\x7b\x22nodes\x22:[],\x22links\x22:5\x7d\x7d"⟩

/-- The framework as a caller on its own host meets it. -/
abbrev localFramework [Machine] : Framework := Shell.framework (.ofSteps [] [])

attribute [local instance] Machine.common in
theorem receive_countedRequest : ∃ body, localFramework.receive countedRequest =
    .ok (.compile body) ∧ body.workflow = countedLinks := by
  have hread : (Shell.readBody countedRequest.body Shell.checkCompile).toOption.map (·.workflow) =
      some countedLinks := by decide +kernel
  obtain ⟨body, hbody, hworkflow⟩ := Option.map_eq_some_iff.mp hread
  cases hresult : Shell.readBody countedRequest.body Shell.checkCompile with
  | ok found =>
    rw [hresult] at hbody
    obtain rfl : found = body := Option.some.inj hbody
    have hcall : Shell.invocation countedRequest.body .compile = .ok (.compile found) := by
      rw [Shell.invocation, hresult]
      rfl
    have hreceive : Shell.receive (.ofSteps [] []) countedRequest = .ok (.compile found) :=
      Shell.receive_eq_ok.mpr ⟨.compile, rfl, rfl, hcall⟩
    exact ⟨found, hreceive, hworkflow⟩
  | error _ => simp [hresult, Except.toOption] at hbody

theorem not_regular_countedLinks (levels : Nat) (uiTypes : List Scalar) :
    ¬ Regular levels uiTypes countedLinks := by
  intro h
  have hformat : formatOf countedLinks = .ok .editor := rfl
  rw [Regular, hformat] at h
  exact h.links [] rfl (by simp) rfl

attribute [local instance] Machine.common in
/-- Links that are a number are a failure of the compilation and of the service. -/
theorem countedLinks_not_refused :
    (∀ levels, ¬ FailsIn Fault.IsStructural
      (compileWithin levels Settings.default.compileOptions countedLinks).result) ∧
    (handle localFramework ⟨.default, .empty, some 0⟩ countedRequest).2.response.status = 500 := by
  obtain ⟨body, hbody, hworkflow⟩ := receive_countedRequest
  have hstandard : ∀ e ∈ Settings.default.compileOptions.normalizers,
      ∃ name, (name, e.2) ∈ Normalizer.standard := fun e he => ⟨e.1, he⟩
  have h (levels : Nat) := compiled_or_refused_iff_regular hstandard levels countedLinks
    (Shell.framework_documented _) ⟨.default, .empty, some 0⟩ hbody
  refine ⟨fun levels => mt (h levels).1.mp (not_regular_countedLinks levels _), ?_⟩
  exact (h 0).2.2 fun hanswer => not_regular_countedLinks _ _ (hworkflow ▸ hanswer.regular)

end NodeWorkflow.Service
