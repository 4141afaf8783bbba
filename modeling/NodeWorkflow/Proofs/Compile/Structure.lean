import NodeWorkflow.Proofs.Compile.Depth
import NodeWorkflow.Proofs.Lists

/-!
# The check that stops and the one that collects

An execution graph that is let through has nothing wrong in its structure and is the one that was
given, completed. One whose nodes have no types to take for classes is let through if and only if
validation finds nothing in its structure and every node can be copied. It is otherwise refused for
the first finding, or for a node before it that nests too deep.
-/
namespace NodeWorkflow.Compile
open Validation

variable {id : Scalar} {node : Json} {nodes : Entries Json} {fault : Fault} {cause : ShapeFault}

theorem nodeId?_of_mem_nodeFaults (h : cause ∈ nodeFaults id node) :
    cause.nodeId? = some id.text := by
  unfold nodeFaults at h
  split at h
  · rw [List.mem_singleton.mp h]
    rfl
  · rcases List.mem_append.mp h with h | h
    all_goals
      split at h
      · simp at h
      · rw [List.mem_singleton.mp h]
        rfl

theorem head?_structureFaults (h : (structureFaults nodes).head? = some cause) :
    ∃ before e after, nodes = before ++ e :: after ∧ (∀ f ∈ before, nodeFaults f.1 f.2 = []) ∧
      (nodeFaults e.1 e.2).head? = some cause := by
  have hsome : ∃ e ∈ nodes, nodeFaults e.1 e.2 ≠ [] := by
    obtain ⟨e, he, hmem⟩ := List.mem_flatMap.mp (List.mem_of_head? h)
    exact ⟨e, he, List.ne_nil_of_mem hmem⟩
  obtain ⟨before, e, after, rfl, hfaults, hbefore⟩ := List.exists_first hsome
  refine ⟨before, e, after, rfl, fun f hf => not_not.mp (hbefore f hf), ?_⟩
  have hnil : structureFaults before = [] :=
    List.flatMap_eq_nil_iff.mpr fun f hf => not_not.mp (hbefore f hf)
  have hsplit : structureFaults (before ++ e :: after) =
      structureFaults before ++ (nodeFaults e.1 e.2 ++ structureFaults after) := by
    simp [structureFaults]
  rw [hsplit, hnil, List.nil_append, List.head?_append_of_ne_nil _ hfaults] at h
  exact h

/-- The message and the node of a fault are those of the first fault in the structure. -/
structure TellsFirst (nodes : Entries Json) (fault : Fault) : Prop where
  message : fault.message? = ((structureFaults nodes).map ShapeFault.message).head?
  node : ∃ cause, fault = .shape cause ∧ ∃ before e after, nodes = before ++ e :: after ∧
    (∀ f ∈ before, IsNode f.2) ∧ ¬ IsNode e.2 ∧ cause.nodeId? = some e.1.text

theorem isNode_iff (id : Scalar) (node : Json) : IsNode node ↔ nodeFaults id node = [] := by
  have h : structureFaults [(id, node)] = [] ↔ ∀ e ∈ [(id, node)], IsNode e.2 :=
    structureFaults_eq_nil
  simpa [structureFaults] using h.symm

theorem tellsFirst_of_head? (h : (structureFaults nodes).head? = some cause) :
    TellsFirst nodes (.shape cause) := by
  obtain ⟨before, e, after, hsplit, hbefore, hfirst⟩ := head?_structureFaults h
  refine ⟨by rw [List.head?_map, h]; rfl, cause, rfl, before, e, after, hsplit, ?_, ?_,
    nodeId?_of_mem_nodeFaults (List.mem_of_head? hfirst)⟩
  · exact fun f hf => (isNode_iff f.1 f.2).mpr (hbefore f hf)
  · rw [isNode_iff e.1]
    intro hnil
    simp [hnil] at hfirst

/-- What is let through is the graph that was given, completed. -/
theorem completes_of_passThrough (h : (Json.obj nodes).Decoded) {r : Json}
    (hr : (passThrough (.obj nodes)).result = .ok r) : ∃ out : Entries Json, r = .obj out ∧
      structureFaults out = [] ∧ List.Forall₂ (fun e f => f.1 = e.1 ∧
        ∃ es fs, e.2 = .obj es ∧ f.2 = .obj fs ∧ Completes es fs) nodes out := by
  obtain ⟨out, rfl, -, hcomplete⟩ := complete_of_passThrough hr
  refine ⟨out, rfl, structureFaults_eq_nil.mpr fun e he => (hcomplete e he).isNode, ?_⟩
  obtain ⟨_, hout, heq⟩ := passThrough_eq_ok.mp hr
  obtain rfl := Json.obj.inj heq
  obtain ⟨fresh, rfl, hfresh⟩ := forall₂_of_completeNodes hout (by simpa using h.keys)
  refine ((List.forall₂_and_left _ _).mpr ⟨h.entries, hfresh⟩).imp ?_
  rintro e f ⟨hdecoded, hkey, hdone⟩
  obtain ⟨es, heq, -⟩ := completeNode_eq_ok.mp hdone
  rw [heq] at hdecoded hdone
  obtain ⟨fs, hfs, hcompletes⟩ := completes_of_completeNode hdone hdecoded.keys
  exact ⟨hkey, es, fs, heq, hfs, hcompletes⟩

section Plain

variable {levels : Nat} (hplain : ∀ e ∈ nodes, ¬ Legacy e.2)
include hplain

theorem passThrough_eq_error_iff : (passThrough (.obj nodes)).result = .error fault ↔
    ∃ cause, (structureFaults nodes).head? = some cause ∧ fault = .shape cause := by
  rw [passThrough_eq_error, completeNodes_eq_error hplain]

theorem exists_passThrough_iff :
    (∃ r, (passThrough (.obj nodes)).result = .ok r) ↔ structureFaults nodes = [] := by
  cases hresult : (passThrough (.obj nodes)).result with
  | ok r =>
    refine iff_of_true ⟨r, rfl⟩ (List.head?_eq_none_iff.mp ?_)
    refine Option.eq_none_iff_forall_ne_some.mpr fun cause hcause => ?_
    simp [(passThrough_eq_error_iff hplain).mpr ⟨cause, hcause, rfl⟩] at hresult
  | error fault =>
    obtain ⟨cause, hcause, -⟩ := (passThrough_eq_error_iff hplain).mp hresult
    exact iff_of_false (by simp) fun hnil => by simp [hnil] at hcause

theorem exists_passThroughWithin_iff : (∃ r, (passThroughWithin levels (.obj nodes)).result = .ok r) ↔
    structureFaults nodes = [] ∧ ∀ e ∈ nodes, isCopyable levels e := by
  rw [exists_congr fun _ => passThroughWithin_eq_ok, exists_and_left, exists_passThrough_iff hplain,
    and_comm]

end Plain

/-- Nothing is wrong with the structure of a graph that is let through, and it is the graph that was
given, completed. Where no node has a type to take for its class, a graph is refused if and only if
something is wrong with its structure or a node nests too deep to be copied. It is refused for such
a node if and only if nothing before the node is either, and otherwise with the message and the node
of the first finding. Where all nodes can be copied, copying makes no difference. -/
theorem structure_of_passThrough (h : (Json.obj nodes).Decoded) (levels : Nat) :
    let run := passThroughWithin levels (.obj nodes)
    (∀ r, run.result = .ok r → ∃ out : Entries Json, r = .obj out ∧
      structureFaults out = [] ∧ List.Forall₂ (fun e f => f.1 = e.1 ∧
        ∃ es fs, e.2 = .obj es ∧ f.2 = .obj fs ∧ Completes es fs) nodes out) ∧
    ((∀ e ∈ nodes, ¬ Legacy e.2) →
      ((∃ fault, run.result = .error fault) ↔
        structureFaults nodes ≠ [] ∨ ∃ e ∈ nodes, ¬ isCopyable levels e) ∧
      (run.result = .error .tooDeep ↔ ∃ before e after, nodes = before ++ e :: after ∧
        ¬ isCopyable levels e ∧ structureFaults before = [] ∧ ∀ f ∈ before, isCopyable levels f) ∧
      ∀ fault, run.result = .error fault → fault ≠ .tooDeep → TellsFirst nodes fault) ∧
    ((∀ e ∈ nodes, isCopyable levels e) → run = passThrough (.obj nodes)) := by
  intro run
  refine ⟨fun r hr => completes_of_passThrough h (passThroughWithin_eq_ok.mp hr).2,
    fun hplain => ⟨?refused, ?deep, ?first⟩, passThroughWithin_of_copyable⟩
  case refused =>
    have hfails : (∃ fault, run.result = .error fault) ↔ ¬ ∃ r, run.result = .ok r := by
      cases run.result <;> simp
    rw [hfails, exists_passThroughWithin_iff hplain, not_and_or]
    simp only [not_forall, exists_prop]
  case deep =>
    rw [passThroughWithin_eq_tooDeep]
    refine exists_congr fun before => exists_congr fun e => exists_congr fun after =>
      and_congr_right fun hsplit => and_congr_right fun _ => ?_
    exact exists_passThroughWithin_iff fun f hf => hplain f (hsplit ▸ List.mem_append_left _ hf)
  case first =>
    intro fault hfault hnot
    obtain ⟨cause, hcause, rfl⟩ :=
      (passThrough_eq_error_iff hplain).mp (passThroughWithin_eq_error hnot hfault)
    exact tellsFirst_of_head? hcause

def nested : Nat → Json
  | 0 => .list []
  | depth + 1 => .list [nested depth]

theorem nestsWithin_nested (depth levels : Nat) :
    (nested depth).nestsWithin levels = decide (depth < levels) := by
  induction depth generalizing levels with
  | zero => simp [nested, Json.nestsWithin, Json.itemsNestWithin, Nat.succ_le_iff]
  | succ depth ih =>
    rw [Bool.eq_iff_iff]
    simp [nested, Json.nestsWithin, Json.itemsNestWithin, ih]
    omega

/-- Nothing is wrong with the structure of a graph that is refused all the same, for its depth. -/
theorem deep_graph_refused :
    let node : Json := .ofFields [("class_type", .str "A"), ("inputs", .obj []), ("x", nested 600)]
    let nodes : Entries Json := [(.str "w", node)]
    (∀ e ∈ nodes, ¬ Legacy e.2) ∧ structureFaults nodes = [] ∧
      (passThroughWithin 496 (.obj nodes)).result = .error .tooDeep := by
  intro node nodes
  have hdeep : ¬ isCopyable 496 (.str "w", node) := by
    simp [isCopyable, node, Json.isObj, Json.ofFields, Json.nestsWithin, Json.entriesNestWithin,
      nestsWithin_nested]
  refine ⟨?_, ?_, passThroughWithin_eq_tooDeep.mpr ⟨[], _, [], rfl, hdeep, .obj [], rfl⟩⟩
  · simp [nodes, node, Legacy, field_obj, Json.ofFields, Entries.get?_cons, Json.truthy, Scalar.truthy]
  · simp [nodes, node, structureFaults, nodeFaults, Json.isObj, field_obj, Json.ofFields,
      Entries.get?_cons, Json.truthy, Scalar.truthy]

/-- A graph with a type that is taken for a class is completed, and one with a node without a class,
whose inputs are a list, and a node that is a number is refused for the class of the former. -/
theorem structure_of_mixed_graphs :
    let legacy : Entries Json := [(.str "1", .ofFields [("type", .str "A"), ("inputs", .null)])]
    let broken : Entries Json := [(.str "1", .ofFields [("class_type", .str "A")]),
      (.str "2", .ofFields [("inputs", .list [])]), (.str "3", .int 5)]
    (∃ out : Entries Json, (passThroughWithin 9 (.obj legacy)).result = .ok (.obj out) ∧
      structureFaults out = []) ∧
    ∃ fault, (passThroughWithin 9 (.obj broken)).result = .error fault ∧ TellsFirst broken fault ∧
      fault.message? = some "Node 2 is missing class_type property" := by
  intro legacy broken
  have hlegacy : (Json.obj legacy).Decoded := by
    refine .obj ⟨by simp [legacy], by simp [legacy, Entries.Distinct]⟩ ?_
    simp [legacy]
  have hbroken : (Json.obj broken).Decoded := by
    refine .obj ⟨by simp [broken], by simp [broken, Entries.Distinct]⟩ ?_
    simp [broken]
  have hplain : ∀ e ∈ broken, ¬ Legacy e.2 := by decide +kernel
  refine ⟨?_, ?_⟩
  · obtain ⟨out, heq, hout, -⟩ := (structure_of_passThrough hlegacy 9).1 _ rfl
    exact ⟨out, heq ▸ rfl, hout⟩
  · obtain ⟨-, htold, hsame⟩ := structure_of_passThrough hbroken 9
    obtain ⟨hrefused, -, hfirst⟩ := htold hplain
    obtain ⟨fault, hfault⟩ := hrefused.mpr (.inl (by decide +kernel))
    have hshallow : fault ≠ .tooDeep := by
      rintro rfl
      rw [hsame (by decide +kernel)] at hfault
      exact passThrough_ne_tooDeep hfault
    have htells := hfirst fault hfault hshallow
    exact ⟨fault, hfault, htells, htells.message.trans (by decide +kernel)⟩

end NodeWorkflow.Compile
