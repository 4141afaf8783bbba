import NodeWorkflow.Proofs.Parameter.Order
import NodeWorkflow.Proofs.Parameter.Reading
import NodeWorkflow.Proofs.Path.Overrun

/-!
# Injections that return

An injection goes through all parameters and nodes, unless a limit on indices and lists stops one of
its writes. Nothing else stops it: names that are unknown, values that are not accepted, nodes that
are missing and paths that do not fit are reported, and it goes on.
-/
namespace NodeWorkflow
open Json

variable {σ : Type} {i : Injection σ} {f : σ → Injection σ} {P Q : Prop}
  {spec : ParameterSpec} {registry : Registry} {name id : Scalar} {nodes values : Entries Json}
  {node value x data : Json}

/-- The injection returns if a condition holds, and a limit stops it if not. -/
structure Injection.HingesOn (i : Injection σ) (P : Prop) : Prop where
  returns : P → i.fault = none
  stops : ¬ P → ∃ fault, i.fault = some fault ∧ fault.IsLimit

namespace Injection.HingesOn

theorem of_returns (h : i.fault = none) (hP : P) : i.HingesOn P :=
  ⟨fun _ => h, fun hnot => absurd hP hnot⟩

theorem congr (h : i.HingesOn P) (hiff : P ↔ Q) : i.HingesOn Q :=
  ⟨fun hQ => h.returns (hiff.mpr hQ), fun hQ => h.stops (mt hiff.mp hQ)⟩

theorem andThen (h : i.HingesOn P) (hnext : P → (f i.state).HingesOn Q) :
    (i.andThen f).HingesOn (P ∧ Q) where
  returns hboth := fault_andThen.mpr ⟨h.returns hboth.1, (hnext hboth.1).returns hboth.2⟩
  stops hnot := by
    by_cases hP : P
    · rw [andThen_eq (h.returns hP)]
      exact (hnext hP).stops fun hQ => hnot ⟨hP, hQ⟩
    · obtain ⟨fault, hfault, hlimit⟩ := h.stops hP
      exact ⟨fault, by simp [Injection.andThen, hfault], hlimit⟩

theorem fault_eq_none_iff (h : i.HingesOn P) : i.fault = none ↔ P := by
  refine ⟨fun hnone => ?_, h.returns⟩
  by_contra hnot
  obtain ⟨fault, hfault, -⟩ := h.stops hnot
  simp [hnone] at hfault

theorem isLimit (h : i.HingesOn P) {fault : Fault} (hfault : i.fault = some fault) :
    fault.IsLimit := by
  by_cases hP : P
  · simp [h.returns hP] at hfault
  · obtain ⟨limit, hlimit, his⟩ := h.stops hP
    rwa [Option.some.inj (hfault.symm.trans hlimit)]

end Injection.HingesOn

namespace ParameterSpec

/-- No limit stops a write into the node. The second path is come to if the first does not fit. -/
structure Passes [Machine] (spec : ParameterSpec) (node : Json) : Prop where
  primary : blocks spec.primaryPath node = false
  fallback : (∀ p, Path.ofJson spec.primaryPath = .ok p → fits p node = false) →
    blocks spec.fallbackPath node = false

/-- All indices in the paths can be read, and memory has room for lists of that length. -/
def HasSmallIndices [Machine] (spec : ParameterSpec) : Prop :=
  ∀ path ∈ [spec.primaryPath, spec.fallbackPath],
    (∀ digits, Path.ofJson path ≠ .error (.indexTooLong digits)) ∧
      ∀ p, Path.ofJson path = .ok p → ∀ s ∈ p, ∀ i, s.index = some i → i + 1 < Machine.memoryBound

theorem HasSmallIndices.passes [Machine] (h : spec.HasSmallIndices) (node : Json) :
    spec.Passes node := by
  have hfree : ∀ path ∈ [spec.primaryPath, spec.fallbackPath], blocks path node = false := by
    intro path hpath
    obtain ⟨hread, hsmall⟩ := h path hpath
    unfold blocks
    split
    next p hp => exact overruns_of_small (hsmall p hp) node
    next digits hlong => exact absurd hlong (hread digits)
    next => rfl
  exact ⟨hfree _ (by simp), fun _ => hfree _ (by simp)⟩

end ParameterSpec

theorem injectNode_hinges [Machine] (hnode : Entries.get? id nodes = some node) :
    (injectNode .plain name spec value (.obj nodes) id).HingesOn (spec.Passes node) := by
  have hself : Entries.put id node nodes = nodes := Entries.put_get? hnode
  unfold injectNode
  rw [Surface.writeIfGiven_plain hnode]
  cases hprimary : blocks spec.primaryPath node with
  | true =>
    obtain ⟨fault, hstop, hlimit⟩ := setByPath_blocked hprimary value
    refine ⟨fun h => ?_, fun _ => ⟨fault, by simp [hstop], hlimit⟩⟩
    simp [h.primary] at hprimary
  | false =>
    rcases setByPath_cases (setByPath_not_blocked hprimary value) with
      ⟨p, hp, hfits, hset⟩ | ⟨hnone, hset⟩
    · refine .of_returns (by simp [hset, Injection.report]) ⟨hprimary, fun h => ?_⟩
      simp [h p hp] at hfits
    · simp only [hset, hself]
      rw [Surface.writeIfGiven_plain hnode]
      cases hfallback : blocks spec.fallbackPath node with
      | true =>
        obtain ⟨fault, hstop, hlimit⟩ := setByPath_blocked hfallback value
        refine ⟨fun h => ?_, fun _ => ⟨fault, by simp [hstop], hlimit⟩⟩
        simp [h.fallback hnone] at hfallback
      | false =>
        refine .of_returns ?_ ⟨hprimary, fun _ => hfallback⟩
        rcases setByPath_cases (setByPath_not_blocked hfallback value) with
          ⟨q, -, -, hset⟩ | ⟨-, hset⟩ <;> simp [hset, Injection.report]

/-- The nodes that are chosen are come to in order; a write into one leaves the others alone. -/
theorem injectNodes_hinges [Machine] (done todo : Entries Json) (h : (done ++ todo).Textual) :
    (injectNodes .plain name spec value ((todo.filter fun e => spec.chooses e.2).map Prod.fst)
      (.obj (done ++ todo))).HingesOn (∀ e ∈ todo, spec.chooses e.2 = true → spec.Passes e.2) := by
  change (Injection.each _ _ _).HingesOn _
  induction todo generalizing done with
  | nil => exact .of_returns rfl (by simp)
  | cons e todo ih =>
    obtain ⟨id, node⟩ := e
    obtain ⟨s, rfl⟩ : ∃ s, id = .str s := h.texts (id, node) (by simp)
    cases hchosen : spec.chooses node with
    | false =>
      rw [List.append_cons] at h ⊢
      simpa [hchosen] using ih _ h
    | true =>
      have hnode : Entries.get? (.str s) (done ++ (.str s, node) :: todo) = some node :=
        h.get?_of_mem (by simp)
      have hstep : (injectNode .plain name spec value _ (.str s)).HingesOn (spec.Passes node) :=
        injectNode_hinges hnode
      have hiff : (spec.Passes node ∧ ∀ e ∈ todo, spec.chooses e.2 = true → spec.Passes e.2) ↔
          ∀ e ∈ (.str s, node) :: todo, spec.chooses e.2 = true → spec.Passes e.2 := by
        simp [hchosen]
      simp only [hchosen, List.filter_cons_of_pos, List.map_cons, Injection.each_cons]
      refine (hstep.andThen fun hpasses => ?_).congr hiff
      rw [(injectNode_plain hnode hchosen (hstep.returns hpasses)).1]
      have hafter := h.put s (spec.settle value node)
      simp only [Injection.report, h.put_middle] at hafter ⊢
      rw [List.append_cons] at hafter ⊢
      exact ih _ hafter

def ParameterSpec.Decides (spec : ParameterSpec) (node : Json) : Prop :=
  ∃ b, spec.matchesNode node = .ok b

theorem ParameterSpec.decides_of_decided
    (h : ∀ conditions, spec.conditions = some conditions → ∀ c ∈ conditions, c.Decided)
    (hobj : node.isObj = true) : spec.Decides node := by
  unfold Decides matchesNode selects
  rw [if_pos hobj]
  split
  · split
    · exact ⟨true, rfl⟩
    next conditions hconditions => exact Condition.exists_allHold (h conditions hconditions) node
  · exact ⟨false, rfl⟩

/-- Nodes are found if and only if the conditions can be decided of all of them. -/
theorem exists_findNodes_iff : (∃ ids, findNodes (.obj nodes) spec.nodeType spec.conditions = .ok ids) ↔
    ∀ e ∈ nodes, e.2.isObj = true → spec.Decides e.2 := by
  have htest (v : Json) : (∃ b, (if v.isObj then
      ParameterSpec.selects spec.nodeType spec.conditions v else pure false) = .ok b) ↔
      (v.isObj = true → spec.Decides v) := by
    unfold ParameterSpec.Decides ParameterSpec.matchesNode
    cases v.isObj <;> simp [pure, Except.pure]
  constructor
  · rintro ⟨ids, hfound⟩ e he
    obtain ⟨found, hfilter, -⟩ := Except.bind_eq_ok.mp hfound
    exact (htest e.2).mp ((Except.filterM_eq_ok hfilter).1 e he)
  · intro h
    obtain ⟨found, hfound⟩ := Except.exists_filterM fun e he => (htest e.2).mpr (h e he)
    exact ⟨_, Except.bind_eq_ok.mpr ⟨found, hfound, rfl⟩⟩

theorem injectOne_found [Machine] (hnodes : nodes.Textual)
    (htarget : registry.target name value = .ok (spec, x))
    {ids : List Scalar} (hfound : findNodes (.obj nodes) spec.nodeType spec.conditions = .ok ids) :
    (injectOne .plain registry name value (.obj nodes)).HingesOn
      (∀ e ∈ nodes, spec.chooses e.2 = true → spec.Passes e.2) := by
  have hall : (injectNodes .plain name spec x ids (.obj nodes)).HingesOn
      (∀ e ∈ nodes, spec.chooses e.2 = true → spec.Passes e.2) :=
    findNodes_eq_ok hfound ▸ injectNodes_hinges [] nodes hnodes
  rw [injectOne_of_target htarget]
  simp only [Surface.plain, hfound]
  cases ids with
  | nil => exact .of_returns rfl (hall.fault_eq_none_iff.mp rfl)
  | cons id ids => exact hall

namespace Registry

def Decided (registry : Registry) : Prop :=
  ∀ e ∈ registry, ∀ conditions, e.2.conditions = some conditions → ∀ c ∈ conditions, c.Decided

def Passes [Machine] (registry : Registry) (e : Scalar × Json) (nodes : Entries Json) : Prop :=
  ∀ spec x, registry.target e.1 e.2 = .ok (spec, x) →
    ∀ f ∈ nodes, spec.chooses f.2 = true → spec.Passes f.2

/-- No limit stops a write of any of the parameters, each into the nodes that those before it
leave. -/
def PassesAll [Machine] (registry : Registry) (values nodes : Entries Json) : Prop :=
  ∀ before e after, values = before ++ e :: after →
    registry.Passes e (registry.effects before nodes).1

theorem passesAll_cons [Machine] {e : Scalar × Json} : registry.PassesAll (e :: values) nodes ↔
    registry.Passes e nodes ∧ registry.PassesAll values (registry.effect e nodes).1 := by
  constructor
  · intro h
    exact ⟨h [] e values rfl, fun before f after hsplit =>
      h (e :: before) f after (by rw [hsplit, List.cons_append])⟩
  · rintro ⟨hfirst, hrest⟩ before f after hsplit
    cases before with
    | nil =>
      obtain ⟨rfl, -⟩ := List.cons.inj hsplit
      exact hfirst
    | cons g before =>
      obtain ⟨rfl, htail⟩ := List.cons.inj hsplit
      exact hrest before f after htail

theorem passesAll_of_small [Machine] (h : ∀ e ∈ registry, e.2.HasSmallIndices)
    (values nodes : Entries Json) :
    registry.PassesAll values nodes := by
  intro before e after _ spec x htarget f _ _
  obtain ⟨-, hspec, -⟩ := target_eq_ok.mp htarget
  obtain ⟨key, hmem, -⟩ := Entries.exists_of_get? hspec
  exact (h _ hmem).passes f.2

end Registry

theorem injectOne_hinges [Machine] (hnodes : nodes.Textual) (hdecided : registry.Decided)
    (e : Scalar × Json) :
    (injectOne .plain registry e.1 e.2 (.obj nodes)).HingesOn (registry.Passes e nodes) := by
  unfold Registry.Passes
  cases htarget : registry.target e.1 e.2 with
  | error events =>
    rw [injectOne_of_target_error htarget]
    exact .of_returns rfl (by simp)
  | ok target =>
    obtain ⟨spec, x⟩ := target
    obtain ⟨-, hspec, -⟩ := Registry.target_eq_ok.mp htarget
    obtain ⟨key, hmem, -⟩ := Entries.exists_of_get? hspec
    have hdecides : ∀ f ∈ nodes, f.2.isObj = true → spec.Decides f.2 := fun f _ hobj =>
      ParameterSpec.decides_of_decided (hdecided _ hmem) hobj
    obtain ⟨ids, hfound⟩ := exists_findNodes_iff.mpr hdecides
    simpa using injectOne_found hnodes htarget hfound

theorem each_hinges [Machine] (hnodes : nodes.Textual) (hdecided : registry.Decided)
    (values : Entries Json) :
    (Injection.each (fun e => injectOne .plain registry e.1 e.2) values (.obj nodes)).HingesOn
      (registry.PassesAll values nodes) := by
  induction values generalizing nodes with
  | nil => exact .of_returns rfl (by simp [Registry.PassesAll])
  | cons e values ih =>
    have hstep := injectOne_hinges hnodes hdecided e
    rw [Injection.each_cons]
    refine (hstep.andThen fun hpasses => ?_).congr Registry.passesAll_cons.symm
    obtain ⟨heffect, htextual⟩ := injectOne_effect hnodes e (hstep.returns hpasses)
    rw [heffect]
    exact ih htextual

/-- An injection returns if and only if no limit stops one of its writes, and then all parameters
have had their effect, one after the other. If it does not return, a limit is at fault. A registry
whose indices are small never stops an injection. -/
theorem injection_returns_iff [Machine] (hnodes : nodes.Textual)
    (hread : Registry.ofJson data = .ok registry)
    (htexts : Registry.TextConditions data) (values : Entries Json) :
    let run := injectInto (.obj nodes) registry (.obj values)
    (run.fault = none ↔ registry.PassesAll values nodes) ∧
      (run.fault = none → run.state = .obj (registry.effects values nodes).1 ∧
        run.events = (registry.effects values nodes).2) ∧
      (∀ fault, run.fault = some fault → fault.IsLimit) ∧
      ((∀ e ∈ registry, e.2.HasSmallIndices) → run.fault = none) := by
  intro run
  have hdecided : registry.Decided := fun e he conditions hconditions =>
    Registry.conditions_decided hread htexts he hconditions
  have hrun : run.HingesOn (registry.PassesAll values nodes) := each_hinges hnodes hdecided values
  refine ⟨hrun.fault_eq_none_iff, fun hreturns => ?_, fun fault => hrun.isLimit, fun hsmall =>
    hrun.returns (Registry.passesAll_of_small hsmall values nodes)⟩
  have heffects : run = ⟨.obj (registry.effects values nodes).1, (registry.effects values nodes).2,
    none⟩ := (each_effects hnodes hreturns).1
  exact ⟨by rw [heffects], by rw [heffects]⟩

attribute [local instance] Machine.common in
/-- The first parameter is written, the second one needs a list that no memory holds, and the third
one is not come to. -/
theorem injection_stopped_by_long_list :
    let given (path : String) : Json :=
      .ofFields [("node_type", .str "A"), ("primary_path", .str path)]
    let data : Json := .ofFields
      [("p", given "inputs.p"), ("q", given "x[10000000000000000000]"), ("r", given "inputs.r")]
    let nodes : Entries Json := [(.str "1", .ofFields [("class_type", .str "A")])]
    let values : Entries Json := [(.str "p", .int 1), (.str "q", .int 2), (.str "r", .int 3)]
    ∃ registry, Registry.ofJson data = .ok registry ∧ ¬ registry.PassesAll values nodes ∧
      let run := injectInto (.obj nodes) registry (.obj values)
      (∃ fault, run.fault = some fault ∧ fault.IsLimit) ∧ run.warnings = [] ∧
        run.state = .ofFields [("1", .ofFields [("class_type", .str "A"),
          ("inputs", .ofFields [("p", .str "1")]), ("x", .list [])])] := by
  intro given data nodes values
  let spec (path : String) : ParameterSpec := ⟨.str "A", .str path, .null, .string, none, .str ""⟩
  let registry : Registry := [(.str "p", spec "inputs.p"),
    (.str "q", spec "x[10000000000000000000]"), (.str "r", spec "inputs.r")]
  let run := injectInto (.obj nodes) registry (.obj values)
  have hread : Registry.ofJson data = .ok registry := rfl
  have hdecoded : (Json.ofFields [("1", .ofFields [("class_type", .str "A")])]).Decoded := by simp
  have hnodes : nodes.Textual := hdecoded.keys
  have htexts : Registry.TextConditions data := by
    intro entries hentries e he conditions hwhen
    have hgiven : ∃ path, e.2 = given path := by
      obtain rfl := Json.obj.inj hentries
      simp only [List.map_cons, List.map_nil, List.mem_cons, List.not_mem_nil, or_false] at he
      obtain rfl | rfl | rfl := he <;> exact ⟨_, rfl⟩
    obtain ⟨path, hpath⟩ := hgiven
    have hnone : e.2.field "when" = .null := hpath ▸ rfl
    simp [hnone] at hwhen
  have hstopped : run.fault.isSome = true := by decide +kernel
  obtain ⟨fault, hfault⟩ := Option.isSome_iff_exists.mp hstopped
  obtain ⟨hreturns, -, hlimit, -⟩ := injection_returns_iff hnodes hread htexts values
  refine ⟨registry, hread, fun hpasses => ?_, ⟨fault, hfault, hlimit fault hfault⟩,
    by decide +kernel, by decide +kernel⟩
  simp [run, hreturns.mpr hpasses] at hfault

end NodeWorkflow
