import Mathlib.Data.List.Nodup
import NodeWorkflow.Proofs.Json.Decoded
import NodeWorkflow.Proofs.Parameter.Nodewise
import NodeWorkflow.Proofs.Path.Diverging
import NodeWorkflow.Proofs.Path.Grammar

/-!
# The account of an injection

Of a parameter that is injected nothing gets lost. Either one warning says why it goes nowhere, or
every node that matches has the value at one of the two paths or is named in a warning; and nothing
else is written or reported.
-/
namespace NodeWorkflow
open Json

variable {spec : ParameterSpec} {registry : Registry} {name : Scalar} {nodes : Entries Json}
  {graph node value x path : Json} {a : Scalar} {p : Path} {e : Scalar × Json}

/-- What is read at a path given as data equals a value. -/
def Reads (node path value : Json) : Prop :=
  ∃ found, node.getByPath path .null = .ok found ∧ found.same value = true

def Unwritable [Machine] (node path value : Json) : Prop :=
  path.truthy = false ∨ (node.setByPath path value).2 = .refused

def ExactlyOne (p q r : Prop) : Prop :=
  p ∧ ¬ q ∧ ¬ r ∨ ¬ p ∧ q ∧ ¬ r ∨ ¬ p ∧ ¬ q ∧ r

def missText (name id : Scalar) : String := (Event.notApplied name id.text).text

/-- What becomes of a node, and which warnings name it. -/
structure Accounted [Machine] (name : Scalar) (spec : ParameterSpec) (value : Json)
    (warnings : List String)
    (before after : Scalar × Json) : Prop where
  id : after.1 = before.1
  other : spec.matchesNode before.2 ≠ .ok true → after.2 = before.2
  matching : spec.matchesNode before.2 = .ok true →
    ExactlyOne (Reads after.2 spec.primaryPath value)
      (Unwritable before.2 spec.primaryPath value ∧ Reads after.2 spec.fallbackPath value)
      (after.2 = before.2 ∧ warnings.count (missText name before.1) = 1)
  warned : missText name before.1 ∈ warnings → spec.matchesNode before.2 = .ok true ∧
    ¬ Reads after.2 spec.primaryPath value ∧ ¬ Reads after.2 spec.fallbackPath value

theorem missText_inj {id other : Scalar} (h : missText name id = missText name other) :
    id.text = other.text := by
  unfold missText Event.text at h
  exact (String.append_right_inj _).mp h

theorem chooses_iff : spec.chooses node = true ↔ spec.matchesNode node = .ok true := by
  unfold ParameterSpec.chooses
  cases spec.matchesNode node <;> simp [Except.toOption]

theorem null_not_same (ha : a ≠ .null) : Json.null.same (.scalar a) = false := by
  cases a <;> simp_all [same, Scalar.same, Scalar.int?]

theorem fits_of_reads (ha : a ≠ .null) (h : Reads node path (.scalar a)) :
    ∃ p, Path.ofJson path = .ok p ∧ fits p node = true := by
  obtain ⟨found, hget, hsame⟩ := h
  unfold getByPath at hget
  cases hpath : Path.ofJson path with
  | ok p =>
    refine ⟨p, rfl, ?_⟩
    simp only [hpath, Except.ok.injEq] at hget
    cases hread : node.at? p with
    | some found => exact fits_of_at? hread (Path.ne_nil_of_ofJson hpath)
    | none =>
      rw [hread, Option.getD_none] at hget
      simp [← hget, null_not_same ha] at hsame
  | error cause => cases cause <;> simp [hpath] at hget <;>
      simp [← hget, null_not_same ha] at hsame

/-- What is written at a path is read there. -/
theorem reads_fill (ha : a.same a = true) (hpath : Path.ofJson path = .ok p)
    (hfits : fits p node = true) : Reads (fill (.scalar a) p node) path (.scalar a) :=
  ⟨.scalar a, by simp [getByPath, hpath, at?_fill hfits], ha⟩

theorem not_unwritable [Machine] (hpath : Path.ofJson path = .ok p) (hfits : fits p node = true)
    (value : Json) : ¬ Unwritable node path value := by
  rintro (htruthy | hrefused)
  · simp [Path.ofJson_of_not_truthy htruthy] at hpath
  · simp only [setByPath, hpath] at hrefused
    have hwrite : writeAt value p node = (fill value p node, .done) := by
      rw [writeAt_eq (by simp [hrefused]), hfits]
      rfl
    simp [hwrite] at hrefused

/-- The account of one node, if the warnings name those nodes only that are chosen without a way
in. -/
theorem accounted_settle [Machine] {warnings : List String} (ha : a.same a = true)
    (hnull : a ≠ .null)
    (hproceeds : spec.chooses e.2 = true → spec.Proceeds (.scalar a) e.2) (hnodup : warnings.Nodup)
    (hwarned : missText name e.1 ∈ warnings ↔ spec.chooses e.2 = true ∧ spec.route? e.2 = none) :
    Accounted name spec (.scalar a) warnings e (e.1, spec.settle (.scalar a) e.2) := by
  -- A path at which a value is read fits, so that a node without a way in has the value nowhere.
  have hclosed (h : spec.route? e.2 = none) :
      ¬ Reads e.2 spec.primaryPath (.scalar a) ∧ ¬ Reads e.2 spec.fallbackPath (.scalar a) := by
    have hfits := ParameterSpec.route?_eq_none.mp h
    constructor
    all_goals
      intro hreads
      obtain ⟨p, hp, hfit⟩ := fits_of_reads hnull hreads
      simp [hfits p (ParameterSpec.mem_paths.mpr (by simp [hp]))] at hfit
  refine ⟨rfl, fun hother => ?_, fun hmatch => ?_, fun hmem => ?_⟩
  · have hchosen : ¬ spec.chooses e.2 = true := fun h => hother (chooses_iff.mp h)
    exact ParameterSpec.settle_of_not_chosen (by simpa using hchosen) _
  · have hchosen : spec.chooses e.2 = true := chooses_iff.mpr hmatch
    cases hroute : spec.route? e.2 with
    | none =>
      obtain ⟨hprimary, hfallback⟩ := hclosed hroute
      rw [ParameterSpec.settle_of_no_route hroute]
      refine .inr (.inr ⟨hprimary, fun h => hfallback h.2, rfl, ?_⟩)
      exact List.count_eq_one_of_mem hnodup (hwarned.mpr ⟨hchosen, hroute⟩)
    | some p =>
      have hsilent : warnings.count (missText name e.1) = 0 :=
        List.count_eq_zero.mpr fun hmem => by simp [hroute] at hwarned; exact hwarned hmem
      rw [ParameterSpec.settle_of_route hchosen hroute]
      rcases setByPath_cases (hproceeds hchosen) with ⟨q, hq, hfits, -⟩ | ⟨hnone, hrefused⟩
      · obtain rfl : p = q :=
          Option.some.inj (hroute.symm.trans (ParameterSpec.route?_primary hq hfits))
        exact .inl ⟨reads_fill ha hq hfits, fun h => not_unwritable hq hfits _ h.1, by simp [hsilent]⟩
      · have hfits : fits p e.2 = true := by
          simpa using List.find?_some hroute
        have hp : Path.ofJson spec.fallbackPath = .ok p := by
          refine (ParameterSpec.mem_paths.mp (List.mem_of_find?_eq_some hroute)).resolve_left ?_
          intro hp
          simp [hnone p hp] at hfits
        refine .inr (.inl ⟨fun hreads => ?_, ⟨.inr (by rw [hrefused]), reads_fill ha hp hfits⟩,
          by simp [hsilent]⟩)
        obtain ⟨q, hq, hfit⟩ := fits_of_reads hnull hreads
        exact absurd (fits_of_fits_fill hnull hfit) (by simp [hnone q hq])
  · obtain ⟨hchosen, hroute⟩ := hwarned.mp hmem
    rw [ParameterSpec.settle_of_no_route hroute]
    exact ⟨chooses_iff.mp hchosen, hclosed hroute⟩

theorem warnings_map_outcome (chosen : Entries Json) :
    Event.warnings (chosen.map (spec.outcome name)) =
      (chosen.filter fun e => (spec.route? e.2).isNone).map fun e => missText name e.1 := by
  induction chosen with
  | nil => rfl
  | cons e chosen ih =>
    rw [List.map_cons, List.filter_cons]
    cases hroute : spec.route? e.2 with
    | none =>
      have houtcome : spec.outcome name e = .notApplied name e.1.text := by
        simp [ParameterSpec.outcome, hroute]
      rw [houtcome, Option.isNone_none, if_pos rfl, List.map_cons, ← ih]
      rfl
    | some p =>
      have houtcome : spec.outcome name e = .applied name e.1.text := by
        simp [ParameterSpec.outcome, hroute]
      rw [houtcome, if_neg (by simp), ← ih]
      rfl

/-- The warnings about the nodes that are chosen name each at most once. -/
theorem warnings_of_chosen (spec : ParameterSpec) (name : Scalar) (h : nodes.Textual) :
    let warnings := Event.warnings ((nodes.filter fun e => spec.chooses e.2).map (spec.outcome name))
    warnings.Nodup ∧ (∀ w ∈ warnings, ∃ e ∈ nodes, w = missText name e.1) ∧
      ∀ e ∈ nodes, missText name e.1 ∈ warnings ↔
        spec.chooses e.2 = true ∧ spec.route? e.2 = none := by
  intro warnings
  have hunique {e f : Scalar × Json} (he : e ∈ nodes) (hf : f ∈ nodes)
      (htext : missText name e.1 = missText name f.1) : e = f := by
    obtain ⟨s, hs⟩ := h.texts e he
    obtain ⟨t, ht⟩ := h.texts f hf
    refine h.unique he hf ?_
    have heq := missText_inj htext
    rw [hs, ht] at heq ⊢
    exact congrArg Scalar.str heq
  have hmem {w : String} : w ∈ warnings ↔ ∃ e ∈ nodes,
      (spec.chooses e.2 = true ∧ spec.route? e.2 = none) ∧ missText name e.1 = w := by
    simp only [warnings, warnings_map_outcome, List.mem_map, List.mem_filter, Option.isNone_iff_eq_none,
      and_assoc]
  refine ⟨?_, fun w hw => ?_, fun e he => ?_⟩
  · simp only [warnings, warnings_map_outcome]
    refine List.Nodup.map_on (fun e he f hf htext => ?_) ((h.nodup_keys.of_map.filter _).filter _)
    exact hunique (List.mem_of_mem_filter (List.mem_of_mem_filter he))
      (List.mem_of_mem_filter (List.mem_of_mem_filter hf)) htext
  · obtain ⟨e, he, -, hw⟩ := hmem.mp hw
    exact ⟨e, he, hw.symm⟩
  · constructor
    · intro hw
      obtain ⟨f, hf, hmissed, htext⟩ := hmem.mp hw
      rwa [hunique hf he htext] at hmissed
    · exact fun hmissed => hmem.mpr ⟨e, he, hmissed, rfl⟩

theorem injectInto_single [Machine] (graph : Json) (registry : Registry) (name : Scalar)
    (value : Json) :
    injectInto graph registry (.obj [(name, value)]) = injectOne .plain registry name value graph := by
  change Injection.each _ _ _ = _
  rw [Injection.each_cons]
  exact Injection.andThen_start _

/-- The injection of one parameter that is not null, if it returns. An unknown name, a value that is
not accepted and a lack of matching nodes are reported in one warning, and the graph stays as it is.
Otherwise every node is accounted for, in its place, and all warnings name nodes. -/
theorem single_parameter_accounted [Machine] (hgraph : graph.Decoded)
    (hvalue : value.isNull = false)
    (hrun : (injectInto graph registry (.obj [(name, value)])).fault = none) :
    let run := injectInto graph registry (.obj [(name, value)])
    (Entries.get? name registry = none →
      run.state = graph ∧ run.warnings = [(Event.parameterUnknown name).text]) ∧
    ∀ spec, Entries.get? name registry = some spec →
      (∀ cause, spec.type.coerce value = .error cause →
        run.state = graph ∧ run.warnings = [(Event.parameterRejected name cause).text]) ∧
      ∀ x, spec.type.coerce value = .ok x → ∃ nodes, graph = .obj nodes ∧
        ((∀ e ∈ nodes, spec.matchesNode e.2 ≠ .ok true) →
          run.state = graph ∧ run.warnings = [(Event.noTarget name spec.nodeType).text]) ∧
        ((∃ e ∈ nodes, spec.matchesNode e.2 = .ok true) → ∃ after, run.state = .obj after ∧
          List.Forall₂ (Accounted name spec x run.warnings) nodes after ∧
          ∀ w ∈ run.warnings, ∃ e ∈ nodes, w = missText name e.1) := by
  intro run
  have hone : run = injectOne .plain registry name value graph := injectInto_single ..
  rw [injectInto_single] at hrun
  rw [hone]
  refine ⟨fun hunknown => ?_, fun spec hspec => ⟨fun cause hcause => ?_, fun x hx => ?_⟩⟩
  · have htarget : registry.target name value = .error [.parameterUnknown name] := by
      simp [Registry.target, hvalue, hunknown]
    rw [injectOne_of_target_error htarget]
    exact ⟨rfl, rfl⟩
  · have htarget : registry.target name value = .error [.parameterRejected name cause] := by
      simp [Registry.target, hvalue, hspec, hcause]
    rw [injectOne_of_target_error htarget]
    exact ⟨rfl, rfl⟩
  · have htarget := Registry.target_eq_ok.mpr ⟨hvalue, hspec, hx⟩
    obtain ⟨nodes, rfl⟩ := graph_of_target htarget hrun
    obtain ⟨hrun, hproceeds⟩ := injectOne_plain hgraph.keys htarget hrun
    rw [hrun]
    refine ⟨nodes, rfl, fun hnone => ?_, fun hsome => ?_⟩
    · have hnone : ∀ e ∈ nodes, spec.chooses e.2 = false := fun e he =>
        Bool.eq_false_iff.mpr (mt chooses_iff.mp (hnone e he))
      rw [ParameterSpec.settleAll_of_none hnone, ParameterSpec.outcomes_of_none hnone]
      exact ⟨rfl, rfl⟩
    · obtain ⟨a, rfl, ha, hnull⟩ := ParameterType.coerce_eq_ok hx
      obtain ⟨hnodup, hnames, hwarned⟩ := warnings_of_chosen spec name hgraph.keys
      have hsome : ∃ e ∈ nodes, spec.chooses e.2 = true := by simpa [chooses_iff] using hsome
      rw [ParameterSpec.outcomes_of_some hsome]
      refine ⟨_, rfl, ?_, hnames⟩
      rw [ParameterSpec.settleAll, List.forall₂_map_right_iff, List.forall₂_same]
      exact fun e he => accounted_settle ha hnull (hproceeds e he) hnodup (hwarned e he)

attribute [local instance] Machine.common in
/-- The first node takes the value at the first path, the second one at the second path, the third
one at none, and the fourth one is of another class. -/
theorem single_parameter_accounted_in_four_nodes :
    let nodes : List (String × Json) :=
      [("1", .ofFields [("class_type", .str "A")]),
        ("2", .ofFields [("class_type", .str "A"), ("inputs", .int 1)]),
        ("3", .ofFields [("class_type", .str "A"), ("inputs", .int 1), ("widgets_values", .int 1)]),
        ("4", .ofFields [("class_type", .str "B")])]
    let spec : ParameterSpec :=
      ⟨.str "A", .str "inputs.text", .str "widgets_values[0]", .string, none, .null⟩
    let run := injectInto (.ofFields nodes) [(.str "p", spec)] (.ofFields [("p", .str "new")])
    run.fault = none ∧ run.warnings = ["Could not apply parameter \"p\" to node 3"] ∧
      ∃ after, run.state = .obj after ∧ List.Forall₂ (Accounted (.str "p") spec (.str "new") run.warnings)
        (nodes.map fun f => (.str f.1, f.2)) after := by
  intro nodes spec run
  have hfault : run.fault = none := Option.isNone_iff_eq_none.mp (by decide +kernel)
  have hdecoded : (Json.ofFields nodes).Decoded := by simp [nodes]
  obtain ⟨nodes', hnodes, -, hsome⟩ := (single_parameter_accounted hdecoded rfl hfault).2 spec
    rfl |>.2 (.str "new") rfl
  obtain ⟨after, hstate, haccounted, -⟩ := hsome ⟨(.str "1", .ofFields [("class_type", .str "A")]), by
    rw [← Json.obj.inj hnodes]
    simp [nodes], rfl⟩
  refine ⟨hfault, by decide +kernel, after, hstate, ?_⟩
  rwa [← Json.obj.inj hnodes] at haccounted

end NodeWorkflow
