import NodeWorkflow.Proofs.Parameter.Account
import NodeWorkflow.Proofs.Parameter.Completion

/-!
# A parameter that is injected again

A second injection of the same value under the same name changes nothing. A node that was written is
written again at the same path, because no write of a scalar opens a path that did not fit before,
or it is not chosen any more; and no other node has become one that is chosen. The second injection
returns as the first one did, unless a condition cannot be decided of a node that the first one has
written.
-/
namespace NodeWorkflow
open Json

variable {spec : ParameterSpec} {registry : Registry} {name : Scalar} {nodes : Entries Json}
  {graph node value path : Json} {a : Scalar} {p : Path}

/-- A write of a scalar brings no limit in the way of a path that does not fit, or that is its
own. -/
theorem Json.blocks_fill [Machine] (ha : a ≠ .null) (hfits : fits p node = true)
    (hpath : ∀ q, Path.ofJson path = .ok q → q = p ∨ fits q node = false)
    (h : blocks path node = false) : blocks path (fill (.scalar a) p node) = false := by
  unfold blocks at h ⊢
  cases hparse : Path.ofJson path with
  | ok q =>
    rcases hpath q hparse with rfl | hclosed
    · exact overruns_of_at? (at?_fill hfits _)
    · exact overruns_of_not_fits (Bool.eq_false_iff.mpr fun hopen =>
        Bool.eq_false_iff.mp hclosed (fits_of_fits_fill ha hopen))
  | error cause => cases cause <;> simp_all

namespace ParameterSpec

theorem fits_of_route? (h : spec.route? node = some p) : fits p node = true :=
  List.find?_some (p := fun q => fits q node) h

theorem fits_fill_self (h : fits p node = true) (x : Json) : fits p (fill x p node) = true :=
  fits_of_at? (at?_fill h x) (by rintro rfl; simp [fits] at h)

/-- The way into a node stays the same when a scalar has gone there. -/
theorem route?_fill (ha : a ≠ .null) (h : spec.route? node = some p) :
    spec.route? (fill (.scalar a) p node) = some p := by
  have hself := fits_fill_self (fits_of_route? h) (.scalar a)
  obtain ⟨-, before, after, hsplit, hbefore⟩ := List.find?_eq_some_iff_append.mp h
  refine List.find?_eq_some_iff_append.mpr ⟨hself, before, after, hsplit, fun q hq => ?_⟩
  have hclosed : ¬ fits q node = true := by simpa using hbefore q hq
  simpa using mt (fits_of_fits_fill ha) hclosed

theorem settle_settle (ha : a ≠ .null) (node : Json) :
    spec.settle (.scalar a) (spec.settle (.scalar a) node) = spec.settle (.scalar a) node := by
  cases hchosen : spec.chooses node with
  | false => rw [settle_of_not_chosen hchosen, settle_of_not_chosen hchosen]
  | true => cases hroute : spec.route? node with
    | none => rw [settle_of_no_route hroute, settle_of_no_route hroute]
    | some p =>
      rw [settle_of_route hchosen hroute]
      cases hagain : spec.chooses (fill (.scalar a) p node) with
      | false => exact settle_of_not_chosen hagain _
      | true => rw [settle_of_route hagain (route?_fill ha hroute), fill_fill]

theorem settleAll_settleAll (ha : a ≠ .null) (nodes : Entries Json) :
    spec.settleAll (.scalar a) (spec.settleAll (.scalar a) nodes) =
      spec.settleAll (.scalar a) nodes := by
  simp [settleAll, List.map_map, settle_settle ha]

theorem route?_cases (h : spec.route? node = some p) : Path.ofJson spec.primaryPath = .ok p ∨
    (∀ q, Path.ofJson spec.primaryPath = .ok q → fits q node = false) ∧
      Path.ofJson spec.fallbackPath = .ok p := by
  have hfits := fits_of_route? h
  by_cases hprimary : ∃ q, Path.ofJson spec.primaryPath = .ok q ∧ fits q node = true
  · obtain ⟨q, hq, hopen⟩ := hprimary
    have hsame := route?_primary hq hopen
    rw [h, Option.some.injEq] at hsame
    exact .inl (hsame ▸ hq)
  · have hclosed : ∀ q, Path.ofJson spec.primaryPath = .ok q → fits q node = false := by
      simpa using hprimary
    refine (mem_paths.mp (List.mem_of_find?_eq_some h)).imp id fun hfallback => ⟨hclosed, hfallback⟩

/-- No limit stops the second write into a node if none stopped the first one. -/
theorem Passes.settle [Machine] (ha : a ≠ .null)
    (hpasses : spec.chooses node = true → spec.Passes node)
    (hagain : spec.chooses (spec.settle (.scalar a) node) = true) :
    spec.Passes (spec.settle (.scalar a) node) := by
  cases hchosen : spec.chooses node with
  | false =>
    rw [settle_of_not_chosen hchosen, hchosen] at hagain
    simp at hagain
  | true => cases hroute : spec.route? node with
    | none =>
      rw [settle_of_no_route hroute]
      exact hpasses hchosen
    | some p =>
      rw [settle_of_route hchosen hroute]
      obtain ⟨hprimary, hfallback⟩ := hpasses hchosen
      have hfits := fits_of_route? hroute
      rcases route?_cases hroute with hpath | ⟨hclosed, hpath⟩
      · refine ⟨blocks_fill ha hfits (fun q hq => ?_) hprimary, fun hnone => ?_⟩
        · exact .inl (Except.ok.inj (hq.symm.trans hpath))
        · exact absurd (fits_fill_self hfits _) (Bool.eq_false_iff.mp (hnone p hpath))
      · refine ⟨blocks_fill ha hfits (fun q hq => .inr (hclosed q hq)) hprimary, fun _ => ?_⟩
        refine blocks_fill ha hfits (fun q hq => ?_) (hfallback hclosed)
        exact .inl (Except.ok.inj (hq.symm.trans hpath))

theorem isObj_of_chooses (h : spec.chooses node = true) : node.isObj = true := by
  by_contra hobj
  simp [chooses, matchesNode, hobj, Except.toOption] at h

theorem chooses_of_settle_ne (h : spec.settle value node ≠ node) : spec.chooses node = true := by
  by_contra hchosen
  exact h (settle_of_not_chosen (Bool.eq_false_iff.mpr hchosen) value)

theorem forall_changed_iff (hnodes : nodes.Textual) {P : Json → Prop} :
    (∀ e ∈ spec.settleAll value nodes, e ∉ nodes → P e.2) ↔
      ∀ e ∈ nodes, spec.settle value e.2 ≠ e.2 → P (spec.settle value e.2) := by
  simp only [settleAll, List.forall_mem_map]
  refine forall₂_congr fun e he => imp_congr_left (not_congr ⟨fun hmem => ?_, fun hsame => ?_⟩)
  · exact congrArg Prod.snd (hnodes.unique hmem he rfl)
  · rwa [hsame]

theorem isObj_settle (value node : Json) : (spec.settle value node).isObj = node.isObj := by
  unfold settle
  split
  · split
    · exact isObj_fill value _ node
    · rfl
  · rfl

/-- Nodes are found again if and only if the conditions can be decided of those that were
changed. -/
theorem exists_findNodes_settleAll_iff (value : Json)
    (hdecided : ∀ e ∈ nodes, e.2.isObj = true → spec.Decides e.2) :
    (∃ ids, findNodes (.obj (spec.settleAll value nodes)) spec.nodeType spec.conditions = .ok ids) ↔
      ∀ e ∈ nodes, spec.settle value e.2 ≠ e.2 → spec.Decides (spec.settle value e.2) := by
  simp only [exists_findNodes_iff, settleAll, List.forall_mem_map, isObj_settle]
  refine forall₂_congr fun e he => ⟨fun h hchanged => h ?_, fun h hobj => ?_⟩
  · exact isObj_of_chooses (chooses_of_settle_ne hchanged)
  · by_cases hsame : spec.settle value e.2 = e.2
    · rw [hsame]
      exact hdecided e he hobj
    · exact h hsame

end ParameterSpec

/-- A parameter that was injected is injected again if and only if its conditions can be decided of
the nodes as they are now. -/
theorem injectOne_settled [Machine] (hnodes : nodes.Textual)
    (htarget : registry.target name value = .ok (spec, .scalar a)) (ha : a ≠ .null)
    (hrun : (injectOne .plain registry name value (.obj nodes)).fault = none) :
    let again := injectOne .plain registry name value (.obj (spec.settleAll (.scalar a) nodes))
    again.state = .obj (spec.settleAll (.scalar a) nodes) ∧
      (again.fault = none ↔ ∀ e ∈ nodes, spec.settle (.scalar a) e.2 ≠ e.2 →
        spec.Decides (spec.settle (.scalar a) e.2)) := by
  intro again
  obtain ⟨ids, hfound⟩ : ∃ ids, findNodes (.obj nodes) spec.nodeType spec.conditions = .ok ids := by
    cases hfind : findNodes (.obj nodes) spec.nodeType spec.conditions with
    | ok ids => exact ⟨ids, rfl⟩
    | error fault => simp [injectOne_of_target htarget, Surface.plain, hfind] at hrun
  have hpasses := (injectOne_found hnodes htarget hfound).fault_eq_none_iff.mp hrun
  have hsettled : (spec.settleAll (.scalar a) nodes).Textual :=
    ParameterSpec.settleAll_textual hnodes (.scalar a)
  have hiff := ParameterSpec.exists_findNodes_settleAll_iff (.scalar a)
    (exists_findNodes_iff.mp ⟨ids, hfound⟩)
  cases hfind : findNodes (.obj (spec.settleAll (.scalar a) nodes)) spec.nodeType spec.conditions with
  | error fault =>
    have hstop : again = ⟨.obj (spec.settleAll (.scalar a) nodes), [], some fault⟩ := by
      simp only [again, injectOne_of_target htarget, Surface.plain, hfind]
    rw [hstop, ← hiff]
    exact ⟨rfl, by simp [hfind]⟩
  | ok found =>
    have hreturns : again.fault = none := by
      refine (injectOne_found hsettled htarget hfind).returns ?_
      simp only [ParameterSpec.settleAll, List.forall_mem_map]
      exact fun e he => .settle ha (hpasses e he)
    have hagain := (injectOne_plain hsettled htarget hreturns).1
    refine ⟨?_, iff_of_true hreturns (hiff.mp ⟨found, hfind⟩)⟩
    rw [show again = _ from hagain, ParameterSpec.settleAll_settleAll ha]

/-- A second injection of the same value under the same name leaves the graph as the first one left
it. It returns if and only if the conditions can be decided of the nodes that the first one has
changed, and so it does with every registry that is read from data in which the arguments of
conditions are texts. -/
theorem reinjection_changes_nothing [Machine] (hgraph : graph.Decoded)
    (hrun : (injectInto graph registry (.obj [(name, value)])).fault = none) :
    let once := (injectInto graph registry (.obj [(name, value)])).state
    let again := injectInto once registry (.obj [(name, value)])
    again.state = once ∧
      (again.fault = none ↔ ∀ spec nodes after, Entries.get? name registry = some spec →
        graph = .obj nodes → once = .obj after → ∀ e ∈ after, e ∉ nodes → spec.Decides e.2) ∧
      ∀ data, Registry.ofJson data = .ok registry → Registry.TextConditions data →
        again.fault = none := by
  intro once again
  rw [injectInto_single] at hrun
  have honce : once = (injectOne .plain registry name value graph).state := by
    simp only [once, injectInto_single]
  have hagain : again = injectOne .plain registry name value once := injectInto_single ..
  clear_value again once
  cases htarget : registry.target name value with
  | error events =>
    -- What is reported in place of a target does not depend on the graph.
    rw [injectOne_of_target_error htarget] at honce hagain
    obtain rfl : once = graph := honce
    rw [hagain]
    refine ⟨rfl, iff_of_true rfl ?_, fun _ _ _ => rfl⟩
    intro spec nodes after _ hnodes hafter e he hnew
    rw [hnodes, Json.obj.injEq] at hafter
    exact absurd (hafter ▸ he) hnew
  | ok target =>
    obtain ⟨spec, x⟩ := target
    obtain ⟨-, hspec, hcoerce⟩ := Registry.target_eq_ok.mp htarget
    obtain ⟨a, rfl, -, ha⟩ := ParameterType.coerce_eq_ok hcoerce
    obtain ⟨nodes, rfl⟩ := graph_of_target htarget hrun
    obtain ⟨hstate, hfault⟩ := injectOne_settled hgraph.keys htarget ha hrun
    rw [(injectOne_plain hgraph.keys htarget hrun).1] at honce
    obtain rfl : once = .obj (spec.settleAll (.scalar a) nodes) := honce
    rw [hagain]
    refine ⟨hstate, ?_, fun data hread htexts => hfault.mpr fun e he hchanged => ?_⟩
    · rw [hfault, ← ParameterSpec.forall_changed_iff hgraph.keys]
      simp [hspec]
    · obtain ⟨key, hmem, -⟩ := Entries.exists_of_get? hspec
      refine ParameterSpec.decides_of_decided (fun conditions hconditions =>
        Registry.conditions_decided hread htexts hmem hconditions) ?_
      rw [ParameterSpec.isObj_settle]
      exact ParameterSpec.isObj_of_chooses (ParameterSpec.chooses_of_settle_ne hchanged)

attribute [local instance] Machine.common in
/-- The first node is written at the second path. The other one is written at the first path, and is
not chosen any more because of what was written. -/
theorem reinjection_changes_nothing_in_two_nodes :
    let data : Json := .ofFields [("p", .ofFields [("node_type", .str "A"),
      ("primary_path", .str "inputs.text"), ("fallback_path", .str "widgets_values[1]"),
      ("when", .ofFields [("lacks_input", .str "text")])])]
    let graph : Json := .ofFields [("1", .ofFields [("class_type", .str "A"), ("inputs", .int 5)]),
      ("2", .ofFields [("class_type", .str "A")])]
    let once : Json := .ofFields [("1", .ofFields [("class_type", .str "A"), ("inputs", .int 5),
        ("widgets_values", .list [.null, .str "new"])]),
      ("2", .ofFields [("class_type", .str "A"), ("inputs", .ofFields [("text", .str "new")])])]
    ∃ registry, Registry.ofJson data = .ok registry ∧
      (injectInto graph registry (.obj [(.str "p", .str "new")])).fault = none ∧
      (injectInto graph registry (.obj [(.str "p", .str "new")])).state = once ∧
      (injectInto once registry (.obj [(.str "p", .str "new")])).fault = none ∧
      (injectInto once registry (.obj [(.str "p", .str "new")])).state = once := by
  intro data graph once
  let registry : Registry := [(.str "p", ⟨.str "A", .str "inputs.text", .str "widgets_values[1]",
    .string, some [.lacksInput (.str "text")], .str ""⟩)]
  have hread : Registry.ofJson data = .ok registry := rfl
  have htexts : Registry.TextConditions data := by
    intro entries hentries e he conditions hwhen c hc
    obtain rfl := Json.obj.inj hentries
    obtain rfl := List.mem_singleton.mp he
    obtain rfl := Json.obj.inj hwhen
    obtain rfl := List.mem_singleton.mp hc
    exact ⟨"text", rfl⟩
  have hgraph : graph.Decoded := by simp [graph]
  have hrun : (injectInto graph registry (.obj [(.str "p", .str "new")])).fault = none :=
    Option.isNone_iff_eq_none.mp (by decide +kernel)
  have honce : (injectInto graph registry (.obj [(.str "p", .str "new")])).state = once := by
    decide +kernel
  obtain ⟨hstate, -, hreturns⟩ := reinjection_changes_nothing hgraph hrun
  rw [honce] at hstate hreturns
  exact ⟨registry, hread, hrun, honce, hreturns data hread htexts, hstate⟩

attribute [local instance] Machine.common in
/-- A list is no key, and it is come to only when the first injection has made the inputs. -/
theorem reinjection_stopped_by_list_key :
    let data : Json := .ofFields [("p", .ofFields [("node_type", .str "A"),
      ("primary_path", .str "inputs.x"), ("when", .ofFields [("lacks_input", .list [])])])]
    let graph : Json := .ofFields [("1", .ofFields [("class_type", .str "A")])]
    ∃ registry, Registry.ofJson data = .ok registry ∧
      (injectInto graph registry (.obj [(.str "p", .str "v")])).fault = none ∧
      (injectInto (injectInto graph registry (.obj [(.str "p", .str "v")])).state registry
        (.obj [(.str "p", .str "v")])).fault = some .keyNotScalar :=
  ⟨[(.str "p", ⟨.str "A", .str "inputs.x", .null, .string, some [.lacksInput (.list [])], .str ""⟩)],
    rfl, rfl, rfl⟩

end NodeWorkflow
