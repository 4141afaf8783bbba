import NodeWorkflow.Proofs.Compile.Stages
import NodeWorkflow.Proofs.Editor.Union

/-!
# Compiling what was filtered

A graph may be filtered before it is compiled. Filters that follow each other leave what one filter
leaves that drops the types of all of them, and the compilation, which filters again, gives what it
gives of the whole graph with all these types.
-/
namespace NodeWorkflow.Compile
open Editor

variable {first second both : List Scalar} {graph filtered other out : Graph} {levels : Nat}
  {options : Options}

theorem compileGraphWithin_of_same_survivors (h : filtered.survivors second = .ok out)
    (h' : graph.survivors both = .ok out) :
    let again := compileGraphWithin levels { options with uiTypes := second } filtered
    let once := compileGraphWithin levels { options with uiTypes := both } graph
    again.result = once.result ∧ again.warnings = once.warnings := by
  intro again once
  have hsame : compileFiltered levels { options with uiTypes := second } out =
      compileFiltered levels { options with uiTypes := both } out :=
    (compileFiltered_withTypes second).trans (compileFiltered_withTypes both).symm
  constructor
  · rw [result_compileGraphWithin h, result_compileGraphWithin h', hsame]
  · rw [warnings_compileGraphWithin h, warnings_compileGraphWithin h', hsame]

/-- On what a filter has left every filter succeeds, with the graph that one filter leaves for the
types of both. So a filter that is repeated leaves everything, and the order of filters makes no
difference. A compilation of what a filter has left, with further types, ends as the compilation of
the whole graph with all the types, in a workflow or a fault, with the same warnings. -/
theorem filters_compose (hboth : Unites first second both)
    (h : (graph.filter first).result = .ok filtered) :
    (∃ out, (filtered.filter second).result = .ok out ∧ (graph.filter both).result = .ok out) ∧
      (filtered.filter first).result = .ok filtered ∧
      (∀ other, (graph.filter second).result = .ok other →
        (other.filter first).result = (filtered.filter second).result) ∧
      ∀ levels (options : Options),
        let again := compileGraphWithin levels { options with uiTypes := second } filtered
        let once := compileGraphWithin levels { options with uiTypes := both } graph
        again.result = once.result ∧ again.warnings = once.warnings := by
  simp only [Graph.result_filter] at h ⊢
  obtain ⟨out, hagain, honce⟩ := Graph.survivors_survivors hboth h
  refine ⟨⟨out, hagain, honce⟩, ?_, fun other hother => ?_, fun levels options => ?_⟩
  · obtain ⟨same, hsame, hfirst⟩ := Graph.survivors_survivors (unites_self first) h
    rw [hsame, ← hfirst, h]
  · obtain ⟨swapped, hswapped, hboth'⟩ := Graph.survivors_survivors hboth.symm hother
    rw [hswapped, ← hboth', honce, hagain]
  · exact compileGraphWithin_of_same_survivors hagain honce

/-- Two nodes of one id of which one is dropped, a link from a node that is dropped later, and a
link from nowhere. -/
theorem filters_compose_on_repeated_ids :
    let note : Node := ⟨.int 1, .str "Note", [], .null, .null⟩
    let loader : Node := ⟨.int 1, .str "Loader", [], .null, .null⟩
    let reroute : Node := ⟨.int 2, .str "Reroute", [], .null, .null⟩
    let sink : Node := ⟨.int 3, .str "Sink", [⟨.str "x", .int 7, .null⟩, ⟨.str "y", .int 8, .null⟩,
      ⟨.str "z", .int 9, .null⟩], .null, .null⟩
    let kept : Link := ⟨.int 7, .int 1, .int 0, .int 3, .int 0, .null⟩
    let bridged : Link := ⟨.int 8, .int 2, .int 0, .int 3, .int 1, .null⟩
    let dangling : Link := ⟨.int 9, .int 5, .int 0, .list [], .int 2, .null⟩
    let graph : Graph := ⟨[note, loader, reroute, sink], [kept, bridged, dangling]⟩
    let filtered : Graph := ⟨[loader, reroute, sink], [kept, bridged]⟩
    let both : List Scalar := [.str "Note", .str "Reroute"]
    let again := compileGraphWithin 400 { Options.plain with uiTypes := [.str "Reroute"] } filtered
    let once := compileGraphWithin 400 { Options.plain with uiTypes := both } graph
    Unites [.str "Note"] [.str "Reroute"] both ∧
      (graph.filter [.str "Note"]).result = .ok filtered ∧
      (filtered.filter [.str "Reroute"]).result = .ok ⟨[loader, sink], [kept]⟩ ∧
      (graph.filter both).result = .ok ⟨[loader, sink], [kept]⟩ ∧
      again.result = once.result ∧
      once.warnings = ["Node 3 (Sink): input 'y' left unresolved",
        "Node 3 (Sink): input 'z' left unresolved"] := by
  intro note loader reroute sink kept bridged dangling graph filtered both again once
  have hboth : Unites [.str "Note"] [.str "Reroute"] both := unites_append _ _
  have hfiltered : (graph.filter [.str "Note"]).result = .ok filtered := rfl
  obtain ⟨⟨out, hagain, honce⟩, -, -, hcompiled⟩ := filters_compose hboth hfiltered
  have hout : (filtered.filter [.str "Reroute"]).result = .ok ⟨[loader, sink], [kept]⟩ := rfl
  obtain rfl := Except.ok.inj (hout.symm.trans hagain)
  obtain ⟨hresult, hwarnings⟩ := hcompiled 400 .plain
  refine ⟨hboth, hfiltered, hout, honce, hresult, hwarnings.symm.trans ?_⟩
  decide +kernel

end NodeWorkflow.Compile
