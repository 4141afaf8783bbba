import NodeWorkflow.Proofs.Sharing.Leak
import NodeWorkflow.Proofs.Template.Entrance
import NodeWorkflow.Proofs.Template.Session

/-!
# Breaches of exposed templates

Of an exposed template a caller loads a graph and injects one text into it, at the path that leads
into the part that the graph shares with the template. The text then stands in the template.
-/
namespace NodeWorkflow

open Compile Editor

/-- Data of a registry with one parameter, for the nodes of a class. -/
def probeData (type : Scalar) (path : String) : Json :=
  .ofFields [("p", .ofFields [("node_type", .scalar type), ("primary_path", .str path)])]

def probe (type : Scalar) (path : String) : ParameterSpec :=
  ⟨.scalar type, .str path, .null, .string, none, .str ""⟩

theorem ofJson_probeData (type : Scalar) (path : String) :
    Registry.ofJson (probeData type path) = .ok [(.str "p", probe type path)] := by
  simp [probeData, Json.ofFields, Registry.ofJson, ParameterSpec.ofJson, ParameterSpec.typeOf,
    Json.isObj, Json.field, Json.field?, Entries.get?_cons, Json.truthy, Scalar.truthy, probe,
    pure, Except.pure, bind, Except.bind]

theorem inject_probe {σ : Type} {S : Surface σ} {s : σ} {type : Scalar} {path t : String}
    {ids : List Scalar} (hfound : findNodes (S.graph s) (.scalar type) none = .ok ids)
    (hids : ids ≠ []) :
    (inject S [(.str "p", probe type path)] (.obj [(.str "p", .str t)]) s).state =
      (injectNodes S (.str "p") (probe type path) (.str t) ids s).state := by
  have hone : injectOne S [(.str "p", probe type path)] (.str "p") (.str t) s =
      injectNodes S (.str "p") (probe type path) (.str t) ids s := by
    cases ids with
    | nil => exact absurd rfl hids
    | cons id ids =>
      simp only [injectOne, Entries.get?_cons, Scalar.agrees_str, beq_self_eq_true, if_true, probe,
        ParameterType.coerce, hfound]
      rfl
  simp only [inject, injectAll, List.foldl_cons, List.foldl_nil, Injection.andThen, Injection.start,
    hone]

theorem Compile.ExecutionGraph.found (compiled : ExecutionGraph) {e : Scalar × ExecutionNode}
    (he : e ∈ compiled) (hclass : e.2.type.same e.2.type = true) :
    ∃ ids, findNodes compiled.toJson (.scalar e.2.type) none = .ok ids ∧ e.1 ∈ ids := by
  have htest (x : Scalar × Json) : ∃ b, (if x.2.isObj then
      ParameterSpec.selects (.scalar e.2.type) none x.2 else pure false) = Except.ok b := by
    unfold ParameterSpec.selects
    split
    · split <;> exact ⟨_, rfl⟩
    · exact ⟨false, rfl⟩
  obtain ⟨kept, hkept⟩ := Except.exists_filterM fun x (_ : x ∈ compiled.entries) => htest x
  refine ⟨kept.map (·.1), ?_, ?_⟩
  · rw [compiled.toJson_eq, findNodes, hkept]
    rfl
  · refine List.mem_map.mpr ⟨(e.1, e.2.toJson), ?_, rfl⟩
    refine (Except.mem_filterM hkept).mpr ⟨List.mem_map.mpr ⟨e, he, rfl⟩, ?_⟩
    have hsame : (Json.scalar e.2.type).same (.scalar e.2.type) = true := hclass
    rw [e.2.isObj_toJson, if_pos rfl, ParameterSpec.selects, e.2.field_class, if_pos hsame]

variable {workflow : Json} {options : Options} {graph : Graph} {compiled : ExecutionGraph}
  {e : Scalar × ExecutionNode}

theorem Exposes.drawnWithin [Machine] (h : Exposes workflow options graph compiled e) :
    (Compile.drawnWithin Machine.copyLevels options workflow).result =
      .ok (compiled.toJson, drawings options graph workflow compiled) := by
  simp only [Compile.drawnWithin, h.copied, drawn, Traced.result_bind_eq_ok, Traced.result_lift]
  exact ⟨.editor, h.format, by simp [h.read, h.compiles, Except.map]⟩

/-- The graph that is compiled from an exposed template has a part of it open. -/
theorem Entrance.open [Machine] {id : Scalar} {source target : Place} {step : Step} {path : Path}
    {part : Origin → Nat} {q : Pair}
    (h : Entrance workflow compiled.toJson (drawings options graph workflow compiled) id source
      target step path)
    (hcompiled : (compileGraph options graph).result = .ok compiled)
    (htrace : q.Traces (outline (drawings options graph workflow compiled)) part) :
    Workspace.Open ⟨[⟨workflow, q.editor⟩, ⟨compiled.toJson, q.compiled⟩], q.parts⟩ 0 1
      source target (part (.editor source)) step where
  held := ⟨_, rfl, htrace.editor _ (mem_outline_of_mem h.drawn) source rfl, h.source⟩
  lent := by
    have houtline := mem_outline_of_mem h.drawn
    refine ⟨_, rfl, ?_, fun g hg hne => ?_, h.content⟩
    · simp only [htrace.compiled]
      exact List.mem_map.mpr ⟨_, houtline, rfl⟩
    · simp only [htrace.compiled] at hg
      obtain ⟨a, ha, rfl⟩ := List.mem_map.mp hg
      exact outline_apart hcompiled ha houtline rfl h.texts fun heq => hne (by rw [heq])

/-- A text that is injected one step inside an open part comes to stand in the document that the
part belongs to. -/
theorem Workspace.shows_inject_probe [Machine] {w : Workspace} {doc other part : Nat}
    {source target : Place} {step : Step} {id type : Scalar} {text t : String} {path : Path}
    {ids : List Scalar} (h : w.Open doc other source target part step) (hne : other ≠ doc)
    (hplain : path.Plain) (htext : Path.parse text = .ok path) (htexts : Texts target)
    (hsteps : .field id :: path.steps = target ++ [step])
    (hfound : findNodes (w.value other) (.scalar type) none = .ok ids) (hid : id ∈ ids) :
    (inject (Workspace.surface other) [(.str "p", probe type text)] (.obj [(.str "p", .str t)])
      w).state.Shows doc t := by
  have htruthy : (Json.str text).truthy = true := by
    cases hempty : text.isEmpty with
    | false => simp [Json.truthy, Scalar.truthy, hempty]
    | true => simp [Path.parse, hempty] at htext
  -- The place of the part starts with the node that is written into.
  obtain ⟨rest, rfl⟩ : ∃ rest, target = .field id :: rest := by
    cases target with
    | nil =>
      have hlength := congrArg List.length hsteps
      obtain ⟨s, more, rfl⟩ := List.exists_cons_of_ne_nil hplain.nonempty
      simp [Path.steps_cons, Segment.steps] at hlength
    | cons head rest =>
      rw [List.cons_append, List.cons.injEq] at hsteps
      exact ⟨rest, by rw [hsteps.1]⟩
  rw [inject_probe hfound (List.ne_nil_of_mem hid)]
  refine injectNodes_reaches (S := Workspace.surface other)
    (Q := fun w => w.Open doc other source (.field id :: rest) part step)
    (R := fun w => w.Shows doc t) htext htruthy rfl ?_ ?_ ?_ ?_ hid h
  · exact fun w id fault => Workspace.write_ne_stopped hplain.short w other id _ fault
  · exact fun w hopen => Workspace.shows_write_inside hne hplain.short hopen hplain.nonempty hsteps
  · intro w id' hother hopen
    refine Workspace.open_write hne hplain.short hopen htexts ?_
    simp [Apart, List.cons_prefix_cons, hother, hother.symm]
  · exact fun w id' hshows => Workspace.shows_write hne hplain.short hshows

/-- What is loaded of a template that was just registered, as the drawings leave it. -/
theorem Exposes.serve_load [Machine] {t : Template} {name : Scalar} (hname : t.name = .scalar name)
    (hself : name.agrees name = true) (h : Exposes t.workflow options graph compiled e) :
    ∃ q part, Pair.Traces q (outline (drawings options graph t.workflow compiled)) part ∧
      Session.run [.register t, .load t.name options] .start =
        ⟨⟨⟨[⟨t.workflow, q.editor⟩, ⟨compiled.toJson, q.compiled⟩], q.parts⟩,
          [(name, ⟨name, t.description, t.parameters, 0⟩)]⟩, [1]⟩ := by
  obtain ⟨part, htrace⟩ : ∃ part, ((drawings options graph t.workflow compiled).foldl Pair.draw
      ⟨[], [], 0⟩).Traces (outline (drawings options graph t.workflow compiled)) part :=
    Pair.traces_foldl _ (by simp) (by simp) (by simp)
  refine ⟨_, part, htrace, ?_⟩
  let c : Catalogue := ⟨⟨[.own t.workflow], 0⟩, [(name, ⟨name, t.description, t.parameters, 0⟩)]⟩
  have hregister : Session.start.serve (.register t) = ⟨c, []⟩ := by
    simp only [Session.serve, Catalogue.register, hname]
    rfl
  have hget : c.get t.name = .ok ⟨name, t.description, t.parameters, 0⟩ := by
    simp [c, Catalogue.get, hname, Entries.get?_cons, hself]
  have hdoc : c.workspace.documents[0]? = some (.own t.workflow) := rfl
  have hcompile := Catalogue.compile_eq hdoc options
  rw [show (Document.own t.workflow).value = t.workflow from rfl, h.drawnWithin] at hcompile
  change (Session.start.serve (.register t)).serve (.load t.name options) = _
  rw [hregister]
  simp only [Session.serve, Catalogue.load, hget]
  rw [hcompile]
  rfl

/-- A graph of an exposed template is all that is needed to change what is stored. -/
theorem Exposes.breach [Machine] {t : Template} {name : Scalar} (hname : t.name = .scalar name)
    (hself : name.agrees name = true) (h : Exposes t.workflow options graph compiled e) :
    ∃ data parameters values, Registry.ofJson data = .ok parameters ∧
      (Session.run [.register t, .load t.name options, .inject 0 parameters values]
        .start).stored t.name ≠ .ok t.workflow := by
  obtain ⟨source, target, step, path, hentrance⟩ := h.entrance
  obtain ⟨text, htext⟩ := hentrance.plain.parsed
  obtain ⟨fresh, hfresh⟩ := Json.exists_fresh_text t.workflow
  obtain ⟨ids, hfound, hid⟩ := compiled.found h.mem h.class_same
  obtain ⟨q, part, htrace, hload⟩ := h.serve_load hname hself
  have hopen := hentrance.open h.compiles htrace
  obtain ⟨d, hd, hshown⟩ : Workspace.Shows (inject (Workspace.surface 1)
      [(.str "p", probe e.2.type text)] (.obj [(.str "p", .str fresh)]) _).state 0 fresh :=
    Workspace.shows_inject_probe hopen one_ne_zero hentrance.plain htext hentrance.texts
      hentrance.steps hfound hid
  refine ⟨_, _, .obj [(.str "p", .str fresh)], ofJson_probeData e.2.type text, fun hsame => ?_⟩
  have hrun (call : Call) : Session.run [.register t, .load t.name options, call] .start =
      (Session.run [.register t, .load t.name options] .start).serve call := rfl
  rw [hrun, hload] at hsame
  have hvalue : (Except.ok d.value : Except Fault Json) = .ok t.workflow := by
    simpa [Session.serve, Session.stored, Catalogue.get, Catalogue.inject, hname, Entries.get?_cons,
      hself, Except.map, Workspace.value, hd] using hsame
  exact hfresh (Except.ok.inj hvalue ▸ hshown)

end NodeWorkflow
