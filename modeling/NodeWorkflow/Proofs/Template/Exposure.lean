import NodeWorkflow.Proofs.Compile.Drawings
import NodeWorkflow.Proofs.Path.Print
import NodeWorkflow.Proofs.Sharing.Frame
import NodeWorkflow.Proofs.Template.Payload

/-!
# Templates that are exposed

A template is exposed if a graph that is compiled from it lends a part that a path leads into, in a
node that can be found. The graphs that are compiled from any other template seal its parts.
-/
namespace NodeWorkflow

open Compile Editor

/-- The source shares a part with the editor graph that a path can lead into: no path leads into a
list at the output of a reference. -/
def Compile.Source.Lends : Source → Prop
  | .widget _ v => v.isContainer = true
  | .link _ output => output.isObj = true
  | _ => False

def Compile.ExecutionNode.Lends (node : ExecutionNode) : Prop :=
  node.title.isContainer = true ∧ node.title.truthy = true ∨
    ∃ name source, (.str name, source) ∈ node.inputs ∧ Nameable name ∧ source.Lends

/-- Compiling the workflow of a template, under some options, gives a node that lends a part. Its
class equals itself: what is not a number equals nothing, so no parameter is for a node of that
class. -/
structure Exposes [Machine] (workflow : Json) (options : Options) (graph : Graph)
    (compiled : ExecutionGraph) (e : Scalar × ExecutionNode) : Prop where
  copied : overrun? Machine.copyLevels options workflow = none
  format : formatOf workflow = .ok .editor
  read : Graph.ofJson workflow = .ok graph
  compiles : (compileGraph options graph).result = .ok compiled
  mem : e ∈ compiled
  lends : e.2.Lends
  class_same : e.2.type.same e.2.type = true

def Exposed [Machine] (workflow : Json) : Prop :=
  ∃ options graph compiled e, Exposes workflow options graph compiled e

theorem Path.mem_steps {path : Path} {key : Scalar} (h : .field key ∈ path.steps) :
    ∃ s ∈ path, key = .str s.name := by
  obtain ⟨s, hs, hstep⟩ := List.mem_flatMap.mp h
  cases hindex : s.index <;> simp [hindex] at hstep <;> exact ⟨s, hs, hstep⟩

theorem Enterable.nameable {id name : Scalar} {place : Place} (h : Enterable place)
    (hinput : inputPlace id name <+: place) : ∃ s, name = .str s ∧ Nameable s := by
  obtain ⟨path, ⟨text, htext⟩, id', hprefix, -⟩ := h
  have hsteps := (List.cons_prefix_cons.mp (hinput.trans hprefix)).2
  have hmem : Step.field name ∈ path.steps := hsteps.subset (by simp)
  obtain ⟨s, hs, rfl⟩ := Path.mem_steps hmem
  exact ⟨s.name, rfl, Path.parsed_nameable htext s hs⟩

namespace Compile

variable {options : Options} {data x : Json} {ds : List Drawing} {levels : Nat} {graph : Graph}
  {compiled : ExecutionGraph}

theorem drawnWithin_eq_ok (h : (drawnWithin levels options data).result = .ok (x, ds)) :
    ds = [] ∨ overrun? levels options data = none ∧ formatOf data = .ok .editor ∧
      ∃ graph compiled, Graph.ofJson data = .ok graph ∧
        (compileGraph options graph).result = .ok compiled ∧ x = compiled.toJson ∧
        ds = drawings options graph data compiled := by
  unfold drawnWithin at h
  split at h
  next run hrun =>
    obtain ⟨fault, hfault⟩ := overrun_fails hrun
    simp [hfault, Except.map] at h
  next hnone =>
    simp only [drawn, Traced.result_bind_eq_ok, Traced.result_lift] at h
    obtain ⟨format, hformat, h⟩ := h
    cases format with
    | execution =>
      simp only [Traced.result_bind_eq_ok, Traced.result_pure] at h
      obtain ⟨v, -, h⟩ := h
      obtain ⟨-, rfl⟩ := Prod.mk.inj (Except.ok.inj h)
      exact .inl rfl
    | editor =>
      simp only [Traced.result_bind_eq_ok, Traced.result_lift, Traced.result_pure] at h
      obtain ⟨graph, hgraph, compiled, hcompiled, h⟩ := h
      obtain ⟨rfl, rfl⟩ := Prod.mk.inj (Except.ok.inj h)
      exact .inr ⟨hnone, hformat, graph, compiled, hgraph, hcompiled, rfl, rfl⟩

/-- What a path leads into is lent by its node, or it is a list at the output of a reference. -/
theorem Draws.lends_of_enterable {surviving : List Scalar} {index : Nat}
    {e : Scalar × ExecutionNode} {source target : Place}
    (h : Draws options surviving graph data index e (.fromEditor source target))
    (henter : Enterable target) :
    e.2.Lends ∨ ∃ (name : String) (record : Link) (xs : List Json),
      (.str name, .link record (.list xs)) ∈ e.2.inputs ∧
        target = inputPlace e.1 (.str name) ++ [.item 1] := by
  generalize hd : Drawing.fromEditor source target = d at h
  cases h with
  | title hcontainer htruthy => exact .inl (.inl ⟨hcontainer, htruthy⟩)
  | input hinput hdraws =>
    obtain ⟨name, rfl, hname⟩ := henter.nameable (hd ▸ hdraws.prefix_target)
    cases hdraws with
    | named => simp at hd
    | widget hcontainer => exact .inl (.inr ⟨name, _, hinput, hname, hcontainer⟩)
    | @link record output j hcontainer =>
      cases output with
      | scalar c => simp [Json.isContainer] at hcontainer
      | obj es => exact .inl (.inr ⟨name, _, hinput, hname, rfl⟩)
      | list xs =>
        obtain ⟨-, htarget⟩ := Drawing.fromEditor.inj hd
        exact .inr ⟨name, record, xs, hinput, htarget⟩

/-- A node of a compiled graph has a class that equals nothing. -/
def Anonymous (compiled : ExecutionGraph) (id : String) : Prop :=
  ∃ e ∈ compiled, e.1 = .str id ∧ e.2.type.same e.2.type = false

theorem bars_of_anonymous (hcompiled : (compileGraph options graph).result = .ok compiled)
    {q : Pair} {part : Origin → Nat}
    (htrace : q.Traces (outline (drawings options graph data compiled)) part)
    {id : String} (h : Anonymous compiled id) :
    (⟨compiled.toJson, q.compiled⟩ : Document).Bars id where
  unselectable := by
    rintro nodes heq x hx hid v
    obtain ⟨e, he, hkey, hclass⟩ := h
    rw [compiled.toJson_eq] at heq
    rw [← Json.obj.inj heq] at hx
    obtain ⟨f, hf, rfl⟩ := List.mem_map.mp hx
    obtain rfl : f = e := (compileGraph_textual hcompiled).unique hf he (hid.trans hkey.symm)
    rw [ExecutionNode.field_class]
    cases v with
    | scalar b => exact Scalar.same_eq_false hclass b
    | list xs => rfl
    | obj es => rfl
  apart g hg := by
    simp only [htrace.compiled] at hg
    obtain ⟨a, ha, rfl⟩ := List.mem_map.mp hg
    exact outline_class hcompiled ha (.str id)

end Compile

variable {workflow x : Json} {options : Options} {ds : List Drawing} {q : Pair}
  {part : Origin → Nat}

/-- A graph that is compiled from a template that is not exposed seals its parts. -/
theorem seals_of_not_exposed [Machine] (hexposed : ¬ Exposed workflow)
    (hdrawn : (drawnWithin Machine.copyLevels options workflow).result = .ok (x, ds))
    (htrace : q.Traces (outline ds) part) :
    (⟨x, q.compiled⟩ : Document).Seals ⟨workflow, q.editor⟩ := by
  rcases drawnWithin_eq_ok hdrawn with rfl |
    ⟨hcopied, hformat, graph, compiled, hgraph, hcompiled, rfl, rfl⟩
  · refine Document.seals_of_foreign fun h hh => ?_
    simp [htrace.compiled, outline] at hh
  refine ⟨Anonymous compiled, fun h hh hholds => ?_, fun id => bars_of_anonymous hcompiled htrace⟩
  obtain ⟨y, hy, hpart⟩ := hholds
  rw [htrace.compiled] at hh
  obtain ⟨a, ha, rfl⟩ := List.mem_map.mp hh
  -- A part that the template has does not come from the compiled graph itself.
  obtain ⟨source, hsource⟩ : ∃ source, a.2 = .editor source := by
    cases horigin : a.2 with
    | editor source => exact ⟨source, rfl⟩
    | compiled source => exact absurd hpart ((htrace.own a ha source horigin).1 y hy)
  by_cases henter : Enterable a.1
  · right
    obtain ⟨filtered, surviving, links, hfilter, hids, -⟩ := compileGraph_eq_ok.mp hcompiled
    obtain ⟨e, he, index, hindex, hdraws⟩ :=
      (mem_drawings hfilter hids).mp (outline_editor hcompiled ha hsource)
    obtain ⟨id, hid⟩ := (compileGraph_textual hcompiled).texts e he
    rcases hdraws.lends_of_enterable henter with hlends | ⟨name, record, xs, hinput, hplace⟩
    · -- What lends a part that a path leads into is a node whose class equals nothing.
      refine .inr ⟨id, ⟨e, he, hid, ?_⟩, hid ▸ hdraws.prefix_id⟩
      rw [← Bool.not_eq_true]
      exact fun hclass => hexposed
        ⟨options, graph, compiled, e, hcopied, hformat, hgraph, hcompiled, he, hlends, hclass⟩
    · left
      have htexts : Texts a.1 := by simp [hplace, Texts, inputPlace, hid]
      refine ⟨⟨1, by simp [hplace]⟩, ⟨xs, ?_⟩, htexts, ?_⟩
      · rw [hplace, Json.atPlace?_append, atPlace?_input hcompiled he hinput]
        rfl
      · intro g hg hne
        rw [htrace.compiled] at hg
        obtain ⟨b, hb, rfl⟩ := List.mem_map.mp hg
        exact outline_apart hcompiled hb ha hsource htexts fun heq => hne (by rw [heq])
  · exact .inl henter

end NodeWorkflow
