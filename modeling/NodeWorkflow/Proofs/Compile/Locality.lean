import NodeWorkflow.Proofs.Compile.Entries
import NodeWorkflow.Proofs.Compile.Stages

/-!
# What a node sees of another

Of another node a node sees at most the id, and that the other is there. So two graphs that differ
in the contents of one node, which stays in both, are compiled to workflows that differ in the entry
of this node only, and what is reported differs in what is reported of its slots.
-/
namespace NodeWorkflow

namespace Editor

variable {uiTypes ids ids' : List Scalar} {links links' : Entries Link} {u u' : Node}
  {graph graph' filtered filtered' : Graph}

namespace Graph

theorem nodeIds_congr (h : graph.nodes.map Node.id = graph'.nodes.map Node.id) :
    graph.nodeIds = graph'.nodeIds := by
  have hkeys (graph : Graph) : (graph.nodes.mapM fun node => node.id.key) =
      (graph.nodes.map Node.id).mapM Json.key := by
    rw [List.mapM_map]
    rfl
  rw [nodeIds, nodeIds, hkeys, hkeys, h]

/-- The graphs have the same links, and the same nodes but for one, which has one id in both and is
of no type of presentation. -/
structure DifferAt (uiTypes : List Scalar) (u u' : Node) (graph graph' : Graph) : Prop where
  nodes : ∃ before after, graph.nodes = before ++ u :: after ∧ graph'.nodes = before ++ u' :: after
  links : graph.links = graph'.links
  id : u.id = u'.id
  stays : Survives uiTypes u
  stays' : Survives uiTypes u'

namespace DifferAt

variable (h : DifferAt uiTypes u u' graph graph')
include h

theorem kept : ∃ before after, graph.kept uiTypes = before ++ u :: after ∧
    graph'.kept uiTypes = before ++ u' :: after := by
  obtain ⟨before, after, hnodes, hnodes'⟩ := h.nodes
  have hstays := h.stays
  have hstays' := h.stays'
  refine ⟨before.filter (Survives uiTypes ·), after.filter (Survives uiTypes ·), ?_, ?_⟩
  · simp [Graph.kept, hnodes, hstays]
  · simp [Graph.kept, hnodes', hstays']

variable (hfiltered : graph.survivors uiTypes = .ok filtered)
  (hfiltered' : graph'.survivors uiTypes = .ok filtered')
include hfiltered hfiltered'

theorem ids_eq (hids : filtered.nodeIds = .ok ids) (hids' : filtered'.nodeIds = .ok ids') :
    ids = ids' := by
  obtain ⟨before, after, hkept, hkept'⟩ := h.kept
  have hnodes : filtered.nodes.map Node.id = filtered'.nodes.map Node.id := by
    rw [nodes_survivors hfiltered, nodes_survivors hfiltered', hkept, hkept']
    simp [h.id]
  exact Except.ok.inj (hids.symm.trans ((nodeIds_congr hnodes).trans hids'))

theorem links_eq (hlinks : filtered.linksById = .ok links)
    (hlinks' : filtered'.linksById = .ok links') : links = links' := by
  obtain ⟨ids, hids, -, hkept⟩ := survivors_eq_ok hfiltered
  obtain ⟨ids', hids', -, hkept'⟩ := survivors_eq_ok hfiltered'
  obtain rfl := h.ids_eq hfiltered hfiltered' hids hids'
  rw [← h.links] at hkept'
  have hsame : filtered.links = filtered'.links := Except.ok.inj (hkept.symm.trans hkept')
  rw [linksById, ← hsame] at hlinks'
  exact Except.ok.inj (hlinks.symm.trans hlinks')

end DifferAt
end Graph
end Editor

namespace Compile
open Editor

variable {options : Options} {graph graph' filtered filtered' : Graph} {links : Entries Link}
  {surviving : List Scalar} {levels : Nat} {u u' : Node} {before after : List Node} {inlet : Inlet}
  {out out' : ExecutionGraph} {workflow workflow' : Json}

/-- Nodes with keys of their own are compiled to entries that do not depend on the other nodes. -/
theorem compileNodes_differ (hid : u.id = u'.id)
    (hnodup : ((before ++ u :: after).map entryKey).Nodup)
    (hout : (compileNodes options links surviving (before ++ u :: after) []).result = .ok out)
    (hout' : (compileNodes options links surviving (before ++ u' :: after) []).result = .ok out') :
    ∃ front e e' back, out = front ++ (entryKey u, e) :: back ∧
      out' = front ++ (entryKey u, e') :: back := by
  have hkey : entryKey u = entryKey u' := by rw [entryKey, entryKey, hid]
  have hnodup' : ((before ++ u' :: after).map entryKey).Nodup := by
    rw [List.map_append, List.map_cons] at hnodup ⊢
    rwa [← hkey]
  obtain ⟨front, ⟨key, e⟩, back, rfl, hfront, hu, hback⟩ :=
    List.forall₂_append_cons (forall₂_compileNodes hout hnodup)
  obtain ⟨front', ⟨key', e'⟩, back', rfl, hfront', hu', hback'⟩ :=
    List.forall₂_append_cons (forall₂_compileNodes hout' hnodup')
  obtain rfl : front = front' := stores_rightUnique.forall₂ hfront hfront'
  obtain rfl : back = back' := stores_rightUnique.forall₂ hback hback'
  obtain rfl : key = entryKey u := hu.key
  obtain rfl : key' = entryKey u := hu'.key.trans hkey.symm
  exact ⟨front, e, e', back, rfl, rfl⟩

section DifferAt

variable (h : Graph.DifferAt options.uiTypes u u' graph graph')
include h

theorem compileGraph_differ (hnodup : (graph.nodes.map entryKey).Nodup)
    (hout : (compileGraph options graph).result = .ok out)
    (hout' : (compileGraph options graph').result = .ok out') :
    ∃ front e e' back, out = front ++ (entryKey u, e) :: back ∧
      out' = front ++ (entryKey u, e') :: back := by
  obtain ⟨filtered, surviving, links, hfiltered, hids, hlinks, hnodes⟩ :=
    compileGraph_eq_ok.mp hout
  obtain ⟨filtered', surviving', links', hfiltered', hids', hlinks', hnodes'⟩ :=
    compileGraph_eq_ok.mp hout'
  obtain rfl := h.ids_eq hfiltered hfiltered' hids hids'
  obtain rfl := h.links_eq hfiltered hfiltered' hlinks hlinks'
  obtain ⟨before, after, hkept, hkept'⟩ := h.kept
  rw [Graph.nodes_survivors hfiltered, hkept] at hnodes
  rw [Graph.nodes_survivors hfiltered', hkept'] at hnodes'
  have hnodup : ((before ++ u :: after).map entryKey).Nodup := by
    rw [← hkept]
    exact hnodup.sublist (List.filter_sublist.map entryKey)
  exact compileNodes_differ h.id hnodup hnodes hnodes'

theorem unfed_iff_of_differ (hout : (compileGraph options graph).result = .ok out)
    (hout' : (compileGraph options graph').result = .ok out') :
    inlet.Unfed options.uiTypes graph ↔ inlet.Unfed options.uiTypes graph' := by
  obtain ⟨filtered, surviving, -, hfiltered, hids, -, -⟩ := compileGraph_eq_ok.mp hout
  obtain ⟨filtered', surviving', -, hfiltered', hids', -, -⟩ := compileGraph_eq_ok.mp hout'
  obtain rfl := h.ids_eq hfiltered hfiltered' hids hids'
  have hhas (v : Json) : graph.Has options.uiTypes v ↔ graph'.Has options.uiTypes v := by
    rw [← Graph.isAmong_survivors hfiltered hids, Graph.isAmong_survivors hfiltered' hids']
  simp only [Inlet.Unfed, Feeds, hhas, h.links]

open Classical in
theorem warnings_differ (hout : (compileGraph options graph).result = .ok out)
    (hout' : (compileGraph options graph').result = .ok out') :
    let reports (node : Node) := ((inlets [node]).filter
      fun inlet => inlet.Unfed options.uiTypes graph).map Inlet.report
    ∃ first last, (compileGraph options graph).warnings = first ++ reports u ++ last ∧
      (compileGraph options graph').warnings = first ++ reports u' ++ last := by
  intro reports
  have hunfed : (fun inlet : Inlet => decide (inlet.Unfed options.uiTypes graph')) =
      fun inlet : Inlet => decide (inlet.Unfed options.uiTypes graph) :=
    funext fun inlet => decide_eq_decide.mpr (unfed_iff_of_differ h hout hout').symm
  obtain ⟨before, after, hkept, hkept'⟩ := h.kept
  have hsplit (node : Node) : inlets (before ++ node :: after) =
      inlets before ++ inlets [node] ++ inlets after := by
    rw [← inlets_append, ← inlets_append, List.append_assoc, List.singleton_append]
  rw [warnings_compileGraph hout, warnings_compileGraph hout', hkept, hkept', hsplit, hsplit, hunfed]
  simp only [List.filter_append, List.map_append]
  exact ⟨_, _, rfl, rfl⟩

end DifferAt

open Classical in
/-- Two graphs that differ in one node, which has its id in both and stays in both, are compiled
to workflows with the same keys, and under every key but that of the node the same is found. What
is reported of the slots of the node stands between what is reported of the others, which is the
same. -/
theorem compiled_locally (h : Graph.DifferAt options.uiTypes u u' graph graph')
    (hnodes : (graph.nodes.map fun node => node.id.text).Nodup)
    (hworkflow : (compileGraphWithin levels options graph).result = .ok workflow)
    (hworkflow' : (compileGraphWithin levels options graph').result = .ok workflow') :
    let reports (node : Node) := ((inlets [node]).filter
      fun inlet => inlet.Unfed options.uiTypes graph).map Inlet.report
    (∃ entries entries', workflow = .obj entries ∧ workflow' = .obj entries' ∧
      entries.map Prod.fst = entries'.map Prod.fst ∧
      ∀ id, id ≠ entryKey u → Entries.get? id entries = Entries.get? id entries') ∧
    ∃ first last, (compileGraphWithin levels options graph).warnings = first ++ reports u ++ last ∧
      (compileGraphWithin levels options graph').warnings = first ++ reports u' ++ last := by
  intro reports
  obtain ⟨-, out, hout, rfl⟩ := compileGraphWithin_eq_ok.mp hworkflow
  obtain ⟨-, out', hout', rfl⟩ := compileGraphWithin_eq_ok.mp hworkflow'
  have hnodup : (graph.nodes.map entryKey).Nodup := nodup_keys_of_texts hnodes
  constructor
  · obtain ⟨front, e, e', back, rfl, rfl⟩ := compileGraph_differ h hnodup hout hout'
    refine ⟨_, _, rfl, rfl, by simp, fun id hid => ?_⟩
    have hother : (entryKey u).agrees id = false := by
      rw [← Bool.not_eq_true]
      exact fun hagrees => hid (Scalar.agrees_str_iff.mp (Scalar.agrees_symm hagrees))
    simp [Entries.get?_append, Entries.get?_cons, hother]
  · rw [warnings_compileGraphWithin_of_ok hworkflow, warnings_compileGraphWithin_of_ok hworkflow']
    exact warnings_differ h hout hout'

/-- A node between two others is replaced by one of another type, with other slots, widgets and
title. -/
theorem compiled_around_replaced_node :
    let loader : Node := ⟨.int 1, .str "Loader", [⟨.str "seed", .null, .null⟩], .null, .null⟩
    let sampler : Node := ⟨.int 2, .str "Sampler", [⟨.str "model", .int 5, .null⟩], .null, .null⟩
    let scaler : Node := ⟨.int 2, .str "Scaler",
      [⟨.str "factor", .null, .null⟩, ⟨.str "method", .int 9, .null⟩], .list [.int 4], .str "Big"⟩
    let sink : Node := ⟨.int 3, .str "Sink",
      [⟨.str "image", .int 6, .null⟩, ⟨.str "mask", .null, .null⟩], .null, .null⟩
    let links : List Link := [⟨.int 5, .int 1, .int 0, .int 2, .int 0, .null⟩,
      ⟨.int 6, .int 2, .int 0, .int 3, .int 0, .null⟩]
    let graph : Graph := ⟨[loader, sampler, sink], links⟩
    let graph' : Graph := ⟨[loader, scaler, sink], links⟩
    let fixed : Normalizer := .custom fun _ => .ok [(.str "name", .str "fixed")]
    let options : Options := ⟨[.str "Note"], [("Sink", fixed)], false⟩
    let run := compileGraphWithin 400 options graph
    let run' := compileGraphWithin 400 options graph'
    let loaded : String := "Node 1 (Loader): input 'seed' left unresolved"
    let scaled : String := "Node 2 (Scaler): input 'method' left unresolved"
    let sunk : String := "Node 3 (Sink): input 'mask' left unresolved"
    Graph.DifferAt options.uiTypes sampler scaler graph graph' ∧
      (graph.nodes.map fun node => node.id.text).Nodup ∧
      run.warnings = [loaded, sunk] ∧ run'.warnings = [loaded, scaled, sunk] ∧
      ∃ entries entries', run.result = .ok (.obj entries) ∧ run'.result = .ok (.obj entries') ∧
        entries.map Prod.fst = entries'.map Prod.fst ∧
        Entries.get? (.str "2") entries ≠ Entries.get? (.str "2") entries' ∧
        Entries.get? (.str "3") entries = Entries.get? (.str "3") entries' := by
  intro loader sampler scaler sink links graph graph' fixed options run run' loaded scaled sunk
  have h : Graph.DifferAt options.uiTypes sampler scaler graph graph' :=
    ⟨⟨[loader], [sink], rfl, rfl⟩, rfl, rfl, rfl, rfl⟩
  have hnodes : (graph.nodes.map fun node => node.id.text).Nodup := by decide +kernel
  obtain ⟨workflow, hworkflow⟩ : ∃ workflow, run.result = .ok workflow := ⟨_, rfl⟩
  obtain ⟨workflow', hworkflow'⟩ : ∃ workflow', run'.result = .ok workflow' := ⟨_, rfl⟩
  obtain ⟨⟨entries, entries', rfl, rfl, hkeys, hsame⟩, -⟩ :=
    compiled_locally h hnodes hworkflow hworkflow'
  refine ⟨h, hnodes, by decide +kernel, by decide +kernel, entries, entries', hworkflow, hworkflow',
    hkeys, ?_, hsame (.str "3") (by decide +kernel)⟩
  obtain rfl := Json.obj.inj (Except.ok.inj hworkflow)
  obtain rfl := Json.obj.inj (Except.ok.inj hworkflow')
  decide +kernel

end Compile
end NodeWorkflow
