import NodeWorkflow.Proofs.Compile.Nodes
import NodeWorkflow.Proofs.Lists

/-!
# The entries of a compiled graph

A compiled graph has the nodes that survive under their ids as text. Of nodes whose ids have one
text the first gives the place of the entry and the last what it holds, so a node is lost wherever
two ids have one text, and nowhere else.
-/
namespace NodeWorkflow.Compile
open Editor

variable {options : Options} {links : Entries Link} {surviving : List Scalar} {node : Node}
  {nodes : List Node} {compiled : ExecutionNode} {done out : ExecutionGraph} {graph : Graph}

def entryKey (node : Node) : Scalar := .str node.id.text

theorem nodup_keys_of_texts (h : (nodes.map fun node => node.id.text).Nodup) :
    (nodes.map entryKey).Nodup := by
  have hkeys := h.map fun s t => Scalar.str.inj
  rwa [List.map_map] at hkeys

/-- The entry has the key, the class, the widgets and the title of the node. -/
structure Carries (node : Node) (entry : Scalar × Json) : Prop where
  key : entry.1 = entryKey node
  type : entry.2.field? "class_type" = some node.type
  /-- Widgets that are null are left out. -/
  widgets : entry.2.field? "widgets_values" =
    if node.widgets.isNull then none else some node.widgets
  /-- A title that counts as false is left out. -/
  title : entry.2.field? "_meta" =
    if node.title.truthy then some (.ofFields [("title", node.title)]) else none

theorem carries_compiled (h : (compileNode options links surviving node).result = .ok compiled) :
    Carries node (entryKey node, compiled.toJson) := by
  obtain ⟨type, inputs, htype, -, -, hnormal⟩ := compileNode_eq_ok.mp h
  obtain ⟨hclass, hwidgets, htitle, -⟩ := normalize_eq_ok hnormal
  constructor
  case key => rfl
  case type => rw [compiled.field?_class, hclass, htype]
  case widgets => rw [compiled.field?_widgets, hwidgets]
  case title => rw [compiled.field?_meta, htitle]

/-- Keys stand in the order in which they first occur. -/
theorem keys_compileNodes
    (h : (compileNodes options links surviving nodes done).result = .ok out)
    (hdone : done.Textual) :
    out.map Prod.fst = (done.map Prod.fst ++ nodes.map entryKey).eraseDups := by
  induction nodes generalizing done with
  | nil => rw [← compileNodes_nil.mp h, List.map_nil, List.append_nil,
      List.eraseDups_of_nodup hdone.nodup_keys]
  | cons node nodes ih =>
    obtain ⟨compiled, -, hrest⟩ := compileNodes_cons.mp h
    rw [ih hrest (hdone.put _ compiled), List.map_cons]
    by_cases hknown : entryKey node ∈ done.map Prod.fst
    · rw [List.eraseDups_append_cons_of_mem hknown,
        Entries.keys_put_of_present (hdone.mem_keys_iff.mp hknown)]
    · have habsent : Entries.get? (.str node.id.text) done = none := by
        simpa using mt hdone.mem_keys_iff.mpr hknown
      rw [Entries.put_of_absent habsent, List.map_append, List.append_assoc]
      rfl

theorem keys_compileGraph (h : (compileGraph options graph).result = .ok out) :
    out.entries.map Prod.fst = ((graph.kept options.uiTypes).map entryKey).eraseDups := by
  obtain ⟨filtered, surviving, links, hfiltered, -, -, hnodes⟩ := compileGraph_eq_ok.mp h
  rw [Graph.nodes_survivors hfiltered] at hnodes
  exact List.map_map.trans (keys_compileNodes hnodes ⟨by simp, .nil⟩)

structure Stores (options : Options) (links : Entries Link) (surviving : List Scalar) (node : Node)
    (e : Scalar × ExecutionNode) : Prop where
  key : e.1 = entryKey node
  compiled : (compileNode options links surviving node).result = .ok e.2

/-- There is one entry at most that a node is compiled to. -/
theorem stores_rightUnique : Relator.RightUnique (Stores options links surviving) :=
  fun _ _ _ h h' => Prod.ext (h.key.trans h'.key.symm)
    (Except.ok.inj (h.compiled.symm.trans h'.compiled))

/-- Nodes with keys of their own are stored behind what is there, in their order. -/
theorem compileNodes_of_nodup
    (h : (compileNodes options links surviving nodes done).result = .ok out)
    (hdone : done.Textual) (hnodup : (nodes.map entryKey).Nodup)
    (hfresh : ∀ node ∈ nodes, entryKey node ∉ done.map Prod.fst) :
    ∃ fresh, out = done ++ fresh ∧
      List.Forall₂ (Stores options links surviving) nodes fresh := by
  induction nodes generalizing done with
  | nil => exact ⟨[], by simp [compileNodes_nil.mp h], .nil⟩
  | cons node nodes ih =>
    obtain ⟨compiled, hnode, hrest⟩ := compileNodes_cons.mp h
    obtain ⟨hother, hnodup⟩ := List.nodup_cons.mp hnodup
    obtain ⟨hnew, hfresh⟩ := List.forall_mem_cons.mp hfresh
    have habsent : Entries.get? (.str node.id.text) done = none := by
      simpa using mt hdone.mem_keys_iff.mpr hnew
    have hlater : ∀ later ∈ nodes,
        entryKey later ∉ (done.put (.str node.id.text) compiled).map Prod.fst := by
      intro later hmem
      rw [Entries.put_of_absent habsent, List.map_append, List.mem_append, not_or]
      refine ⟨hfresh later hmem, fun hsame => hother ?_⟩
      have heq : entryKey later = entryKey node := List.mem_singleton.mp hsame
      exact heq ▸ List.mem_map_of_mem hmem
    obtain ⟨fresh, rfl, hfresh⟩ := ih hrest (hdone.put _ compiled) hnodup hlater
    rw [Entries.put_of_absent habsent, List.append_assoc]
    exact ⟨_, rfl, .cons ⟨rfl, hnode⟩ hfresh⟩

theorem forall₂_compileNodes
    (h : (compileNodes options links surviving nodes []).result = .ok out)
    (hnodup : (nodes.map entryKey).Nodup) :
    List.Forall₂ (Stores options links surviving) nodes out := by
  obtain ⟨fresh, rfl, hfresh⟩ := compileNodes_of_nodup h ⟨by simp, .nil⟩ hnodup (by simp)
  exact hfresh

/-- The last node with a key is what the entry under the key carries. -/
theorem carries_last {before after : List Node} {e : Scalar × ExecutionNode}
    (h : (compileNodes options links surviving (before ++ node :: after) []).result = .ok out)
    (he : e ∈ out) (hkey : e.1 = entryKey node)
    (hlater : ∀ later ∈ after, entryKey later ≠ entryKey node) :
    Carries node (e.1, e.2.toJson) := by
  have hlast : (before ++ node :: after).reverse.find?
      (fun other => other.id.text == node.id.text) = some node :=
    List.find?_eq_some_iff_append.mpr
      ⟨by simp, after.reverse, before.reverse, by simp, by simpa [entryKey] using hlater⟩
  obtain ⟨compiled, hcompiled, hget⟩ := get?_compileNodes_last h hlast
  have htextual : out.Textual := compileNodes_textual h ⟨by simp, List.Pairwise.nil⟩
  have hfound : Entries.get? (entryKey node) out = some e.2 :=
    htextual.get?_of_mem (hkey ▸ he : (entryKey node, e.2) ∈ out)
  obtain rfl : compiled = e.2 := Option.some.inj (hget.symm.trans hfound)
  exact hkey ▸ carries_compiled hcompiled

/-- A compiled graph has one entry for each key, where the first node with that key stands, and the
entry carries the last node with it. It has an entry for each node that survives, in their order, if
and only if the ids of these nodes have different texts. -/
theorem entries_of_compiled_graph (h : (compileGraph options graph).result = .ok out) :
    let kept := graph.kept options.uiTypes
    out.entries.map Prod.fst = (kept.map entryKey).eraseDups ∧
      (∀ e ∈ out.entries, ∃ before node after, kept = before ++ node :: after ∧ Carries node e ∧
        ∀ later ∈ after, entryKey later ≠ entryKey node) ∧
      (List.Forall₂ Carries kept out.entries ↔ (kept.map entryKey).Nodup) := by
  intro kept
  obtain ⟨filtered, surviving, links, hfiltered, -, -, hnodes⟩ := compileGraph_eq_ok.mp h
  rw [Graph.nodes_survivors hfiltered] at hnodes
  have hempty : Entries.Textual ([] : ExecutionGraph) := ⟨by simp, List.Pairwise.nil⟩
  have hfst : out.entries.map Prod.fst = out.map Prod.fst := List.map_map
  have hkeys := keys_compileNodes hnodes hempty
  refine ⟨hfst.trans hkeys, fun e he => ?_, fun hall => ?_, fun hnodup => ?_⟩
  · obtain ⟨⟨key, compiled⟩, hmem, rfl⟩ := List.mem_map.mp he
    have hnode : ∃ node ∈ kept, key = entryKey node := by
      rcases mem_compileNodes hnodes hmem with hnil | ⟨node, hnode, hkey, -⟩
      · simp at hnil
      · exact ⟨node, hnode, hkey⟩
    obtain ⟨before, node, after, hsplit, rfl, hlater⟩ := List.exists_last hnode
    have hnodes : (compileNodes options links surviving (before ++ node :: after) []).result =
        .ok out := hsplit ▸ hnodes
    have hlater : ∀ later ∈ after, entryKey later ≠ entryKey node := fun later hmem =>
      Ne.symm (hlater later hmem)
    exact ⟨before, node, after, hsplit, carries_last hnodes hmem rfl hlater, hlater⟩
  · have hmap : kept.map entryKey = out.entries.map Prod.fst := by
      rw [← List.forall₂_eq_eq_eq, List.forall₂_map_left_iff, List.forall₂_map_right_iff]
      exact hall.imp fun node e hcarries => hcarries.key.symm
    rw [hmap, hfst]
    exact (compileGraph_textual h).nodup_keys
  · obtain ⟨fresh, rfl, hfresh⟩ := compileNodes_of_nodup hnodes hempty hnodup (by simp)
    refine List.forall₂_map_right_iff.mpr (hfresh.imp fun node e hcompiled => ?_)
    exact hcompiled.1 ▸ carries_compiled hcompiled.2

/-- A number and a text are spelled alike, and of their two nodes one is lost. -/
theorem node_lost_to_equal_spelling :
    let node (id type : Json) : Node := ⟨id, type, [], .null, .null⟩
    let graph : Graph :=
      ⟨[node (.int 1) (.str "A"), node (.int 2) (.str "B"), node (.str "1") (.str "C")], []⟩
    ∃ out, (compileGraph .plain graph).result = .ok out ∧
      out.entries.map Prod.fst = [.str "1", .str "2"] ∧
      ¬ List.Forall₂ Carries (graph.kept []) out.entries := by
  intro node graph
  obtain ⟨out, hout⟩ : ∃ out, (compileGraph .plain graph).result = .ok out := ⟨_, rfl⟩
  obtain ⟨hkeys, -, hall⟩ := entries_of_compiled_graph hout
  refine ⟨out, hout, hkeys.trans (by decide +kernel), mt hall.mp ?_⟩
  decide +kernel

end NodeWorkflow.Compile
