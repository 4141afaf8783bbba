import NodeWorkflow.Compile.Depth
import NodeWorkflow.Proofs.Compile.Keys
import NodeWorkflow.Proofs.Compile.Nodes

/-!
# Which workflows are compiled or refused

A workflow is regular if a compilation finds what it needs wherever it comes to: items where it goes
through something, scalars for keys, and nothing too deep to copy. The regular workflows are those
that are compiled or refused for their shape. What comes after a reason for refusal may be anything.
-/
namespace NodeWorkflow.Compile
open Editor

section TakeWhile

variable {α : Type} {p : α → Bool} {good : α → Prop}

theorem forall_takeWhile_cons {x : α} {xs : List α} : (∀ y ∈ (x :: xs).takeWhile p, good y) ↔
    (p x → good x ∧ ∀ y ∈ xs.takeWhile p, good y) := by
  cases h : p x <;> simp [h]

theorem forall_takeWhile_append {xs ys : List α} : (∀ x ∈ (xs ++ ys).takeWhile p, good x) ↔
    (∀ x ∈ xs.takeWhile p, good x) ∧ ((∀ x ∈ xs, p x) → ∀ y ∈ ys.takeWhile p, good y) := by
  induction xs with
  | nil => simp
  | cons x xs ih =>
    rw [List.cons_append, forall_takeWhile_cons, forall_takeWhile_cons, ih, List.forall_mem_cons]
    tauto

theorem split_of_dropWhile {x : α} {xs after : List α} (h : xs.dropWhile p = x :: after) :
    ∃ before, xs.takeWhile p = before ∧ xs = before ++ x :: after ∧ (∀ y ∈ before, p y) ∧
      p x = false := by
  refine ⟨_, rfl, ?_, fun y => List.mem_takeWhile_imp, ?_⟩
  · rw [← h, List.takeWhile_append_dropWhile]
  · have hhead := List.head?_dropWhile_not p xs
    rwa [h] at hhead

end TakeWhile

section Nodes

variable {options : Options} {links : Entries Link} {surviving : List Scalar} {node : Node}
  {nodes : List Node} {done : ExecutionGraph} (hlinks : AllSurvive links surviving)
  (hnormalizers : ∀ e ∈ options.normalizers, e.2.NamesKeys)
include hlinks hnormalizers

theorem exists_compileNode (htype : node.type.IsScalar) :
    (∃ compiled, (compileNode options links surviving node).result = .ok compiled) ↔
      node.type.truthy ∧ SlotsKeyed links surviving node := by
  obtain ⟨type, htype⟩ := htype
  rw [htype, ← exists_resolveInputs options.zeroIndex hlinks]
  simp only [compileNode_eq_ok, htype, Json.scalar.injEq, Json.truthy]
  constructor
  · rintro ⟨_, _, inputs, rfl, htruthy, hinputs, -⟩
    exact ⟨htruthy, inputs, hinputs⟩
  · rintro ⟨htruthy, inputs, hinputs⟩
    obtain ⟨compiled, hcompiled⟩ :=
      exists_normalize hnormalizers ⟨type, inputs, node.widgets, node.title⟩
    exact ⟨compiled, type, inputs, rfl, htruthy, hinputs, hcompiled⟩

/-- A node without a class is refused whatever its slots are. -/
theorem failsIn_compileNode (htype : node.type.IsScalar) :
    FailsIn Fault.IsStructural (compileNode options links surviving node).result ↔
      (node.type.truthy → SlotsKeyed links surviving node) := by
  cases hclass : node.type.truthy with
  | false =>
    have hresult : (compileNode options links surviving node).result =
        .error (.shape (.classMissing node.id.text)) := by
      unfold compileNode
      rw [hclass]
      rfl
    simp [hresult]
  | true =>
    have hkeys : FailsIn Fault.IsKey (compileNode options links surviving node).result := by
      unfold compileNode
      rw [hclass]
      refine Traced.failsIn_bind.mpr ⟨Json.failsIn_key _, fun type _ => ?_⟩
      refine Traced.failsIn_bind.mpr ⟨failsIn_resolveSlots, fun inputs _ => ?_⟩
      obtain ⟨compiled, hcompiled⟩ :=
      exists_normalize hnormalizers ⟨type, inputs, node.widgets, node.title⟩
      rw [Traced.result_lift, hcompiled]
      exact failsIn_ok _
    rw [hkeys.iff_exists_ok fun _ h => h.not_structural,
      exists_compileNode hlinks hnormalizers htype, hclass]
    simp

theorem exists_compileNodes (htypes : ∀ node ∈ nodes, node.type.IsScalar) :
    (∃ out, (compileNodes options links surviving nodes done).result = .ok out) ↔
      ∀ node ∈ nodes, node.type.truthy ∧ SlotsKeyed links surviving node :=
  exists_compileNodes_iff.trans <| forall₂_congr fun node hnode =>
    exists_compileNode hlinks hnormalizers (htypes node hnode)

/-- Nodes are come to up to the first without a class. -/
theorem failsIn_compileNodes (htypes : ∀ node ∈ nodes, node.type.IsScalar) :
    FailsIn Fault.IsStructural (compileNodes options links surviving nodes done).result ↔
      ∀ node ∈ nodes.takeWhile (·.type.truthy), SlotsKeyed links surviving node := by
  induction nodes generalizing done with
  | nil => simp [compileNodes]
  | cons node nodes ih =>
    obtain ⟨htype, htypes⟩ := List.forall_mem_cons.mp htypes
    rw [compileNodes, Traced.failsIn_bind_iff fun _ => ih htypes,
      failsIn_compileNode hlinks hnormalizers htype, exists_compileNode hlinks hnormalizers htype,
      forall_takeWhile_cons]
    tauto

end Nodes

section Graphs

variable {options : Options} {uiTypes ids : List Scalar} {links : Entries Link} {levels : Nat}
  {graph filtered : Graph} {slot : Slot} {node : Node}

def Feeds (uiTypes : List Scalar) (graph : Graph) (slot : Slot) : Prop :=
  ∃ link ∈ graph.links, graph.Has uiTypes link.sourceNode ∧ graph.Has uiTypes link.targetNode ∧
    ∃ key id, link.id = .scalar key ∧ slot.link = .scalar id ∧ id ≠ .null ∧ key.agrees id

/-- The slots of the node can be resolved and its widgets copied. -/
structure Compilable (levels : Nat) (uiTypes : List Scalar) (graph : Graph) (node : Node) :
    Prop where
  links : ∀ slot ∈ node.slots, slot.link.IsScalar
  /-- The name of a slot counts only if the slot gets a value. -/
  names : ∀ i slot, node.slots[i]? = some slot →
    Feeds uiTypes graph slot ∨ (widgetAt node.widgets i).isNull = false → slot.name.IsScalar
  widgets : node.widgets.nestsWithin levels

/-- The filter finds keys, and the nodes that it leaves can be compiled up to the first without a
class. -/
structure RegularGraph (levels : Nat) (uiTypes : List Scalar) (graph : Graph) : Prop where
  keyed : graph.Keyed uiTypes
  nodes : ∀ filtered, graph.survivors uiTypes = .ok filtered →
    ∀ node ∈ filtered.nodes.takeWhile (·.type.truthy), Compilable levels uiTypes graph node

section Filtered

variable (hfiltered : graph.survivors uiTypes = .ok filtered) (hids : filtered.nodeIds = .ok ids)
  (hlinks : filtered.linksById = .ok links)
include hfiltered hids

theorem mem_links_iff {link : Link} : link ∈ filtered.links ↔
    link ∈ graph.links ∧ graph.Has uiTypes link.sourceNode ∧ graph.Has uiTypes link.targetNode := by
  rw [Graph.mem_links_survivors hfiltered hids, Link.connects_eq_true,
    Graph.isAmong_survivors hfiltered hids, Graph.isAmong_survivors hfiltered hids]

include hlinks

theorem allSurvive_linksById : AllSurvive links ids := by
  intro id link hget
  obtain ⟨hlink, -⟩ := Graph.get?_linksById hlinks hget
  exact (Graph.isAmong_survivors hfiltered hids).mpr ((mem_links_iff hfiltered hids).mp hlink).2.1

theorem exists_fedBy : (∃ link, FedBy links ids slot link) ↔ Feeds uiTypes graph slot := by
  constructor
  · rintro ⟨link, id, hid, hne, hget, -⟩
    obtain ⟨hlink, key, hkey, hagrees⟩ := Graph.get?_linksById hlinks hget
    obtain ⟨hlink, hsource, htarget⟩ := (mem_links_iff hfiltered hids).mp hlink
    exact ⟨link, hlink, hsource, htarget, key, id, hkey, hid, hne, hagrees⟩
  · rintro ⟨link, hlink, hsource, htarget, key, id, hkey, hid, hne, hagrees⟩
    have hmem := (mem_links_iff hfiltered hids).mpr ⟨hlink, hsource, htarget⟩
    obtain ⟨found, hget⟩ := Graph.exists_get?_linksById hlinks hmem hkey hagrees
    exact ⟨found, id, hid, hne, hget, allSurvive_linksById hfiltered hids hlinks id found hget⟩

theorem compilable_iff : Compilable levels uiTypes graph node ↔
    SlotsKeyed links ids node ∧ node.widgets.nestsWithin levels := by
  simp only [SlotsKeyed, SlotKeyed, GetsValue, exists_fedBy hfiltered hids hlinks]
  constructor
  · intro h
    exact ⟨fun i slot hslot => ⟨h.links slot (List.mem_of_getElem? hslot), h.names i slot hslot⟩,
      h.widgets⟩
  · rintro ⟨hslots, hwidgets⟩
    refine ⟨fun slot hslot => ?_, fun i slot hslot => (hslots i slot hslot).2, hwidgets⟩
    obtain ⟨i, hi⟩ := List.mem_iff_getElem?.mp hslot
    exact (hslots i slot hi).1

end Filtered

def compileGraphWithin (levels : Nat) (options : Options) (graph : Graph) : Traced Json :=
  (graphOverrun? levels options graph).getD do return (← compileGraph options graph).toJson

theorem failsIn_compileGraph (hfiltered : graph.survivors options.uiTypes = .ok filtered)
    (hids : filtered.nodeIds = .ok ids) (hlinks : filtered.linksById = .ok links)
    {kind : Fault → Prop} : FailsIn kind (compileGraph options graph).result ↔
      FailsIn kind (compileNodes options links ids filtered.nodes []).result := by
  simp [compileGraph, Traced.failsIn_bind, Graph.result_filter, hfiltered, hids, hlinks]

theorem failsIn_deepNode (hsurvive : AllSurvive links ids) (htype : node.type.IsScalar) :
    FailsIn Fault.IsStructural (do
      let _ ← compileNode { options with normalizers := [] } links ids node
      Traced.fail .tooDeep : Traced Json).result ↔ ¬ node.type.truthy := by
  have hplain : ∀ e ∈ ({ options with normalizers := [] } : Options).normalizers,
      e.2.NamesKeys := by simp
  rw [Traced.failsIn_bind_iff fun _ => failsIn_error, failsIn_compileNode hsurvive hplain htype,
    exists_compileNode hsurvive hplain htype]
  have hdeep := Fault.not_isStructural_tooDeep
  tauto

theorem failsIn_graphOverrun (hids : filtered.nodeIds = .ok ids)
    (hlinks : filtered.linksById = .ok links) (hsurvive : AllSurvive links ids)
    (hnormalizers : ∀ e ∈ options.normalizers, e.2.NamesKeys) {before : List Node}
    (hbefore : ∀ node ∈ before, node.type.IsScalar) (htype : node.type.IsScalar)
    (events : List Event) :
    FailsIn Fault.IsStructural (do
      Traced.report events
      let surviving ← filtered.nodeIds
      let links ← filtered.linksById
      let _ ← compileNodes options links surviving before []
      let _ ← compileNode { options with normalizers := [] } links surviving node
      Traced.fail .tooDeep : Traced Json).result ↔
    (∀ node ∈ before.takeWhile (·.type.truthy), SlotsKeyed links ids node) ∧
      ((∀ node ∈ before, node.type.truthy) → ¬ node.type.truthy) := by
  rw [hids, hlinks, Traced.lift_ok_bind, Traced.lift_ok_bind, Traced.failsIn_bind]
  simp only [Traced.result_report, failsIn_ok, true_and, forall_const]
  rw [Traced.failsIn_bind_iff fun _ => failsIn_deepNode hsurvive htype,
    failsIn_compileNodes hsurvive hnormalizers hbefore,
    exists_compileNodes hsurvive hnormalizers hbefore]
  -- If no node lacks a class, all of them are come to, and their slots are keyed.
  refine and_congr_right fun hslots => imp_congr_left ?_
  refine ⟨fun h node hmem => (h node hmem).1, fun h node hmem => ⟨h node hmem, ?_⟩⟩
  exact hslots node (by rwa [List.takeWhile_eq_self_iff.mpr h])

theorem failsIn_compileGraphWithin (hfiltered : graph.survivors options.uiTypes = .ok filtered)
    (hids : filtered.nodeIds = .ok ids) (hlinks : filtered.linksById = .ok links)
    (hnormalizers : ∀ e ∈ options.normalizers, e.2.NamesKeys) :
    FailsIn Fault.IsStructural (compileGraphWithin levels options graph).result ↔
      ∀ node ∈ filtered.nodes.takeWhile (·.type.truthy),
        SlotsKeyed links ids node ∧ node.widgets.nestsWithin levels := by
  have hsurvive := allSurvive_linksById hfiltered hids hlinks
  have htypes : ∀ node ∈ filtered.nodes, node.type.IsScalar := fun node hnode =>
    (exists_isAmong _).mp ⟨_, ((Graph.mem_nodes_survivors hfiltered).mp hnode).2⟩
  unfold compileGraphWithin graphOverrun?
  rw [hfiltered]
  dsimp only
  split
  next hdrop =>
    have hcopyable : ∀ node ∈ filtered.nodes, node.widgets.nestsWithin levels := by
      simpa using hdrop
    rw [Option.getD_none, Traced.failsIn_bind, failsIn_compileGraph hfiltered hids hlinks,
      failsIn_compileNodes hsurvive hnormalizers htypes]
    simp only [Traced.result_pure, failsIn_ok, implies_true, and_true]
    refine forall₂_congr fun node hnode => (and_iff_left ?_).symm
    exact hcopyable node ((List.takeWhile_sublist _).mem hnode)
  next node after hdrop =>
    obtain ⟨before, htake, hnodes, hcopyable, hdeep⟩ := split_of_dropWhile hdrop
    rw [hnodes, List.forall_mem_append, List.forall_mem_cons] at htypes
    obtain ⟨hbefore, hnode, -⟩ := htypes
    have hslots : (∀ node ∈ before.takeWhile (·.type.truthy),
        SlotsKeyed links ids node ∧ node.widgets.nestsWithin levels) ↔
        ∀ node ∈ before.takeWhile (·.type.truthy), SlotsKeyed links ids node :=
      forall₂_congr fun node hmem =>
        and_iff_left (hcopyable node ((List.takeWhile_sublist _).mem hmem))
    rw [htake, Option.getD_some,
      failsIn_graphOverrun hids hlinks hsurvive hnormalizers hbefore hnode, hnodes,
      forall_takeWhile_append, forall_takeWhile_cons, hslots, hdeep]
    refine and_congr_right fun _ => forall_congr' fun _ => ?_
    simp

theorem keyed_of_failsIn
    (h : FailsIn Fault.IsStructural (compileGraphWithin levels options graph).result) :
    graph.Keyed options.uiTypes := by
  unfold compileGraphWithin graphOverrun? at h
  cases hfiltered : graph.survivors options.uiTypes with
  | error fault =>
    have hkey : fault.IsKey := Graph.failsIn_survivors fault hfiltered
    simp only [hfiltered, Option.getD_none, compileGraph, Traced.failsIn_bind, Graph.result_filter,
      failsIn_error] at h
    exact absurd h.1.1 hkey.not_structural
  | ok filtered =>
    obtain ⟨ids, hids, -⟩ := Graph.survivors_eq_ok hfiltered
    have hstructural : FailsIn Fault.IsStructural filtered.linksById := by
      rw [hfiltered] at h
      dsimp only at h
      split at h
      · simp only [Option.getD_none, compileGraph, Traced.failsIn_bind, Graph.result_filter,
          hfiltered, Traced.result_lift, hids, Except.ok.injEq, forall_eq'] at h
        exact h.1.2.2.1
      · simp only [Option.getD_some, Traced.failsIn_bind, Traced.result_lift, hids,
          Traced.result_report, Except.ok.injEq, forall_eq'] at h
        exact (h.2 () trivial).2.1
    obtain ⟨links, hlinks⟩ :=
      (Graph.failsIn_linksById.iff_exists_ok fun _ h => h.not_structural).mp hstructural
    exact Graph.exists_filtered.mp ⟨filtered, ids, links, hfiltered, hids, hlinks⟩

/-- A graph is compiled or refused if and only if it is regular. -/
theorem failsIn_graph (hnormalizers : ∀ e ∈ options.normalizers, e.2.NamesKeys) :
    FailsIn Fault.IsStructural (compileGraphWithin levels options graph).result ↔
      RegularGraph levels options.uiTypes graph := by
  constructor
  · intro h
    have hkeyed := keyed_of_failsIn h
    refine ⟨hkeyed, fun filtered hfiltered node hnode => ?_⟩
    obtain ⟨_, ids, links, hfiltered', hids, hlinks⟩ := Graph.exists_filtered.mpr hkeyed
    obtain rfl := Except.ok.inj (hfiltered.symm.trans hfiltered')
    rw [compilable_iff hfiltered hids hlinks]
    exact (failsIn_compileGraphWithin hfiltered hids hlinks hnormalizers).mp h node hnode
  · intro h
    obtain ⟨filtered, ids, links, hfiltered, hids, hlinks⟩ := Graph.exists_filtered.mpr h.keyed
    rw [failsIn_compileGraphWithin hfiltered hids hlinks hnormalizers]
    intro node hnode
    exact (compilable_iff hfiltered hids hlinks).mp (h.nodes filtered hfiltered node hnode)

end Graphs

section Entries

variable {nodes done : Entries Json} {levels : Nat}

theorem failsIn_completeNode (id : String) (data : Json) :
    FailsIn Fault.IsStructural (completeNode id data).result := by
  unfold completeNode
  split
  · dsimp only
    split
    · simp
    · split <;> simp
  · simp

theorem failsIn_completeNodes : FailsIn Fault.IsStructural (completeNodes nodes done).result := by
  induction nodes generalizing done with
  | nil => simp [completeNodes]
  | cons e nodes ih =>
    exact Traced.failsIn_bind.mpr ⟨failsIn_completeNode e.1.text e.2, fun node _ => ih⟩

theorem exists_completeNodes : (∃ out, (completeNodes nodes done).result = .ok out) ↔
    ∀ e ∈ nodes, ∃ node, (completeNode e.1.text e.2).result = .ok node := by
  induction nodes generalizing done with
  | nil => simp [completeNodes]
  | cons e nodes ih =>
    simp only [completeNodes, Traced.result_bind_eq_ok, List.forall_mem_cons]
    constructor
    · rintro ⟨out, node, hnode, hrest⟩
      exact ⟨⟨node, hnode⟩, ih.mp ⟨out, hrest⟩⟩
    · rintro ⟨⟨node, hnode⟩, hrest⟩
      obtain ⟨out, hout⟩ := ih.mpr hrest
      exact ⟨out, node, hnode, hout⟩

/-- All entries can be copied, or one before the first that cannot is refused. -/
def RegularEntries (levels : Nat) (nodes : Entries Json) : Prop :=
  (∀ e ∈ nodes, isCopyable levels e) ∨
    ∃ e ∈ nodes.takeWhile (isCopyable levels), ∀ node, (completeNode e.1.text e.2).result ≠ .ok node

theorem failsIn_entries : FailsIn Fault.IsStructural
    (passThroughWithin levels (.obj nodes)).result ↔ RegularEntries levels nodes := by
  unfold passThroughWithin executionOverrun? RegularEntries
  dsimp only
  by_cases hall : ∀ e ∈ nodes, isCopyable levels e
  · rw [if_pos (List.all_eq_true.mpr hall)]
    refine iff_of_true ?_ (.inl hall)
    exact Traced.failsIn_bind.mpr ⟨failsIn_completeNodes, fun _ _ => failsIn_ok _⟩
  · rw [if_neg (mt List.all_eq_true.mp hall), Option.getD_some,
      Traced.failsIn_bind_iff fun _ => failsIn_error, exists_completeNodes]
    simp only [failsIn_completeNodes, true_and, Fault.not_isStructural_tooDeep, imp_false, hall,
      false_or, not_forall, not_exists, exists_prop]

end Entries

/-- The links of an editor graph have items if all nodes can be read and there are links, and what
is read is regular. -/
structure RegularEditor (levels : Nat) (uiTypes : List Scalar) (data : Json) : Prop where
  links : ∀ xs, data.field "nodes" = .list xs → (∀ x ∈ xs, ∃ node, Node.ofJson x = .ok node) →
    (data.field "links").truthy → (data.field "links").HasItems
  graph : ∀ graph, Graph.ofJson data = .ok graph → RegularGraph levels uiTypes graph

/-- Wherever a compilation comes to, it finds what it needs. -/
def Regular (levels : Nat) (uiTypes : List Scalar) (data : Json) : Prop :=
  match formatOf data with
  | .error _ => True
  | .ok .editor => RegularEditor levels uiTypes data
  | .ok .execution => ∀ nodes, data = .obj nodes → RegularEntries levels nodes

theorem formatOf_cases (data : Json) :
    formatOf data = .error (.shape .notWorkflow) ∨
      (formatOf data = .ok .execution ∧ ∃ nodes, data = .obj nodes) ∨
      (formatOf data = .ok .editor ∧ data.isObj ∧ ∃ xs, data.field "nodes" = .list xs) := by
  unfold formatOf Json.field
  cases data with
  | obj es =>
    simp only [Json.isObj]
    cases hnodes : (Json.obj es).field? "nodes" with
    | none => exact .inr (.inl ⟨rfl, es, rfl⟩)
    | some v => cases v with
      | list xs => exact .inr (.inr ⟨rfl, trivial, xs, rfl⟩)
      | _ => exact .inl rfl
  | _ => exact .inl rfl

/-- A workflow is compiled or refused for its shape if and only if it is regular. -/
theorem failsIn_compileWithin {options : Options} {levels : Nat} {data : Json}
    (hnormalizers : ∀ e ∈ options.normalizers, e.2.NamesKeys) :
    FailsIn Fault.IsStructural (compileWithin levels options data).result ↔
      Regular levels options.uiTypes data := by
  unfold compileWithin overrun? compileWorkflow Regular
  rcases formatOf_cases data with hformat | ⟨hformat, nodes, rfl⟩ | ⟨hformat, hobj, xs, hxs⟩
  · simp [hformat]
  · simp only [hformat, Traced.lift_ok_bind, Json.obj.injEq, forall_eq']
    exact failsIn_entries
  · simp only [hformat, Traced.lift_ok_bind, editorOverrun?]
    have hread := Graph.failsIn_ofJson hobj hxs
    have hregular : RegularEditor levels options.uiTypes data ↔
        FailsIn Fault.IsStructural (Graph.ofJson data) ∧
          ∀ graph, Graph.ofJson data = .ok graph → RegularGraph levels options.uiTypes graph := by
      rw [hread]
      refine ⟨fun h => ⟨h.links xs hxs, h.graph⟩, fun h => ⟨fun ys hys => ?_, h.2⟩⟩
      obtain rfl : xs = ys := Json.list.inj (hxs.symm.trans hys)
      exact h.1
    rw [hregular]
    cases hgraph : Graph.ofJson data with
    | error fault => simp [compileEditorData, hgraph]
    | ok graph =>
      simp only [compileEditorData, hgraph, Traced.lift_ok_bind, failsIn_ok, true_and,
        Except.ok.injEq, forall_eq']
      exact failsIn_graph hnormalizers

end NodeWorkflow.Compile
