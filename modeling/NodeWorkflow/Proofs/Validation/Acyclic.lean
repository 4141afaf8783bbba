import Mathlib.Data.Fintype.EquivFin
import NodeWorkflow.Proofs.Json.Entries
import NodeWorkflow.Proofs.Validation.Sweep
import NodeWorkflow.Validation.Workflow

/-!
# What validation says

A graph is reported to be cyclic if and only if its references form a directed cycle, and it is
valid if and only if its nodes are nodes, its references lead to nodes, and the nodes can be put in
an order in which every reference leads back to an earlier node.
-/
namespace NodeWorkflow.Validation
open Relation

variable {nodes : Entries Json}

/-- An input of the node `target` refers to the node `source`, which is in the graph. -/
def Refers (nodes : Entries Json) (source target : String) : Prop :=
  source ∈ nodeIds nodes ∧ ∃ e ∈ nodes, e.1.text = target ∧
    ∃ input ∈ e.2.nodeInputs, ∃ output, input.2 = .list [.str source, .int output]

/-- The references lead from a node back to itself, directly or through others. -/
def Cyclic (nodes : Entries Json) : Prop := ∃ id, TransGen (Refers nodes) id id

/-- The nodes have an order in which every reference leads to an earlier node. -/
def Serial (nodes : Entries Json) : Prop :=
  ∃ order : List String, order.Perm (nodeIds nodes) ∧
    ∀ source target, Refers nodes source target → order.idxOf source < order.idxOf target

/-- An object with a class and with inputs that are missing, null or an object. -/
def IsNode (node : Json) : Prop :=
  node.isObj ∧ (node.field "class_type").truthy ∧
    ((node.field "inputs").isNull ∨ (node.field "inputs").isObj)

def Closed (nodes : Entries Json) : Prop :=
  ∀ e ∈ nodes, ∀ input ∈ e.2.nodeInputs, ∀ source output,
    input.2 = .list [.str source, .int output] → source ∈ nodeIds nodes

theorem reference?_eq_some {v : Json} {r : Reference} :
    v.reference? = some r ↔ v = .list [.str r.node, .int r.output] := by
  constructor
  · intro h
    unfold Json.reference? at h
    split at h
    · rw [← Option.some.inj h]
    · exact absurd h (by simp)
  · rintro rfl
    rfl

theorem mem_edges {source target : String} :
    (source, target) ∈ edges nodes ↔ Refers nodes source target := by
  simp only [edges, edgesInto, List.mem_flatMap, List.mem_filterMap, Option.bind_eq_some_iff,
    reference?_eq_some, Refers]
  constructor
  · rintro ⟨e, he, input, hinput, r, hr, hedge⟩
    split at hedge
    next hnode =>
      obtain ⟨rfl, rfl⟩ := Prod.mk.inj (Option.some.inj hedge)
      exact ⟨by simpa using hnode, e, he, rfl, input, hinput, r.output, hr⟩
    next => exact absurd hedge (by simp)
  · rintro ⟨hsource, e, he, rfl, input, hinput, output, hvalue⟩
    exact ⟨e, he, input, hinput, ⟨source, output⟩, hvalue, by simp [hsource]⟩

theorem edges_lead_to_nodes : ∀ e ∈ edges nodes, e.2 ∈ nodeIds nodes := by
  rintro ⟨source, target⟩ h
  obtain ⟨-, e, he, rfl, -⟩ := mem_edges.mp h
  exact List.mem_map_of_mem he

theorem nodeIds_nodup (h : nodes.Textual) : (nodeIds nodes).Nodup := by
  rw [nodeIds, List.nodup_iff_pairwise_ne, List.pairwise_map]
  refine h.distinct.imp_of_mem fun {a b} ha hb hagrees heq => ?_
  obtain ⟨s, hs⟩ := h.texts a ha
  obtain ⟨t, ht⟩ := h.texts b hb
  rw [hs, ht] at hagrees heq
  have hst : s = t := heq
  simp [hst] at hagrees

theorem sweep_sound (h : (nodeIds nodes).Nodup) :
    Sweep.Sound (nodeIds nodes) (edges nodes) (sweep nodes) ∧ (sweep nodes).queue = [] :=
  (Sweep.sound_start h).run edges_lead_to_nodes _ (by simp [Sweep.start])

/-- In an ordered list without repetitions every edge leads from an earlier element. -/
theorem idxOf_lt_of_ordered {all : List (String × String)} {taken : List String}
    (hordered : Ordered all taken) (hnodup : taken.Nodup) {a b : String} (hedge : (a, b) ∈ all)
    (hb : b ∈ taken) : taken.reverse.idxOf a < taken.reverse.idxOf b := by
  induction taken with
  | nil => simp at hb
  | cons id taken ih =>
    obtain ⟨hid, htaken⟩ := List.nodup_cons.mp hnodup
    rw [List.reverse_cons]
    by_cases hbid : b = id
    · subst hbid
      have ha : a ∈ taken.reverse := List.mem_reverse.mpr (hordered.1 a hedge)
      have hb' : b ∉ taken.reverse := fun h => hid (List.mem_reverse.mp h)
      rw [List.idxOf_append_of_mem ha, List.idxOf_append_of_notMem hb']
      have hlt := List.idxOf_lt_length_of_mem ha
      omega
    · have hmem : b ∈ taken := (List.mem_cons.mp hb).resolve_left hbid
      have hlt := ih hordered.2 htaken hmem
      have hb' : b ∈ taken.reverse := List.mem_reverse.mpr hmem
      have hlength := List.idxOf_lt_length_of_mem hb'
      have ha : a ∈ taken.reverse := List.idxOf_lt_length_iff.mp (by omega)
      rwa [List.idxOf_append_of_mem ha, List.idxOf_append_of_mem hb']

theorem Serial.not_cyclic (h : Serial nodes) : ¬ Cyclic nodes := by
  obtain ⟨order, -, horder⟩ := h
  rintro ⟨id, hcycle⟩
  have hlt : ∀ {a b}, TransGen (Refers nodes) a b → order.idxOf a < order.idxOf b := by
    intro a b hab
    induction hab with
    | single hab => exact horder _ _ hab
    | tail _ hbc ih => exact ih.trans (horder _ _ hbc)
  exact (hlt hcycle).false

/-- A set of nodes each of which has an edge into it from the set holds a cycle. -/
theorem cyclic_of_blocked (left : List String) (hne : ∃ id, id ∈ left)
    (hblocked : ∀ id ∈ left, ∃ a ∈ left, Refers nodes a id) : Cyclic nodes := by
  by_contra hacyclic
  let before (i j : Fin left.length) : Prop := TransGen (Refers nodes) left[i] left[j]
  have : IsTrans (Fin left.length) before := ⟨fun _ _ _ => TransGen.trans⟩
  have : Std.Irrefl before := ⟨fun i h => hacyclic ⟨left[i], h⟩⟩
  have hwf : WellFounded before := Finite.wellFounded_of_trans_of_irrefl before
  obtain ⟨id, hid⟩ := hne
  obtain ⟨first, -⟩ := List.get_of_mem hid
  obtain ⟨least, -, hleast⟩ := hwf.has_min Set.univ ⟨first, trivial⟩
  obtain ⟨a, ha, hedge⟩ := hblocked left[least] (List.getElem_mem _)
  obtain ⟨i, hi⟩ := List.get_of_mem ha
  refine hleast i trivial (TransGen.single ?_)
  rwa [show left[i] = a from hi]

theorem serial_of_not_hasCycle (h : (nodeIds nodes).Nodup) (hcycle : hasCycle nodes = false) :
    Serial nodes := by
  obtain ⟨hsound, -⟩ := sweep_sound h
  have htaken : (sweep nodes).taken.Nodup := hsound.balanced.nodup.of_append_right
  have hlength : (nodeIds nodes).length ≤ (sweep nodes).taken.length := by
    simp only [hasCycle, bne_eq_false_iff_eq] at hcycle
    simp [nodeIds, hcycle]
  have hperm : (sweep nodes).taken.Perm (nodeIds nodes) :=
    (htaken.subperm hsound.taken_subset).perm_of_length_le hlength
  refine ⟨(sweep nodes).taken.reverse, (List.reverse_perm _).trans hperm, ?_⟩
  intro source target href
  have hedge : (source, target) ∈ edges nodes := mem_edges.mpr href
  exact idxOf_lt_of_ordered hsound.ordered htaken hedge
    (hperm.mem_iff.mpr (edges_lead_to_nodes _ hedge))

theorem cyclic_of_hasCycle (h : (nodeIds nodes).Nodup) (hcycle : hasCycle nodes = true) :
    Cyclic nodes := by
  obtain ⟨hsound, hqueue⟩ := sweep_sound h
  refine cyclic_of_blocked ((nodeIds nodes).filter (· ∉ (sweep nodes).taken)) ?_ ?_
  · by_contra hnone
    push Not at hnone
    have hsub : nodeIds nodes ⊆ (sweep nodes).taken := by
      intro id hid
      by_contra hleft
      exact hnone id (by simp [hid, hleft])
    have hle := (h.subperm hsub).length_le
    have hge := (hsound.balanced.nodup.of_append_right.subperm hsound.taken_subset).length_le
    simp only [hasCycle, bne_iff_ne, ne_eq] at hcycle
    simp only [nodeIds, List.length_map] at hle hge
    omega
  · intro id hid
    obtain ⟨hmem, hleft⟩ := List.mem_filter.mp hid
    obtain ⟨a, hedge, ha⟩ := hsound.blocked hqueue hmem (by simpa using hleft)
    have href : Refers nodes a id := mem_edges.mp hedge
    exact ⟨a, by simp [href.1, ha], href⟩

theorem hasCycle_iff (h : (nodeIds nodes).Nodup) : hasCycle nodes = true ↔ Cyclic nodes := by
  refine ⟨cyclic_of_hasCycle h, fun hcyclic => ?_⟩
  by_contra hcycle
  exact (serial_of_not_hasCycle h (by simpa using hcycle)).not_cyclic hcyclic

private theorem nodeFaults_form {id : Scalar} {node : Json} {cause : ShapeFault}
    (h : cause ∈ nodeFaults id node) :
    cause = .nodeNotObject id.text ∨ cause = .classMissing id.text ∨
      cause = .inputsNotObject id.text := by
  simp only [nodeFaults] at h
  split_ifs at h <;> simp_all [or_comm]

private theorem shape_message {id : Scalar} {node : Json} {cause : ShapeFault}
    (h : cause ∈ nodeFaults id node) : ∃ s, (Issue.shape cause).message = "Node " ++ s := by
  rcases nodeFaults_form h with rfl | rfl | rfl
  all_goals exact ⟨_, String.append_assoc⟩

private theorem dangling_message (node target : String) (input : Scalar) :
    ∃ s, (Issue.dangling node target input).message = "Node " ++ s := by
  refine ⟨node ++ (" references non-existent node " ++ (target ++ (" in input " ++ input.text))), ?_⟩
  simp only [← String.append_assoc]
  rfl

theorem message_ne_cyclic {issue : Issue}
    (h : issue ∈ (structureFaults nodes).map Issue.shape ++ danglingIssues nodes) :
    issue.message ≠ Issue.cyclic.message := by
  have hnode : ∃ s, issue.message = "Node " ++ s := by
    rcases List.mem_append.mp h with h | h
    · obtain ⟨cause, hcause, rfl⟩ := List.mem_map.mp h
      obtain ⟨e, -, he⟩ := List.mem_flatMap.mp hcause
      exact shape_message he
    · obtain ⟨e, -, he⟩ := List.mem_flatMap.mp h
      obtain ⟨input, -, hinput⟩ := List.mem_filterMap.mp he
      obtain ⟨r, -, hr⟩ := Option.bind_eq_some_iff.mp hinput
      split at hr
      · exact absurd hr (by simp)
      · rw [← Option.some.inj hr]
        exact dangling_message _ _ _
  obtain ⟨s, hs⟩ := hnode
  rw [hs]
  intro heq
  have hhead := congrArg (fun t : String => t.toList.head?) heq
  simp [Issue.message] at hhead

/-- What is found in an object of nodes apart from a cycle. -/
def localIssues (nodes : Entries Json) : List Issue :=
  (structureFaults nodes).map .shape ++ danglingIssues nodes

theorem errors_obj : errors (.obj nodes) =
    (localIssues nodes).map Issue.message ++
      if hasCycle nodes then [Issue.cyclic.message] else [] := by
  simp only [errors, issues, localIssues, List.map_append]
  split <;> rfl

theorem structureFaults_eq_nil : structureFaults nodes = [] ↔ ∀ e ∈ nodes, IsNode e.2 := by
  rw [structureFaults, List.flatMap_eq_nil_iff]
  refine forall₂_congr fun e _ => ?_
  simp only [nodeFaults, IsNode]
  cases e.2.isObj <;> cases (e.2.field "class_type").truthy <;>
    cases (e.2.field "inputs").isNull <;> cases (e.2.field "inputs").isObj <;> simp

theorem danglingIssues_eq_nil : danglingIssues nodes = [] ↔ Closed nodes := by
  simp only [danglingIssues, List.flatMap_eq_nil_iff, List.filterMap_eq_nil_iff, Closed]
  refine forall₂_congr fun e _ => forall₂_congr fun input _ => ?_
  rw [Option.bind_eq_none_iff]
  constructor
  · intro h source output hvalue
    have hnode := h ⟨source, output⟩ (reference?_eq_some.mpr hvalue)
    simpa using hnode
  · intro h r hr
    have hnode := h r.node r.output (reference?_eq_some.mp hr)
    simp [hnode]

/-- On every object of nodes the finding of a cycle is made exactly if there is one, once and last,
and nothing is found exactly if the nodes are nodes, closed under references and serial. -/
theorem findings_of_object (h : nodes.Textual) :
    ("Workflow contains a cycle" ∈ errors (.obj nodes) ↔ Cyclic nodes) ∧
      (∀ before after, errors (.obj nodes) = before ++ "Workflow contains a cycle" :: after →
        after = [] ∧ "Workflow contains a cycle" ∉ before) ∧
      (isValid (.obj nodes) = true ↔
        (∀ e ∈ nodes, IsNode e.2) ∧ Closed nodes ∧ Serial nodes) := by
  rw [show "Workflow contains a cycle" = Issue.cyclic.message from rfl]
  have hids := nodeIds_nodup h
  have hlocal : Issue.cyclic.message ∉ (localIssues nodes).map Issue.message := by
    intro hmem
    obtain ⟨issue, hissue, hmessage⟩ := List.mem_map.mp hmem
    exact message_ne_cyclic hissue hmessage
  refine ⟨?_, ?_, ?_⟩
  · rw [errors_obj, ← hasCycle_iff hids, List.mem_append, or_iff_right hlocal]
    cases hasCycle nodes <;> simp
  · intro before after heq
    rw [errors_obj] at heq
    cases hcycle : hasCycle nodes with
    | false =>
      rw [hcycle, if_neg (by simp), List.append_nil] at heq
      exact absurd (heq ▸ List.mem_append_right _ List.mem_cons_self) hlocal
    | true =>
      rw [hcycle, if_pos rfl] at heq
      rcases List.eq_nil_or_concat after with rfl | ⟨after, last, rfl⟩
      · obtain ⟨hbefore, -⟩ := List.append_inj' heq rfl
        exact ⟨rfl, hbefore ▸ hlocal⟩
      · rw [List.concat_eq_append, ← List.cons_append, ← List.append_assoc] at heq
        obtain ⟨hbefore, -⟩ := List.append_inj' heq rfl
        exact absurd (hbefore ▸ List.mem_append_right _ List.mem_cons_self) hlocal
  · have hserial : hasCycle nodes = false ↔ Serial nodes := by
      refine ⟨serial_of_not_hasCycle hids, fun hserial => ?_⟩
      by_contra hcycle
      exact hserial.not_cyclic ((hasCycle_iff hids).mp (by simpa using hcycle))
    rw [← structureFaults_eq_nil, ← danglingIssues_eq_nil, ← hserial, isValid, List.isEmpty_iff,
      issues]
    cases hasCycle nodes <;> simp

/-- Two nodes that refer to each other, one of them twice, and one that refers to nothing there. -/
theorem findings_of_mutual_references :
    let nodes : Entries Json :=
      [(.str "1", .ofFields [("class_type", .str "A"), ("inputs", .ofFields
          [("x", .list [.str "2", .int 0]), ("y", .list [.str "2", .int 1])])]),
        (.str "2", .ofFields [("class_type", .str "B"), ("inputs", .ofFields
          [("z", .list [.str "1", .int 0])])]),
        (.str "3", .ofFields [("inputs", .ofFields [("x", .list [.str "9", .int 0])])])]
    nodes.Textual ∧ Cyclic nodes ∧ ¬ Serial nodes ∧ isValid (.obj nodes) = false := by
  intro nodes
  have htextual : nodes.Textual := ⟨by simp [nodes], by simp [nodes, Entries.Distinct]⟩
  have hcyclic : Cyclic nodes := (findings_of_object htextual).1.mp (by decide +kernel)
  have hserial : ¬ Serial nodes := fun h => h.not_cyclic hcyclic
  refine ⟨htextual, hcyclic, hserial, ?_⟩
  by_contra hvalid
  exact hserial ((findings_of_object htextual).2.2.mp (by simpa using hvalid)).2.2

end NodeWorkflow.Validation
