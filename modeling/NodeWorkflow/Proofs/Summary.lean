import NodeWorkflow.Proofs.Editor.Keys
import NodeWorkflow.Proofs.Json.Decoded
import NodeWorkflow.Proofs.Validation.Acyclic
import NodeWorkflow.Summary

/-!
# What a summary says

The groups of a summary part the nodes: every node stands in the group of its class, in the order of
the workflow, and in no other. A class that is a list or an object cannot name a group, and a
workflow with such a class has no summary.
-/
namespace NodeWorkflow.Summary
open Editor.Graph (insertId)
open Validation (nodeIds)

variable {nodes : Entries Json} {groups out : Entries (List String)} {key type : Scalar}
  {id : String} {w node v : Json}

/-- The class that a node is listed under: its own if that counts as true, and otherwise the class
of nodes without one. What is no object has no class of its own. -/
inductive ListedUnder (node : Json) : Json → Prop
  | own {type : Json} (hclass : node.field? "class_type" = some type) (htruthy : type.truthy) :
    ListedUnder node type
  | unknown (hnone : ∀ type, node.field? "class_type" = some type → type.truthy = false) :
    ListedUnder node (.str unknownClass)

/-- A loader of two clips with a clip type that is out of date. -/
def LegacyDual (node : Json) : Prop :=
  node.field? "class_type" = some (.str dualLoader) ∧ ∃ inputs,
    node.field? "inputs" = some (.obj inputs) ∧ Entries.get? (.str "type") inputs = some (.str "dual")

open Classical in
structure PartedByClass (nodes : Entries Json) (groups : Entries (List String)) : Prop where
  /-- The groups stand in the order in which their classes come up. -/
  classes : ∃ types : List Scalar,
    List.Forall₂ (fun e type => ListedUnder e.2 (.scalar type)) nodes types ∧
      groups.map Prod.fst = types.foldl insertId []
  /-- A group holds the nodes of its class, in order. -/
  members : ∀ g ∈ groups, g.2 = nodeIds (nodes.filter fun e =>
    ∃ type, ListedUnder e.2 type ∧ type.agrees (.scalar g.1))
  /-- Every node is in one group, and there once. -/
  once : (groups.flatMap Prod.snd).Perm (nodeIds nodes) ∧ (nodeIds nodes).Nodup

theorem listedUnder_iff : ListedUnder node v ↔ classOf node = v := by
  have hclass (type : Json) (h : node.field? "class_type" = some type) :
      classOf node = type.orElse (.str unknownClass) := by
    rw [classOf, Json.field, h, Option.getD_some]
  constructor
  · rintro (⟨h, htruthy⟩ | hnone)
    · rw [hclass v h, Json.orElse, if_pos htruthy]
    · cases h : node.field? "class_type" with
      | none => simp [classOf, Json.field, h, Json.orElse, Json.truthy, Scalar.truthy]
      | some type => rw [hclass type h, Json.orElse, hnone type h, if_neg Bool.false_ne_true]
  · rintro rfl
    cases h : node.field? "class_type" with
    | none =>
      rw [classOf, Json.field, h]
      exact .unknown (by simp [h])
    | some type =>
      rw [hclass type h, Json.orElse]
      split
      next htruthy => exact .own h htruthy
      next hfalsy =>
        refine .unknown fun other hother => ?_
        rw [h, Option.some.injEq] at hother
        simpa [← hother] using hfalsy

theorem ListedUnder.decoded (h : ListedUnder node v) (hnode : node.Decoded) : v.Decoded := by
  cases h with
  | own hclass => exact hnode.field? hclass
  | unknown => exact Json.decoded_str unknownClass

theorem isLegacyDual_iff : isLegacyDual node = true ↔ LegacyDual node := by
  have hfield (v : Json) (name s : String) :
      (v.field name).same (.str s) = true ↔ v.field? name = some (.str s) := by
    rw [Json.same_str_iff, Json.field]
    cases v.field? name <;> simp
  rw [isLegacyDual, Bool.and_eq_true, hfield, LegacyDual]
  refine and_congr_right fun _ => ?_
  cases hinputs : node.field? "inputs" with
  | none => simp
  | some inputs => cases inputs with
    | obj es =>
      have htype := hfield (.obj es) "type" "dual"
      simpa [Json.field, Json.field?] using htype
    | _ => simp

theorem get?_addTo : Entries.get? key (addTo groups type id) =
    if type.agrees key then some ((Entries.get? type groups).getD [] ++ [id])
    else Entries.get? key groups :=
  Entries.get?_put key type _ groups

/-- A node goes to one group, and the others stay as they are. -/
theorem flatMap_addTo : ((addTo groups type id).flatMap Prod.snd).Perm
    (groups.flatMap Prod.snd ++ [id]) := by
  unfold addTo
  induction groups with
  | nil => simp [Entries.put]
  | cons g groups ih =>
    obtain ⟨k, ids⟩ := g
    rw [Entries.get?_cons, Entries.put]
    split
    next hk =>
      simp only [List.flatMap_cons, Option.getD_some, List.append_assoc]
      exact List.perm_append_comm.append_left ids
    next hk =>
      simp only [List.flatMap_cons, List.append_assoc]
      exact ih.append_left ids

theorem group_cons {e : Scalar × Json} : group groups (e :: nodes) = .ok out ↔
    ∃ type, classOf e.2 = .scalar type ∧ group (addTo groups type e.1.text) nodes = .ok out := by
  rw [group]
  split
  next type htype => simp [htype]
  next hother =>
    simp only [reduceCtorEq, false_iff, not_exists, not_and]
    exact fun type htype => absurd htype (hother type)

theorem exists_group : (∃ out, group groups nodes = .ok out) ↔
    ∀ e ∈ nodes, (classOf e.2).IsScalar := by
  induction nodes generalizing groups with
  | nil => simp [group]
  | cons e nodes ih =>
    simp only [group_cons, List.forall_mem_cons]
    constructor
    · rintro ⟨out, type, htype, hout⟩
      exact ⟨⟨type, htype⟩, ih.mp ⟨out, hout⟩⟩
    · rintro ⟨⟨type, htype⟩, hrest⟩
      obtain ⟨out, hout⟩ := ih.mpr hrest
      exact ⟨out, type, htype, hout⟩

theorem keys_group (h : group groups nodes = .ok out) : ∃ types : List Scalar,
    List.Forall₂ (fun e type => ListedUnder e.2 (.scalar type)) nodes types ∧
      out.map Prod.fst = types.foldl insertId (groups.map Prod.fst) := by
  induction nodes generalizing groups with
  | nil => exact ⟨[], .nil, by rw [Except.ok.inj h, List.foldl_nil]⟩
  | cons e nodes ih =>
    obtain ⟨type, htype, hrest⟩ := group_cons.mp h
    obtain ⟨types, htypes, hkeys⟩ := ih hrest
    refine ⟨type :: types, .cons (listedUnder_iff.mpr htype) htypes, ?_⟩
    rw [hkeys, addTo, Entries.keys_put, List.foldl_cons]

theorem distinct_group (h : group groups nodes = .ok out) (hgroups : groups.Distinct) :
    out.Distinct := by
  induction nodes generalizing groups with
  | nil => exact Except.ok.inj h ▸ hgroups
  | cons e nodes ih =>
    obtain ⟨type, -, hrest⟩ := group_cons.mp h
    exact ih hrest (Entries.distinct_put hgroups type _)

theorem get?_group (h : group groups nodes = .ok out) (key : Scalar) :
    (Entries.get? key out).getD [] = (Entries.get? key groups).getD [] ++
      nodeIds (nodes.filter fun e => (classOf e.2).agrees (.scalar key)) := by
  induction nodes generalizing groups with
  | nil => simp [Except.ok.inj h, nodeIds]
  | cons e nodes ih =>
    obtain ⟨type, htype, hrest⟩ := group_cons.mp h
    rw [ih hrest, get?_addTo, List.filter_cons, htype, Json.agrees]
    split
    next hagrees =>
      rw [Entries.get?_congr hagrees]
      simp [nodeIds]
    next => rfl

theorem flatMap_group (h : group groups nodes = .ok out) :
    (out.flatMap Prod.snd).Perm (groups.flatMap Prod.snd ++ nodeIds nodes) := by
  induction nodes generalizing groups with
  | nil => simp [Except.ok.inj h, nodeIds]
  | cons e nodes ih =>
    obtain ⟨type, -, hrest⟩ := group_cons.mp h
    refine (ih hrest).trans ?_
    refine (flatMap_addTo.append_right (nodeIds nodes)).trans ?_
    simp [nodeIds]

theorem partedByClass_group (hw : (Json.obj nodes).Decoded) (h : group [] nodes = .ok out) :
    PartedByClass nodes out := by
  obtain ⟨types, htypes, hkeys⟩ := keys_group h
  refine ⟨⟨types, htypes, hkeys⟩, fun g hg => ?_, flatMap_group h, Validation.nodeIds_nodup hw.keys⟩
  have hself : g.1.agrees g.1 = true := by
    have hkey : g.1 ∈ types.foldl insertId [] := hkeys ▸ List.mem_map_of_mem hg
    obtain hnil | hkey := Editor.Graph.mem_foldl_insertId hkey
    · simp at hnil
    · obtain ⟨before, after, rfl⟩ := List.append_of_mem hkey
      obtain ⟨front, e, back, rfl, -, hlisted, -⟩ := List.forall₂_append_cons htypes.flip
      exact (hlisted.decoded (hw.entries e (by simp))).agrees_self
  have hget := Entries.get?_of_mem (distinct_group h .nil) hg hself
  have hmembers := get?_group h g.1
  rw [hget, Option.getD_some, Entries.get?_nil, Option.getD_none, List.nil_append] at hmembers
  rw [hmembers]
  simp [listedUnder_iff]

/-- Nodes of two classes, and one that is no object. -/
example :
    let encoder : Json := .ofFields [("class_type", .str "CLIPTextEncode")]
    let sampler : Json := .ofFields [("class_type", .str "KSampler")]
    group [] [(.str "6", encoder), (.str "9", .int 3), (.str "3", sampler), (.str "7", encoder)] =
      .ok [(.str "CLIPTextEncode", ["6", "7"]), (.str "<unknown>", ["9"]),
        (.str "KSampler", ["3"])] :=
  rfl

theorem ofWorkflow_obj {s : Summary} : ofWorkflow (.obj nodes) = .ok s ↔
    ∃ groups, group [] nodes = .ok groups ∧
      s = ⟨nodes.length, groups, Validation.errors (.obj nodes) ++ advisories nodes⟩ := by
  rw [ofWorkflow, Except.bind_eq_ok]
  refine exists_congr fun groups => and_congr_right fun _ => ?_
  exact ⟨fun h => (Except.ok.inj h).symm, fun h => h ▸ rfl⟩

open Classical in
theorem advisories_eq (nodes : Entries Json) : advisories nodes =
    (nodes.filter fun e => LegacyDual e.2).map fun e => advisory e.1.text := by
  induction nodes with
  | nil => rfl
  | cons e nodes ih =>
    rw [List.filter_cons, advisories, List.filterMap_cons]
    by_cases hlegacy : LegacyDual e.2
    · simp [isLegacyDual_iff.mpr hlegacy, hlegacy, ← ih, advisories]
    · simp [mt isLegacyDual_iff.mp hlegacy, hlegacy, ← ih, advisories]

/-- The class of a node can name a group unless it is a list or an object with something in it. -/
theorem classOf_isScalar_iff : (classOf node).IsScalar ↔ ∀ type,
    node.field? "class_type" = some type → type.truthy → type.IsScalar := by
  constructor
  · intro h type hclass htruthy
    rwa [listedUnder_iff.mp (.own hclass htruthy)] at h
  · intro h
    have hlisted : ListedUnder node (classOf node) := listedUnder_iff.mpr rfl
    generalize classOf node = type at hlisted ⊢
    cases hlisted with
    | own hclass htruthy => exact h type hclass htruthy
    | unknown => exact ⟨_, rfl⟩

open Classical in
/-- A workflow has a summary if and only if no class is a list or an object with something in it.
The summary of an object counts its nodes and parts them by class; its issues are what validation
finds, followed by one advice for each loader of two clips that is out of date. -/
theorem summary_parts_nodes (hw : w.Decoded) :
    ((∃ s, ofWorkflow w = .ok s) ↔ ∀ nodes, w = .obj nodes → ∀ e ∈ nodes, ∀ type,
      e.2.field? "class_type" = some type → type.truthy → type.IsScalar) ∧
    ∀ s, ofWorkflow w = .ok s →
      (w.isObj = false → s = ⟨0, [], Validation.errors w⟩) ∧
      ∀ nodes, w = .obj nodes → s.nodeCount = nodes.length ∧ PartedByClass nodes s.nodesByType ∧
        s.issues = Validation.errors w ++
          (nodes.filter fun e => LegacyDual e.2).map fun e => advisory e.1.text := by
  cases w with
  | obj nodes =>
    refine ⟨?_, fun s hs => ⟨fun hother => absurd hother (by simp [Json.isObj]), ?_⟩⟩
    · simp only [ofWorkflow_obj, Json.obj.injEq, forall_eq', ← classOf_isScalar_iff]
      rw [← @exists_group nodes []]
      exact ⟨fun ⟨_, groups, hgroups, _⟩ => ⟨groups, hgroups⟩,
        fun ⟨groups, hgroups⟩ => ⟨_, groups, hgroups, rfl⟩⟩
    · rintro _ ⟨rfl⟩
      obtain ⟨groups, hgroups, rfl⟩ := ofWorkflow_obj.mp hs
      exact ⟨rfl, partedByClass_group hw hgroups, by rw [advisories_eq]⟩
  | _ =>
    refine ⟨iff_of_true ⟨_, rfl⟩ (by simp), fun s hs => ⟨fun _ => (Except.ok.inj hs).symm, ?_⟩⟩
    simp

/-- A list cannot name a group: a node whose class is one takes the summary of the whole workflow
away. -/
theorem listed_class_not_summarized :
    let w : Json := .ofFields [("1", .ofFields [("class_type", .list [.str "A"])])]
    w.Decoded ∧ ¬ ∃ s, ofWorkflow w = .ok s := by
  intro w
  have hw : w.Decoded := by simp [w]
  refine ⟨hw, fun hs => ?_⟩
  obtain ⟨type, htype⟩ := (summary_parts_nodes hw).1.mp hs _ rfl _ (List.mem_singleton.mpr rfl)
    (.list [.str "A"]) rfl rfl
  simp at htype

end NodeWorkflow.Summary
