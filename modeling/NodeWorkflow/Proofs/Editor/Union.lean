import NodeWorkflow.Proofs.Editor.Keys

/-!
# Filters in sequence

A filter after a filter leaves what one filter leaves that drops the types of both. Once the first
has succeeded the others do: they come to no field that it has not come to.
-/
namespace NodeWorkflow

namespace Except
variable {ε α : Type} {p q r : α → Except ε Bool} {xs kept : List α}

/-- Two tests in sequence keep what a test keeps that holds where both hold, if none of them fails
on an element that it comes to. -/
theorem filterM_of_filterM (h : xs.filterM p = .ok kept) (hq : ∀ x ∈ kept, ∃ b, q x = .ok b)
    (hr : ∀ x ∈ xs, ∃ b, r x = .ok b)
    (hboth : ∀ x ∈ xs, r x = .ok true ↔ p x = .ok true ∧ q x = .ok true) :
    kept.filterM q = xs.filterM r := by
  obtain ⟨again, hagain⟩ := exists_filterM hq
  obtain ⟨once, honce⟩ := exists_filterM hr
  have htrue (s : α → Except ε Bool) (x : α) :
      ((s x).toOption == some true) = true ↔ s x = .ok true := by
    cases s x <;> simp [Except.toOption]
  rw [hagain, honce, (filterM_eq_ok hagain).2, (filterM_eq_ok honce).2, (filterM_eq_ok h).2,
    List.filter_filter]
  refine congrArg Except.ok (List.filter_congr fun x hx => Bool.eq_iff_iff.mpr ?_)
  rw [Bool.and_eq_true, htrue, htrue, htrue, hboth x hx, and_comm]

end Except

namespace Editor

variable {first second both : List Scalar} {graph filtered : Graph} {v : Json} {link : Link}

def Unites (first second both : List Scalar) : Prop :=
  ∀ a : Scalar, both.any (·.agrees a) = (first.any (·.agrees a) || second.any (·.agrees a))

theorem unites_append (first second : List Scalar) : Unites first second (first ++ second) :=
  fun _ => List.any_append

theorem unites_self (uiTypes : List Scalar) : Unites uiTypes uiTypes uiTypes :=
  fun _ => (Bool.or_self _).symm

theorem Unites.symm (h : Unites first second both) : Unites second first both :=
  fun a => (h a).trans (Bool.or_comm _ _)

namespace Graph

theorem survives_both (h : Unites first second both) {node : Node} :
    Survives both node ↔ Survives first node ∧ Survives second node := by
  unfold Survives isAmong
  cases node.type.key with
  | error fault => simp [Except.map]
  | ok a => simp [Except.map, h a]

theorem survivors_eq_ok_iff : graph.survivors first = .ok filtered ↔
    (graph.nodes.filterM fun node => return !(← isAmong node.type first)) = .ok filtered.nodes ∧
      ∃ ids, filtered.nodeIds = .ok ids ∧
        graph.links.filterM (Link.connects ids) = .ok filtered.links := by
  constructor
  · intro h
    obtain ⟨ids, hids, hnodes, hlinks⟩ := survivors_eq_ok h
    exact ⟨hnodes, ids, hids, hlinks⟩
  · rintro ⟨hnodes, ids, hids, hlinks⟩
    exact Except.bind_eq_ok.mpr ⟨_, hnodes, Except.bind_eq_ok.mpr ⟨ids, hids,
      Except.bind_eq_ok.mpr ⟨_, hlinks, rfl⟩⟩⟩

theorem isAmong_mono {few many : Graph} {fewIds manyIds : List Scalar}
    (hfew : few.nodeIds = .ok fewIds) (hmany : many.nodeIds = .ok manyIds)
    (h : few.nodes ⊆ many.nodes) (hamong : isAmong v fewIds = .ok true) :
    isAmong v manyIds = .ok true := by
  obtain ⟨a, ha, node, hnode, hagrees⟩ := (isAmong_nodeIds hfew).mp hamong
  exact (isAmong_nodeIds hmany).mpr ⟨a, ha, node, h hnode, hagrees⟩

theorem connects_mono {few many : Graph} {fewIds manyIds : List Scalar}
    (hfew : few.nodeIds = .ok fewIds) (hmany : many.nodeIds = .ok manyIds)
    (h : few.nodes ⊆ many.nodes) (hconnects : link.connects fewIds = .ok true) :
    link.connects manyIds = .ok true := by
  obtain ⟨hsource, htarget⟩ := Link.connects_eq_true.mp hconnects
  exact Link.connects_eq_true.mpr
    ⟨isAmong_mono hfew hmany h hsource, isAmong_mono hfew hmany h htarget⟩

/-- A filter that succeeds leaves a graph on which every other succeeds, and what is left then is
what one filter leaves that drops the types of both. -/
theorem survivors_survivors (hboth : Unites first second both)
    (h : graph.survivors first = .ok filtered) :
    ∃ out, filtered.survivors second = .ok out ∧ graph.survivors both = .ok out := by
  obtain ⟨hnodes, ids, hids, hlinks⟩ := survivors_eq_ok_iff.mp h
  have htypes : ∀ node ∈ graph.nodes, node.type.IsScalar := fun node hnode =>
    (exists_survives first).mp ((Except.filterM_eq_ok hnodes).1 node hnode)
  have hfilteredTypes : ∀ node ∈ filtered.nodes, node.type.IsScalar := fun node hnode =>
    htypes node ((mem_nodes_survivors h).mp hnode).1
  obtain ⟨nodes, hagain⟩ := Except.exists_filterM fun node hnode =>
    (exists_survives second).mpr (hfilteredTypes node hnode)
  have honce : (graph.nodes.filterM fun node => return !(← isAmong node.type both)) = .ok nodes := by
    rw [← hagain]
    refine (Except.filterM_of_filterM hnodes ?_ ?_ ?_).symm
    · exact fun node hnode => (exists_survives second).mpr (hfilteredTypes node hnode)
    · exact fun node hnode => (exists_survives both).mpr (htypes node hnode)
    · intro node _
      rw [survives_iff, survives_iff, survives_iff, survives_both hboth]
  have hsub : nodes ⊆ filtered.nodes := fun node hnode => ((Except.mem_filterM hagain).mp hnode).1
  obtain ⟨left, hleft⟩ := (@exists_nodeIds ⟨nodes, []⟩).mpr fun node hnode =>
    exists_nodeIds.mp ⟨ids, hids⟩ node (hsub hnode)
  -- A link is looked at again with fewer ids, so that no more targets are come to than before.
  have hconnects : ∀ link ∈ graph.links, ∃ b, link.connects left = .ok b := fun link hlink => by
    obtain ⟨hsource, htarget⟩ := Link.exists_connects.mp ((Except.filterM_eq_ok hlinks).1 link hlink)
    exact Link.exists_connects.mpr
      ⟨hsource, fun hamong => htarget (isAmong_mono hleft hids hsub hamong)⟩
  obtain ⟨links, honceLinks⟩ := Except.exists_filterM hconnects
  have hagainLinks : filtered.links.filterM (Link.connects left) = .ok links := by
    rw [← honceLinks]
    refine Except.filterM_of_filterM hlinks ?_ hconnects ?_
    · exact fun link hlink => hconnects link ((Except.mem_filterM hlinks).mp hlink).1
    · exact fun link _ => ⟨fun hkept => ⟨connects_mono hleft hids hsub hkept, hkept⟩, And.right⟩
  exact ⟨⟨nodes, links⟩, survivors_eq_ok_iff.mpr ⟨hagain, left, hleft, hagainLinks⟩,
    survivors_eq_ok_iff.mpr ⟨honce, left, hleft, honceLinks⟩⟩

end Graph
end Editor
end NodeWorkflow
