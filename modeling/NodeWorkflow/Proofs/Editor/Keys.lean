import NodeWorkflow.Proofs.Editor.Filter
import NodeWorkflow.Proofs.Failure

/-!
# What must be a key

A graph is read whatever the fields of its nodes and links are. The filter takes types, ids and ends
of links for keys, which only scalars are: it succeeds if and only if those that it comes to are.
-/
namespace NodeWorkflow

def Json.IsScalar (v : Json) : Prop := ∃ a, v = .scalar a

/-- The value can be gone through: it is a list, an object or a text. -/
def Json.HasItems : Json → Prop
  | .scalar (.str _) | .list _ | .obj _ => True
  | _ => False

theorem Json.failsIn_items {v : Json} : FailsIn Fault.IsStructural v.items ↔ v.HasItems := by
  cases v with
  | scalar a => cases a <;> simp [items, HasItems, Fault.IsStructural]
  | _ => simp [items, HasItems]

theorem Json.exists_key {v : Json} : (∃ a, v.key = .ok a) ↔ v.IsScalar := by
  simp [key_eq_ok, IsScalar]

def Fault.IsKey (fault : Fault) : Prop := fault = .keyNotScalar

theorem Fault.IsKey.not_structural {fault : Fault} (h : fault.IsKey) : ¬ fault.IsStructural := by
  rintro ⟨cause, rfl⟩
  simp [IsKey] at h

theorem Json.failsIn_key (v : Json) : FailsIn Fault.IsKey v.key := by
  cases v <;> simp [key, Fault.IsKey]

namespace Editor

variable {v data : Json} {ids uiTypes : List Scalar} {link : Link} {graph filtered : Graph}

theorem Slot.failsIn_ofJson (data : Json) : FailsIn Fault.IsStructural (Slot.ofJson data) := by
  unfold ofJson
  split <;> simp

theorem Link.failsIn_ofJson (data : Json) : FailsIn Fault.IsStructural (Link.ofJson data) := by
  have hrequired (name : String) : FailsIn Fault.IsStructural (required data name) := by
    unfold required
    split <;> simp
  unfold ofJson
  split <;> simp [failsIn_bind, hrequired]

theorem Node.failsIn_ofJson (data : Json) : FailsIn Fault.IsStructural (Node.ofJson data) := by
  unfold ofJson
  split
  · simp
  · dsimp only
    split
    · refine failsIn_bind.mpr ⟨.mapM fun x _ => Slot.failsIn_ofJson x, fun _ _ => failsIn_pure _⟩
    · refine failsIn_bind.mpr ⟨by simp, fun _ _ => failsIn_pure _⟩

/-- The links are come to once all nodes are read; then there must be something to go through. -/
theorem Graph.failsIn_ofJson {xs : List Json} (hobj : data.isObj)
    (hnodes : data.field "nodes" = .list xs) :
    FailsIn Fault.IsStructural (Graph.ofJson data) ↔
      ((∀ x ∈ xs, ∃ node, Node.ofJson x = .ok node) → (data.field "links").truthy →
        (data.field "links").HasItems) := by
  have hread : FailsIn Fault.IsStructural (xs.mapM Node.ofJson) :=
    .mapM fun x _ => Node.failsIn_ofJson x
  have hlinks (links : List Json) : FailsIn Fault.IsStructural (links.mapM Link.ofJson) :=
    .mapM fun x _ => Link.failsIn_ofJson x
  rw [← Except.exists_mapM, ← Json.failsIn_items]
  unfold ofJson
  simp only [hobj, hnodes]
  cases htruthy : (data.field "links").truthy <;> simp [failsIn_bind, hread, hlinks]

theorem exists_isAmong (ids : List Scalar) : (∃ b, isAmong v ids = .ok b) ↔ v.IsScalar := by
  cases v <;> simp [isAmong, Json.key, Json.IsScalar, Except.map]

theorem failsIn_isAmong : FailsIn Fault.IsKey (isAmong v ids) := by
  simpa [isAmong] using Json.failsIn_key v

theorem Link.exists_connects : (∃ b, link.connects ids = .ok b) ↔ link.sourceNode.IsScalar ∧
    (isAmong link.sourceNode ids = .ok true → link.targetNode.IsScalar) := by
  simp only [connects, Except.bind_eq_ok, ← exists_isAmong ids]
  constructor
  · rintro ⟨b, among, hamong, hb⟩
    refine ⟨⟨among, hamong⟩, fun htrue => ⟨b, ?_⟩⟩
    obtain rfl := Except.ok.inj (hamong.symm.trans htrue)
    exact hb
  · rintro ⟨⟨among, hamong⟩, htarget⟩
    cases among with
    | false => exact ⟨false, false, hamong, rfl⟩
    | true =>
      obtain ⟨b, hb⟩ := htarget hamong
      exact ⟨b, true, hamong, hb⟩

theorem Link.failsIn_connects : FailsIn Fault.IsKey (link.connects ids) := by
  refine failsIn_bind.mpr ⟨failsIn_isAmong, fun among _ => ?_⟩
  cases among with
  | false => exact failsIn_pure false
  | true => exact failsIn_isAmong

namespace Graph

theorem exists_nodeIds :
    (∃ ids, graph.nodeIds = .ok ids) ↔ ∀ node ∈ graph.nodes, node.id.IsScalar := by
  simp only [← Json.exists_key, ← Except.exists_mapM, nodeIds, Except.bind_eq_ok]
  exact ⟨fun ⟨_, keys, hkeys, _⟩ => ⟨keys, hkeys⟩, fun ⟨keys, hkeys⟩ => ⟨_, keys, hkeys, rfl⟩⟩

theorem failsIn_nodeIds : FailsIn Fault.IsKey graph.nodeIds :=
  failsIn_bind.mpr ⟨.mapM fun node _ => Json.failsIn_key node.id, fun _ _ => failsIn_pure _⟩

theorem exists_linksById :
    (∃ links, graph.linksById = .ok links) ↔ ∀ link ∈ graph.links, link.id.IsScalar := by
  simp only [linksById, Except.bind_eq_ok]
  constructor
  · rintro ⟨_, entries, hentries, -⟩ link hlink
    obtain ⟨e, he⟩ := Except.exists_mapM.mp ⟨entries, hentries⟩ link hlink
    obtain ⟨id, hid, -⟩ := Except.bind_eq_ok.mp he
    exact Json.exists_key.mp ⟨id, hid⟩
  · intro h
    obtain ⟨entries, hentries⟩ := Except.exists_mapM.mpr fun link hlink => by
      obtain ⟨id, hid⟩ := Json.exists_key.mpr (h link hlink)
      exact ⟨(id, link), Except.bind_eq_ok.mpr ⟨id, hid, rfl⟩⟩
    exact ⟨_, entries, hentries, rfl⟩

theorem failsIn_linksById : FailsIn Fault.IsKey graph.linksById := by
  refine failsIn_bind.mpr ⟨.mapM fun link _ => ?_, fun _ _ => failsIn_pure _⟩
  exact failsIn_bind.mpr ⟨Json.failsIn_key link.id, fun _ _ => failsIn_pure _⟩

def Has (uiTypes : List Scalar) (graph : Graph) (v : Json) : Prop :=
  ∃ a, v = .scalar a ∧ ∃ node ∈ graph.nodes, Survives uiTypes node ∧
    ∃ id, node.id = .scalar id ∧ id.agrees a

/-- The filter and what follows it find keys where they need them. -/
structure Keyed (uiTypes : List Scalar) (graph : Graph) : Prop where
  types : ∀ node ∈ graph.nodes, node.type.IsScalar
  ids : ∀ node ∈ graph.nodes, Survives uiTypes node → node.id.IsScalar
  sources : ∀ link ∈ graph.links, link.sourceNode.IsScalar
  /-- A target counts only if the source stays. -/
  targets : ∀ link ∈ graph.links, graph.Has uiTypes link.sourceNode → link.targetNode.IsScalar
  /-- Only links that stay are looked up by their ids. -/
  linkIds : ∀ link ∈ graph.links, graph.Has uiTypes link.sourceNode →
    graph.Has uiTypes link.targetNode → link.id.IsScalar

theorem isAmong_survivors (h : graph.survivors uiTypes = .ok filtered)
    (hids : filtered.nodeIds = .ok ids) : isAmong v ids = .ok true ↔ graph.Has uiTypes v := by
  simp only [isAmong_nodeIds hids, mem_nodes_survivors h, Has, and_assoc]

theorem failsIn_survivors : FailsIn Fault.IsKey (graph.survivors uiTypes) := by
  refine failsIn_bind.mpr ⟨.filterM fun node _ => ?_, fun nodes _ => ?_⟩
  · exact failsIn_bind.mpr ⟨failsIn_isAmong, fun _ _ => failsIn_pure _⟩
  · refine failsIn_bind.mpr ⟨failsIn_nodeIds, fun ids _ => ?_⟩
    exact failsIn_bind.mpr ⟨.filterM fun _ _ => Link.failsIn_connects, fun _ _ => failsIn_pure _⟩

theorem exists_survives (uiTypes : List Scalar) {node : Node} :
    (∃ b, (do return !(← isAmong node.type uiTypes) : Except Fault Bool) = .ok b) ↔
      node.type.IsScalar := by
  rw [← exists_isAmong uiTypes]
  simp only [Except.bind_eq_ok]
  exact ⟨fun ⟨_, among, hamong, _⟩ => ⟨among, hamong⟩, fun ⟨among, h⟩ => ⟨!among, among, h, rfl⟩⟩

theorem Keyed.exists_survivors (h : graph.Keyed uiTypes) :
    ∃ filtered, graph.survivors uiTypes = .ok filtered := by
  obtain ⟨nodes, hnodes⟩ := Except.exists_filterM fun node hnode =>
    (exists_survives uiTypes).mpr (h.types node hnode)
  have hmem (node : Node) : node ∈ nodes ↔ node ∈ graph.nodes ∧ Survives uiTypes node :=
    mem_filterM_survives hnodes
  obtain ⟨ids, hids⟩ := (@exists_nodeIds ⟨nodes, []⟩).mpr fun node hnode =>
    h.ids node ((hmem node).mp hnode).1 ((hmem node).mp hnode).2
  obtain ⟨links, hlinks⟩ := Except.exists_filterM fun link hlink => by
    refine (@Link.exists_connects ids _).mpr ⟨h.sources link hlink, fun hsource => ?_⟩
    obtain ⟨a, ha, node, hnode, id, hid, hagrees⟩ := (isAmong_nodeIds hids).mp hsource
    exact h.targets link hlink
      ⟨a, ha, node, ((hmem node).mp hnode).1, ((hmem node).mp hnode).2, id, hid, hagrees⟩
  exact ⟨⟨nodes, links⟩, Except.bind_eq_ok.mpr ⟨nodes, hnodes, Except.bind_eq_ok.mpr ⟨ids, hids,
    Except.bind_eq_ok.mpr ⟨links, hlinks, rfl⟩⟩⟩⟩

/-- The filter and what follows it succeed if and only if they find keys. -/
theorem exists_filtered :
    (∃ filtered ids links, graph.survivors uiTypes = .ok filtered ∧ filtered.nodeIds = .ok ids ∧
      filtered.linksById = .ok links) ↔ graph.Keyed uiTypes := by
  constructor
  · rintro ⟨filtered, ids, links, hfiltered, hids, hlinks⟩
    obtain ⟨ids', hids', hnodes, hkept⟩ := survivors_eq_ok hfiltered
    obtain rfl := Except.ok.inj (hids'.symm.trans hids)
    have hconnects (link : Link) (hlink : link ∈ graph.links) :=
      Link.exists_connects.mp ((Except.filterM_eq_ok hkept).1 link hlink)
    have hhas (v : Json) := isAmong_survivors hfiltered hids (v := v)
    refine ⟨fun node hnode => ?_, fun node hnode hstays => ?_, fun link hlink => ?_,
      fun link hlink hsource => ?_, fun link hlink hsource htarget => ?_⟩
    · exact (exists_survives uiTypes).mp ((Except.filterM_eq_ok hnodes).1 node hnode)
    · exact exists_nodeIds.mp ⟨_, hids⟩ node ((mem_nodes_survivors hfiltered).mpr ⟨hnode, hstays⟩)
    · exact (hconnects link hlink).1
    · exact (hconnects link hlink).2 ((hhas _).mpr hsource)
    · have hconnected := Link.connects_eq_true.mpr ⟨(hhas _).mpr hsource, (hhas _).mpr htarget⟩
      exact exists_linksById.mp ⟨_, hlinks⟩ link
        ((mem_links_survivors hfiltered hids).mpr ⟨hlink, hconnected⟩)
  · intro h
    obtain ⟨filtered, hfiltered⟩ := h.exists_survivors
    obtain ⟨ids, hids, -, -⟩ := survivors_eq_ok hfiltered
    obtain ⟨links, hlinks⟩ := exists_linksById.mpr fun link hlink => by
      obtain ⟨hlink, hconnected⟩ := (mem_links_survivors hfiltered hids).mp hlink
      obtain ⟨hsource, htarget⟩ := Link.connects_eq_true.mp hconnected
      exact h.linkIds link hlink ((isAmong_survivors hfiltered hids).mp hsource)
        ((isAmong_survivors hfiltered hids).mp htarget)
    exact ⟨filtered, ids, links, hfiltered, hids, hlinks⟩

end Graph
end Editor
end NodeWorkflow
