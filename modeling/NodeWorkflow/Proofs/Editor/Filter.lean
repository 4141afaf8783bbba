import NodeWorkflow.Editor.Filter
import NodeWorkflow.Proofs.Json.Entries
import NodeWorkflow.Proofs.Lists
import NodeWorkflow.Proofs.Outcome

/-!
# What a filter leaves

The nodes of the other types stay, with the links between them, both in their order. An id is known
to the filtered graph if a node with an agreeing id stays.
-/
namespace NodeWorkflow

theorem Json.key_eq_ok {v : Json} {a : Scalar} : v.key = .ok a ↔ v = .scalar a := by
  cases v <;> simp [Json.key]

theorem Json.agrees_scalar_iff {v : Json} {a : Scalar} :
    v.agrees (.scalar a) = true ↔ ∃ b, v = .scalar b ∧ b.agrees a = true := by
  cases v <;> simp [Json.agrees]

theorem Entries.keys_put {α : Type} (key : Scalar) (v : α) (es : Entries α) :
    (es.put key v).map Prod.fst = Editor.Graph.insertId (es.map Prod.fst) key := by
  have hany : (es.map Prod.fst).any (·.agrees key) = (get? key es).isSome := by
    rw [Bool.eq_iff_iff, ← Option.ne_none_iff_isSome, Ne, get?_eq_none_iff]
    simp
  rw [Editor.Graph.insertId, hany]
  split
  next hpresent => exact keys_put_of_present hpresent v
  next habsent =>
    rw [put_of_absent (Option.not_isSome_iff_eq_none.mp habsent), List.map_append]
    rfl

namespace Editor

theorem isAmong_eq_ok {v : Json} {ids : List Scalar} {b : Bool} :
    isAmong v ids = .ok b ↔ ∃ a, v = .scalar a ∧ ids.any (·.agrees a) = b := by
  simp [isAmong, Except.map_eq_ok, Json.key_eq_ok]

theorem Link.connects_eq_true {ids : List Scalar} {link : Link} :
    link.connects ids = .ok true ↔
      isAmong link.sourceNode ids = .ok true ∧ isAmong link.targetNode ids = .ok true := by
  rw [Link.connects, Except.bind_eq_ok]
  constructor
  · rintro ⟨survives, hsource, htarget⟩
    cases survives with
    | true => exact ⟨hsource, htarget⟩
    | false => simp [pure, Except.pure] at htarget
  · rintro ⟨hsource, htarget⟩
    exact ⟨true, hsource, htarget⟩

namespace Graph

variable {graph filtered : Graph} {uiTypes ids : List Scalar} {links : Entries Link}

def Survives (uiTypes : List Scalar) (node : Node) : Prop := isAmong node.type uiTypes = .ok false

instance (uiTypes : List Scalar) : DecidablePred (Survives uiTypes) := fun node =>
  decidable_of_iff ((isAmong node.type uiTypes).toOption = some false) <| by
    cases h : isAmong node.type uiTypes <;> simp [Survives, h, Except.toOption]

def kept (uiTypes : List Scalar) (graph : Graph) : List Node :=
  graph.nodes.filter (Survives uiTypes ·)

private theorem any_insertId (ids : List Scalar) (id a : Scalar) :
    (insertId ids id).any (·.agrees a) = (ids.any (·.agrees a) || id.agrees a) := by
  unfold insertId
  split
  next hknown =>
    obtain ⟨b, hb, hagrees⟩ := List.any_eq_true.mp hknown
    cases hid : id.agrees a with
    | false => simp
    | true =>
      rw [Bool.or_true]
      exact List.any_eq_true.mpr ⟨b, hb, Scalar.agrees_trans hagrees hid⟩
  next => simp

private theorem any_foldl_insertId (ids acc : List Scalar) (a : Scalar) :
    (ids.foldl insertId acc).any (·.agrees a) = (acc.any (·.agrees a) || ids.any (·.agrees a)) := by
  induction ids generalizing acc with
  | nil => simp
  | cons id ids ih => rw [List.foldl_cons, ih, any_insertId, List.any_cons, Bool.or_assoc]

theorem mem_foldl_insertId {ids acc : List Scalar} {a : Scalar} (h : a ∈ ids.foldl insertId acc) :
    a ∈ acc ∨ a ∈ ids := by
  induction ids generalizing acc with
  | nil => exact .inl h
  | cons id ids ih =>
    rcases ih h with hacc | hids
    · unfold insertId at hacc
      split at hacc
      · exact .inl hacc
      · exact (List.mem_append.mp hacc).imp_right fun hid => by simp [List.mem_singleton.mp hid]
    · exact .inr (List.mem_cons_of_mem _ hids)

theorem isAmong_nodeIds (h : graph.nodeIds = .ok ids) {v : Json} :
    isAmong v ids = .ok true ↔
      ∃ a, v = .scalar a ∧ ∃ node ∈ graph.nodes, ∃ id, node.id = .scalar id ∧ id.agrees a := by
  obtain ⟨keys, hkeys, hids⟩ := Except.bind_eq_ok.mp h
  obtain rfl := Except.ok.inj hids
  have hmem (id : Scalar) : id ∈ keys ↔ ∃ node ∈ graph.nodes, node.id = .scalar id := by
    simp only [Except.mem_mapM hkeys, Json.key_eq_ok]
  rw [isAmong_eq_ok]
  refine exists_congr fun a => and_congr_right fun _ => ?_
  rw [any_foldl_insertId, List.any_nil, Bool.false_or, List.any_eq_true]
  constructor
  · rintro ⟨id, hid, hagrees⟩
    obtain ⟨node, hnode, heq⟩ := (hmem id).mp hid
    exact ⟨node, hnode, id, heq, hagrees⟩
  · rintro ⟨node, hnode, id, heq, hagrees⟩
    exact ⟨id, (hmem id).mpr ⟨node, hnode, heq⟩, hagrees⟩

theorem survivors_eq_ok (h : graph.survivors uiTypes = .ok filtered) :
    ∃ ids, filtered.nodeIds = .ok ids ∧
      (graph.nodes.filterM fun node => return !(← isAmong node.type uiTypes)) = .ok filtered.nodes ∧
      graph.links.filterM (Link.connects ids) = .ok filtered.links := by
  obtain ⟨nodes, hnodes, hrest⟩ := Except.bind_eq_ok.mp h
  obtain ⟨ids, hids, hrest⟩ := Except.bind_eq_ok.mp hrest
  obtain ⟨links, hlinks, hfiltered⟩ := Except.bind_eq_ok.mp hrest
  obtain rfl := Except.ok.inj hfiltered
  exact ⟨ids, hids, hnodes, hlinks⟩

theorem survives_iff {node : Node} :
    (do return !(← isAmong node.type uiTypes) : Except Fault Bool) = .ok true ↔
      Survives uiTypes node := by
  rw [Except.bind_eq_ok, Survives]
  refine ⟨?_, fun hother => ⟨false, hother, rfl⟩⟩
  rintro ⟨among, hamong, hother⟩
  cases among with
  | false => exact hamong
  | true => simp [pure, Except.pure] at hother

theorem mem_filterM_survives {kept : List Node} (h : (graph.nodes.filterM fun node =>
    return !(← isAmong node.type uiTypes)) = .ok kept) {node : Node} :
    node ∈ kept ↔ node ∈ graph.nodes ∧ Survives uiTypes node := by
  rw [Except.mem_filterM h, survives_iff]

theorem mem_nodes_survivors (h : graph.survivors uiTypes = .ok filtered) {node : Node} :
    node ∈ filtered.nodes ↔ node ∈ graph.nodes ∧ Survives uiTypes node := by
  obtain ⟨ids, -, hnodes, -⟩ := survivors_eq_ok h
  exact mem_filterM_survives hnodes

theorem nodes_survivors (h : graph.survivors uiTypes = .ok filtered) :
    filtered.nodes = graph.kept uiTypes := by
  obtain ⟨ids, -, hnodes, -⟩ := survivors_eq_ok h
  rw [(Except.filterM_eq_ok hnodes).2, kept]
  refine List.filter_congr fun node _ => ?_
  cases hamong : isAmong node.type uiTypes with
  | error fault => simp [Survives, hamong, Except.toOption, bind, Except.bind]
  | ok among => cases among <;>
      simp [Survives, hamong, Except.toOption, bind, Except.bind, pure, Except.pure]

theorem mem_links_survivors (h : graph.survivors uiTypes = .ok filtered)
    (hids : filtered.nodeIds = .ok ids) {link : Link} :
    link ∈ filtered.links ↔ link ∈ graph.links ∧ link.connects ids = .ok true := by
  obtain ⟨ids', hids', -, hlinks⟩ := survivors_eq_ok h
  obtain rfl := Except.ok.inj (hids'.symm.trans hids)
  exact Except.mem_filterM hlinks

theorem survivors_sublist (h : graph.survivors uiTypes = .ok filtered) :
    filtered.nodes.Sublist graph.nodes ∧ filtered.links.Sublist graph.links := by
  obtain ⟨ids, -, hnodes, hlinks⟩ := survivors_eq_ok h
  rw [(Except.filterM_eq_ok hnodes).2, (Except.filterM_eq_ok hlinks).2]
  exact ⟨List.filter_sublist, List.filter_sublist⟩

theorem result_filter : (graph.filter uiTypes).result = graph.survivors uiTypes := by
  unfold filter
  split <;> simp_all

private theorem keyed_of_mapM {all : List Link} {entries : Entries Link}
    (h : (all.mapM fun link => return (← link.id.key, link)) = (.ok entries : Except Fault _)) :
    all = entries.map Prod.snd ∧ ∀ e ∈ entries, e.2.id = .scalar e.1 := by
  rw [Except.mapM_eq_ok] at h
  induction all generalizing entries with
  | nil =>
    obtain rfl : entries = [] := by simpa using h.symm
    simp
  | cons link all ih => cases entries with
    | nil => simp at h
    | cons e entries =>
      obtain ⟨hlink, hrest⟩ := List.cons.inj h
      obtain ⟨key, hkey, heq⟩ := Except.bind_eq_ok.mp hlink
      obtain rfl := Except.ok.inj heq
      obtain ⟨hall, hkeys⟩ := ih hrest
      rw [hall, List.map_cons]
      exact ⟨rfl, List.forall_mem_cons.mpr ⟨Json.key_eq_ok.mp hkey, hkeys⟩⟩

/-- The links are stored in order, each under its own id. -/
private theorem linksById_eq_ok (h : graph.linksById = .ok links) :
    ∃ entries : Entries Link, links = Entries.putAll entries [] ∧
      graph.links = entries.map Prod.snd ∧ ∀ e ∈ entries, e.2.id = .scalar e.1 := by
  obtain ⟨entries, hentries, hlinks⟩ := Except.bind_eq_ok.mp h
  exact ⟨entries, (Except.ok.inj hlinks).symm, keyed_of_mapM hentries⟩

/-- What is found among the links is the last link of the graph with an agreeing id. -/
theorem get?_linksById_eq_some (h : graph.linksById = .ok links) {id : Scalar} {link : Link} :
    Entries.get? id links = some link ↔ ∃ before after, graph.links = before ++ link :: after ∧
      link.id.agrees (.scalar id) ∧ ∀ later ∈ after, ¬ later.id.agrees (.scalar id) := by
  obtain ⟨entries, rfl, hall, hkeys⟩ := linksById_eq_ok h
  have hagrees (e : Scalar × Link) (he : e ∈ entries) :
      e.2.id.agrees (.scalar id) = e.1.agrees id := by
    rw [hkeys e he, Json.agrees]
  rw [Entries.get?_putAll, Entries.get?_nil, Option.or_none, Entries.get?_reverse_eq_some_iff, hall]
  constructor
  · rintro ⟨before, key, after, rfl, hkey, hafter⟩
    refine ⟨before.map Prod.snd, after.map Prod.snd, by simp, ?_, ?_⟩
    · rw [hagrees (key, link) (by simp)]
      exact hkey
    · intro later hlater
      obtain ⟨e, he, rfl⟩ := List.mem_map.mp hlater
      rw [hagrees e (by simp [he]), hafter e he]
      exact Bool.false_ne_true
  · rintro ⟨before, after, hsplit, hlink, hafter⟩
    obtain ⟨front, back, rfl, rfl, hback⟩ := List.map_eq_append_iff.mp hsplit
    obtain ⟨e, rest, rfl, rfl, rfl⟩ := List.map_eq_cons_iff.mp hback
    refine ⟨front, e.1, rest, rfl, ?_, fun later hlater => ?_⟩
    · rwa [← hagrees e (by simp)]
    · rw [← hagrees later (by simp [hlater]), ← Bool.not_eq_true]
      exact hafter later.2 (List.mem_map_of_mem hlater)

theorem get?_linksById (h : graph.linksById = .ok links) {id : Scalar} {link : Link}
    (hget : Entries.get? id links = some link) :
    link ∈ graph.links ∧ ∃ key, link.id = .scalar key ∧ key.agrees id = true := by
  obtain ⟨before, after, hsplit, hagrees, -⟩ := (get?_linksById_eq_some h).mp hget
  exact ⟨by simp [hsplit], Json.agrees_scalar_iff.mp hagrees⟩

theorem exists_get?_linksById (h : graph.linksById = .ok links) {link : Link} {key id : Scalar}
    (hlink : link ∈ graph.links) (hkey : link.id = .scalar key) (hagrees : key.agrees id = true) :
    ∃ found, Entries.get? id links = some found := by
  have hlast : ∃ other ∈ graph.links, other.id.agrees (.scalar id) :=
    ⟨link, hlink, Json.agrees_scalar_iff.mpr ⟨key, hkey, hagrees⟩⟩
  obtain ⟨before, found, after, hsplit, hfound, hafter⟩ := List.exists_last hlast
  exact ⟨found, (get?_linksById_eq_some h).mpr ⟨before, after, hsplit, hfound, hafter⟩⟩

/-- If no other link has an agreeing id, a link is found under its own. -/
theorem get?_linksById_of_mem (h : graph.linksById = .ok links) {id : Scalar} {link : Link}
    (hlink : link ∈ graph.links) (hid : link.id = .scalar id) (hself : id.agrees id = true)
    (hother : ∀ other ∈ graph.links, ∀ key, other.id = .scalar key → key.agrees id = true →
      other = link) : Entries.get? id links = some link := by
  obtain ⟨found, hget⟩ := exists_get?_linksById h hlink hid hself
  obtain ⟨hfound, key, hkey, hagrees⟩ := get?_linksById h hget
  rw [hget, hother found hfound key hkey hagrees]

end Graph
end Editor
end NodeWorkflow
