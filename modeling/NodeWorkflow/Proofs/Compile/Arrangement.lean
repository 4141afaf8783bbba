import NodeWorkflow.Proofs.Compile.Entries
import NodeWorkflow.Proofs.Compile.Stages
import NodeWorkflow.Proofs.Json.Rearranged

/-!
# The order of nodes and links

Where a node or a link stands in an editor graph is seen in two places only: of links with one id
the last is found, and of nodes whose ids have one text the last is stored. If there are no such
links and nodes, a graph in any other order is compiled to the same nodes, in the other order.
-/
namespace NodeWorkflow

namespace Editor

variable {uiTypes ids ids' : List Scalar} {links : Entries Link} {v : Json} {link : Link}
  {graph graph' filtered : Graph}

theorem isAmong_ext (h : isAmong v ids = .ok true ↔ isAmong v ids' = .ok true) :
    isAmong v ids = isAmong v ids' := by
  cases v with
  | scalar a =>
    simp only [isAmong, Json.key, Except.map, Except.ok.injEq] at h ⊢
    exact Bool.eq_iff_iff.mpr h
  | _ => rfl

namespace Graph

def DistinctLinks (graph : Graph) : Prop :=
  graph.links.Pairwise fun a b => a.id.agrees b.id = false

instance : DecidablePred DistinctLinks := fun graph =>
  inferInstanceAs (Decidable (graph.links.Pairwise _))

/-- A link is known by its id. Unlike the places of links this does not depend on their order. -/
def Identified (graph : Graph) : Prop := ∀ a ∈ graph.links, ∀ b ∈ graph.links, ∀ key id,
  a.id = .scalar key → b.id = .scalar id → key.agrees id = true → a = b

theorem DistinctLinks.identified (h : graph.DistinctLinks) : graph.Identified := by
  intro a ha b hb key id hkey hid hagrees
  let Apart (a b : Link) : Prop :=
    ∀ key id, a.id = .scalar key → b.id = .scalar id → ¬ key.agrees id = true
  have hsymm : Std.Symm Apart := ⟨fun a b hab key id hkey hid hagrees =>
    hab id key hid hkey (Scalar.agrees_symm hagrees)⟩
  have hapart : graph.links.Pairwise Apart := h.imp fun {a b} hab key id hkey hid => by
    rw [hkey, hid, Json.agrees] at hab
    simp [hab]
  by_contra hne
  exact hapart.forall ha hb hne key id hkey hid hagrees

theorem Identified.survivors (h : graph.Identified)
    (hfiltered : graph.survivors uiTypes = .ok filtered) : filtered.Identified :=
  fun a ha b hb => h a ((survivors_sublist hfiltered).2.mem ha) b
    ((survivors_sublist hfiltered).2.mem hb)

/-- A link that is known by its id is found under the keys that agree with it. -/
theorem get?_linksById_iff (h : graph.linksById = .ok links) (hidentified : graph.Identified)
    {id : Scalar} : Entries.get? id links = some link ↔
      link ∈ graph.links ∧ ∃ key, link.id = .scalar key ∧ key.agrees id = true := by
  constructor
  · exact get?_linksById h
  · rintro ⟨hlink, key, hkey, hagrees⟩
    obtain ⟨found, hget⟩ := exists_get?_linksById h hlink hkey hagrees
    obtain ⟨hfound, key', hkey', hagrees'⟩ := get?_linksById h hget
    rw [hget, hidentified found hfound link hlink key' key hkey' hkey
      (Scalar.agrees_trans hagrees' (Scalar.agrees_symm hagrees))]

/-- The same nodes and links, each in an order of their own. -/
structure Reordered (graph graph' : Graph) : Prop where
  nodes : graph.nodes.Perm graph'.nodes
  links : graph.links.Perm graph'.links

namespace Reordered

variable (h : Reordered graph graph')
include h

theorem kept (uiTypes : List Scalar) : (graph.kept uiTypes).Perm (graph'.kept uiTypes) :=
  h.nodes.filter _

theorem has_iff : graph.Has uiTypes v ↔ graph'.Has uiTypes v := by
  simp only [Has, h.nodes.mem_iff]

theorem identified (hidentified : graph.Identified) : graph'.Identified :=
  fun a ha b hb => hidentified a (h.links.mem_iff.mpr ha) b (h.links.mem_iff.mpr hb)

theorem keyed (hkeyed : graph.Keyed uiTypes) : graph'.Keyed uiTypes where
  types node hnode := hkeyed.types node (h.nodes.mem_iff.mpr hnode)
  ids node hnode := hkeyed.ids node (h.nodes.mem_iff.mpr hnode)
  sources link hlink := hkeyed.sources link (h.links.mem_iff.mpr hlink)
  targets link hlink hsource :=
    hkeyed.targets link (h.links.mem_iff.mpr hlink) (h.has_iff.mpr hsource)
  linkIds link hlink hsource htarget :=
    hkeyed.linkIds link (h.links.mem_iff.mpr hlink) (h.has_iff.mpr hsource) (h.has_iff.mpr htarget)

end Reordered
end Graph
end Editor

namespace Compile
open Editor

variable {options : Options} {graph graph' filtered filtered' : Graph} {links links' : Entries Link}
  {surviving surviving' : List Scalar} {levels : Nat} {nodes nodes' : List Node} {inlet : Inlet}
  {out out' : ExecutionGraph} {workflow : Json}

theorem compileNodes_perm (h : Surroundings links links' surviving surviving')
    (hnodes : nodes.Perm nodes') (hnodup : (nodes.map entryKey).Nodup)
    (hout : (compileNodes options links surviving nodes []).result = .ok out) :
    ∃ out', (compileNodes options links' surviving' nodes' []).result = .ok out' ∧
      out.Perm out' := by
  have hsame (node : Node) : compileNode options links' surviving' node =
      compileNode options links surviving node := (compileNode_congr h options node).symm
  have hall := exists_compileNodes_iff.mp ⟨out, hout⟩
  obtain ⟨out', hout'⟩ : ∃ out', (compileNodes options links' surviving' nodes' []).result =
      .ok out' := exists_compileNodes_iff.mpr fun node hnode => by
    rw [hsame]
    exact hall node (hnodes.mem_iff.mpr hnode)
  refine ⟨out', hout', ?_⟩
  have hnodup' : (nodes'.map entryKey).Nodup := (hnodes.map entryKey).nodup_iff.mp hnodup
  have hstored := forall₂_compileNodes hout hnodup
  have hstored' : List.Forall₂ (Stores options links surviving) nodes' out' :=
    (forall₂_compileNodes hout' hnodup').imp fun node e he => ⟨he.key, hsame node ▸ he.compiled⟩
  -- A node is compiled to one entry only, so that the entries are in the order of the nodes.
  exact List.rel_perm_imp stores_rightUnique hstored hstored' hnodes

section Reordered

variable (h : graph.Reordered graph')
include h

theorem unfed_iff_of_reordered (uiTypes : List Scalar) :
    inlet.Unfed uiTypes graph ↔ inlet.Unfed uiTypes graph' := by
  simp only [Inlet.Unfed, Feeds, h.has_iff, h.links.mem_iff]

theorem surroundings_of_reordered (hidentified : graph.Identified)
    (hfiltered : graph.survivors options.uiTypes = .ok filtered)
    (hids : filtered.nodeIds = .ok surviving) (hlinks : filtered.linksById = .ok links)
    (hfiltered' : graph'.survivors options.uiTypes = .ok filtered')
    (hids' : filtered'.nodeIds = .ok surviving') (hlinks' : filtered'.linksById = .ok links') :
    Surroundings links links' surviving surviving' where
  links id := Option.ext fun link => by
    rw [Graph.get?_linksById_iff hlinks (hidentified.survivors hfiltered),
      Graph.get?_linksById_iff hlinks' ((h.identified hidentified).survivors hfiltered'),
      mem_links_iff hfiltered hids, mem_links_iff hfiltered' hids', h.links.mem_iff, h.has_iff,
      h.has_iff]
  ids v := isAmong_ext <| by
    rw [Graph.isAmong_survivors hfiltered hids, Graph.isAmong_survivors hfiltered' hids', h.has_iff]

theorem compileGraph_perm (hnodup : (graph.nodes.map entryKey).Nodup)
    (hidentified : graph.Identified) (hout : (compileGraph options graph).result = .ok out) :
    ∃ out', (compileGraph options graph').result = .ok out' ∧ out.Perm out' := by
  obtain ⟨filtered, surviving, links, hfiltered, hids, hlinks, hnodes⟩ := compileGraph_eq_ok.mp hout
  have hkeyed : graph.Keyed options.uiTypes :=
    Graph.exists_filtered.mp ⟨filtered, surviving, links, hfiltered, hids, hlinks⟩
  obtain ⟨filtered', surviving', links', hfiltered', hids', hlinks'⟩ :=
    Graph.exists_filtered.mpr (h.keyed hkeyed)
  have hperm : filtered.nodes.Perm filtered'.nodes := by
    rw [Graph.nodes_survivors hfiltered, Graph.nodes_survivors hfiltered']
    exact h.kept options.uiTypes
  have hkept : (filtered.nodes.map entryKey).Nodup :=
    hnodup.sublist ((Graph.survivors_sublist hfiltered).1.map entryKey)
  obtain ⟨out', hout', hperm⟩ := compileNodes_perm
    (surroundings_of_reordered h hidentified hfiltered hids hlinks hfiltered' hids' hlinks')
    hperm hkept hnodes
  exact ⟨out', compileGraph_eq_ok.mpr
    ⟨filtered', surviving', links', hfiltered', hids', hlinks', hout'⟩, hperm⟩

/-- Every slot of a node that stays stands in the other graph too, and is fed there or not as it is
here. -/
theorem warnings_perm (hout : (compileGraph options graph).result = .ok out)
    (hout' : (compileGraph options graph').result = .ok out') :
    (compileGraph options graph).warnings.Perm (compileGraph options graph').warnings := by
  have hinlets : (inlets (graph.kept options.uiTypes)).Perm
      (inlets (graph'.kept options.uiTypes)) := (h.kept options.uiTypes).flatMap_right _
  rw [warnings_compileGraph hout, warnings_compileGraph hout']
  refine ((hinlets.filter _).trans (.of_eq (List.filter_congr fun inlet _ => ?_))).map _
  exact decide_eq_decide.mpr (unfed_iff_of_reordered h options.uiTypes)

end Reordered

/-- If no two nodes have ids of one text and no two links have one id, a graph that is compiled is
compiled in any other order of its nodes and of its links too. The workflow has the same nodes under
the same ids, and the warnings are the same up to their order. -/
theorem compiled_in_any_order (h : graph.Reordered graph')
    (hnodes : (graph.nodes.map fun node => node.id.text).Nodup) (hlinks : graph.DistinctLinks)
    (hworkflow : (compileGraphWithin levels options graph).result = .ok workflow) :
    let run := compileGraphWithin levels options graph
    let run' := compileGraphWithin levels options graph'
    ∃ entries entries', workflow = .obj entries ∧ run'.result = .ok (.obj entries') ∧
      entries.Perm entries' ∧ (∀ id, Entries.get? id entries = Entries.get? id entries') ∧
      run.warnings.Perm run'.warnings := by
  intro run run'
  obtain ⟨hcopyable, out, hout, rfl⟩ := compileGraphWithin_eq_ok.mp hworkflow
  obtain ⟨out', hout', hperm⟩ :=
    compileGraph_perm h (nodup_keys_of_texts hnodes) hlinks.identified hout
  have hcopyable' : ∀ node ∈ graph'.kept options.uiTypes, node.widgets.nestsWithin levels :=
    fun node hnode => hcopyable node ((h.kept options.uiTypes).mem_iff.mpr hnode)
  have hworkflow' : run'.result = .ok out'.toJson :=
    compileGraphWithin_eq_ok.mpr ⟨hcopyable', out', hout', rfl⟩
  have hentries : out.entries.Perm out'.entries := hperm.map _
  have htextual : out.entries.Textual := (compileGraph_textual hout).of_keys List.map_map
  refine ⟨out.entries, out'.entries, rfl, hworkflow', hentries, htextual.get?_perm hentries, ?_⟩
  have hwarnings := warnings_perm h hout hout'
  rwa [← warnings_compileGraphWithin_of_ok hworkflow,
    ← warnings_compileGraphWithin_of_ok hworkflow'] at hwarnings

/-- Two nodes of which one feeds the other, a note that is dropped with its link, and two slots that
nothing feeds, all in the opposite order. One class has a rule of its own. -/
theorem compiled_backwards :
    let loader : Node := ⟨.int 1, .str "Loader", [], .null, .null⟩
    let sampler : Node := ⟨.int 2, .str "Sampler",
      [⟨.str "model", .int 5, .null⟩, ⟨.str "seed", .null, .null⟩], .null, .null⟩
    let note : Node := ⟨.int 3, .str "Note", [], .null, .null⟩
    let sink : Node := ⟨.int 4, .str "Sink",
      [⟨.str "image", .int 6, .null⟩, ⟨.str "mask", .int 7, .null⟩], .null, .null⟩
    let model : Link := ⟨.int 5, .int 1, .int 0, .int 2, .int 0, .null⟩
    let image : Link := ⟨.int 6, .int 2, .int 0, .int 4, .int 0, .null⟩
    let mask : Link := ⟨.int 7, .int 3, .int 0, .int 4, .int 1, .null⟩
    let graph : Graph := ⟨[loader, sampler, note, sink], [model, image, mask]⟩
    let graph' : Graph := ⟨[sink, note, sampler, loader], [mask, image, model]⟩
    let fixed : Normalizer := .custom fun _ => .ok [(.str "name", .str "fixed")]
    let options : Options := ⟨[.str "Note"], [("Sink", fixed)], false⟩
    let run := compileGraphWithin 400 options graph
    let run' := compileGraphWithin 400 options graph'
    let sampled : String := "Node 2 (Sampler): input 'seed' left unresolved"
    let sunk : String := "Node 4 (Sink): input 'mask' left unresolved"
    graph.Reordered graph' ∧ (graph.nodes.map fun node => node.id.text).Nodup ∧
      graph.DistinctLinks ∧ run.warnings = [sampled, sunk] ∧ run'.warnings = [sunk, sampled] ∧
      ∃ entries entries', run.result = .ok (.obj entries) ∧ run'.result = .ok (.obj entries') ∧
        entries.Perm entries' ∧ entries.map Prod.fst = [.str "1", .str "2", .str "4"] ∧
        entries'.map Prod.fst = [.str "4", .str "2", .str "1"] := by
  intro loader sampler note sink model image mask graph graph' fixed options run run' sampled sunk
  have h : graph.Reordered graph' :=
    ⟨List.reverse_perm graph'.nodes, List.reverse_perm graph'.links⟩
  have hnodes : (graph.nodes.map fun node => node.id.text).Nodup := by decide +kernel
  have hlinks : graph.DistinctLinks := by decide +kernel
  obtain ⟨workflow, hworkflow⟩ : ∃ workflow, run.result = .ok workflow := ⟨_, rfl⟩
  obtain ⟨entries, entries', rfl, hworkflow', hperm, -, -⟩ :=
    compiled_in_any_order h hnodes hlinks hworkflow
  refine ⟨h, hnodes, hlinks, by decide +kernel, by decide +kernel, entries, entries', hworkflow,
    hworkflow', hperm, ?_, ?_⟩
  · obtain rfl := Json.obj.inj (Except.ok.inj hworkflow)
    decide +kernel
  · obtain rfl := Json.obj.inj (Except.ok.inj hworkflow')
    decide +kernel

end Compile
end NodeWorkflow
