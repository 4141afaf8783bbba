import NodeWorkflow.Proofs.Template.Secure

/-!
# Copies of a graph

Parameters are injected into copies of a graph, and then again into these copies, in any order.
Whichever places of the graph share a part, with each other or with places of other graphs, the
graph stays as it was, an injection into one copy changes no other one, and the next copy is made as
the first one was.
-/
namespace NodeWorkflow

/-- The call injects into a copy of the graph `source`, or into a graph that was handed out after
the first `handed` ones. -/
def Call.OnCopies (source handed : Nat) : Call → Prop
  | .apply graph _ _ => graph = source
  | .inject graph _ _ => handed ≤ graph
  | _ => False

namespace Catalogue

variable {c c' : Catalogue} {doc : Nat} {d : Document}

/-- What the injection into a copy of a document reports, and the value of the copy. -/
def applied [Machine] (c : Catalogue) (doc : Nat) (parameters : Registry) (values : Json) :
    List Event × Except Fault Json :=
  let (after, run) := c.apply doc parameters values
  (run.events, run.result.map after.workspace.value)

theorem applied_congr [Machine] (hd : c.workspace.documents[doc]? = some d)
    (hd' : c'.workspace.documents[doc]? = some d) (parameters : Registry) (values : Json) :
    c.applied doc parameters values = c'.applied doc parameters values := by
  have hvalue {w : Workspace} (h : w.documents[doc]? = some d) : w.value doc = d.value := by
    simp [Workspace.value, h]
  have hcopy {w : Workspace} : (⟨w.documents ++ [d.renumbered w.parts], w.parts + w.parts⟩ :
      Workspace).documents[w.documents.length]? = some (d.renumbered w.parts) := by simp
  obtain ⟨hevents, hfault, hstate⟩ := inject_alike hcopy hcopy
    (d.renumbered_alike c.workspace.parts c'.workspace.parts) parameters values
  by_cases hshallow : d.value.nestsWithin Machine.copyLevels
  · simp only [applied, apply, hvalue hd, hvalue hd', if_pos hshallow, Workspace.copy_eq hd,
      Workspace.copy_eq hd', inject, hevents, hfault]
    split <;> simp only [Except.map, hstate]
  · simp only [applied, apply, hvalue hd, hvalue hd', if_neg hshallow]
    rfl

end Catalogue

namespace Session

variable {s t : Session} {source graph doc : Nat} {d : Document} {calls : List Call}

def shown (s : Session) (graph : Nat) : Option Json :=
  s.graphs[graph]?.map s.catalogue.workspace.value

def applied [Machine] (s : Session) (graph : Nat) (parameters : Registry) (values : Json) :
    Option (List Event × Except Fault Json) :=
  s.graphs[graph]?.map fun doc => s.catalogue.applied doc parameters values

/-- The parts in use have numbers below the next one, and what was handed out are documents. -/
structure Coherent (s : Session) : Prop where
  bounded : s.catalogue.workspace.Bounded
  handed : ∀ doc ∈ s.graphs, doc < s.documents.length

/-- Whatever is called, the session is coherent. -/
theorem coherent_run [Machine] (calls : List Call) : (run calls start).Coherent := by
  have htidy := (secure_start.run (by simp) calls).tidy
  exact ⟨htidy.bounded, fun doc hdoc => (htidy.handed doc hdoc).1⟩

/-- The documents of `s` are as they were, and the graphs that were handed out since are documents
of their own that share nothing with others. -/
structure BranchedFrom (s t : Session) : Prop where
  bounded : t.catalogue.workspace.Bounded
  grown : s.documents.length ≤ t.documents.length
  old : ∀ i < s.documents.length, t.documents[i]? = s.documents[i]?
  graphs : ∃ copies, t.graphs = s.graphs ++ copies ∧ copies.Nodup ∧ ∀ doc ∈ copies,
    s.documents.length ≤ doc ∧ doc < t.documents.length ∧ t.catalogue.workspace.Detached doc

namespace BranchedFrom

theorem refl (h : s.Coherent) : s.BranchedFrom s where
  bounded := h.bounded
  grown := le_rfl
  old _ _ := rfl
  graphs := ⟨[], by simp⟩

theorem getElem?_graphs (h : s.BranchedFrom t) (hgraph : graph < s.graphs.length) :
    t.graphs[graph]? = s.graphs[graph]? := by
  obtain ⟨copies, hcopies, -⟩ := h.graphs
  rw [hcopies, List.getElem?_append_left hgraph]

/-- A graph that was handed out since is a detached document that was not there. -/
theorem copy_of_getElem? (h : s.BranchedFrom t) (hgraph : s.graphs.length ≤ graph)
    (hdoc : t.graphs[graph]? = some doc) :
    s.documents.length ≤ doc ∧ doc < t.documents.length ∧ t.catalogue.workspace.Detached doc := by
  obtain ⟨copies, hcopies, -, hall⟩ := h.graphs
  rw [hcopies, List.getElem?_append_right hgraph] at hdoc
  exact hall doc (List.mem_of_getElem? hdoc)

theorem ne_of_ne (h : s.BranchedFrom t) (hs : s.Coherent) {copy other other' : Nat}
    (hcopy : s.graphs.length ≤ copy) (hne : other ≠ copy) (hdoc : t.graphs[copy]? = some doc)
    (hother : t.graphs[other]? = some other') : other' ≠ doc := by
  obtain ⟨copies, hcopies, hnodup, hall⟩ := h.graphs
  rw [hcopies, List.getElem?_append_right hcopy] at hdoc
  rcases lt_or_ge other s.graphs.length with hlt | hge
  · rw [hcopies, List.getElem?_append_left hlt] at hother
    have hold := hs.handed other' (List.mem_of_getElem? hother)
    exact (hold.trans_le (hall doc (List.mem_of_getElem? hdoc)).1).ne
  · rw [hcopies, List.getElem?_append_right hge] at hother
    rintro rfl
    have hlt := (List.getElem?_eq_some_iff.mp hdoc).1
    have hsame := (List.getElem?_inj hlt hnodup).mp (hdoc.trans hother.symm)
    omega

theorem inject [Machine] (h : s.BranchedFrom t) (hdoc : s.documents.length ≤ doc)
    (hdetached : t.catalogue.workspace.Detached doc) (registry : Registry) (values : Json) :
    s.BranchedFrom (t.withWorkspace (NodeWorkflow.inject (Workspace.surface doc) registry values
      t.catalogue.workspace).state) := by
  have hkeeps : Workspace.KeepsHoldings t.catalogue.workspace _ :=
    Workspace.keepsHoldings_inject doc registry values t.catalogue.workspace
  refine ⟨h.bounded.keeps hkeeps, ?_, fun i hi => ?_, ?_⟩
  · exact h.grown.trans hkeeps.length.ge
  · exact (hdetached.inject (hi.trans_le hdoc).ne registry values).trans (h.old i hi)
  · obtain ⟨copies, hcopies, hnodup, hall⟩ := h.graphs
    refine ⟨copies, hcopies, hnodup, fun copy hcopy => ?_⟩
    obtain ⟨hge, hlt, hdetached'⟩ := hall copy hcopy
    exact ⟨hge, hlt.trans_le hkeeps.length.ge, hdetached'.keeps hkeeps⟩

/-- A copy that nobody has been handed yet. -/
theorem copy (h : s.BranchedFrom t) (hd : t.documents[doc]? = some d) :
    s.BranchedFrom (t.withWorkspace (t.catalogue.workspace.copy doc).1) ∧
      (t.catalogue.workspace.copy doc).1.Detached t.documents.length := by
  have hlength : (t.catalogue.workspace.copy doc).1.documents.length = t.documents.length + 1 := by
    simp [Workspace.copy_eq hd]
  refine ⟨⟨h.bounded.copy hd, ?_, fun i hi => ?_, ?_⟩, h.bounded.detached_copy hd⟩
  · exact h.grown.trans (hlength ▸ Nat.le_succ _)
  · exact (Workspace.getElem?_copy hd).trans
      ((if_neg (hi.trans_le h.grown).ne).trans (h.old i hi))
  · obtain ⟨copies, hcopies, hnodup, hall⟩ := h.graphs
    refine ⟨copies, hcopies, hnodup, fun copy hcopy => ?_⟩
    obtain ⟨hge, hlt, hdetached⟩ := hall copy hcopy
    exact ⟨hge, hlt.trans (hlength ▸ Nat.lt_succ_self _), hdetached.copy h.bounded hlt hd⟩

theorem hand (h : s.BranchedFrom t) (hnew : doc ∉ t.graphs) (hge : s.documents.length ≤ doc)
    (hlt : doc < t.documents.length) (hdetached : t.catalogue.workspace.Detached doc) :
    s.BranchedFrom ⟨t.catalogue, t.graphs ++ [doc]⟩ where
  bounded := h.bounded
  grown := h.grown
  old := h.old
  graphs := by
    obtain ⟨copies, hcopies, hnodup, hall⟩ := h.graphs
    have hfresh : doc ∉ copies := fun hmem => hnew (hcopies ▸ List.mem_append_right _ hmem)
    refine ⟨copies ++ [doc], by rw [hcopies, List.append_assoc], ?_, ?_⟩
    · simpa [List.nodup_append] using ⟨hnodup, fun copy hcopy heq => hfresh (heq ▸ hcopy)⟩
    · intro copy hcopy
      rcases List.mem_append.mp hcopy with hcopy | hcopy
      · exact hall copy hcopy
      · rw [List.mem_singleton.mp hcopy]
        exact ⟨hge, hlt, hdetached⟩

theorem lt_of_mem (h : s.BranchedFrom t) (hs : s.Coherent) (hdoc : doc ∈ t.graphs) :
    doc < t.documents.length := by
  obtain ⟨copies, hcopies, -, hall⟩ := h.graphs
  rcases List.mem_append.mp (hcopies ▸ hdoc) with hold | hcopy
  · exact (hs.handed doc hold).trans_le h.grown
  · exact (hall doc hcopy).2.1

theorem apply [Machine] (h : s.BranchedFrom t) (hs : s.Coherent) (hd : t.documents[doc]? = some d)
    (parameters : Registry) (values : Json) :
    s.BranchedFrom (t.handOut (t.catalogue.apply doc parameters values).1
      (t.catalogue.apply doc parameters values).2) := by
  have hnew : t.documents.length ∉ t.graphs := fun hmem => (h.lt_of_mem hs hmem).false
  obtain ⟨hcopied, hdetached⟩ := h.copy hd
  have hinjected := hcopied.inject h.grown hdetached parameters values
  have hkeeps : Workspace.KeepsHoldings (t.catalogue.workspace.copy doc).1 _ :=
    Workspace.keepsHoldings_inject t.documents.length parameters values
      (t.catalogue.workspace.copy doc).1
  have hnumber : (t.catalogue.workspace.copy doc).2 = t.documents.length := by
    simp [Workspace.copy_eq hd]
  unfold Catalogue.apply Session.handOut
  split
  next n hresult =>
    split at hresult
    next hshallow =>
      obtain ⟨_, -, rfl⟩ := Except.map_eq_ok.mp hresult
      rw [if_pos hshallow]
      simp only [hnumber]
      refine hinjected.hand hnew h.grown ?_ (hdetached.keeps hkeeps)
      refine Nat.lt_of_lt_of_eq ?_ hkeeps.length.symm
      simp [Workspace.copy_eq hd]
    next => simp at hresult
  next =>
    split
    · simp only [hnumber]
      exact hinjected
    · exact h

/-- A call on copies. -/
theorem serve [Machine] (h : s.BranchedFrom t) (hs : s.Coherent)
    (hsource : source < s.graphs.length) {call : Call}
    (hcall : call.OnCopies source s.graphs.length) : s.BranchedFrom (t.serve call) := by
  cases call with
  | apply graph parameters values =>
    obtain rfl : graph = source := hcall
    simp only [Session.serve]
    split
    next doc hdoc =>
      rw [h.getElem?_graphs hsource] at hdoc
      have hlt := (hs.handed doc (List.mem_of_getElem? hdoc)).trans_le h.grown
      exact h.apply hs (List.getElem?_eq_getElem hlt) parameters values
    next => exact h
  | inject graph parameters values =>
    simp only [Session.serve]
    split
    next doc hdoc =>
      obtain ⟨hge, -, hdetached⟩ := h.copy_of_getElem? hcall hdoc
      exact h.inject hge hdetached parameters values
    next => exact h
  | _ => exact hcall.elim

theorem run [Machine] (h : s.BranchedFrom t) (hs : s.Coherent) (hsource : source < s.graphs.length)
    (hcalls : ∀ call ∈ calls, call.OnCopies source s.graphs.length) :
    s.BranchedFrom (Session.run calls t) := by
  induction calls generalizing t with
  | nil => exact h
  | cons call calls ih =>
    obtain ⟨hcall, hcalls⟩ := List.forall_mem_cons.mp hcalls
    exact ih (h.serve hs hsource hcall) hcalls

theorem document_of_graph (h : s.BranchedFrom t) (hs : s.Coherent)
    (hdoc : s.graphs[graph]? = some doc) : t.documents[doc]? = s.documents[doc]? :=
  h.old doc (hs.handed doc (List.mem_of_getElem? hdoc))

end BranchedFrom

/-- Injections into copies of a graph and into these copies change no graph that was there, and each
of them changes no other copy. Whatever was injected before, an injection into the next copy of the
graph reports and gives what it would have at first. -/
theorem copies_isolated [Machine] (hs : s.Coherent) (hsource : source < s.graphs.length)
    (hcalls : ∀ call ∈ calls, call.OnCopies source s.graphs.length) :
    (∀ graph < s.graphs.length, (run calls s).shown graph = s.shown graph) ∧
      (∀ copy parameters values, s.graphs.length ≤ copy → ∀ other ≠ copy,
        ((run calls s).serve (.inject copy parameters values)).shown other =
          (run calls s).shown other) ∧
      ∀ parameters values, (run calls s).applied source parameters values =
        s.applied source parameters values := by
  -- After every run what was there stands as it did, and what was handed out since is detached.
  have hrun : s.BranchedFrom (run calls s) := (BranchedFrom.refl hs).run hs hsource hcalls
  refine ⟨fun graph hgraph => ?_, fun copy parameters values hcopy other hother => ?_,
    fun parameters values => ?_⟩
  · simp only [shown, hrun.getElem?_graphs hgraph]
    cases hdoc : s.graphs[graph]? with
    | none => rfl
    | some doc => simp only [Option.map_some, Workspace.value, hrun.document_of_graph hs hdoc]
  · simp only [serve]
    split
    next doc hdoc =>
      obtain ⟨-, -, hdetached⟩ := hrun.copy_of_getElem? hcopy hdoc
      simp only [shown]
      cases hother' : (run calls s).graphs[other]? with
      | none => rfl
      | some other' =>
        have hne := hrun.ne_of_ne hs hcopy hother hdoc hother'
        have hsame := hdetached.inject hne parameters values
        simp only [Option.map_some, Workspace.value, Catalogue.inject, hsame]
    next => rfl
  · simp only [applied, hrun.getElem?_graphs hsource]
    cases hdoc : s.graphs[source]? with
    | none => rfl
    | some doc =>
      have hlt := hs.handed doc (List.mem_of_getElem? hdoc)
      have hd := List.getElem?_eq_getElem hlt
      have hd' := (hrun.document_of_graph hs hdoc).trans hd
      simp only [Option.map_some, Catalogue.applied_congr hd' hd]

/-- A template of one node. Its widget value is an object, which the compiled node also has as an
input. -/
def encoder : Template :=
  ⟨.str "t", .ofFields [("nodes", .list [.ofFields [("id", .int 1), ("type", .str "CLIPTextEncode"),
      ("widgets_values", .list [.ofFields [("k", .str "old")]])]]), ("links", .list [])],
    .str "", [(.str "p",
      ⟨.str "CLIPTextEncode", .str "inputs.text.k", .null, .string, none, .str ""⟩)]⟩

/-- The compiled graph of that template with a text in the object. -/
def encoded (text : String) : Json :=
  .ofFields [("1", .ofFields [("class_type", .str "CLIPTextEncode"),
    ("inputs", .ofFields [("text", .ofFields [("k", .str text)])]),
    ("widgets_values", .list [.ofFields [("k", .str text)]])])]

attribute [local instance] Machine.common in
/-- Two copies of a graph that shares an object with itself, and then another text in the first one:
both places of the object change there, and nowhere else. -/
theorem copies_of_encoder_isolated :
    let s := run [.register encoder, .load encoder.name ⟨[], Compile.Normalizer.standard, false⟩] start
    let texts (text : String) : Json := .obj [(.str "p", .str text)]
    let calls : List Call := [.apply 0 encoder.parameters (texts "one"),
      .apply 0 encoder.parameters (texts "two")]
    let after := (run calls s).serve (.inject 1 encoder.parameters (texts "three"))
    (s.Coherent ∧ 0 < s.graphs.length ∧ ∀ call ∈ calls, call.OnCopies 0 s.graphs.length) ∧
      (run calls s).shown 0 = some (encoded "old") ∧ (run calls s).shown 1 = some (encoded "one") ∧
      after.shown 0 = some (encoded "old") ∧ after.shown 1 = some (encoded "three") ∧
      after.shown 2 = some (encoded "two") := by
  intro s texts calls after
  have hs : s.Coherent := coherent_run _
  have hgraphs : s.graphs.length = 1 := by decide +kernel
  have hgraph : 0 < s.graphs.length := by omega
  have hcalls : ∀ call ∈ calls, call.OnCopies 0 s.graphs.length := by
    simp [calls, Call.OnCopies]
  have hsource : s.shown 0 = some (encoded "old") := by decide +kernel
  have hcopies : (run calls s).shown 1 = some (encoded "one") ∧
      (run calls s).shown 2 = some (encoded "two") := by decide +kernel
  obtain ⟨hkept, hothers, -⟩ := copies_isolated hs hgraph hcalls
  have hold := (hkept 0 hgraph).trans hsource
  have hothers := hothers 1 encoder.parameters (texts "three") (by omega)
  refine ⟨⟨hs, hgraph, hcalls⟩, hold, hcopies.1, ?_, ?_, ?_⟩
  · exact (hothers 0 (by omega)).trans hold
  · decide +kernel
  · exact (hothers 2 (by omega)).trans hcopies.2

end Session
end NodeWorkflow
