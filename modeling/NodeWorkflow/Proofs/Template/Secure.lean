import NodeWorkflow.Proofs.Template.Exposure
import NodeWorkflow.Proofs.Template.Guards

/-!
# What sessions keep

A session is secure for documents with the values they once had if each of them still has its value
and is guarded. Every move keeps a session secure, if the templates among these documents are not
exposed, and so does every call and every run.
-/
namespace NodeWorkflow

open Compile

namespace Session

variable {s : Session} {kept : List (Nat × Json)} {doc other parts : Nat} {d e : Document}
  {w : Workspace}

structure Secure (s : Session) (kept : List (Nat × Json)) : Prop where
  tidy : s.Tidy
  guards : ∀ k ∈ kept, ∃ d, d.value = k.2 ∧ s.Guards k.1 d

/-- A document that may be handed out. -/
structure Free (s : Session) (kept : List (Nat × Json)) (doc : Nat) : Prop where
  lt : doc < s.documents.length
  unlisted : ∀ e ∈ s.catalogue.listings, e.2.document ≠ doc
  unkept : ∀ k ∈ kept, k.1 ≠ doc

theorem Secure.free (h : s.Secure kept) (hdoc : doc ∈ s.graphs) : s.Free kept doc where
  lt := (h.tidy.handed doc hdoc).1
  unlisted := (h.tidy.handed doc hdoc).2
  unkept k hk heq := by
    obtain ⟨d, -, hguards⟩ := h.guards k hk
    exact hguards.unhanded (heq ▸ hdoc)

theorem Secure.hand (h : s.Secure kept) (hfree : s.Free kept doc) :
    Secure ⟨s.catalogue, s.graphs ++ [doc]⟩ kept where
  tidy :=
    { bounded := h.tidy.bounded
      listed := h.tidy.listed
      handed := fun n hn => by
        rcases List.mem_append.mp hn with hn | hn
        · exact h.tidy.handed n hn
        · rw [List.mem_singleton.mp hn]
          exact ⟨hfree.lt, hfree.unlisted⟩ }
  guards k hk := by
    obtain ⟨d, hvalue, hguards⟩ := h.guards k hk
    refine ⟨d, hvalue, { hguards with unhanded := fun hmem => ?_ }⟩
    rcases List.mem_append.mp hmem with hmem | hmem
    · exact hguards.unhanded hmem
    · exact hfree.unkept k hk (List.mem_singleton.mp hmem)

theorem Secure.handOut {c : Catalogue} {run : Traced Nat} (h : Secure ⟨c, s.graphs⟩ kept)
    (hfree : ∀ n, run.result = .ok n → Free ⟨c, s.graphs⟩ kept n) :
    (s.handOut c run).Secure kept := by
  unfold Session.handOut
  split
  next n hresult => exact h.hand (hfree n hresult)
  next => exact h

theorem Secure.inject [Machine] (h : s.Secure kept) (hfree : s.Free kept other)
    (registry : Registry) (values : Json) :
    (s.withWorkspace (NodeWorkflow.inject (Workspace.surface other) registry values
      s.catalogue.workspace).state).Secure kept where
  tidy := h.tidy.keeps (Workspace.keepsHoldings_inject other registry values _)
  guards k hk := by
    obtain ⟨d, hvalue, hguards⟩ := h.guards k hk
    obtain ⟨hclosed, hstored⟩ := Workspace.closed_inject hguards.closed hguards.stored
      (hfree.unkept k hk).symm registry values
    exact ⟨d, hvalue, hguards.keeps (Workspace.keepsHoldings_inject other registry values _) hclosed
      hstored⟩

theorem Free.inject [Machine] (h : s.Free kept doc) (registry : Registry) (values : Json) :
    (s.withWorkspace (NodeWorkflow.inject (Workspace.surface other) registry values
      s.catalogue.workspace).state).Free kept doc where
  lt := by
    have hkeeps : Workspace.KeepsHoldings s.catalogue.workspace _ :=
      Workspace.keepsHoldings_inject other registry values s.catalogue.workspace
    exact hkeeps.length ▸ h.lt
  unlisted := h.unlisted
  unkept := h.unkept

/-- A new document that seals the documents that are kept. -/
theorem Secure.add (h : s.Secure kept) (hparts : s.catalogue.workspace.parts ≤ parts)
    (hbounded : ∀ x ∈ e.holdings, x.part < parts)
    (hseals : ∀ k ∈ kept, ∀ d, s.Guards k.1 d → e.Seals d) :
    (s.withWorkspace ⟨s.documents ++ [e], parts⟩).Secure kept ∧
      (s.withWorkspace ⟨s.documents ++ [e], parts⟩).Free kept s.documents.length := by
  refine ⟨⟨h.tidy.add hparts hbounded, fun k hk => ?_⟩, ?_, ?_, ?_⟩
  · obtain ⟨d, hvalue, hguards⟩ := h.guards k hk
    exact ⟨d, hvalue, hguards.add h.tidy hparts (hseals k hk d hguards)⟩
  · simp [documents, withWorkspace]
  · intro f hf
    obtain ⟨d, hd, -⟩ := h.tidy.listed f hf
    exact (List.getElem?_eq_some_iff.mp hd).1.ne
  · intro k hk
    obtain ⟨d, -, hguards⟩ := h.guards k hk
    exact (List.getElem?_eq_some_iff.mp hguards.stored).1.ne

theorem Secure.bring [Machine] (h : s.Secure kept) (graph : Json) :
    (s.serve (.bring graph)).Secure kept := by
  obtain ⟨hsecure, hfree⟩ := h.add (e := .own graph) le_rfl (by simp [Document.own])
    fun k hk d hguards => Document.seals_own graph d
  exact hsecure.hand hfree

theorem Secure.copy (h : s.Secure kept) (doc : Nat) :
    (s.withWorkspace (s.catalogue.workspace.copy doc).1).Secure kept ∧
      (s.withWorkspace (s.catalogue.workspace.copy doc).1).Free kept
        (s.catalogue.workspace.copy doc).2 := by
  cases hd : s.catalogue.workspace.documents[doc]? with
  | none =>
    rw [Workspace.copy, hd]
    exact h.add (e := .own .null) le_rfl (by simp [Document.own])
      fun k hk d hguards => Document.seals_own .null d
  | some d =>
    have hbounded : s.catalogue.workspace.Bounded := h.tidy.bounded
    rw [Workspace.copy_eq hd]
    refine h.add (Nat.le_add_right _ _) (hbounded.renumbered hd) ?_
    refine fun k hk f hguards => Document.seals_of_foreign fun x hx hholds => ?_
    obtain ⟨z, hz, hpart⟩ := hholds
    exact hbounded.not_holds_renumbered hguards.stored hz hx hpart.symm

/-- A template gets holdings of the parts that a compilation draws on. -/
theorem Secure.extend (h : s.Secure kept) {entry : Scalar × Listing}
    (hlisted : entry ∈ s.catalogue.listings) (hd : s.documents[entry.2.document]? = some d)
    {q : Pair} (hext : (Pair.mk d.holdings [] s.catalogue.workspace.parts).Extends q)
    (hplain : Document.Plain ⟨d.value, q.editor⟩ q.parts) :
    (s.withWorkspace ⟨s.documents.set entry.2.document ⟨d.value, q.editor⟩, q.parts⟩).Secure
      kept where
  tidy := h.tidy.extend hext.parts hplain
  guards k hk := by
    obtain ⟨f, hvalue, hguards⟩ := h.guards k hk
    obtain ⟨more, heditor, hmore⟩ := hext.editor
    by_cases hsame : entry.2.document = k.1
    · have hstored := hguards.stored
      rw [← hsame] at hguards hstored ⊢
      obtain rfl : d = f := Option.some.inj (hd.symm.trans hstored)
      refine ⟨⟨d.value, q.editor⟩, hvalue, hguards.extend_self h.tidy hplain ?_⟩
      rintro part ⟨x, hx, rfl⟩
      rw [heditor] at hx
      rcases List.mem_append.mp hx with hx | hx
      · exact .inl ⟨x, hx, rfl⟩
      · exact .inr (hmore x hx)
    · refine ⟨f, hvalue, hguards.extend_other hsame hext.parts ?_⟩
      intro x hx
      rw [heditor] at hx
      rcases List.mem_append.mp hx with hx | hx
      · exact hguards.foreign entry hlisted hsame d hd x hx
      · rintro ⟨y, hy, hpart⟩
        exact absurd (hmore x hx) (hpart ▸ hguards.plain.bounded y hy).not_ge

/-- What a compilation draws on is sealed in the new document, for a template that is kept, and it
is none of the parts of the others. -/
theorem Secure.seals [Machine] (h : s.Secure kept) (hkept : ∀ k ∈ kept, ¬ Exposed k.2)
    {entry : Scalar × Listing} (hlisted : entry ∈ s.catalogue.listings)
    (hd : s.documents[entry.2.document]? = some d) {options : Options} {x : Json}
    {ds : List Drawing} {q : Pair} {part : Origin → Nat}
    (hext : (Pair.mk d.holdings [] s.catalogue.workspace.parts).Extends q)
    (hdrawn : (drawnWithin Machine.copyLevels options d.value).result = .ok (x, ds))
    (htrace : q.Traces (outline ds) part) {k : Nat × Json} (hk : k ∈ kept)
    (hstored : (s.documents.set entry.2.document ⟨d.value, q.editor⟩)[k.1]? = some e) :
    Document.Seals ⟨x, q.compiled⟩ e := by
  obtain ⟨f, hvalue, hguards⟩ := h.guards k hk
  by_cases hsame : entry.2.document = k.1
  · have hf := hguards.stored
    have hlt := (List.getElem?_eq_some_iff.mp hd).1
    rw [← hsame] at hf hstored
    obtain rfl : d = f := Option.some.inj (hd.symm.trans hf)
    rw [List.getElem?_set_self hlt] at hstored
    obtain rfl := Option.some.inj hstored
    exact seals_of_not_exposed (hvalue ▸ hkept k hk) hdrawn htrace
  · rw [List.getElem?_set_ne hsame] at hstored
    obtain rfl : f = e := Option.some.inj (hguards.stored.symm.trans hstored)
    obtain ⟨more, heditor, hmore⟩ := hext.editor
    refine Document.seals_of_foreign fun y hy hholds => ?_
    have hold {n : Nat} (hn : f.Holds n) : ¬ s.catalogue.workspace.parts ≤ n := by
      obtain ⟨z, hz, rfl⟩ := hn
      exact (hguards.plain.bounded z hz).not_ge
    rcases hext.compiled y hy with ⟨z, hz, hpart⟩ | ⟨z, hz, -⟩ | hnew
    · rw [heditor] at hz
      rw [← hpart] at hholds
      rcases List.mem_append.mp hz with hz | hz
      · exact hguards.foreign entry hlisted hsame d hd z hz hholds
      · exact hold hholds (hmore z hz)
    · simp at hz
    · exact hold hholds hnew

theorem Secure.compile [Machine] (h : s.Secure kept) (hkept : ∀ k ∈ kept, ¬ Exposed k.2)
    {entry : Scalar × Listing} (hlisted : entry ∈ s.catalogue.listings) (options : Options) :
    Secure ⟨(s.catalogue.compile options entry.2.document).1, s.graphs⟩ kept ∧
      ∀ n, (s.catalogue.compile options entry.2.document).2.result = .ok n →
        Free ⟨(s.catalogue.compile options entry.2.document).1, s.graphs⟩ kept n := by
  obtain ⟨d, hd, hplain⟩ := h.tidy.listed entry hlisted
  rw [Catalogue.compile_eq hd]
  cases hdrawn : (drawnWithin Machine.copyLevels options d.value).result with
  | error fault => exact ⟨h, by simp⟩
  | ok drawn =>
    obtain ⟨x, ds⟩ := drawn
    have hext := Pair.extends_foldl ds ⟨d.holdings, [], s.catalogue.workspace.parts⟩
    obtain ⟨part, htrace⟩ := Pair.traces_foldl ds hplain.places hplain.parts hplain.bounded
    dsimp only
    generalize ds.foldl Pair.draw ⟨d.holdings, [], s.catalogue.workspace.parts⟩ = q at hext htrace ⊢
    have hextended := h.extend hlisted hd hext ⟨htrace.places, htrace.parts, htrace.bounded⟩
    obtain ⟨hsecure, hfree⟩ := hextended.add (e := ⟨x, q.compiled⟩) le_rfl
      (by
        intro y hy
        simp only [htrace.compiled] at hy
        obtain ⟨a, ha, rfl⟩ := List.mem_map.mp hy
        exact htrace.known a ha)
      (fun k hk f hguards => h.seals hkept hlisted hd hext hdrawn htrace hk hguards.stored)
    refine ⟨hsecure, fun n hn => ?_⟩
    obtain rfl : s.documents.length = n := Except.ok.inj hn
    have hlength : (s.documents.set entry.2.document ⟨d.value, q.editor⟩).length =
        s.documents.length := List.length_set
    exact hlength ▸ hfree

/-- A template that is registered is kept from then on. -/
theorem Secure.register (h : s.Secure kept) {t : Template} {c : Catalogue}
    (hregister : s.catalogue.register t = .ok c) :
    Secure ⟨c, s.graphs⟩ ((s.documents.length, t.workflow) :: kept) := by
  obtain ⟨name, -, rfl⟩ := register_eq_ok hregister
  obtain ⟨hsecure, -⟩ := h.add (e := .own t.workflow) le_rfl (by simp [Document.own])
    fun k hk d hguards => Document.seals_own t.workflow d
  have hstored : (s.documents ++ [Document.own t.workflow])[s.documents.length]? =
      some (.own t.workflow) := by simp
  have hunhanded : s.documents.length ∉ s.graphs := fun hmem => (h.tidy.handed _ hmem).1.false
  have hguarded := guards_of_holdings_eq_nil
    (s := s.withWorkspace ⟨s.documents ++ [.own t.workflow], s.catalogue.workspace.parts⟩)
    hstored rfl hunhanded
  refine ⟨hsecure.tidy.list hstored hguarded.plain hunhanded, fun k hk => ?_⟩
  rcases List.mem_cons.mp hk with rfl | hk
  · exact ⟨.own t.workflow, rfl, hguarded.list hstored rfl⟩
  · obtain ⟨d, hvalue, hguards⟩ := hsecure.guards k hk
    exact ⟨d, hvalue, hguards.list hstored rfl⟩

theorem Secure.apply [Machine] (h : s.Secure kept) (doc : Nat) (parameters : Registry)
    (values : Json) : (s.handOut (s.catalogue.apply doc parameters values).1
      (s.catalogue.apply doc parameters values).2).Secure kept := by
  unfold Catalogue.apply
  split
  next =>
    obtain ⟨hsecure, hfree⟩ := h.copy doc
    refine (hsecure.inject hfree parameters values).handOut (s := s) fun n hn => ?_
    obtain ⟨_, -, rfl⟩ := Except.map_eq_ok.mp hn
    exact hfree.inject parameters values
  next => exact h.handOut fun n hn => by simp at hn

theorem Secure.build [Machine] (h : s.Secure kept) (hkept : ∀ k ∈ kept, ¬ Exposed k.2)
    {entry : Scalar × Listing} (hlisted : entry ∈ s.catalogue.listings) (parameters : Json)
    (options : Options) (timestamp : Json) :
    Secure ⟨(Payload.build s.catalogue entry.2 parameters options timestamp).1, s.graphs⟩ kept ∧
      ∀ payload, (Payload.build s.catalogue entry.2 parameters options timestamp).2.result =
          .ok payload →
        Free ⟨(Payload.build s.catalogue entry.2 parameters options timestamp).1, s.graphs⟩ kept
          payload.document := by
  unfold Payload.build
  cases parameters.entries with
  | error fault => exact ⟨h, by simp⟩
  | ok entries =>
    obtain ⟨hsecure, hfree⟩ := h.compile hkept hlisted options
    dsimp only
    generalize s.catalogue.compile options entry.2.document = compiled at hsecure hfree ⊢
    obtain ⟨c, run⟩ := compiled
    dsimp only at hsecure hfree ⊢
    cases hrun : run.result with
    | error fault => exact ⟨hsecure, by simp⟩
    | ok doc =>
      have hdoc := hfree doc hrun
      refine ⟨hsecure.inject hdoc entry.2.parameters _, fun payload hpayload => ?_⟩
      obtain ⟨_, -, rfl⟩ := Except.map_eq_ok.mp hpayload
      exact hdoc.inject entry.2.parameters _

/-- Every call keeps a session secure. -/
theorem Secure.serve [Machine] (h : s.Secure kept) (hkept : ∀ k ∈ kept, ¬ Exposed k.2)
    (call : Call) : (s.serve call).Secure kept := by
  cases call with
  | bring graph => exact h.bring graph
  | register template =>
    simp only [Session.serve]
    split
    next c hregister =>
      have hsecure := h.register hregister
      exact ⟨hsecure.tidy, fun k hk => hsecure.guards k (List.mem_cons_of_mem _ hk)⟩
    next => exact h
  | load name options =>
    simp only [Session.serve, Catalogue.load]
    cases hget : s.catalogue.get name with
    | error fault => exact h.handOut fun n hn => by simp at hn
    | ok listing =>
      obtain ⟨entry, hlisted, rfl⟩ := mem_of_get hget
      obtain ⟨hsecure, hfree⟩ := h.compile hkept hlisted options
      exact hsecure.handOut hfree
  | apply graph parameters values =>
    simp only [Session.serve]
    split
    · exact h.apply _ parameters values
    · exact h
  | applyStored name parameters values =>
    simp only [Session.serve]
    split
    · exact h.apply _ parameters values
    · exact h
  | inject graph parameters values =>
    simp only [Session.serve]
    split
    next doc hdoc => exact h.inject (h.free (List.mem_of_getElem? hdoc)) parameters values
    next => exact h
  | payload name parameters options timestamp =>
    simp only [Session.serve]
    split
    next listing hget =>
      obtain ⟨entry, hlisted, rfl⟩ := mem_of_get hget
      obtain ⟨hsecure, hfree⟩ := h.build hkept hlisted parameters options timestamp
      refine hsecure.handOut fun n hn => ?_
      obtain ⟨payload, hpayload, rfl⟩ := Except.map_eq_ok.mp hn
      exact hfree payload hpayload
    next => exact h
  | request framework settings now request =>
    simp only [Session.serve]
    rcases handle_catalogue framework ⟨settings, s.catalogue, now⟩ request with hsame |
      ⟨name, listing, parameters, timestamp, hget, hbuilt⟩
    · rw [hsame]
      exact h
    · rw [hbuilt]
      obtain ⟨entry, hlisted, rfl⟩ := mem_of_get hget
      exact (h.build hkept hlisted parameters _ timestamp).1

theorem Secure.run [Machine] (h : s.Secure kept) (hkept : ∀ k ∈ kept, ¬ Exposed k.2)
    (calls : List Call) : (Session.run calls s).Secure kept := by
  induction calls generalizing s with
  | nil => exact h
  | cons call calls ih => exact ih (h.serve hkept call)

theorem secure_start : start.Secure [] where
  tidy := by constructor <;> simp [start, Catalogue.empty, Workspace.empty, documents]
  guards := by simp

end Session
end NodeWorkflow
