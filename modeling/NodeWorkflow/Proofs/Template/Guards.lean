import NodeWorkflow.Proofs.Sharing.Detached
import NodeWorkflow.Proofs.Template.Payload
import NodeWorkflow.Proofs.Template.Session

/-!
# Guarded documents

What holds of the documents of a session before and after every move: templates share no part with
themselves and are not handed out, and a guarded document is safe from writes into the others.
-/
namespace NodeWorkflow.Session

open Compile

abbrev documents (s : Session) : List Document := s.catalogue.workspace.documents

/-- Templates are documents that no caller was handed and that share no part with themselves. -/
structure Tidy (s : Session) : Prop where
  bounded : ∀ d ∈ s.documents, ∀ h ∈ d.holdings, h.part < s.catalogue.workspace.parts
  listed : ∀ e ∈ s.catalogue.listings, ∃ d, s.documents[e.2.document]? = some d ∧
    d.Plain s.catalogue.workspace.parts
  handed : ∀ doc ∈ s.graphs, doc < s.documents.length ∧
    ∀ e ∈ s.catalogue.listings, e.2.document ≠ doc

/-- The document is no graph that was handed out, no path leads to its parts in other documents, and
no other template has any of them. -/
structure Guards (s : Session) (doc : Nat) (d : Document) : Prop where
  stored : s.documents[doc]? = some d
  plain : d.Plain s.catalogue.workspace.parts
  unhanded : doc ∉ s.graphs
  closed : s.catalogue.workspace.Closed doc d
  foreign : ∀ e ∈ s.catalogue.listings, e.2.document ≠ doc → ∀ d',
    s.documents[e.2.document]? = some d' → ∀ h ∈ d'.holdings, ¬ d.Holds h.part

def withWorkspace (s : Session) (w : Workspace) : Session :=
  ⟨{ s.catalogue with workspace := w }, s.graphs⟩

variable {s : Session} {doc other parts : Nat} {d e : Document} {w : Workspace}

private theorem getElem?_snoc {ds : List Document} {i : Nat}
    (h : (ds ++ [e])[i]? = some d) : ds[i]? = some d ∨ d = e := by
  rcases lt_or_ge i ds.length with hlt | hge
  · rw [List.getElem?_append_left hlt] at h
    exact .inl h
  · rw [List.getElem?_append_right hge] at h
    exact .inr (List.mem_singleton.mp (List.mem_of_getElem? h))

private theorem getElem?_set {ds : List Document} {i : Nat}
    (h : (ds.set other e)[i]? = some d) : i = other ∧ d = e ∨ i ≠ other ∧ ds[i]? = some d := by
  by_cases hi : i = other
  · subst hi
    have hlt := (List.getElem?_eq_some_iff.mp h).1
    rw [List.getElem?_set_self (by simpa using hlt)] at h
    exact .inl ⟨rfl, (Option.some.inj h).symm⟩
  · rw [List.getElem?_set_ne (Ne.symm hi)] at h
    exact .inr ⟨hi, h⟩

theorem Tidy.keeps (h : s.Tidy) (hkeeps : Workspace.KeepsHoldings s.catalogue.workspace w) :
    (s.withWorkspace w).Tidy where
  bounded := Workspace.Bounded.keeps h.bounded hkeeps
  listed e he := by
    obtain ⟨d, hd, hplain⟩ := h.listed e he
    have hdoc := (List.getElem?_eq_some_iff.mp hd).1
    rw [← hkeeps.length] at hdoc
    have hd' := List.getElem?_eq_getElem hdoc
    obtain ⟨d₀, hd₀, hsub⟩ := hkeeps.holdings _ _ hd'
    obtain rfl := Option.some.inj (hd₀.symm.trans hd)
    exact ⟨_, hd', (hplain.sublist hsub).mono hkeeps.parts.ge⟩
  handed doc hdoc := by
    obtain ⟨hlt, hlisted⟩ := h.handed doc hdoc
    rw [documents, ← hkeeps.length] at hlt
    exact ⟨hlt, hlisted⟩

theorem Guards.keeps (h : s.Guards doc d)
    (hkeeps : Workspace.KeepsHoldings s.catalogue.workspace w)
    (hclosed : w.Closed doc d) (hstored : w.documents[doc]? = some d) :
    (s.withWorkspace w).Guards doc d where
  stored := hstored
  plain := h.plain.mono hkeeps.parts.ge
  unhanded := h.unhanded
  closed := hclosed
  foreign e he hne d' hd' x hx := by
    obtain ⟨d₀, hd₀, hsub⟩ := hkeeps.holdings _ _ hd'
    exact h.foreign e he hne d₀ hd₀ x (hsub.subset hx)

theorem Tidy.add (h : s.Tidy) (hparts : s.catalogue.workspace.parts ≤ parts)
    (hbounded : ∀ x ∈ e.holdings, x.part < parts) :
    (s.withWorkspace ⟨s.documents ++ [e], parts⟩).Tidy where
  bounded d hd x hx := by
    rcases List.mem_append.mp hd with hd | hd
    · exact (h.bounded d hd x hx).trans_le hparts
    · rw [List.mem_singleton.mp hd] at hx
      exact hbounded x hx
  listed e he := by
    obtain ⟨d, hd, hplain⟩ := h.listed e he
    have hdoc := (List.getElem?_eq_some_iff.mp hd).1
    exact ⟨d, (List.getElem?_append_left hdoc).trans hd, hplain.mono hparts⟩
  handed doc hdoc := by
    obtain ⟨hlt, hlisted⟩ := h.handed doc hdoc
    refine ⟨?_, hlisted⟩
    simp only [documents, withWorkspace, List.length_append] at hlt ⊢
    omega

theorem Guards.add (h : s.Guards doc d) (htidy : s.Tidy)
    (hparts : s.catalogue.workspace.parts ≤ parts) (hseals : e.Seals d) :
    (s.withWorkspace ⟨s.documents ++ [e], parts⟩).Guards doc d where
  stored := by
    have hdoc := (List.getElem?_eq_some_iff.mp h.stored).1
    exact (List.getElem?_append_left hdoc).trans h.stored
  plain := h.plain.mono hparts
  unhanded := h.unhanded
  closed i f hi hf := by
    rcases getElem?_snoc hf with hf | rfl
    · exact h.closed i f hi hf
    · exact hseals
  foreign e he hne d' hd' x hx := by
    obtain ⟨d₀, hd₀, -⟩ := htidy.listed e he
    have hdoc := (List.getElem?_eq_some_iff.mp hd₀).1
    have hd' : (s.documents ++ [_])[e.2.document]? = some d' := hd'
    rw [List.getElem?_append_left hdoc] at hd'
    exact h.foreign e he hne d' hd' x hx

def withListing (s : Session) (name : Scalar) (listing : Listing) : Session :=
  ⟨{ s.catalogue with listings := Entries.put name listing s.catalogue.listings }, s.graphs⟩

variable {name : Scalar} {listing : Listing}

theorem Tidy.list (h : s.Tidy) (hstored : s.documents[listing.document]? = some e)
    (hplain : e.Plain s.catalogue.workspace.parts) (hunhanded : listing.document ∉ s.graphs) :
    (s.withListing name listing).Tidy where
  bounded := h.bounded
  listed f hf := by
    rcases Entries.mem_put hf with hmem | ⟨hvalue, -⟩
    · exact h.listed f hmem
    · rw [hvalue]
      exact ⟨e, hstored, hplain⟩
  handed doc hdoc := by
    obtain ⟨hlt, hlisted⟩ := h.handed doc hdoc
    refine ⟨hlt, fun f hf heq => ?_⟩
    rcases Entries.mem_put hf with hmem | ⟨hvalue, -⟩
    · exact hlisted f hmem heq
    · rw [hvalue] at heq
      exact hunhanded (heq ▸ hdoc)

theorem Guards.list (h : s.Guards doc d) (hstored : s.documents[listing.document]? = some e)
    (hnone : e.holdings = []) : (s.withListing name listing).Guards doc d where
  stored := h.stored
  plain := h.plain
  unhanded := h.unhanded
  closed := h.closed
  foreign f hf hne d' hd' x hx := by
    rcases Entries.mem_put hf with hmem | ⟨hvalue, -⟩
    · exact h.foreign f hmem hne d' hd' x hx
    · rw [hvalue] at hd'
      obtain rfl : e = d' := Option.some.inj (hstored.symm.trans hd')
      simp [hnone] at hx

/-- A document without parts is guarded unless a caller was handed it. -/
theorem guards_of_holdings_eq_nil (hstored : s.documents[doc]? = some d) (hnone : d.holdings = [])
    (hunhanded : doc ∉ s.graphs) : s.Guards doc d where
  stored := hstored
  plain := by constructor <;> simp [hnone]
  unhanded := hunhanded
  closed i f _ _ := Document.seals_of_foreign fun x _ => by simp [Document.Holds, hnone]
  foreign e _ _ f _ x _ := by simp [Document.Holds, hnone]

/-- A template that gets holdings of new parts. -/
theorem Tidy.extend (h : s.Tidy) (hparts : s.catalogue.workspace.parts ≤ parts)
    (hplain : e.Plain parts) : (s.withWorkspace ⟨s.documents.set other e, parts⟩).Tidy where
  bounded d hd x hx := by
    rcases List.mem_or_eq_of_mem_set hd with hd | rfl
    · exact (h.bounded d hd x hx).trans_le hparts
    · exact hplain.bounded x hx
  listed f hf := by
    obtain ⟨d, hd, hplain'⟩ := h.listed f hf
    have hlt := (List.getElem?_eq_some_iff.mp hd).1
    by_cases heq : other = f.2.document
    · exact ⟨e, by rw [heq]; exact List.getElem?_set_self hlt, hplain⟩
    · exact ⟨d, (List.getElem?_set_ne heq).trans hd, hplain'.mono hparts⟩
  handed doc hdoc := by
    obtain ⟨hlt, hlisted⟩ := h.handed doc hdoc
    refine ⟨?_, hlisted⟩
    simpa [documents, withWorkspace] using hlt

theorem Guards.extend_other (h : s.Guards doc d) (hother : other ≠ doc)
    (hparts : s.catalogue.workspace.parts ≤ parts)
    (hforeign : ∀ x ∈ e.holdings, ¬ d.Holds x.part) :
    (s.withWorkspace ⟨s.documents.set other e, parts⟩).Guards doc d where
  stored := (List.getElem?_set_ne hother).trans h.stored
  plain := h.plain.mono hparts
  unhanded := h.unhanded
  closed i f hi hf := by
    rcases getElem?_set hf with ⟨-, rfl⟩ | ⟨-, hf⟩
    · exact Document.seals_of_foreign hforeign
    · exact h.closed i f hi hf
  foreign f hf hne d' hd' x hx := by
    rcases getElem?_set hd' with ⟨-, rfl⟩ | ⟨-, hd'⟩
    · exact hforeign x hx
    · exact h.foreign f hf hne d' hd' x hx

theorem Guards.extend_self (h : s.Guards doc d) (htidy : s.Tidy) (hplain : e.Plain parts)
    (hnew : ∀ part, e.Holds part → d.Holds part ∨ s.catalogue.workspace.parts ≤ part) :
    (s.withWorkspace ⟨s.documents.set doc e, parts⟩).Guards doc e where
  stored := List.getElem?_set_self (List.getElem?_eq_some_iff.mp h.stored).1
  plain := hplain
  unhanded := h.unhanded
  closed i f hi hf := by
    rcases getElem?_set hf with ⟨heq, -⟩ | ⟨-, hf⟩
    · exact absurd heq hi
    · refine (h.closed i f hi hf).of_holds fun x hx hholds => ?_
      rcases hnew _ hholds with hold | hge
      · exact hold
      · exact absurd (htidy.bounded f (List.mem_of_getElem? hf) x hx) hge.not_gt
  foreign f hf hne d' hd' x hx hholds := by
    rcases getElem?_set hd' with ⟨heq, -⟩ | ⟨-, hd'⟩
    · exact absurd heq hne
    · rcases hnew _ hholds with hold | hge
      · exact h.foreign f hf hne d' hd' x hx hold
      · exact absurd (htidy.bounded d' (List.mem_of_getElem? hd') x hx) hge.not_gt

end NodeWorkflow.Session
