import Mathlib.Data.List.Induction
import NodeWorkflow.Proofs.Template.Loading

/-!
# What a catalogue lists

After any templates are registered in a row, the catalogue lists those that none of the later ones
replaces, each once. A template whose name is no scalar is not registered and changes nothing.
-/
namespace NodeWorkflow

namespace Entries

variable {α : Type} {k : Scalar} {v : α} {es : Entries α} {e : Scalar × α}

theorem mem_put_of_distinct (h : es.Distinct) (he : e ∈ put k v es) :
    e ∈ es ∧ e.1.agrees k = false ∨ e.2 = v ∧ (e.1 = k ∨ e.1.agrees k = true) := by
  induction es with
  | nil => exact .inr (by simp_all [put])
  | cons f es ih =>
    obtain ⟨hhead, htail⟩ := List.pairwise_cons.mp h
    rw [put] at he
    split at he
    next hagrees =>
      rcases List.mem_cons.mp he with rfl | hmem
      · exact .inr ⟨rfl, .inr hagrees⟩
      · refine .inl ⟨List.mem_cons_of_mem _ hmem, ?_⟩
        rw [← Bool.not_eq_true]
        intro hother
        have hsame := Scalar.agrees_trans hagrees (Scalar.agrees_symm hother)
        exact Bool.false_ne_true ((hhead e hmem).symm.trans hsame)
    next hother =>
      rcases List.mem_cons.mp he with rfl | hmem
      · exact .inl ⟨List.mem_cons_self, by simpa using hother⟩
      · exact (ih htail hmem).imp_left fun h => ⟨List.mem_cons_of_mem _ h.1, h.2⟩

theorem mem_put_of_mem (he : e ∈ es) (hother : e.1.agrees k = false) (v : α) : e ∈ put k v es := by
  induction es with
  | nil => simp at he
  | cons f es ih =>
    rw [put]
    rcases List.mem_cons.mp he with rfl | hmem
    · simp [hother]
    · split
      · exact List.mem_cons_of_mem _ hmem
      · exact List.mem_cons_of_mem _ (ih hmem)

theorem exists_mem_put (k : Scalar) (v : α) (es : Entries α) : ∃ l, (l, v) ∈ put k v es := by
  induction es with
  | nil => exact ⟨k, List.mem_cons_self⟩
  | cons f es ih =>
    rw [put]
    split
    · exact ⟨f.1, List.mem_cons_self⟩
    · obtain ⟨l, hl⟩ := ih
      exact ⟨l, List.mem_cons_of_mem _ hl⟩

end Entries

/-- A template that no later one of the list replaces. -/
def Template.Latest (templates : List Template) (t : Template) : Prop :=
  ∃ name before after, t.name = .scalar name ∧ templates = before ++ t :: after ∧
    ∀ later ∈ after, ¬ later.IsNamed name

theorem Template.Latest.mem {templates : List Template} {t : Template} (h : t.Latest templates) :
    t ∈ templates := by
  obtain ⟨_, before, after, -, rfl, -⟩ := h
  exact List.mem_append_right before List.mem_cons_self

theorem Template.latest_concat {templates : List Template} {t next : Template} :
    t.Latest (templates ++ [next]) ↔ (t = next ∧ ∃ name, next.name = .scalar name) ∨
      (t.Latest templates ∧ ∀ name, t.name = .scalar name → ¬ next.IsNamed name) := by
  constructor
  · rintro ⟨name, before, after, hname, hsplit, hlater⟩
    rcases List.eq_nil_or_concat after with rfl | ⟨after, last, rfl⟩
    · obtain ⟨-, hlast⟩ := List.append_inj' hsplit rfl
      obtain rfl : next = t := List.head_eq_of_cons_eq hlast
      exact .inl ⟨rfl, name, hname⟩
    · rw [List.concat_eq_append] at hsplit hlater
      rw [← List.cons_append, ← List.append_assoc] at hsplit
      obtain ⟨hfront, hlast⟩ := List.append_inj' hsplit rfl
      obtain rfl : next = last := List.head_eq_of_cons_eq hlast
      refine .inr ⟨⟨name, before, after, hname, hfront, fun later hmem => ?_⟩,
        fun other hother => ?_⟩
      · exact hlater later (List.mem_append_left _ hmem)
      · obtain rfl : name = other := Json.scalar.inj (hname.symm.trans hother)
        exact hlater next (by simp)
  · rintro (⟨rfl, name, hname⟩ | ⟨⟨name, before, after, hname, rfl, hlater⟩, hnext⟩)
    · exact ⟨name, templates, [], hname, rfl, by simp⟩
    · refine ⟨name, before, after ++ [next], hname, by simp, fun later hmem => ?_⟩
      rcases List.mem_append.mp hmem with hmem | hmem
      · exact hlater later hmem
      · rw [List.mem_singleton.mp hmem]
        exact hnext name hname

namespace Catalogue

variable {c : Catalogue} {t : Template}

def add (c : Catalogue) (t : Template) : Catalogue := (c.register t).toOption.getD c

def registered (templates : List Template) : Catalogue := templates.foldl add empty

def template (c : Catalogue) (listing : Listing) : Template :=
  ⟨.scalar listing.name, c.workspace.value listing.document, listing.description,
    listing.parameters⟩

def templates (c : Catalogue) : List Template := c.listings.map fun e => c.template e.2

/-- Templates stand under keys that agree with their names, and their workflows are there. -/
structure Tended (c : Catalogue) : Prop where
  distinct : c.listings.Distinct
  names : ∀ e ∈ c.listings, e.1 = e.2.name ∨ e.1.agrees e.2.name = true
  documents : ∀ e ∈ c.listings, e.2.document < c.workspace.documents.length

theorem add_of_scalar {name : Scalar} (h : t.name = .scalar name) : c.add t =
    ⟨⟨c.workspace.documents ++ [.own t.workflow], c.workspace.parts⟩,
      Entries.put name ⟨name, t.description, t.parameters, c.workspace.documents.length⟩
        c.listings⟩ := by
  simp only [add, register, h]
  rfl

theorem add_of_not_scalar (h : ∀ name, t.name ≠ .scalar name) : c.add t = c := by
  unfold add register
  split
  next name hname => exact absurd hname (h name)
  next => rfl

theorem Tended.agrees_iff (h : c.Tended) {e : Scalar × Listing} (he : e ∈ c.listings)
    (name : Scalar) : name.agrees e.2.name = true ↔ e.1.agrees name = true := by
  rcases h.names e he with hkey | hkey
  · rw [hkey]
    exact ⟨Scalar.agrees_symm, Scalar.agrees_symm⟩
  · constructor
    · intro hname
      exact Scalar.agrees_trans hkey (Scalar.agrees_symm hname)
    · intro hname
      exact Scalar.agrees_trans (Scalar.agrees_symm hname) hkey

/-- The name of another template agrees with that of a listing if and only if it agrees with the key
of this. -/
theorem Tended.isNamed_iff (h : c.Tended) {next : Template} {name : Scalar}
    (hname : next.name = .scalar name) {e : Scalar × Listing} (he : e ∈ c.listings) :
    next.IsNamed e.2.name ↔ e.1.agrees name = true := by
  rw [← h.agrees_iff he name]
  constructor
  · rintro ⟨_, hname', hagrees⟩
    rwa [Json.scalar.inj (hname.symm.trans hname')]
  · intro hagrees
    exact ⟨name, hname, hagrees⟩

theorem Tended.add (h : c.Tended) (t : Template) : (c.add t).Tended := by
  by_cases hscalar : ∃ name, t.name = .scalar name
  · obtain ⟨name, hname⟩ := hscalar
    rw [add_of_scalar hname]
    constructor
    case distinct => exact Entries.distinct_put h.distinct _ _
    case names =>
      intro e he
      rcases Entries.mem_put he with hmem | ⟨hvalue, hkey⟩
      · exact h.names e hmem
      · rwa [hvalue]
    case documents =>
      intro e he
      rw [List.length_append]
      rcases Entries.mem_put he with hmem | ⟨hvalue, -⟩
      · exact Nat.lt_add_right 1 (h.documents e hmem)
      · rw [hvalue]
        exact Nat.lt_succ_self _
  · rwa [add_of_not_scalar (not_exists.mp hscalar)]

theorem tended_registered (templates : List Template) : (registered templates).Tended := by
  induction templates using List.reverseRecOn with
  | nil => exact ⟨.nil, by simp [registered, empty], by simp [registered, empty]⟩
  | append_singleton templates t ih =>
    rw [registered, List.foldl_concat]
    exact ih.add t

theorem Tended.template_eq (h : c.Tended) {e : Scalar × Listing} (he : e ∈ c.listings)
    (listings : Entries Listing) (workflow : Json) :
    template ⟨⟨c.workspace.documents ++ [.own workflow], c.workspace.parts⟩, listings⟩ e.2 =
      c.template e.2 := by
  simp only [template, Workspace.value, List.getElem?_append_left (h.documents e he)]

theorem template_add {next : Template} {name : Scalar} (hname : next.name = .scalar name) :
    (c.add next).template
      ⟨name, next.description, next.parameters, c.workspace.documents.length⟩ = next := by
  simp only [add_of_scalar hname, template, Workspace.value, List.getElem?_concat_length, ← hname]
  rfl

/-- The template that is added is listed, and of the others those that have another name. -/
theorem Tended.mem_templates_add (h : c.Tended) {next : Template} {name : Scalar}
    (hname : next.name = .scalar name) : t ∈ (c.add next).templates ↔
      t = next ∨ (t ∈ c.templates ∧ ∀ other, t.name = .scalar other → ¬ next.IsNamed other) := by
  have hlistings : (c.add next).listings = Entries.put name
      ⟨name, next.description, next.parameters, c.workspace.documents.length⟩ c.listings := by
    rw [add_of_scalar hname]
  have hkept : ∀ e ∈ c.listings, (c.add next).template e.2 = c.template e.2 := by
    intro e he
    rw [add_of_scalar hname]
    exact h.template_eq he _ _
  constructor
  · intro ht
    obtain ⟨e, he, rfl⟩ := List.mem_map.mp ht
    rw [hlistings] at he
    rcases Entries.mem_put_of_distinct h.distinct he with ⟨hmem, hother⟩ | ⟨hvalue, -⟩
    · refine .inr ⟨hkept e hmem ▸ List.mem_map_of_mem hmem, fun other heq => ?_⟩
      obtain rfl : e.2.name = other := Json.scalar.inj heq
      rw [h.isNamed_iff hname hmem, hother]
      exact Bool.false_ne_true
    · exact .inl (by rw [hvalue, template_add hname])
  · rintro (rfl | ⟨ht, hother⟩)
    · obtain ⟨key, hkey⟩ := Entries.exists_mem_put name
        ⟨name, t.description, t.parameters, c.workspace.documents.length⟩ c.listings
      exact List.mem_map.mpr ⟨_, hlistings ▸ hkey, template_add hname⟩
    · obtain ⟨e, he, rfl⟩ := List.mem_map.mp ht
      have hkey : e.1.agrees name = false := by
        rw [← Bool.not_eq_true, ← h.isNamed_iff hname he]
        exact hother e.2.name rfl
      refine List.mem_map.mpr ⟨e, ?_, hkept e he⟩
      rw [hlistings]
      exact Entries.mem_put_of_mem he hkey _

/-- What is listed after templates are registered in a row: those that no later one replaces. -/
theorem mem_templates_registered {ts : List Template} :
    t ∈ (registered ts).templates ↔ t.Latest ts := by
  induction ts using List.reverseRecOn generalizing t with
  | nil => simp [registered, templates, empty, Template.Latest]
  | append_singleton ts next ih =>
    rw [registered, List.foldl_concat, ← registered, Template.latest_concat, ← ih]
    by_cases hscalar : ∃ name, next.name = .scalar name
    · obtain ⟨name, hname⟩ := hscalar
      rw [(tended_registered ts).mem_templates_add hname]
      exact or_congr_left (iff_self_and.mpr fun _ => ⟨name, hname⟩)
    · rw [add_of_not_scalar (not_exists.mp hscalar)]
      have hnamed : ∀ other, ¬ next.IsNamed other := fun other h => hscalar (h.imp fun _ h => h.1)
      simp [hscalar, hnamed]

end Catalogue
end NodeWorkflow
