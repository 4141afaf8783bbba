import NodeWorkflow.Proofs.Service.Compile
import NodeWorkflow.Proofs.Sorting.Basic
import NodeWorkflow.Proofs.Template.Listings

/-!
# How the service lists templates

The list of the templates is sent if each of them can be: name and description are texts without
halves of surrogate pairs, and the framework can send the specifications of parameters. A single
template that is not so keeps all the others from being listed. A template is sent by itself under
its name if this is one step of a path.
-/
namespace NodeWorkflow

namespace Template

open Service

def data (t : Template) : Json :=
  .ofFields [("name", t.name), ("description", t.description),
    ("parameters", parameterData t.parameters)]

variable (F : Framework)

def entry (t : Template) : Json :=
  .ofFields [("name", t.name), ("description", t.description), ("parameters",
    (F.present (.object (.object .any)) (parameterData t.parameters)).getD .null)]

structure Presentable (t : Template) : Prop where
  name : ∃ name, t.name = .str name ∧ Text.isWhole name
  description : ∃ description, t.description = .str description ∧ Text.isWhole description
  parameters : (F.present (.object (.object .any)) (parameterData t.parameters)).isSome

end Template

namespace Catalogue

variable {c : Catalogue} {ts : List Template} {t : Template}

/-- The listings of templates that can be sent are under their names, which are texts. -/
theorem Tended.key_eq (h : c.Tended) {e : Scalar × Listing} (he : e ∈ c.listings) {name : String}
    (hname : (c.template e.2).name = .str name) : e.1 = .str name := by
  have hlisting : e.2.name = .str name := Json.scalar.inj hname
  rcases h.names e he with hkey | hkey
  · rw [hkey, hlisting]
  · rw [hlisting] at hkey
    exact Scalar.agrees_str_iff.mp hkey

theorem Tended.textual (h : c.Tended) (hnames : ∀ t ∈ c.templates, ∃ name, t.name = .str name) :
    c.listings.Textual where
  texts e he := by
    obtain ⟨name, hname⟩ := hnames _ (List.mem_map_of_mem he)
    exact ⟨name, h.key_eq he hname⟩
  distinct := h.distinct

theorem sorted_of_textual (h : c.listings.Textual) : ∃ es, c.sorted = .ok es ∧
    es.Perm c.listings ∧ Sorting.Rising (fun e => Text.codes e.1.text) es := by
  have hordered : areOrdered (c.listings.map (·.1)) = true := by
    simp only [areOrdered, Bool.or_eq_true, List.all_map, List.all_eq_true]
    refine .inl (.inr fun e he => ?_)
    obtain ⟨name, hname⟩ := h.texts e he
    simp [hname]
  have hjudges : Sorting.Judges (fun a b => a.1.before b.1) (fun e => Text.codes e.1.text)
      c.listings := by
    intro a ha b hb
    obtain ⟨s, hs⟩ := h.texts a ha
    obtain ⟨t, ht⟩ := h.texts b hb
    simp only [hs, ht]
    exact Text.before_iff
  exact ⟨_, by rw [sorted, if_pos hordered], Sorting.sort_perm _ _, Sorting.rising_sort hjudges⟩

end Catalogue

namespace Service

namespace Framework.Documented

variable {F : Framework} (hF : F.Documented) {t : Template}
include hF

theorem isSome_present_text {v : Json} :
    (F.present .text v).isSome ↔ ∃ s, v = .str s ∧ Text.isWhole s := by
  by_cases h : ∃ s, v = .str s
  · obtain ⟨s, rfl⟩ := h
    rw [hF.present_text]
    split <;> simp [*]
  · rw [hF.present_not_text fun s hs => h ⟨s, hs⟩]
    simpa using fun s hs => absurd ⟨s, hs⟩ h

theorem isSome_present_listing : (F.present .listing t.data).isSome ↔ t.Presentable F := by
  have hrecord := hF.isSome_present_record [("name", .text, t.name),
    ("description", .text, t.description),
    ("parameters", .object (.object .any), parameterData t.parameters)] (by simp)
  rw [Schema.listing, Template.data]
  refine (show _ ↔ _ from hrecord).trans ?_
  simp only [List.forall_mem_cons, hF.isSome_present_text]
  exact ⟨fun h => ⟨h.1, h.2.1, h.2.2.1⟩,
    fun h => ⟨h.name, h.description, h.parameters, List.forall_mem_nil _⟩⟩

theorem present_listing (h : t.Presentable F) :
    F.present .listing t.data = some (t.entry F) := by
  have hrecord := hF.present_record [("name", .text, t.name), ("description", .text, t.description),
    ("parameters", .object (.object .any), parameterData t.parameters)] (by simp)
  obtain ⟨name, hname, hwhole⟩ := h.name
  obtain ⟨description, hdescription, hwhole'⟩ := h.description
  obtain ⟨shown, hshown⟩ := Option.isSome_iff_exists.mp h.parameters
  have htext (s : String) (hs : Text.isWhole s) : F.present .text (.str s) = some (.str s) := by
    rw [hF.present_text, if_pos hs]
  rw [Schema.listing, Template.data]
  refine (show _ = _ from hrecord).trans ?_
  simp [hname, hdescription, htext, hwhole, hwhole', hshown, Template.entry]

end Framework.Documented

section Catalogues

variable {F : Framework} (hF : F.Documented) {c : Catalogue} {t : Template} {name : String}
include hF

/-- If all templates can be sent, they are listed in the order of their names. -/
theorem templates_of_presentable (h : c.Tended) (hall : ∀ t ∈ c.templates, t.Presentable F) :
    ∃ shown : List Template, F.respond (.list .listing) (templates c).outcome =
        .ok (.list (shown.map (Template.entry F))) ∧
      shown.Perm c.templates ∧ (shown.map Template.name).Nodup ∧
      shown.Pairwise fun s t => Text.codes s.name.text ≤ Text.codes t.name.text := by
  have htextual : c.listings.Textual := h.textual fun t ht =>
    (hall t ht).name.imp fun _ hname => hname.1
  obtain ⟨es, hsorted, hperm, hrising⟩ := Catalogue.sorted_of_textual htextual
  have hkeys : ∀ e ∈ es, (c.template e.2).name = .scalar e.1 := by
    intro e he
    have hmem := hperm.subset he
    obtain ⟨name, hname, -⟩ := (hall _ (List.mem_map_of_mem hmem)).name
    rw [hname, h.key_eq hmem hname]
  have hlisted : (es.map fun e => listingData e.2).mapM (F.present .listing) =
      some (es.map fun e => (c.template e.2).entry F) := by
    rw [List.mapM_map]
    refine Option.mapM_eq_map fun e he => ?_
    exact hF.present_listing (hall _ (List.mem_map_of_mem (hperm.subset he)))
  refine ⟨es.map fun e => c.template e.2, ?_, hperm.map _, ?_, ?_⟩
  · have hpresent : F.present (.list .listing) (.list (es.map fun e => listingData e.2)) =
        some (.list (es.map fun e => (c.template e.2).entry F)) := by
      rw [hF.present_list, hlisted, Option.map_some]
    simp only [templates, Catalogue.all, hsorted, Except.map, Answer.ofExcept, List.map_map,
      Function.comp_def]
    exact hF.respond_returned hpresent
  · have hnames : (es.map fun e => c.template e.2).map Template.name =
        es.map fun e => .scalar e.1 := by
      rw [List.map_map]
      exact List.map_congr_left hkeys
    have hnodup : (es.map Prod.fst).Nodup := (hperm.map _).nodup_iff.mpr htextual.nodup_keys
    rw [hnames]
    simpa [List.map_map, Function.comp_def] using
      hnodup.map (f := Json.scalar) fun _ _ => Json.scalar.inj
  · refine List.pairwise_map.mpr (hrising.imp_of_mem fun {a b} ha hb hle => ?_)
    rw [hkeys a ha, hkeys b hb]
    exact hle

/-- One template that cannot be sent keeps all of them from being listed. -/
theorem templates_of_not_presentable (ht : t ∈ c.templates) (h : ¬ t.Presentable F) :
    (F.respond (.list .listing) (templates c).outcome).status = 500 := by
  unfold templates
  cases hall : c.all with
  | error fault => exact hF.respond_failed _
  | ok listings =>
    obtain ⟨es, hsorted, rfl⟩ := Except.map_eq_ok.mp hall
    have hperm : es.Perm c.listings := by
      unfold Catalogue.sorted at hsorted
      split at hsorted
      · exact Except.ok.inj hsorted ▸ Sorting.sort_perm _ _
      · simp at hsorted
    obtain ⟨e, he, rfl⟩ := List.mem_map.mp ht
    -- The template is in the list wherever it is sorted to, and its entry cannot be sent.
    have hnone : ((es.map (·.2)).map listingData).mapM (F.present .listing) = none := by
      rw [← Option.not_isSome_iff_eq_none, Option.isSome_mapM]
      intro hlisted
      refine h (hF.isSome_present_listing.mp (hlisted _ ?_))
      exact List.mem_map_of_mem (List.mem_map_of_mem (hperm.symm.subset he))
    exact hF.respond_invalid (by rw [hF.present_list, hnone, Option.map_none])

theorem response_template (h : c.Tended) (ht : t ∈ c.templates) (hname : t.name = .str name) :
    (t.Presentable F → F.respond .listing (template c name).outcome = .ok (t.entry F)) ∧
      (¬ t.Presentable F → (F.respond .listing (template c name).outcome).status = 500) := by
  obtain ⟨e, he, rfl⟩ := List.mem_map.mp ht
  have hget : c.get (.str name) = .ok e.2 := by
    have hfound : Entries.get? (.str name) c.listings = some e.2 :=
      Entries.get?_of_mem h.distinct (h.key_eq he hname ▸ he) (by simp)
    simp only [Catalogue.get, hfound]
  simp only [template, withListing, hget]
  constructor
  · exact fun hpresentable => hF.respond_returned (hF.present_listing hpresentable)
  · intro hpresentable
    have hnone : F.present .listing (c.template e.2).data = none :=
      Option.not_isSome_iff_eq_none.mp (mt hF.isSome_present_listing.mp hpresentable)
    exact hF.respond_invalid hnone

end Catalogues

section Routing

variable {F : Framework} {server : Server} {request : Request} {parts : List String} {name : String}

/-- Steps of a path that spell a name, with slashes in between. -/
structure Spells (parts : List String) (name : String) : Prop where
  nonempty : parts ≠ []
  steps : ∀ part ∈ parts, '/' ∉ part.toList
  joined : "/".intercalate parts = name

/-- The name is one step of a path, which is not empty. -/
def IsStep (name : String) : Prop := name ≠ "" ∧ '/' ∉ name.toList

theorem Spells.eq_singleton (h : Spells parts name) (hname : IsStep name) : parts = [name] := by
  obtain ⟨hnonempty, -, rfl⟩ := h
  cases parts with
  | nil => exact absurd rfl hnonempty
  | cons part rest =>
    cases rest with
    | nil => simp
    | cons next rest => exact absurd (by simp [String.toList_intercalate]) hname.2

/-- Under a name that is no step of a path there is nothing to get. -/
theorem status_handle_of_not_step [Machine] (hF : F.Documented) (hmethod : request.method = "GET")
    (hspells : Spells parts name) (hname : ¬ IsStep name)
    (hsteps : request.steps = "" :: "api" :: "templates" :: parts) :
    (handle F server request).2.response.status ≠ 200 := by
  unfold handle
  cases hreceive : F.receive request with
  | error response =>
    exact hF.status_error hreceive hmethod ⟨"templates" :: parts, by rw [hsteps]; rfl⟩
  | ok call =>
    have hcall := hF.method_eq hreceive
    rw [hmethod] at hcall
    cases call with
    | templates =>
      have hlength := hF.length_steps hreceive
      have hparts := List.length_pos_of_ne_nil hspells.nonempty
      simp only [hsteps, List.length_cons] at hlength
      omega
    | template other =>
      obtain ⟨-, hother, hne⟩ := hF.receive_template.mp hreceive
      obtain rfl : parts = [other] := by simpa [hsteps] using hother
      refine absurd ?_ hname
      obtain rfl : other = name := by simpa using hspells.joined
      exact ⟨hne, hspells.steps other List.mem_cons_self⟩
    | _ => simp [Invocation.route, Route.method] at hcall

/-- What is shown are the templates that no later one replaces, each once, in the order of the code
points of their names. -/
structure Listed (ts shown : List Template) : Prop where
  mem_iff : ∀ t, t ∈ shown ↔ t.Latest ts
  nodup : (shown.map Template.name).Nodup
  ordered : shown.Pairwise fun s t => Text.codes s.name.text ≤ Text.codes t.name.text

/-- After any templates are registered, they are listed if all of them can be sent; otherwise the
service fails. A template whose name is a step of a path is answered under it by the same entry, if
it can be sent. Under any other name there is no template. -/
theorem templates_served_iff_presentable [Machine] (hF : F.Documented) {ts : List Template}
    (hcatalogue : server.catalogue = .registered ts) (hmethod : request.method = "GET") :
    (request.steps = ["", "api", "templates"] →
      ((∀ t : Template, t.Latest ts → t.Presentable F) → ∃ shown, Listed ts shown ∧
        (handle F server request).2.response = .ok (.list (shown.map (Template.entry F)))) ∧
      (∀ t : Template, t.Latest ts → ¬ t.Presentable F →
        (handle F server request).2.response.status = 500)) ∧
    ∀ (t : Template) name parts, t.Latest ts → t.name = .str name → Spells parts name →
      request.steps = "" :: "api" :: "templates" :: parts →
      (IsStep name →
        (t.Presentable F → (handle F server request).2.response = .ok (t.entry F)) ∧
        (¬ t.Presentable F → (handle F server request).2.response.status = 500)) ∧
      (¬ IsStep name → (handle F server request).2.response.status ≠ 200) := by
  have htended := Catalogue.tended_registered ts
  obtain ⟨method, steps, body⟩ := request
  obtain rfl : method = "GET" := hmethod
  constructor
  · rintro rfl
    simp only [handle, hF.receive_templates, invoke, hcatalogue]
    constructor
    · intro hall
      obtain ⟨shown, hresponse, hperm, hnodup, hordered⟩ := templates_of_presentable hF htended
        fun t ht => hall t (Catalogue.mem_templates_registered.mp ht)
      refine ⟨shown, ⟨fun t => ?_, hnodup, hordered⟩, hresponse⟩
      rw [hperm.mem_iff, Catalogue.mem_templates_registered]
    · intro t ht
      exact templates_of_not_presentable hF (Catalogue.mem_templates_registered.mpr ht)
  · intro t name parts ht hname hspells hsteps
    constructor
    · intro hstep
      rw [hspells.eq_singleton hstep] at hsteps
      have hreceive : F.receive ⟨"GET", steps, body⟩ = .ok (.template name) :=
        hF.receive_template.mpr ⟨rfl, hsteps, hstep.1⟩
      simp only [handle, hreceive, invoke, hcatalogue]
      exact response_template hF htended (Catalogue.mem_templates_registered.mpr ht) hname
    · exact fun hstep => status_handle_of_not_step hF rfl hspells hstep hsteps

def bare (name : String) (description : Json) : Template := ⟨.str name, .obj [], description, []⟩

/-- Templates of which the last takes the place of the first. -/
def history : List Template := [bare "b" (.str "old"), bare "a" (.str ""), bare "b" (.str "new")]

def undescribed : Template := bare "c" .null

def slashed : Template := bare "a/b" (.str "")

section
variable [Machine]

theorem presentable_bare {name description : String} (hname : Text.isWhole name)
    (hdescription : Text.isWhole description) :
    (bare name (.str description)).Presentable localFramework :=
  ⟨⟨name, rfl, hname⟩, ⟨description, rfl, hdescription⟩, rfl⟩

theorem presentable_of_mem_history {t : Template} (ht : t ∈ history) :
    t.Presentable localFramework := by
  simp only [history, List.mem_cons, List.not_mem_nil, or_false] at ht
  rcases ht with rfl | rfl | rfl <;> exact presentable_bare (by decide) (by decide)

end

def serverWith (ts : List Template) : Server := ⟨.default, .registered ts, some 0⟩

/-- A request for the template whose name the steps spell, or for the list of all. -/
def getRequest (parts : List String) : Request :=
  ⟨"GET", "" :: "api" :: "templates" :: parts, none⟩

attribute [local instance] Machine.common in
/-- A description of null keeps templates that can be sent from being listed, and a slash in its
name keeps a template from being found. -/
theorem history_served_until_undescribed :
    let response (ts : List Template) (parts : List String) : Response :=
      (handle localFramework (serverWith ts) (getRequest parts)).2.response
    (∃ shown, Listed history shown ∧
      response history [] = .ok (.list (shown.map (Template.entry localFramework)))) ∧
    response history ["b"] = .ok ((bare "b" (.str "new")).entry localFramework) ∧
    Template.ofJson (.ofFields [("name", .str "c"), ("workflow", .obj []),
      ("description", .null)]) = .ok undescribed ∧
    (response (history ++ [undescribed]) []).status = 500 ∧
    (response [slashed] ["a", "b"]).status ≠ 200 := by
  intro response
  have h (ts : List Template) (parts : List String) := @templates_served_iff_presentable
    localFramework (serverWith ts) (getRequest parts) _ (Shell.framework_documented _) ts rfl rfl
  refine ⟨?_, ?_, rfl, ?_, ?_⟩
  · exact ((h history []).1 rfl).1 fun t ht => presentable_of_mem_history ht.mem
  · have hlatest : (bare "b" (.str "new")).Latest history :=
      ⟨.str "b", [bare "b" (.str "old"), bare "a" (.str "")], [], rfl, rfl, by simp⟩
    have hanswer := (h history ["b"]).2 _ "b" ["b"] hlatest rfl ⟨by simp, by decide, rfl⟩ rfl
    exact (hanswer.1 ⟨by decide, by decide⟩).1 (presentable_of_mem_history hlatest.mem)
  · refine ((h (history ++ [undescribed]) []).1 rfl).2 undescribed
      ⟨.str "c", history, [], rfl, rfl, by simp⟩ fun hpresentable => ?_
    obtain ⟨description, hdescription, -⟩ := hpresentable.description
    cases hdescription
  · have hlatest : slashed.Latest [slashed] := ⟨.str "a/b", [], [], rfl, rfl, by simp⟩
    have hanswer := (h [slashed] ["a", "b"]).2 _ "a/b" ["a", "b"] hlatest rfl
      ⟨by simp, by decide, rfl⟩ rfl
    exact hanswer.2 fun hstep => hstep.2 (by decide)

attribute [local instance] Machine.common in
/-- The list shows the last of the descriptions under a name. -/
example : (handle localFramework (serverWith history) (getRequest [])).2.response =
    .ok (.list [(bare "a" (.str "")).entry localFramework,
      (bare "b" (.str "new")).entry localFramework]) := by cbv

end Routing

end Service
end NodeWorkflow
