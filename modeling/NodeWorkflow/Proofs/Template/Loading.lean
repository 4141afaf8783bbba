import Mathlib.Data.List.Lex
import NodeWorkflow.Proofs.Lists
import NodeWorkflow.Proofs.Parameter.Reading
import NodeWorkflow.Proofs.Template.Session

/-!
# Loading a directory

The template files of a directory are gone through in the order of their names. A file that is no
JSON text or lacks something that a template must have is skipped. A file whose data is of another
shape is not: loading stops at it, and the files after it stay unread.
-/
namespace NodeWorkflow

section Order

variable {s t : String} {files : List (String × String)}

def Text.codes (s : String) : List Nat := (points s).map Point.code

theorem Text.before_iff : before s t = true ↔ codes s < codes t := List.lex_eq_true_iff_lt

theorem Text.not_before_iff : (!before t s) = true ↔ codes s ≤ codes t := by
  rw [Bool.not_eq_true', ← Bool.not_eq_true, before_iff, not_lt]

namespace Catalogue

/-- The template files among files, in the order in which they are loaded. -/
def visited (files : List (String × String)) : List (String × String) :=
  (files.filter fun f => isTemplateFile f.1).mergeSort fun f g => !Text.before g.1 f.1

theorem visited_perm (files : List (String × String)) :
    (visited files).Perm (files.filter fun f => isTemplateFile f.1) :=
  List.mergeSort_perm _ _

theorem visited_sorted (files : List (String × String)) :
    (visited files).Pairwise fun f g => Text.codes f.1 ≤ Text.codes g.1 := by
  refine (List.pairwise_mergeSort ?_ ?_ _).imp Text.not_before_iff.mp
  · intro f g h hfg hgh
    rw [Text.not_before_iff] at hfg hgh ⊢
    exact hfg.trans hgh
  · intro f g
    rw [Bool.or_eq_true, Text.not_before_iff, Text.not_before_iff]
    exact le_total _ _

end Catalogue
end Order

namespace Template

variable {data : Json}

/-- The data is an object, and if it has a name and a workflow its parameters can be read. -/
structure Readable (data : Json) : Prop where
  isObj : data.isObj
  parameters : (data.field? "name").isSome → (data.field? "workflow").isSome →
    Registry.Readable ((data.field? "parameters").getD (.obj []))

theorem required_of_isObj (h : data.isObj) (name : String) : required data name =
    match data.field? name with
    | some v => .ok v
    | none => .error (.keyMissing name) := by
  cases data with
  | obj entries => rfl
  | _ => simp [Json.isObj] at h

theorem failsIn_required (h : data.isObj) (name : String) :
    FailsIn Fault.IsOfData (required data name) := by
  rw [required_of_isObj h]
  split <;> simp [Fault.IsOfData]

theorem exists_required (h : data.isObj) (name : String) :
    (∃ v, required data name = .ok v) ↔ (data.field? name).isSome := by
  rw [required_of_isObj h]
  cases data.field? name <;> simp

theorem failsIn_ofJson : FailsIn Fault.IsOfData (ofJson data) ↔ Readable data := by
  cases hobj : data.isObj with
  | false =>
    have hname : required data "name" = .error .notIndexable := by
      cases data with
      | obj entries => simp [Json.isObj] at hobj
      | _ => rfl
    rw [ofJson, failsIn_bind, hname, failsIn_error]
    exact iff_of_false (fun h => h.1) fun h => Bool.false_ne_true (hobj.symm.trans h.isObj)
  | true =>
    have hreadable : Readable data ↔ ((∃ name, required data "name" = .ok name) →
        (∃ workflow, required data "workflow" = .ok workflow) →
          Registry.Readable ((data.field? "parameters").getD (.obj []))) := by
      rw [exists_required hobj, exists_required hobj]
      exact ⟨fun h => h.parameters, fun h => ⟨hobj, h⟩⟩
    simp only [ofJson, failsIn_bind, failsIn_required hobj, Registry.failsIn_ofJson, failsIn_pure,
      true_and, implies_true, and_true, hreadable, forall_exists_index]

end Template

def Template.IsNamed (template : Template) (key : Scalar) : Prop :=
  ∃ name, template.name = .scalar name ∧ name.agrees key = true

namespace Catalogue

variable {c c' : Catalogue} {text : String} {template other : Template}
  {templates : List Template} {key : Scalar}

section Registering

/-- What is found under a key is the template: its workflow is a document that shares nothing. -/
def Lists (c : Catalogue) (key : Scalar) (template : Template) : Prop :=
  ∃ listing, Entries.get? key c.listings = some listing ∧
    listing.description = template.description ∧ listing.parameters = template.parameters ∧
    c.workspace.documents[listing.document]? = some (.own template.workflow)

theorem lists_register (h : c.register template = .ok c') (hnamed : template.IsNamed key) :
    c'.Lists key template := by
  obtain ⟨name, hname, rfl⟩ := Session.register_eq_ok h
  obtain ⟨_, hname', hagrees⟩ := hnamed
  obtain rfl := Json.scalar.inj (hname.symm.trans hname')
  exact ⟨_, by rw [Entries.get?_put, if_pos hagrees], rfl, rfl, by simp⟩

theorem lists_register_other (h : c.register other = .ok c') (hnamed : ¬ other.IsNamed key)
    (hlists : c.Lists key template) : c'.Lists key template := by
  obtain ⟨name, hname, rfl⟩ := Session.register_eq_ok h
  obtain ⟨listing, hget, hdescription, hparameters, hdocument⟩ := hlists
  have hother : ¬ name.agrees key = true := fun hagrees => hnamed ⟨name, hname, hagrees⟩
  refine ⟨listing, by rw [Entries.get?_put, if_neg hother, hget], hdescription, hparameters, ?_⟩
  obtain ⟨hlt, -⟩ := List.getElem?_eq_some_iff.mp hdocument
  rw [List.getElem?_append_left hlt, hdocument]

theorem lists_foldlM_register_others (h : templates.foldlM register c = .ok c')
    (hothers : ∀ other ∈ templates, ¬ other.IsNamed key) (hlists : c.Lists key template) :
    c'.Lists key template := by
  induction templates generalizing c with
  | nil => exact Except.ok.inj h ▸ hlists
  | cons other templates ih =>
    obtain ⟨next, hnext, hrest⟩ := Except.bind_eq_ok.mp h
    obtain ⟨hother, hothers⟩ := List.forall_mem_cons.mp hothers
    exact ih hrest hothers (lists_register_other hnext hother hlists)

theorem lists_foldlM_register {earlier later : List Template}
    (h : (earlier ++ template :: later).foldlM register c = .ok c') (hnamed : template.IsNamed key)
    (hlater : ∀ other ∈ later, ¬ other.IsNamed key) : c'.Lists key template := by
  rw [List.foldlM_append] at h
  obtain ⟨between, -, h⟩ := Except.bind_eq_ok.mp h
  obtain ⟨next, hnext, hrest⟩ := Except.bind_eq_ok.mp h
  exact lists_foldlM_register_others hrest hlater (lists_register hnext hnamed)

end Registering

section Files

theorem isSome_skipReason? {fault : Fault} : (skipReason? fault).isSome ↔ fault.IsOfData := by
  cases fault <;> simp [skipReason?, Fault.IsOfData]

variable [Machine]

def templateIn (text : String) : Option Template :=
  (readFile text).toOption.bind fun data => (Template.ofJson data).toOption

def templatesIn (files : List (String × String)) : List Template :=
  files.filterMap fun f => templateIn f.2

/-- The text does not keep other files from being loaded. If it is a JSON text at all, it does not
nest too deep, its data is of the shape of a template, and the name of a template is a scalar. -/
structure Harmless (text : String) : Prop where
  shallow : readFile text ≠ .error .tooDeep
  readable : ∀ data, readFile text = .ok data → Template.Readable data
  named : ∀ template, templateIn text = some template → ∃ name, template.name = .scalar name

theorem templateIn_eq_some : templateIn text = some template ↔
    ∃ data, readFile text = .ok data ∧ Template.ofJson data = .ok template := by
  unfold templateIn
  cases readFile text with
  | error fault => simp [Except.toOption]
  | ok data => cases hdata : Template.ofJson data <;> simp [Except.toOption, hdata]

theorem harmless_iff {data : Json} (hread : readFile text = .ok data) :
    Harmless text ↔ Template.Readable data ∧
      ∀ template, Template.ofJson data = .ok template → ∃ name, template.name = .scalar name := by
  constructor
  · intro h
    exact ⟨h.readable data hread, fun template htemplate =>
      h.named template (templateIn_eq_some.mpr ⟨data, hread, htemplate⟩)⟩
  · rintro ⟨hreadable, hnamed⟩
    refine ⟨by simp [hread], fun found hfound => ?_, fun template htemplate => ?_⟩
    · obtain rfl : data = found := Except.ok.inj (hread.symm.trans hfound)
      exact hreadable
    · obtain ⟨found, hfound, hdata⟩ := templateIn_eq_some.mp htemplate
      obtain rfl : data = found := Except.ok.inj (hread.symm.trans hfound)
      exact hnamed template hdata

/-- A loading before which something was reported. -/
def Loading.behind (loading : Loading) (events : List Event) : Loading :=
  { loading with events := events ++ loading.events }

theorem loadFiles_template (htemplate : templateIn text = some template)
    (hregister : c.register template = .ok c') (directory file : String) (loaded : Nat)
    (files : List (String × String)) :
    loadFiles directory loaded ((file, text) :: files) c =
      loadFiles directory (loaded + 1) files c' := by
  obtain ⟨data, hread, hdata⟩ := templateIn_eq_some.mp htemplate
  simp only [loadFiles, hread, hdata, hregister]

theorem loadFiles_skip (hharmless : Harmless text) (hnone : templateIn text = none)
    (directory file : String) (loaded : Nat) (files : List (String × String)) (c : Catalogue) :
    ∃ reason, loadFiles directory loaded ((file, text) :: files) c =
      (loadFiles directory loaded files c).behind [.templateSkipped file reason] := by
  cases hread : readFile text with
  | error fault => cases fault with
    | tooDeep => exact absurd hread hharmless.shallow
    | _ => exact ⟨_, by simp only [loadFiles, hread]; rfl⟩
  | ok data => cases hdata : Template.ofJson data with
    | ok template =>
      have hsome := templateIn_eq_some.mpr ⟨data, hread, hdata⟩
      simp [hnone] at hsome
    | error fault =>
      have hkind : fault.IsOfData :=
        Template.failsIn_ofJson.mpr (hharmless.readable data hread) fault hdata
      obtain ⟨reason, hreason⟩ := Option.isSome_iff_exists.mp (isSome_skipReason?.mpr hkind)
      exact ⟨reason, by simp only [loadFiles, hread, hdata, hreason]; rfl⟩

/-- No reason to skip a file covers the fault that a harmful one causes. -/
theorem loadFiles_stop (hharmful : ¬ Harmless text) (directory file : String) (loaded : Nat)
    (files : List (String × String)) (c : Catalogue) :
    ∃ fault, ¬ fault.IsOfData ∧ loadFiles directory loaded ((file, text) :: files) c =
      ⟨c, [], .error fault⟩ := by
  cases hread : readFile text with
  | error fault => cases fault with
    | tooDeep => exact ⟨.tooDeep, id, by simp only [loadFiles, hread, Json.ReadFault.message?]⟩
    | _ => refine absurd ⟨?_, ?_, ?_⟩ hharmful <;> simp [hread, templateIn_eq_some]
  | ok data =>
    rw [harmless_iff hread] at hharmful
    cases hdata : Template.ofJson data with
    | error fault =>
      have hkind : ¬ fault.IsOfData := by
        intro hkind
        have hfails : FailsIn Fault.IsOfData (Template.ofJson data) :=
          hdata ▸ failsIn_error.mpr hkind
        exact hharmful ⟨Template.failsIn_ofJson.mp hfails, by simp [hdata]⟩
      have hreason : skipReason? fault = none := by simpa using mt isSome_skipReason?.mp hkind
      exact ⟨fault, hkind, by simp only [loadFiles, hread, hdata, hreason]⟩
    | ok template =>
      have hfails : FailsIn Fault.IsOfData (Template.ofJson data) := hdata ▸ failsIn_ok template
      have hregister : c.register template = .error .keyNotScalar := by
        unfold register
        split
        next name hname =>
          refine absurd ⟨Template.failsIn_ofJson.mp hfails, fun found hfound => ?_⟩ hharmful
          obtain rfl : template = found := Except.ok.inj (hdata.symm.trans hfound)
          exact ⟨name, hname⟩
        next => rfl
      exact ⟨.keyNotScalar, id, by simp only [loadFiles, hread, hdata, hregister]⟩

def IsSkipOf (f : String × String) (event : Event) : Prop :=
  ∃ reason, event = .templateSkipped f.1 reason

/-- The templates in files are registered and the files without one reported, in their order. -/
structure Covers (c : Catalogue) (files : List (String × String)) (c' : Catalogue)
    (events : List Event) : Prop where
  registered : (templatesIn files).foldlM register c = .ok c'
  reported : List.Forall₂ IsSkipOf (files.filter fun f => (templateIn f.2).isNone) events

/-- Harmless files are gone through, and then come the others. -/
theorem loadFiles_append {done : List (String × String)} (hharmless : ∀ f ∈ done, Harmless f.2)
    (directory : String) (loaded : Nat) (todo : List (String × String)) (c : Catalogue) :
    ∃ c' events, Covers c done c' events ∧ loadFiles directory loaded (done ++ todo) c =
      (loadFiles directory (loaded + (templatesIn done).length) todo c').behind events := by
  -- Each harmless file changes the catalogue and the count, or is reported; then come the others.
  induction done generalizing loaded c with
  | nil => exact ⟨c, [], ⟨rfl, .nil⟩, rfl⟩
  | cons f done ih =>
    obtain ⟨hf, hdone⟩ := List.forall_mem_cons.mp hharmless
    obtain ⟨file, text⟩ := f
    cases htemplate : templateIn text with
    | none =>
      have htemplates : templatesIn ((file, text) :: done) = templatesIn done :=
        List.filterMap_cons_none htemplate
      obtain ⟨reason, hskip⟩ := loadFiles_skip hf htemplate directory file loaded (done ++ todo) c
      obtain ⟨c', events, hcovers, hrest⟩ := ih hdone loaded c
      refine ⟨c', .templateSkipped file reason :: events, ⟨?_, ?_⟩, ?_⟩
      · rw [htemplates]
        exact hcovers.registered
      · rw [List.filter_cons_of_pos (by simp [htemplate])]
        exact .cons ⟨reason, rfl⟩ hcovers.reported
      · rw [List.cons_append, hskip, hrest, htemplates]
        rfl
    | some template =>
      have htemplates : templatesIn ((file, text) :: done) = template :: templatesIn done :=
        List.filterMap_cons_some htemplate
      obtain ⟨name, hname⟩ := hf.named template htemplate
      obtain ⟨next, hregister⟩ : ∃ next, c.register template = .ok next := by
        simp [register, hname]
      obtain ⟨c', events, hcovers, hrest⟩ := ih hdone (loaded + 1) next
      refine ⟨c', events, ⟨?_, ?_⟩, ?_⟩
      · rw [htemplates, List.foldlM_cons, hregister]
        exact hcovers.registered
      · rw [List.filter_cons_of_neg (by simp [htemplate])]
        exact hcovers.reported
      · rw [List.cons_append, loadFiles_template htemplate hregister, hrest, htemplates,
          List.length_cons, Nat.add_assoc, Nat.add_comm 1]

end Files

theorem loadFiles_of_harmless [Machine] {order : List (String × String)}
    (hharmless : ∀ f ∈ order, Harmless f.2) (directory : String) (c : Catalogue) :
    let loading := loadFiles directory 0 order c
    ∃ events, Covers c order loading.catalogue events ∧
      loading.result = .ok (templatesIn order).length ∧
      loading.events = events ++ [.templatesLoaded (templatesIn order).length directory] := by
  intro loading
  obtain ⟨c', events, hcovers, hrun⟩ := loadFiles_append hharmless directory 0 [] c
  rw [List.append_nil, Nat.zero_add] at hrun
  simp only [loading, hrun]
  exact ⟨events, hcovers, rfl, rfl⟩

theorem loadFiles_of_harmful [Machine] {done todo : List (String × String)} {f : String × String}
    (hharmless : ∀ g ∈ done, Harmless g.2) (hharmful : ¬ Harmless f.2) (directory : String)
    (c : Catalogue) :
    let loading := loadFiles directory 0 (done ++ f :: todo) c
    Covers c done loading.catalogue loading.events ∧
      ∃ fault, loading.result = .error fault ∧ ¬ fault.IsOfData := by
  intro loading
  obtain ⟨c', events, hcovers, hrun⟩ := loadFiles_append hharmless directory 0 (f :: todo) c
  obtain ⟨fault, hkind, hstop⟩ := loadFiles_stop hharmful directory f.1
    (0 + (templatesIn done).length) todo c'
  simp only [loading, hrun, hstop, Loading.behind, List.append_nil]
  exact ⟨hcovers, fault, rfl, hkind⟩

/-- A directory is loaded if and only if all of its template files are harmless. Then their
templates are registered in the order of the names of the files, so that of templates with one name
the last is listed; the other files are reported, and the result is the number of templates.
Otherwise loading stops at the first harmful file with a fault that nothing catches, and only what
stands before it is loaded. -/
theorem directory_loaded_iff_harmless [Machine] (c : Catalogue) (directory : String)
    (files : List (String × String)) :
    let order := visited files
    let loading := c.loadDirectory directory (some files)
    order.Perm (files.filter fun f => isTemplateFile f.1) ∧
    order.Pairwise (fun f g => Text.codes f.1 ≤ Text.codes g.1) ∧
    ((∃ count, loading.result = .ok count) ↔ ∀ f ∈ order, Harmless f.2) ∧
    ((∀ f ∈ order, Harmless f.2) → ∃ events, Covers c order loading.catalogue events ∧
      loading.result = .ok (templatesIn order).length ∧
      loading.events = events ++ [.templatesLoaded (templatesIn order).length directory]) ∧
    (∀ done f todo, order = done ++ f :: todo → (∀ g ∈ done, Harmless g.2) → ¬ Harmless f.2 →
      Covers c done loading.catalogue loading.events ∧
      ∃ fault, loading.result = .error fault ∧ ¬ fault.IsOfData) ∧
    ∀ key earlier template later, templatesIn order = earlier ++ template :: later →
      (∀ f ∈ order, Harmless f.2) → template.IsNamed key → (∀ other ∈ later, ¬ other.IsNamed key) →
        loading.catalogue.Lists key template := by
  intro order loading
  have hall (hharmless : ∀ f ∈ order, Harmless f.2) : ∃ events,
      Covers c order loading.catalogue events ∧ loading.result = .ok (templatesIn order).length ∧
        loading.events = events ++ [.templatesLoaded (templatesIn order).length directory] :=
    loadFiles_of_harmless hharmless directory c
  have hsome (done todo : List (String × String)) (f : String × String)
      (hsplit : order = done ++ f :: todo) (hharmless : ∀ g ∈ done, Harmless g.2)
      (hharmful : ¬ Harmless f.2) : Covers c done loading.catalogue loading.events ∧
        ∃ fault, loading.result = .error fault ∧ ¬ fault.IsOfData := by
    have hloading : loading = loadFiles directory 0 (done ++ f :: todo) c := hsplit ▸ rfl
    rw [hloading]
    exact loadFiles_of_harmful hharmless hharmful directory c
  refine ⟨visited_perm files, visited_sorted files, ⟨?_, ?_⟩, hall,
    fun done f todo => hsome done todo f, ?_⟩
  · rintro ⟨count, hcount⟩
    by_contra hnot
    obtain ⟨done, f, todo, hsplit, hharmful, hdone⟩ :=
      List.exists_first (p := fun f : String × String => ¬ Harmless f.2) (by simpa using hnot)
    obtain ⟨-, fault, hfault, -⟩ := hsome done todo f hsplit
      (fun g hg => not_not.mp (hdone g hg)) hharmful
    simp [hcount] at hfault
  · intro hharmless
    obtain ⟨-, -, hresult, -⟩ := hall hharmless
    exact ⟨_, hresult⟩
  · intro key earlier template later hsplit hharmless hnamed hlater
    obtain ⟨events, hcovers, -⟩ := hall hharmless
    exact lists_foldlM_register (hsplit ▸ hcovers.registered) hnamed hlater

attribute [local instance] Machine.common in
/-- A file that holds a list keeps the template behind it from being loaded. -/
theorem list_hides_template :
    let list : String × String := ("a.json", "[]")
    let template : String × String :=
      ("b.json", "\x7b\x22name\x22: \x22b\x22, \x22workflow\x22: \x7b\x7d\x7d")
    let loading := empty.loadDirectory "templates" (some [list, template])
    visited [list, template] = [list, template] ∧ (templatesIn [list, template]).length = 1 ∧
      loading.catalogue = empty ∧ loading.events = [] ∧ ∃ fault, loading.result = .error fault := by
  intro list template loading
  have horder : visited [list, template] = [list, template] := by
    have hnamed : [list, template].filter (fun f => isTemplateFile f.1) = [list, template] := by
      decide +kernel
    have hsorted : [list, template].Pairwise fun f g => (!Text.before g.1 f.1) = true := by
      decide +kernel
    rw [visited, hnamed]
    exact List.mergeSort_of_pairwise hsorted
  have hread : readFile "[]" = .ok (.list []) := by rfl
  have hharmful : ¬ Harmless list.2 := fun h => Bool.false_ne_true (h.readable _ hread).isObj
  obtain ⟨-, -, -, -, hstop, -⟩ := directory_loaded_iff_harmless empty "templates" [list, template]
  obtain ⟨hcovers, fault, hfault, -⟩ := hstop [] list [template] horder (by simp) hharmful
  refine ⟨horder, by decide +kernel, (Except.ok.inj hcovers.registered).symm, ?_, fault, hfault⟩
  exact List.forall₂_nil_left_iff.mp hcovers.reported

end Catalogue
end NodeWorkflow
