import NodeWorkflow.Proofs.Parameter.Nodewise
import NodeWorkflow.Proofs.Path.Diverging

/-!
# The order of injections

Parameters that go to nodes of different classes, or to places that have nothing to do with each
other, may be injected in any order. Two of them are exchanged node by node: neither changes which
nodes the other one goes to and which of its paths fit.
-/
namespace NodeWorkflow
open Json ParameterSpec

variable {spec first second : ParameterSpec} {registry : Registry} {name : Scalar}
  {nodes nodes' after : Entries Json} {v w node x y : Json}

namespace ParameterSpec

/-- Nodes are told apart by their titles only. -/
def ByTitle (spec : ParameterSpec) : Prop :=
  ∀ conditions, spec.conditions = some conditions → ∀ c ∈ conditions, ∃ title, c = .titled title

/-- No path starts with the class or with the metadata of a node. A path may start with an item of
the class if the class is a text, which has no items. -/
def KeepsIdentity (spec : ParameterSpec) : Prop :=
  ∀ s rest, s :: rest ∈ spec.paths → s ≠ ⟨"class_type", none⟩ ∧ s ≠ ⟨"_meta", none⟩ ∧
    (s.name = "class_type" → ∃ text, spec.nodeType = .str text)

/-- The classes are different, or all paths diverge. -/
def Independent (first second : ParameterSpec) : Prop :=
  first.nodeType.same second.nodeType = false ∨ second.nodeType.same first.nodeType = false ∨
    ∀ p ∈ first.paths, ∀ q ∈ second.paths, p.Diverges q

theorem Independent.symm (h : first.Independent second) : second.Independent first := by
  rcases h with h | h | h
  · exact .inr (.inl h)
  · exact .inl h
  · exact .inr (.inr fun q hq p hp => (h p hp q hq).symm)

end ParameterSpec

/-- Both are nodes or neither is, of the same classes and with the same titles. -/
structure SameIdentity (v w : Json) : Prop where
  isObj : v.isObj = w.isObj
  class_same : ∀ x, (v.field "class_type").same x = (w.field "class_type").same x
  title_agrees : ∀ title, Condition.titleAgrees title v = Condition.titleAgrees title w

theorem SameIdentity.chooses_eq (h : SameIdentity v w) (hspec : spec.ByTitle) :
    spec.chooses v = spec.chooses w := by
  have hall : ∀ cs : List Condition, (∀ c ∈ cs, ∃ title, c = .titled title) →
      Condition.allHold v cs = Condition.allHold w cs := by
    intro cs hcs
    induction cs with
    | nil => rfl
    | cons c cs ih =>
      obtain ⟨title, rfl⟩ := hcs c List.mem_cons_self
      simp only [Condition.allHold, Condition.holds, h.title_agrees,
        ih fun c hc => hcs c (List.mem_cons_of_mem _ hc)]
  unfold ParameterSpec.chooses ParameterSpec.matchesNode ParameterSpec.selects
  rw [h.isObj, h.class_same]
  cases hconditions : spec.conditions with
  | none => rfl
  | some cs => simp only [hall cs (hspec cs hconditions)]

theorem Json.Alike.field (h : Alike v w) (name : String) : Alike (v.field name) (w.field name) := by
  rcases h.shape with ⟨a, b, rfl, rfl⟩ | ⟨xs, ys, rfl, rfl⟩ | ⟨es, fs, rfl, rfl⟩
  · exact Alike.refl decoded_null
  · exact Alike.refl decoded_null
  · have hrel := h.rel_get? name
    simp only [Json.field, field?]
    cases hx : Entries.get? (.str name) es <;> cases hy : Entries.get? (.str name) fs <;>
      simp [hx, hy] at hrel
    · exact Alike.refl decoded_null
    · exact hrel

theorem titleAgrees_eq (title node : Json) : Condition.titleAgrees title node =
    ((node.field "_meta").isObj && ((node.field "_meta").field "title").same title) := by
  unfold Condition.titleAgrees Json.field
  cases node.field? "_meta" with
  | none => rfl
  | some content => cases content <;> simp [isObj]

theorem Json.Alike.isObj_eq (h : Alike v w) : v.isObj = w.isObj := by
  rcases h.shape with ⟨a, b, rfl, rfl⟩ | ⟨xs, ys, rfl, rfl⟩ | ⟨es, fs, rfl, rfl⟩ <;> rfl

theorem Json.Alike.sameIdentity (h : Alike v w) : SameIdentity v w where
  isObj := h.isObj_eq
  class_same := (h.field "class_type").same_eq
  title_agrees title := by
    rw [titleAgrees_eq, titleAgrees_eq, (h.field "_meta").isObj_eq,
      ((h.field "_meta").field "title").same_eq]

theorem SameIdentity.refl (v : Json) : SameIdentity v v := ⟨rfl, fun _ => rfl, fun _ => rfl⟩

/-- What fits as a list is missing, null or a list before a write, and a list after it. -/
theorem isObj_field_of_fits {name : String} {i : Nat} {rest : Path}
    (h : fits (⟨name, some i⟩ :: rest) v = true) (value : Json) :
    (v.field name).isObj = false ∧ ((fill value (⟨name, some i⟩ :: rest) v).field name).isObj = false ∧
      ∀ text, v.field name ≠ .str text := by
  cases hunder : under? ⟨name, some i⟩ v with
  | none => simp [fits_of_under?_eq_none hunder] at h
  | some inner => cases v with
    | scalar a => simp [under?] at hunder
    | list xs => simp [under?] at hunder
    | obj es =>
      obtain ⟨xs, hxs, -⟩ := Option.map_eq_some_iff.mp hunder
      have hafter : ((fill value (⟨name, some i⟩ :: rest) (.obj es)).field name).isObj = false := by
        simp [fill, hunder, putUnder, hxs, field, field?, Entries.get?_put, isObj]
      unfold listUnder? at hxs
      split at hxs
      next hget => exact ⟨by simp [field, field?, hget, isObj], hafter, by simp [field, field?, hget]⟩
      next hget => exact ⟨by simp [field, field?, hget, isObj], hafter, by simp [field, field?, hget]⟩
      next ys hget => exact ⟨by simp [field, field?, hget, isObj], hafter, by simp [field, field?, hget]⟩
      next => simp at hxs

theorem class_of_chooses (h : spec.chooses node = true) :
    (node.field "class_type").same spec.nodeType = true := by
  cases hobj : node.isObj <;> cases hclass : (node.field "class_type").same spec.nodeType <;>
    simp_all [ParameterSpec.chooses, ParameterSpec.matchesNode, ParameterSpec.selects,
      Except.toOption]

/-- An injection into a node keeps what the node is chosen by. -/
theorem sameIdentity_settle (hspec : spec.KeepsIdentity) (x node : Json) :
    SameIdentity (spec.settle x node) node := by
  unfold ParameterSpec.settle
  split
  next hchosen => cases hroute : spec.route? node with
    | none => exact .refl node
    | some p =>
      have hfits : fits p node = true := by simpa using List.find?_some hroute
      obtain ⟨s, rest, rfl⟩ : ∃ s rest, p = s :: rest :=
        List.exists_cons_of_ne_nil fun hnil => by simp [hnil, fits] at hfits
      obtain ⟨hclass, hmeta, htext⟩ := hspec s rest (List.mem_of_find?_eq_some hroute)
      have hfield {name : String} (hname : s.name ≠ name) :
          (fill x (s :: rest) node).field name = node.field name := by
        simp only [field, field?_fill hname]
      obtain ⟨name, index⟩ := s
      refine ⟨isObj_fill _ _ _, fun y => ?_, fun title => ?_⟩
      · by_cases hname : name = "class_type"
        · subst hname
          obtain ⟨i, rfl⟩ : ∃ i, index = some i := Option.ne_none_iff_exists'.mp (by simpa using hclass)
          obtain ⟨text, htype⟩ := htext rfl
          obtain ⟨-, -, hnot⟩ := isObj_field_of_fits hfits x
          exact absurd (same_str_iff.mp (htype ▸ class_of_chooses hchosen)) (hnot text)
        · rw [hfield hname]
      · rw [titleAgrees_eq, titleAgrees_eq]
        by_cases hname : name = "_meta"
        · subst hname
          obtain ⟨i, rfl⟩ : ∃ i, index = some i := Option.ne_none_iff_exists'.mp (by simpa using hmeta)
          obtain ⟨hbefore, hafter, -⟩ := isObj_field_of_fits hfits x
          rw [hbefore, hafter, Bool.false_and, Bool.false_and]
        · rw [hfield hname]
  next => exact .refl node

theorem route?_congr (spec : ParameterSpec) (h : ∀ p ∈ spec.paths, fits p v = fits p w) :
    spec.route? v = spec.route? w := by
  unfold ParameterSpec.route?
  generalize spec.paths = paths at h
  induction paths with
  | nil => rfl
  | cons p paths ih =>
    rw [List.find?_cons, List.find?_cons, h p List.mem_cons_self,
      ih fun q hq => h q (List.mem_cons_of_mem _ hq)]

theorem ParameterSpec.Independent.diverges (h : first.Independent second) (hv : v.Decoded)
    (hchosen : first.chooses v = true) (hchosen' : second.chooses v = true) :
    ∀ p ∈ first.paths, ∀ q ∈ second.paths, p.Diverges q := by
  have hclass : (v.field "class_type").Decoded := ((Alike.refl hv).field "class_type").left
  rcases h with h | h | h
  · have hsame := hclass.same_of_same (class_of_chooses hchosen) (class_of_chooses hchosen')
    simp [hsame] at h
  · have hsame := hclass.same_of_same (class_of_chooses hchosen') (class_of_chooses hchosen)
    simp [hsame] at h
  · exact h

/-- A parameter does not change the way of another one that is independent of it. -/
theorem route?_settle (h : first.Independent second) (hv : v.Decoded)
    (hchosen : first.chooses v = true) (hchosen' : second.chooses v = true) (x : Json) :
    second.route? (first.settle x v) = second.route? v := by
  have hdiverges := h.diverges hv hchosen hchosen'
  unfold ParameterSpec.settle
  rw [if_pos hchosen]
  cases hroute : first.route? v with
  | none => rfl
  | some p =>
    have hp : p ∈ first.paths := List.mem_of_find?_eq_some hroute
    exact route?_congr second fun q hq => fits_fill_of_diverges (hdiverges p hp q hq) x v

theorem Json.Alike.settle (h : Alike v w) (hspec : spec.ByTitle) (hx : x.Decoded) :
    Alike (spec.settle x v) (spec.settle x w) := by
  have hchooses := h.sameIdentity.chooses_eq hspec
  have hroute := route?_congr spec fun p _ => h.fits_eq p
  unfold ParameterSpec.settle
  rw [hchooses, hroute]
  split
  · split
    · exact h.fill (Alike.refl hx) _
    · exact h
  · exact h

theorem Json.Decoded.settle (h : v.Decoded) (hx : x.Decoded) : (spec.settle x v).Decoded := by
  unfold ParameterSpec.settle
  split
  · split
    · exact h.fill hx _
    · exact h
  · exact h

/-- Two independent parameters settle a node in either order. -/
theorem settle_comm (h : first.Independent second) (hfirst : first.KeepsIdentity ∧ first.ByTitle)
    (hsecond : second.KeepsIdentity ∧ second.ByTitle) (hv : v.Decoded) (hx : x.Decoded)
    (hy : y.Decoded) :
    Alike (second.settle y (first.settle x v)) (first.settle x (second.settle y v)) := by
  have hkept := (sameIdentity_settle hfirst.1 x v).chooses_eq hsecond.2
  have hkept' := (sameIdentity_settle hsecond.1 y v).chooses_eq hfirst.2
  cases hchosen : first.chooses v with
  | false =>
    rw [settle_of_not_chosen hchosen, settle_of_not_chosen (hkept'.trans hchosen)]
    exact Alike.refl (hv.settle hy)
  | true => cases hchosen' : second.chooses v with
    | false =>
      rw [settle_of_not_chosen hchosen', settle_of_not_chosen (hkept.trans hchosen')]
      exact Alike.refl (hv.settle hx)
    | true =>
      have hroute := route?_settle h.symm hv hchosen' hchosen y
      have hroute' := route?_settle h hv hchosen hchosen' x
      cases hp : first.route? v with
      | none =>
        rw [settle_of_no_route hp, settle_of_no_route (hroute.trans hp)]
        exact Alike.refl (hv.settle hy)
      | some p => cases hq : second.route? v with
        | none =>
          rw [settle_of_no_route hq, settle_of_no_route (hroute'.trans hq)]
          exact Alike.refl (hv.settle hx)
        | some q =>
          rw [settle_of_route (hkept.trans hchosen') (hroute'.trans hq),
            settle_of_route (hkept'.trans hchosen) (hroute.trans hp), settle_of_route hchosen hp,
            settle_of_route hchosen' hq]
          exact hv.fill_comm hx hy (h.diverges hv hchosen hchosen' p (List.mem_of_find?_eq_some hp) q
            (List.mem_of_find?_eq_some hq))

abbrev AlikeNodes (nodes nodes' : Entries Json) : Prop :=
  List.Forall₂ (fun e f : Scalar × Json => f.1 = e.1 ∧ Alike e.2 f.2) nodes nodes'

theorem AlikeNodes.refl (h : ∀ e ∈ nodes, e.2.Decoded) : AlikeNodes nodes nodes :=
  List.forall₂_same.mpr fun e he => ⟨rfl, Alike.refl (h e he)⟩

theorem AlikeNodes.trans {third : Entries Json} (h : AlikeNodes nodes nodes')
    (h' : AlikeNodes nodes' third) : AlikeNodes nodes third := by
  induction h generalizing third with
  | nil => exact h'
  | cons hef _ ih => cases h' with
    | cons hfg h' => exact .cons ⟨hfg.1.trans hef.1, hef.2.trans hfg.2⟩ (ih h')

theorem AlikeNodes.decoded (h : AlikeNodes nodes nodes') : ∀ e ∈ nodes, e.2.Decoded := by
  induction h with
  | nil => simp
  | cons hef _ ih => exact List.forall_mem_cons.mpr ⟨hef.2.left, ih⟩

theorem outcomes_congr (h : List.Forall₂ (fun e f : Scalar × Json => f.1 = e.1 ∧
      spec.chooses f.2 = spec.chooses e.2 ∧
      (spec.chooses e.2 = true → spec.route? f.2 = spec.route? e.2)) nodes nodes') (name : Scalar) :
    spec.outcomes name nodes' = spec.outcomes name nodes := by
  have hevents : (nodes'.filter fun e => spec.chooses e.2).map (spec.outcome name) =
      (nodes.filter fun e => spec.chooses e.2).map (spec.outcome name) := by
    induction h with
    | nil => rfl
    | @cons e f _ _ hef _ ih =>
      obtain ⟨hid, hchooses, hroute⟩ := hef
      cases hchosen : spec.chooses e.2 with
      | false => simpa [hchooses, hchosen] using ih
      | true => simp [hchooses, hchosen, ih, outcome, hid, hroute hchosen]
  rw [outcomes, outcomes, hevents]

theorem AlikeNodes.settleAll (h : AlikeNodes nodes nodes') (hspec : spec.ByTitle) (hx : x.Decoded) :
    AlikeNodes (spec.settleAll x nodes) (spec.settleAll x nodes') := by
  rw [AlikeNodes, ParameterSpec.settleAll, ParameterSpec.settleAll, List.forall₂_map_left_iff,
    List.forall₂_map_right_iff]
  exact h.imp fun e f hef => ⟨hef.1, hef.2.settle hspec hx⟩

theorem AlikeNodes.outcomes_eq (h : AlikeNodes nodes nodes') (hspec : spec.ByTitle)
    (name : Scalar) :
    spec.outcomes name nodes' = spec.outcomes name nodes :=
  outcomes_congr (h.imp fun _ _ hef => ⟨hef.1, hef.2.symm.sameIdentity.chooses_eq hspec,
    fun _ => route?_congr spec fun p _ => hef.2.symm.fits_eq p⟩) name

theorem settleAll_comm (h : first.Independent second) (hfirst : first.KeepsIdentity ∧ first.ByTitle)
    (hsecond : second.KeepsIdentity ∧ second.ByTitle) (hnodes : ∀ e ∈ nodes, e.2.Decoded)
    (hx : x.Decoded) (hy : y.Decoded) :
    AlikeNodes (second.settleAll y (first.settleAll x nodes))
      (first.settleAll x (second.settleAll y nodes)) := by
  simp only [AlikeNodes, ParameterSpec.settleAll, List.map_map, List.forall₂_map_left_iff,
    List.forall₂_map_right_iff, List.forall₂_same]
  exact fun e he => ⟨rfl, settle_comm h hfirst hsecond (hnodes e he) hx hy⟩

/-- What is reported of a parameter is the same after an independent one. -/
theorem outcomes_settleAll (h : first.Independent second) (hfirst : first.KeepsIdentity)
    (hsecond : second.ByTitle) (hnodes : ∀ e ∈ nodes, e.2.Decoded) (x : Json) (name : Scalar) :
    second.outcomes name (first.settleAll x nodes) = second.outcomes name nodes := by
  refine outcomes_congr ?_ name
  rw [ParameterSpec.settleAll, List.forall₂_map_right_iff, List.forall₂_same]
  refine fun e he => ⟨rfl, (sameIdentity_settle hfirst x e.2).chooses_eq hsecond, fun hchosen' => ?_⟩
  cases hchosen : first.chooses e.2 with
  | false => rw [settle_of_not_chosen hchosen]
  | true => exact route?_settle h (hnodes e he) hchosen hchosen' x

/-- What a parameter does to nodes if nothing stops it, and what is reported of it. -/
def Registry.effect (registry : Registry) (e : Scalar × Json) (nodes : Entries Json) :
    Entries Json × List Event :=
  match registry.target e.1 e.2 with
  | .error events => (nodes, events)
  | .ok (spec, x) => (spec.settleAll x nodes, spec.outcomes e.1 nodes)

def Registry.effects (registry : Registry) : Entries Json → Entries Json → Entries Json × List Event
  | [], nodes => (nodes, [])
  | e :: values, nodes =>
    let now := registry.effect e nodes
    let later := effects registry values now.1
    (later.1, now.2 ++ later.2)

theorem injectOne_effect [Machine] (h : nodes.Textual) (e : Scalar × Json)
    (hrun : (injectOne .plain registry e.1 e.2 (.obj nodes)).fault = none) :
    injectOne .plain registry e.1 e.2 (.obj nodes) =
        ⟨.obj (registry.effect e nodes).1, (registry.effect e nodes).2, none⟩ ∧
      (registry.effect e nodes).1.Textual := by
  unfold Registry.effect
  cases htarget : registry.target e.1 e.2 with
  | error events => exact ⟨injectOne_of_target_error htarget _, h⟩
  | ok target => exact ⟨(injectOne_plain h htarget hrun).1, settleAll_textual h _⟩

theorem each_effects [Machine] (h : nodes.Textual) {values : Entries Json}
    (hrun : (Injection.each (fun e => injectOne .plain registry e.1 e.2) values (.obj nodes)).fault =
      none) :
    Injection.each (fun e => injectOne .plain registry e.1 e.2) values (.obj nodes) =
        ⟨.obj (registry.effects values nodes).1, (registry.effects values nodes).2, none⟩ ∧
      (registry.effects values nodes).1.Textual := by
  induction values generalizing nodes with
  | nil => exact ⟨rfl, h⟩
  | cons e values ih =>
    rw [Injection.each_cons] at hrun ⊢
    obtain ⟨hfirst, hrest⟩ := Injection.fault_andThen.mp hrun
    obtain ⟨hstep, htextual⟩ := injectOne_effect h e hfirst
    rw [Injection.andThen_eq hfirst]
    rw [hstep] at hrest ⊢
    obtain ⟨hlater, htextual'⟩ := ih htextual hrest
    exact ⟨by simp only [hlater, Registry.effects], htextual'⟩

/-- The parameter tells nodes of its class apart by their titles only, and writes neither classes
nor titles. -/
def Registry.Orderly (registry : Registry) (e : Scalar × Json) : Prop :=
  ∀ spec, Entries.get? e.1 registry = some spec → spec.KeepsIdentity ∧ spec.ByTitle

/-- Parameters that go to different classes or along diverging paths. -/
def Registry.Apart (registry : Registry) (e f : Scalar × Json) : Prop :=
  ∀ first second, Entries.get? e.1 registry = some first → Entries.get? f.1 registry = some second →
    first.Independent second

theorem Registry.Apart.symm {e f : Scalar × Json} (h : registry.Apart e f) : registry.Apart f e :=
  fun first second hfirst hsecond => (h second first hsecond hfirst).symm

variable {e f : Scalar × Json} {values values' : Entries Json}

theorem spec_of_target (h : registry.target e.1 e.2 = .ok (spec, x)) :
    Entries.get? e.1 registry = some spec ∧ x.Decoded := by
  obtain ⟨-, hspec, hcoerce⟩ := Registry.target_eq_ok.mp h
  obtain ⟨a, rfl, ha, -⟩ := ParameterType.coerce_eq_ok hcoerce
  exact ⟨hspec, .scalar (Scalar.same_iff.mp ha).1⟩

theorem effect_alike (h : AlikeNodes nodes nodes') (he : registry.Orderly e) :
    AlikeNodes (registry.effect e nodes).1 (registry.effect e nodes').1 ∧
      (registry.effect e nodes').2 = (registry.effect e nodes).2 := by
  unfold Registry.effect
  cases htarget : registry.target e.1 e.2 with
  | error events => exact ⟨h, rfl⟩
  | ok target =>
    obtain ⟨spec, x⟩ := target
    obtain ⟨hspec, hx⟩ := spec_of_target htarget
    exact ⟨h.settleAll (he spec hspec).2 hx, h.outcomes_eq (he spec hspec).2 e.1⟩

theorem effects_alike (h : AlikeNodes nodes nodes') (hvalues : ∀ e ∈ values, registry.Orderly e) :
    AlikeNodes (registry.effects values nodes).1 (registry.effects values nodes').1 ∧
      (registry.effects values nodes').2 = (registry.effects values nodes).2 := by
  induction values generalizing nodes nodes' with
  | nil => exact ⟨h, rfl⟩
  | cons e values ih =>
    obtain ⟨he, hvalues⟩ := List.forall_mem_cons.mp hvalues
    obtain ⟨hnow, hevents⟩ := effect_alike h he
    obtain ⟨hlater, hevents'⟩ := ih hnow hvalues
    exact ⟨hlater, by simp only [Registry.effects, hevents, hevents']⟩

/-- Two parameters that are apart have the same effect in either order. -/
theorem effect_comm (h : registry.Apart e f) (he : registry.Orderly e) (hf : registry.Orderly f)
    (hnodes : ∀ e ∈ nodes, e.2.Decoded) :
    AlikeNodes (registry.effect f (registry.effect e nodes).1).1
        (registry.effect e (registry.effect f nodes).1).1 ∧
      (registry.effect f (registry.effect e nodes).1).2 = (registry.effect f nodes).2 ∧
      (registry.effect e (registry.effect f nodes).1).2 = (registry.effect e nodes).2 := by
  have hself := AlikeNodes.refl hnodes
  have hleft : AlikeNodes (registry.effect e nodes).1 (registry.effect e nodes).1 :=
    (effect_alike hself he).1
  have hright : AlikeNodes (registry.effect f nodes).1 (registry.effect f nodes).1 :=
    (effect_alike hself hf).1
  unfold Registry.effect at hleft hright ⊢
  cases htarget : registry.target e.1 e.2 with
  | error events => simpa [htarget] using hright
  | ok target => cases htarget' : registry.target f.1 f.2 with
    | error events => simpa [htarget, htarget'] using hleft
    | ok target' =>
      obtain ⟨first, x⟩ := target
      obtain ⟨second, y⟩ := target'
      obtain ⟨hfirst, hx⟩ := spec_of_target htarget
      obtain ⟨hsecond, hy⟩ := spec_of_target htarget'
      have hapart := h first second hfirst hsecond
      have hfirst := he first hfirst
      have hsecond := hf second hsecond
      exact ⟨settleAll_comm hapart hfirst hsecond hnodes hx hy,
        outcomes_settleAll hapart hfirst.1 hsecond.2 hnodes x f.1,
        outcomes_settleAll hapart.symm hsecond.1 hfirst.2 hnodes y e.1⟩

/-- Parameters that are apart have the same effects in every order. -/
theorem effects_perm (hperm : values.Perm values') (hvalues : ∀ e ∈ values, registry.Orderly e)
    (hapart : values.Pairwise registry.Apart) (h : AlikeNodes nodes nodes') :
    AlikeNodes (registry.effects values nodes).1 (registry.effects values' nodes').1 ∧
      (registry.effects values nodes).2.Perm (registry.effects values' nodes').2 := by
  induction hperm generalizing nodes nodes' with
  | nil => exact ⟨h, .refl _⟩
  | @cons e values values' _ ih =>
    obtain ⟨he, hvalues⟩ := List.forall_mem_cons.mp hvalues
    obtain ⟨hnow, hevents⟩ := effect_alike h he
    obtain ⟨hlater, hevents'⟩ := ih hvalues (List.pairwise_cons.mp hapart).2 hnow
    refine ⟨hlater, ?_⟩
    simp only [Registry.effects, hevents]
    exact hevents'.append_left _
  | swap f e values =>
    obtain ⟨he, hf, hvalues⟩ : registry.Orderly e ∧ registry.Orderly f ∧
        ∀ e ∈ values, registry.Orderly e := by simpa [and_assoc] using hvalues
    have hef : registry.Apart e f := (List.pairwise_cons.mp hapart).1 f List.mem_cons_self
    obtain ⟨hcomm, hsecond, hfirst⟩ := effect_comm hef he hf h.decoded
    obtain ⟨hother, hsecond'⟩ := effect_alike h hf
    obtain ⟨hboth, hfirst'⟩ := effect_alike hother he
    obtain ⟨hlater, hevents⟩ := effects_alike (hcomm.trans hboth) hvalues
    refine ⟨hlater, ?_⟩
    simp only [Registry.effects, hsecond, hsecond', hfirst', hfirst, hevents]
    exact List.perm_append_comm_assoc ..
  | @trans first second third hperm _ ih ih' =>
    have hsecond : ∀ e ∈ second, registry.Orderly e := fun e he => hvalues e (hperm.mem_iff.mpr he)
    have hapart' : second.Pairwise registry.Apart :=
      hperm.pairwise hapart fun h => h.symm
    obtain ⟨hfirst, hevents⟩ := ih hvalues hapart (AlikeNodes.refl h.decoded)
    obtain ⟨hthird, hevents'⟩ := ih' hsecond hapart' h
    exact ⟨hfirst.trans hthird, hevents.trans hevents'⟩

/-- Parameters that go to different classes or along diverging paths, that leave alone what nodes
are chosen by, and that are conditional on titles at most, may be injected in any two orders: if
both injections return, the graphs are equal and the warnings are the same up to their order. -/
theorem injection_order_irrelevant [Machine] (hnodes : (Json.obj nodes).Decoded)
    (hperm : values.Perm values') (hapart : values.Pairwise registry.Apart)
    (hvalues : ∀ e ∈ values, registry.Orderly e)
    (hrun : (injectInto (.obj nodes) registry (.obj values)).fault = none)
    (hrun' : (injectInto (.obj nodes) registry (.obj values')).fault = none) :
    (injectInto (.obj nodes) registry (.obj values)).state.same
        (injectInto (.obj nodes) registry (.obj values')).state = true ∧
      (injectInto (.obj nodes) registry (.obj values)).warnings.Perm
        (injectInto (.obj nodes) registry (.obj values')).warnings := by
  have hkeys := hnodes.keys
  obtain ⟨heach, htextual⟩ := each_effects hkeys hrun
  obtain ⟨heach', -⟩ := each_effects hkeys hrun'
  obtain ⟨halike, hevents⟩ := effects_perm hperm hvalues hapart (AlikeNodes.refl hnodes.entries)
  have hrun_eq : injectInto (.obj nodes) registry (.obj values) =
      ⟨.obj (registry.effects values nodes).1, (registry.effects values nodes).2, none⟩ := heach
  have hrun_eq' : injectInto (.obj nodes) registry (.obj values') =
      ⟨.obj (registry.effects values' nodes).1, (registry.effects values' nodes).2, none⟩ := heach'
  rw [hrun_eq, hrun_eq']
  exact ⟨(alike_of_forall₂ halike htextual).agrees, (hevents.filter _).map _⟩

attribute [local instance] Machine.common in
/-- Two parameters make one list, in either order. -/
theorem injection_order_irrelevant_in_one_list :
    let nodes : Entries Json := [(.str "1", .ofFields [("class_type", .str "A"),
      ("_meta", .ofFields [("title", .str "T")])])]
    let spec (path : String) : ParameterSpec :=
      ⟨.str "A", .str path, .null, .string, some [.titled (.str "T")], .null⟩
    let registry : Registry := [(.str "p", spec "inputs.x[1]"), (.str "q", spec "inputs.x[0].k")]
    let run (values : Entries Json) := injectInto (.obj nodes) registry (.obj values)
    let p : Scalar × Json := (.str "p", .str "new")
    let q : Scalar × Json := (.str "q", .int 7)
    (run [p, q]).fault = none ∧ (run [q, p]).fault = none ∧
      (run [p, q]).state.same (run [q, p]).state = true := by
  intro nodes spec registry run p q
  have hfault : (run [p, q]).fault = none := Option.isNone_iff_eq_none.mp (by decide +kernel)
  have hfault' : (run [q, p]).fault = none := Option.isNone_iff_eq_none.mp (by decide +kernel)
  have hp : (spec "inputs.x[1]").paths = [[⟨"inputs", none⟩, ⟨"x", some 1⟩]] := by decide +kernel
  have hq : (spec "inputs.x[0].k").paths = [[⟨"inputs", none⟩, ⟨"x", some 0⟩, ⟨"k", none⟩]] := by
    decide +kernel
  have hnodes : (Json.obj nodes).Decoded := by
    change (Json.ofFields [("1", .ofFields [("class_type", .str "A"),
      ("_meta", .ofFields [("title", .str "T")])])]).Decoded
    simp
  have hfirst {first : ParameterSpec} (h : Entries.get? p.1 registry = some first) :
      first = spec "inputs.x[1]" := (Option.some.inj h).symm
  have hsecond {second : ParameterSpec} (h : Entries.get? q.1 registry = some second) :
      second = spec "inputs.x[0].k" := (Option.some.inj h).symm
  have horderly : ∀ e ∈ [p, q], registry.Orderly e := by
    have htitle (path : String) : (spec path).ByTitle := by simp [spec, ByTitle]
    have hkeeps : (spec "inputs.x[1]").KeepsIdentity := by simp [KeepsIdentity, hp]
    have hkeeps' : (spec "inputs.x[0].k").KeepsIdentity := by simp [KeepsIdentity, hq]
    simp only [List.forall_mem_cons, List.not_mem_nil, false_imp_iff, implies_true, and_true]
    exact ⟨fun first h => hfirst h ▸ ⟨hkeeps, htitle _⟩, fun second h => hsecond h ▸ ⟨hkeeps', htitle _⟩⟩
  have hapart : [p, q].Pairwise registry.Apart := by
    rw [List.pairwise_pair]
    intro first second h h'
    rw [hfirst h, hsecond h', Independent, hp, hq]
    refine .inr (.inr ?_)
    simp only [List.mem_singleton, forall_eq]
    exact ⟨[⟨"inputs", none⟩], ⟨"x", some 1⟩, ⟨"x", some 0⟩, [], [⟨"k", none⟩], rfl, rfl,
      .inr ⟨1, 0, rfl, rfl, by simp⟩⟩
  exact ⟨hfault, hfault', (injection_order_irrelevant hnodes (.swap q p []) hapart horderly hfault
    hfault').1⟩

end NodeWorkflow
