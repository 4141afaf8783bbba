import NodeWorkflow.Parameter.Injection
import NodeWorkflow.Proofs.Outcome
import NodeWorkflow.Proofs.Parameter.Node

/-!
# An injection, node by node

If nothing stops it, the injection of a parameter acts on every node by itself. A node that is
chosen gets the value at the first of the two paths that fits it, and all else stays as it is.
-/
namespace NodeWorkflow

namespace Injection

variable {σ α : Type} {i : Injection σ} {f : σ → Injection σ}

def each (f : α → σ → Injection σ) (xs : List α) (s : σ) : Injection σ :=
  xs.foldl (fun i x => i.andThen (f x)) (.start s)

theorem andThen_eq (h : i.fault = none) (f : σ → Injection σ) :
    i.andThen f = ⟨(f i.state).state, i.events ++ (f i.state).events, (f i.state).fault⟩ := by
  simp only [andThen, h]

theorem fault_andThen : (i.andThen f).fault = none ↔ i.fault = none ∧ (f i.state).fault = none := by
  cases h : i.fault <;> simp [andThen, h]

theorem andThen_assoc (i : Injection σ) (f g : σ → Injection σ) :
    (i.andThen f).andThen g = i.andThen fun s => (f s).andThen g := by
  cases h : i.fault with
  | some fault => simp [andThen, h]
  | none => cases h' : (f i.state).fault <;> simp [andThen, h, h']

@[simp] theorem start_andThen (s : σ) (f : σ → Injection σ) : (start s).andThen f = f s := by
  simp [andThen, start]

@[simp] theorem andThen_start (i : Injection σ) : i.andThen start = i := by
  obtain ⟨s, events, fault⟩ := i
  cases fault <;> simp [andThen, start]

@[simp] theorem each_nil (f : α → σ → Injection σ) (s : σ) : each f [] s = start s := rfl

theorem foldl_andThen (f : α → σ → Injection σ) (xs : List α) (i : Injection σ) :
    xs.foldl (fun i x => i.andThen (f x)) i = i.andThen (each f xs) := by
  induction xs generalizing i with
  | nil => exact (andThen_start i).symm
  | cons x xs ih =>
    have hcons (s : σ) : each f (x :: xs) s = (f x s).andThen (each f xs) := by
      rw [each, List.foldl_cons, ih, start_andThen]
    rw [List.foldl_cons, ih, andThen_assoc]
    congr 1
    funext s
    rw [hcons]

theorem each_cons (f : α → σ → Injection σ) (x : α) (xs : List α) (s : σ) :
    each f (x :: xs) s = (f x s).andThen (each f xs) := by
  rw [each, List.foldl_cons, foldl_andThen, start_andThen]

theorem each_keeps {P : σ → Prop} {f : α → σ → Injection σ} {xs : List α}
    (hstep : ∀ x ∈ xs, ∀ s, P s → (f x s).fault = none → P (f x s).state) {s : σ} (h : P s)
    (hrun : (each f xs s).fault = none) : P (each f xs s).state := by
  induction xs generalizing s with
  | nil => exact h
  | cons x xs ih =>
    rw [each_cons] at hrun ⊢
    obtain ⟨hfirst, hrest⟩ := fault_andThen.mp hrun
    rw [andThen_eq hfirst]
    exact ih (fun y hy => hstep y (List.mem_cons_of_mem _ hy)) (hstep x List.mem_cons_self s h hfirst)
      hrest

end Injection

namespace ParameterSpec

def paths (spec : ParameterSpec) : List Path :=
  [spec.primaryPath, spec.fallbackPath].filterMap fun path => (Path.ofJson path).toOption

/-- The path at which a value goes into a node. -/
def route? (spec : ParameterSpec) (node : Json) : Option Path :=
  spec.paths.find? (Json.fits · node)

def chooses (spec : ParameterSpec) (node : Json) : Bool :=
  (spec.matchesNode node).toOption == some true

/-- A node after the injection of a value. -/
def settle (spec : ParameterSpec) (value node : Json) : Json :=
  if spec.chooses node then
    match spec.route? node with
    | some p => Json.fill value p node
    | none => node
  else node

def settleAll (spec : ParameterSpec) (value : Json) (nodes : Entries Json) : Entries Json :=
  nodes.map fun e => (e.1, spec.settle value e.2)

/-- No fault stops the write at the first path. -/
def Proceeds [Machine] (spec : ParameterSpec) (value node : Json) : Prop :=
  ∀ fault, (node.setByPath spec.primaryPath value).2 ≠ .stopped fault

/-- What is reported of a node that is chosen. -/
def outcome (spec : ParameterSpec) (name : Scalar) (e : Scalar × Json) : Event :=
  if (spec.route? e.2).isSome then .applied name e.1.text else .notApplied name e.1.text

def outcomes (spec : ParameterSpec) (name : Scalar) (nodes : Entries Json) : List Event :=
  match (nodes.filter fun e => spec.chooses e.2).map (spec.outcome name) with
  | [] => [.noTarget name spec.nodeType]
  | events => events

variable {spec : ParameterSpec} {p : Path} {node : Json} {nodes : Entries Json}

theorem settleAll_textual (h : nodes.Textual) (value : Json) :
    (spec.settleAll value nodes).Textual where
  texts f hf := by
    obtain ⟨e, he, rfl⟩ := List.mem_map.mp hf
    exact h.texts e he
  distinct := List.pairwise_map.mpr h.distinct

theorem settle_of_not_chosen (h : spec.chooses node = false) (value : Json) :
    spec.settle value node = node := by
  simp [settle, h]

theorem settle_of_no_route (h : spec.route? node = none) (value : Json) :
    spec.settle value node = node := by
  simp [settle, h]

theorem settle_of_route (h : spec.chooses node = true) (hroute : spec.route? node = some p)
    (value : Json) : spec.settle value node = Json.fill value p node := by
  simp [settle, h, hroute]

theorem settleAll_of_none (h : ∀ e ∈ nodes, spec.chooses e.2 = false) (value : Json) :
    spec.settleAll value nodes = nodes := by
  refine (List.map_congr_left fun e he => ?_).trans (List.map_id nodes)
  rw [settle_of_not_chosen (h e he), id_eq]

theorem outcomes_of_none (h : ∀ e ∈ nodes, spec.chooses e.2 = false) (name : Scalar) :
    spec.outcomes name nodes = [.noTarget name spec.nodeType] := by
  have hchosen : (nodes.filter fun e => spec.chooses e.2) = [] := by
    simpa [List.filter_eq_nil_iff] using h
  simp [outcomes, hchosen]

theorem outcomes_of_some (h : ∃ e ∈ nodes, spec.chooses e.2 = true) (name : Scalar) :
    spec.outcomes name nodes = (nodes.filter fun e => spec.chooses e.2).map (spec.outcome name) := by
  obtain ⟨e, he, hchosen⟩ := h
  cases hfilter : nodes.filter fun e => spec.chooses e.2 with
  | nil => simp [List.filter_eq_nil_iff.mp hfilter e he] at hchosen
  | cons f chosen => simp only [outcomes, hfilter, List.map_cons]

theorem mem_paths : p ∈ spec.paths ↔
    Path.ofJson spec.primaryPath = .ok p ∨ Path.ofJson spec.fallbackPath = .ok p := by
  cases hp : Path.ofJson spec.primaryPath <;> cases hq : Path.ofJson spec.fallbackPath <;>
    simp [paths, hp, hq, Except.toOption, eq_comm]

theorem route?_primary (h : Path.ofJson spec.primaryPath = .ok p)
    (hfits : Json.fits p node = true) :
    spec.route? node = some p := by
  simp [route?, paths, h, hfits, Except.toOption]

theorem route?_fallback (h : ∀ q, Path.ofJson spec.primaryPath = .ok q → Json.fits q node = false)
    (h' : Path.ofJson spec.fallbackPath = .ok p) (hfits : Json.fits p node = true) :
    spec.route? node = some p := by
  cases hq : Path.ofJson spec.primaryPath with
  | ok q => simp [route?, paths, hq, h q hq, h', hfits, Except.toOption]
  | error cause => simp [route?, paths, hq, h', hfits, Except.toOption]

theorem route?_eq_none : spec.route? node = none ↔ ∀ p ∈ spec.paths, Json.fits p node = false := by
  simp [route?]

end ParameterSpec

/-- Where a parameter goes and as which value; or else what is reported of it. -/
def Registry.target (registry : Registry) (name : Scalar) (value : Json) :
    Except (List Event) (ParameterSpec × Json) :=
  if value.isNull then .error []
  else match Entries.get? name registry with
    | none => .error [.parameterUnknown name]
    | some spec => match spec.type.coerce value with
      | .error cause => .error [.parameterRejected name cause]
      | .ok value => .ok (spec, value)

variable {σ : Type} {registry : Registry} {spec : ParameterSpec} {name id : Scalar}
  {value x node path : Json} {nodes : Entries Json}

/-- A coerced value is a scalar that equals itself, and not null. -/
theorem ParameterType.coerce_eq_ok {type : ParameterType} (h : type.coerce value = .ok x) :
    ∃ a : Scalar, x = .scalar a ∧ a.same a = true ∧ a ≠ .null := by
  have hfinite {v : Json} {y : Number.Binary64} (h : finite v y = .ok x) :
      ∃ a : Scalar, x = .scalar a ∧ a.same a = true ∧ a ≠ .null := by
    unfold finite at h
    split at h
    next hy =>
      refine ⟨.float y, (Except.ok.inj h).symm, ?_, by simp⟩
      cases y <;> simp_all [Number.Binary64.isFinite, Scalar.same,
        Number.Binary64.same_finite]
    next => simp at h
  have hint {n : Int} (h : (Except.ok (Json.int n) : Except ValueFault Json) = .ok x) :
      ∃ a : Scalar, x = .scalar a ∧ a.same a = true ∧ a ≠ .null :=
    ⟨.int n, (Except.ok.inj h).symm, by simp [Scalar.same, Scalar.int?], by simp⟩
  cases type with
  | string => exact ⟨.str value.text, (Except.ok.inj h).symm, by simp [Scalar.same], by simp⟩
  | number =>
    simp only [coerce] at h
    unfold toNumber at h
    split at h
    next s =>
      unfold numberOfText at h
      simp only at h
      split at h
      · exact hint h
      split at h
      · exact hfinite h
      · simp at h
    · exact hint h
    · exact hfinite h
    · simp at h

theorem Path.ofJson_of_not_truthy (h : path.truthy = false) :
    Path.ofJson path = .error .noText := by
  unfold Path.ofJson
  split
  next s =>
    rw [Path.parse, if_pos]
    simpa [Json.truthy, Scalar.truthy] using h
  · rfl

namespace Surface

/-- A write into a node of a graph on its own is a write to that node. -/
theorem writeIfGiven_plain [Machine] (hnode : Entries.get? id nodes = some node)
    (path value : Json) :
    plain.writeIfGiven (.obj nodes) id path value =
      (.obj (Entries.put id (node.setByPath path value).1 nodes), (node.setByPath path value).2) := by
  have hself : Entries.put id node nodes = nodes := Entries.put_get? hnode
  unfold writeIfGiven
  cases htruthy : path.truthy with
  | false => simp [Json.setByPath, Path.ofJson_of_not_truthy htruthy, hself]
  | true =>
    simp only [if_true, writeData, Json.setByPath]
    cases Path.ofJson path with
    | ok p => exact writeNode_of_node hnode p value
    | error cause => cases cause <;> simp [hself]

end Surface

theorem injectNode_plain [Machine] (hnode : Entries.get? id nodes = some node)
    (hchosen : spec.chooses node)
    (h : (injectNode .plain name spec value (.obj nodes) id).fault = none) :
    injectNode .plain name spec value (.obj nodes) id =
        .report (.obj (Entries.put id (spec.settle value node) nodes)) (spec.outcome name (id, node)) ∧
      spec.Proceeds value node := by
  have hself : Entries.put id node nodes = nodes := Entries.put_get? hnode
  unfold injectNode at h ⊢
  rw [Surface.writeIfGiven_plain hnode] at h ⊢
  have hfirst : spec.Proceeds value node := by
    intro fault hstop
    simp [hstop] at h
  refine ⟨?_, hfirst⟩
  rcases Json.setByPath_cases hfirst with ⟨p, hp, hfits, hset⟩ | ⟨hnone, hset⟩
  · have hroute : spec.route? node = some p := ParameterSpec.route?_primary hp hfits
    simp [hset, ParameterSpec.settle, hchosen, ParameterSpec.outcome, hroute]
  · simp only [hset, hself] at h ⊢
    rw [Surface.writeIfGiven_plain hnode] at h ⊢
    have hsecond (fault : Fault) : (node.setByPath spec.fallbackPath value).2 ≠ .stopped fault := by
      intro hstop
      simp [hstop] at h
    rcases Json.setByPath_cases hsecond with ⟨q, hq, hfits, hset⟩ | ⟨hnone', hset⟩
    · have hroute : spec.route? node = some q := ParameterSpec.route?_fallback hnone hq hfits
      simp [hset, ParameterSpec.settle, hchosen, ParameterSpec.outcome, hroute]
    · have hroute : spec.route? node = none := ParameterSpec.route?_eq_none.mpr fun p hp =>
        (ParameterSpec.mem_paths.mp hp).elim (hnone p) (hnone' p)
      simp [hset, hself, ParameterSpec.settle, hchosen, ParameterSpec.outcome, hroute]

/-- An injection into the nodes that are chosen among those still to be treated. -/
theorem injectNodes_plain [Machine] (done todo : Entries Json) (h : (done ++ todo).Textual)
    (hrun : (injectNodes .plain name spec value
      ((todo.filter fun e => spec.chooses e.2).map Prod.fst) (.obj (done ++ todo))).fault = none) :
    injectNodes .plain name spec value ((todo.filter fun e => spec.chooses e.2).map Prod.fst)
        (.obj (done ++ todo)) =
        ⟨.obj (done ++ spec.settleAll value todo),
          (todo.filter fun e => spec.chooses e.2).map (spec.outcome name), none⟩ ∧
      ∀ e ∈ todo, spec.chooses e.2 = true → spec.Proceeds value e.2 := by
  change Injection.each _ _ _ = _ ∧ _
  change (Injection.each _ _ _).fault = none at hrun
  -- A write replaces the next node in its place, so that what is still to be treated is as it was.
  induction todo generalizing done with
  | nil => exact ⟨rfl, by simp⟩
  | cons e todo ih =>
    obtain ⟨id, node⟩ := e
    cases hchosen : spec.chooses node with
    | false =>
      have hsettle : spec.settle value node = node := ParameterSpec.settle_of_not_chosen hchosen value
      rw [List.append_cons] at h
      simp only [hchosen, Bool.false_eq_true, not_false_eq_true, List.filter_cons_of_neg] at hrun ⊢
      rw [List.append_cons] at hrun ⊢
      obtain ⟨hstate, hproceeds⟩ := ih _ h hrun
      rw [hstate]
      refine ⟨by simp [ParameterSpec.settleAll, hsettle], fun e he hchosen' => ?_⟩
      rcases List.mem_cons.mp he with rfl | he
      · simp [hchosen] at hchosen'
      · exact hproceeds e he hchosen'
    | true =>
      obtain ⟨s, rfl⟩ : ∃ s, id = .str s := h.texts (id, node) (by simp)
      have hnode : Entries.get? (.str s) (done ++ (.str s, node) :: todo) = some node :=
        h.get?_of_mem (by simp)
      simp only [hchosen, List.filter_cons_of_pos, List.map_cons, Injection.each_cons] at hrun ⊢
      obtain ⟨hfirst, hrest⟩ := Injection.fault_andThen.mp hrun
      obtain ⟨hnow, hproceeds⟩ := injectNode_plain hnode hchosen hfirst
      rw [Injection.andThen_eq hfirst]
      rw [hnow] at hrest ⊢
      simp only [Injection.report, h.put_middle] at hrest ⊢
      have hafter : (done ++ (.str s, spec.settle value node) :: todo).Textual := by
        rw [← h.put_middle]
        exact h.put s _
      rw [List.append_cons] at hafter hrest ⊢
      obtain ⟨hstate, hothers⟩ := ih _ hafter hrest
      rw [hstate]
      refine ⟨by simp [ParameterSpec.settleAll], fun e he hchosen' => ?_⟩
      rcases List.mem_cons.mp he with rfl | he
      · exact hproceeds
      · exact hothers e he hchosen'

/-- The nodes that are found are those that are chosen. -/
theorem findNodes_eq_ok {ids : List Scalar}
    (h : findNodes (.obj nodes) spec.nodeType spec.conditions = .ok ids) :
    ids = (nodes.filter fun e => spec.chooses e.2).map Prod.fst := by
  obtain ⟨found, hfilter, hids⟩ := Except.bind_eq_ok.mp h
  rw [← Except.ok.inj hids, (Except.filterM_eq_ok hfilter).2]
  congr 2
  funext e
  cases hobj : e.2.isObj <;> simp [ParameterSpec.chooses, ParameterSpec.matchesNode, hobj, pure,
    Except.pure, Except.toOption]

theorem Registry.target_eq_ok : registry.target name value = .ok (spec, x) ↔
    value.isNull = false ∧ Entries.get? name registry = some spec ∧
      spec.type.coerce value = .ok x := by
  unfold Registry.target
  cases hnull : value.isNull with
  | true => simp
  | false => cases hget : Entries.get? name registry with
    | none => simp
    | some other => cases hcoerce : other.type.coerce value with
      | error cause =>
        simp only [Bool.false_eq_true, if_false, hcoerce, reduceCtorEq, Option.some.injEq, false_iff]
        rintro ⟨-, rfl, h⟩
        simp [hcoerce] at h
      | ok y =>
        simp only [Bool.false_eq_true, if_false, hcoerce, Except.ok.injEq, Prod.mk.injEq, true_and,
          Option.some.injEq]
        constructor
        · rintro ⟨rfl, rfl⟩
          exact ⟨rfl, hcoerce⟩
        · rintro ⟨rfl, h⟩
          exact ⟨rfl, Except.ok.inj (hcoerce.symm.trans h)⟩

theorem injectOne_of_target_error {surface : Surface σ} {events : List Event}
    (h : registry.target name value = .error events) (s : σ) :
    injectOne surface registry name value s = ⟨s, events, none⟩ := by
  unfold Registry.target at h
  unfold injectOne
  cases hnull : value.isNull with
  | true => simp_all [Injection.start]
  | false => cases hget : Entries.get? name registry with
    | none => simp_all [Injection.report]
    | some spec => cases hcoerce : spec.type.coerce value <;> simp_all [Injection.report]

theorem injectOne_of_target {surface : Surface σ} (h : registry.target name value = .ok (spec, x))
    (s : σ) : injectOne surface registry name value s =
      match findNodes (surface.graph s) spec.nodeType spec.conditions with
        | .error fault => ⟨s, [], some fault⟩
        | .ok [] => .report s (.noTarget name spec.nodeType)
        | .ok ids => injectNodes surface name spec x ids s := by
  obtain ⟨hnull, hget, hcoerce⟩ := Registry.target_eq_ok.mp h
  cases hfind : findNodes (surface.graph s) spec.nodeType spec.conditions with
  | error fault => simp [injectOne, hnull, hget, hcoerce, hfind]
  | ok ids => cases ids <;> simp [injectOne, hnull, hget, hcoerce, hfind]

theorem graph_of_target [Machine] {graph : Json}
    (htarget : registry.target name value = .ok (spec, x))
    (hrun : (injectOne .plain registry name value graph).fault = none) :
    ∃ nodes, graph = .obj nodes := by
  rw [injectOne_of_target htarget] at hrun
  cases graph with
  | obj nodes => exact ⟨nodes, rfl⟩
  | scalar a => simp [Surface.plain, findNodes] at hrun
  | list xs => simp [Surface.plain, findNodes] at hrun

theorem injectOne_plain [Machine] (h : nodes.Textual)
    (htarget : registry.target name value = .ok (spec, x))
    (hrun : (injectOne .plain registry name value (.obj nodes)).fault = none) :
    injectOne .plain registry name value (.obj nodes) =
        ⟨.obj (spec.settleAll x nodes), spec.outcomes name nodes, none⟩ ∧
      ∀ e ∈ nodes, spec.chooses e.2 = true → spec.Proceeds x e.2 := by
  rw [injectOne_of_target htarget] at hrun ⊢
  cases hfound : findNodes (Surface.plain.graph (.obj nodes)) spec.nodeType spec.conditions with
  | error fault => simp [hfound] at hrun
  | ok ids =>
    have hids := findNodes_eq_ok hfound
    by_cases hsome : ∃ e ∈ nodes, spec.chooses e.2 = true
    · obtain ⟨id, rest, rfl⟩ : ∃ id rest, ids = id :: rest := by
        obtain ⟨e, he, hchosen⟩ := hsome
        refine List.exists_cons_of_ne_nil (List.ne_nil_of_mem (a := e.1) ?_)
        rw [hids]
        exact List.mem_map_of_mem (List.mem_filter.mpr ⟨he, hchosen⟩)
      simp only [hfound] at hrun ⊢
      rw [hids] at hrun ⊢
      rw [ParameterSpec.outcomes_of_some hsome]
      exact injectNodes_plain [] nodes h hrun
    · have hnone : ∀ e ∈ nodes, spec.chooses e.2 = false := by simpa using hsome
      obtain rfl : ids = [] := by
        rw [hids, List.map_eq_nil_iff, List.filter_eq_nil_iff]
        simpa using hnone
      rw [ParameterSpec.settleAll_of_none hnone, ParameterSpec.outcomes_of_none hnone]
      exact ⟨rfl, fun e he hchosen => by simp [hnone e he] at hchosen⟩

end NodeWorkflow
