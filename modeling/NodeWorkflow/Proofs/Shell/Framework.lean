import NodeWorkflow.Proofs.Json.Entries
import NodeWorkflow.Proofs.Outcome
import NodeWorkflow.Shell.Framework

/-!
# The framework keeps to its documentation

Which requests are taken to which routes, and what is sent of data of a type.
-/
namespace NodeWorkflow.Shell
open Service

section Receiving

variable {steps : List String} {name : String} {route : Route} {body : Option String}
  {destination : Destination} {request : Request} {call : Invocation}

theorem route?_eq_template : route? steps = some (.template name) ↔
    steps = ["", "api", "templates", name] ∧ name ≠ "" := by
  constructor
  · intro h
    unfold route? at h
    split at h
    · split_ifs at h <;> simp at h
    · split_ifs at h with hempty
      obtain rfl := Route.template.inj (Option.some.inj h)
      exact ⟨rfl, by simpa using hempty⟩
    · split_ifs at h
      simp at h
    · simp at h
  · rintro ⟨rfl, hname⟩
    simp [route?, hname]

theorem length_of_route?_eq_templates (h : route? steps = some .templates) : steps.length = 3 := by
  unfold route? at h
  split at h
  · rfl
  · split_ifs at h
    simp at h
  · split_ifs at h
    simp at h
  · simp at h

variable [Machine]

theorem route_of_invocation (h : invocation body route = .ok call) : call.route = route := by
  cases route with
  | templates | template =>
    obtain rfl := Except.ok.inj h
    rfl
  | _ =>
    obtain ⟨_, -, rfl⟩ := Except.map_eq_ok.mp h
    rfl

theorem receive_eq_ok : receive destination request = .ok call ↔ ∃ route,
    route? request.steps = some route ∧ request.method = route.method ∧
      invocation request.body route = .ok call := by
  unfold receive
  cases hroute : route? request.steps with
  | none =>
    simp only
    split <;> simp
  | some route =>
    simp only [Option.some.injEq, exists_eq_left']
    split
    next hmethod => simp [hmethod]
    next hmethod => simp [hmethod]

end Receiving

section Sending

@[simp] theorem status_withoutBody (method : String) (response : Response) :
    (withoutBody method response).status = response.status := by
  unfold withoutBody
  split <;> rfl

theorem status_refusal {status : Nat} (h : status ≠ 200) (detail : Json) :
    (refusal status detail).status ≠ 200 := by
  unfold refusal
  split
  · exact h
  · simp [internalError]

theorem status_redirect (destination : Destination) (steps : List String) :
    (redirect destination steps).status ≠ 200 := by
  unfold redirect
  split <;> simp [internalError]

/-- A request that gets something comes to a route. -/
theorem status_of_receive [Machine] {destination : Destination} {request : Request}
    {response : Response} (h : receive destination request = .error response)
    (hmethod : request.method = "GET") : response.status ≠ 200 := by
  unfold receive at h
  cases hroute : route? request.steps with
  | none =>
    simp only [hroute] at h
    split at h <;> obtain rfl := Except.error.inj h
    · simpa using status_redirect _ _
    · simpa using status_refusal (by decide) _
  | some route =>
    simp only [hroute] at h
    split at h
    next hsame =>
      rw [hmethod] at hsame
      cases route <;> simp [Route.method, invocation] at hsame h
    next =>
      obtain rfl := Except.error.inj h
      simpa using status_refusal (by decide) _

theorem presentFields_eq {fields : List (String × Schema × Json)} {v : Json}
    (h : ∀ f ∈ fields, v.field? f.1 = some f.2.2) :
    presentFields (fields.map fun f => (f.1, f.2.1)) v =
      fields.mapM fun f => (present f.2.1 f.2.2).map fun shown => (f.1, shown) := by
  induction fields with
  | nil => simp [presentFields]
  | cons f fields ih =>
    obtain ⟨hf, hfields⟩ := List.forall_mem_cons.mp h
    rw [List.map_cons, List.mapM_cons, presentFields, ih hfields, hf]
    cases hshown : present f.2.1 f.2.2 <;> simp [hshown]

theorem field?_ofFields {fields : List (String × Json)} (hnodup : (fields.map Prod.fst).Nodup)
    {f : String × Json} (hf : f ∈ fields) : (Json.ofFields fields).field? f.1 = some f.2 := by
  induction fields with
  | nil => simp at hf
  | cons g fields ih =>
    obtain ⟨hnew, hnodup⟩ := List.nodup_cons.mp hnodup
    rw [Json.ofFields, Json.field?, List.map_cons, Entries.get?_cons]
    rcases List.mem_cons.mp hf with rfl | hf
    · simp
    · have hne : g.1 ≠ f.1 := fun heq => hnew (heq ▸ List.mem_map_of_mem hf)
      rw [if_neg (by simpa using hne)]
      exact ih hnodup hf

theorem isPlain_ofFields {fields : List (String × Json)}
    (h : ∀ f ∈ fields, Text.isWhole f.1) :
    isPlain (.ofFields fields) = fields.all fun f => isPlain f.2 := by
  induction fields with
  | nil => rfl
  | cons f fields ih =>
    obtain ⟨hf, hfields⟩ := List.forall_mem_cons.mp h
    have hrest := ih hfields
    rw [Json.ofFields, isPlain] at hrest
    rw [Json.ofFields, List.map_cons, isPlain, entriesPlain, hrest, List.all_cons]
    simp [Scalar.text, hf]

end Sending

theorem framework_documented [Machine] (destination : Destination) :
    (framework destination).Documented where
  receive_template {request name} := by
    constructor
    · intro h
      obtain ⟨route, hroute, hmethod, hcall⟩ := receive_eq_ok.mp h
      obtain rfl := route_of_invocation hcall
      exact ⟨hmethod, route?_eq_template.mp hroute⟩
    · rintro ⟨hmethod, hsteps⟩
      exact receive_eq_ok.mpr ⟨_, route?_eq_template.mpr hsteps, hmethod, rfl⟩
  receive_templates body := by
    have hcall : receive destination ⟨"GET", ["", "api", "templates"], body⟩ = .ok .templates :=
      receive_eq_ok.mpr ⟨.templates, rfl, rfl, rfl⟩
    exact hcall
  length_steps h := by
    obtain ⟨route, hroute, -, hcall⟩ := receive_eq_ok.mp h
    obtain rfl := route_of_invocation hcall
    exact length_of_route?_eq_templates hroute
  method_eq h := by
    obtain ⟨route, -, hmethod, hcall⟩ := receive_eq_ok.mp h
    rw [hmethod, route_of_invocation hcall]
  status_error h hmethod _ := status_of_receive h hmethod
  present_text s := rfl
  present_not_text {v} h := by
    cases v with
    | scalar a => cases a with
      | str s => exact absurd rfl (h s)
      | _ => rfl
    | _ => rfl
  present_list item xs := rfl
  present_record fields hnodup := by
    have hgiven : ∀ f ∈ fields, (Json.ofFields (fields.map fun f => (f.1, f.2.2))).field? f.1 =
        some f.2.2 := fun f hf =>
      field?_ofFields (by simpa [List.map_map, Function.comp_def] using hnodup)
        (List.mem_map_of_mem (f := fun f : String × Schema × Json => (f.1, f.2.2)) hf)
    exact congrArg (Option.map Json.ofFields) (presentFields_eq hgiven)
  renders_text s := rfl
  renders_null := rfl
  renders_fields fields h := isPlain_ofFields h
  respond_returned {schema v shown} h := by
    have hshown : present schema v = some shown := h
    simp [framework, respond, hshown]
  respond_invalid {schema v} h := by
    have hnone : present schema v = none := h
    simp [framework, respond, hnone, internalError]
  respond_refused {schema status detail} h := if_pos h
  respond_unrendered {schema status detail} h := by
    have hplain : isPlain detail = false := h
    simp [framework, respond, refusal, hplain, internalError]
  respond_failed schema := rfl

end NodeWorkflow.Shell
