import NodeWorkflow.Parameter.Spec
import NodeWorkflow.Proofs.Failure

/-!
# Which specifications can be read

A specification is read from an object that names the class of its nodes and a type that there is.
If it has conditions they stand in an object. Conditions whose arguments are texts hold of a node or
do not, whatever the node is.
-/
namespace NodeWorkflow

def Fault.IsOfData : Fault → Prop
  | .keyMissing _ | .value _ => True
  | _ => False

namespace Condition

variable {data : Json} {conditions : List Condition}

def Decided (c : Condition) : Prop := ∀ node, ∃ b, c.holds node = .ok b

theorem decided_of_text {kind : Scalar} {text : String} {c : Condition}
    (h : ofEntry kind (.str text) = .ok c) : c.Decided := by
  intro node
  have hpresent : ∃ b, inputPresent (.str text) node = .ok b := by
    unfold inputPresent
    split <;> simp_all
  obtain ⟨b, hb⟩ := hpresent
  unfold ofEntry at h
  split at h
  · obtain rfl := Except.ok.inj h
    exact ⟨b, hb⟩
  split at h
  · obtain rfl := Except.ok.inj h
    exact ⟨!b, by simp [holds, hb, Except.map]⟩
  split at h
  · obtain rfl := Except.ok.inj h
    exact ⟨_, rfl⟩
  · simp at h

theorem exists_allHold (h : ∀ c ∈ conditions, c.Decided) (node : Json) :
    ∃ b, allHold node conditions = .ok b := by
  induction conditions with
  | nil => exact ⟨true, rfl⟩
  | cons c cs ih =>
    obtain ⟨hc, hcs⟩ := List.forall_mem_cons.mp h
    obtain ⟨b, hb⟩ := hc node
    rw [allHold, hb]
    cases b with
    | true => exact ih hcs
    | false => exact ⟨false, rfl⟩

/-- Conditions are read from an object; then only their kinds can be at fault. -/
theorem failsIn_ofJson : FailsIn Fault.IsOfData (ofJson data) ↔ data.isObj := by
  cases data with
  | obj entries =>
    refine iff_of_true (.mapM fun e _ => ?_) rfl
    unfold ofEntry
    split
    · exact failsIn_ok _
    split
    · exact failsIn_ok _
    split
    · exact failsIn_ok _
    · exact failsIn_error.mpr trivial
  | _ => simp [ofJson, Fault.IsOfData, Json.isObj]

end Condition

namespace ParameterSpec

variable {data : Json} {spec : ParameterSpec} {type : Option Json}

theorem failsIn_typeOf (type : Option Json) : FailsIn Fault.IsOfData (typeOf type) := by
  unfold typeOf
  split <;> simp [Fault.IsOfData]

def conditionsOf (condition : Json) : Except Fault (Option (List Condition)) :=
  if condition.truthy then some <$> Condition.ofJson condition else pure none

theorem ofJson_eq (h : data.isObj) : ofJson data = do
    let type ← typeOf (data.field? "type")
    match data.field? "node_type" with
    | none => throw (.keyMissing "node_type")
    | some nodeType =>
      let conditions ← conditionsOf (data.field "when")
      return ⟨nodeType, data.field "primary_path", data.field "fallback_path", type, conditions,
        (data.field? "description").getD (.str "")⟩ := by
  unfold ofJson conditionsOf
  rw [h]
  cases typeOf (data.field? "type") with
  | error fault => rfl
  | ok type =>
    cases data.field? "node_type" with
    | none => rfl
    | some nodeType => cases hwhen : (data.field "when").truthy <;> simp only [hwhen] <;> rfl

theorem ofJson_eq_error (h : data.isObj = false) : ofJson data = .error .notObject := by
  unfold ofJson
  rw [h]
  rfl

theorem conditions_of_ofJson (h : ofJson data = .ok spec) {conditions : List Condition}
    (hspec : spec.conditions = some conditions) :
    Condition.ofJson (data.field "when") = .ok conditions := by
  cases hobj : data.isObj with
  | false => simp [ofJson_eq_error hobj] at h
  | true =>
    rw [ofJson_eq hobj] at h
    obtain ⟨type, -, h⟩ := Except.bind_eq_ok.mp h
    split at h
    · simp [throw, throwThe, MonadExceptOf.throw] at h
    · obtain ⟨read, hread, h⟩ := Except.bind_eq_ok.mp h
      obtain rfl := Except.ok.inj h
      obtain rfl : read = some conditions := hspec
      unfold conditionsOf at hread
      split at hread
      · obtain ⟨cs, hcs, heq⟩ := Except.map_eq_ok.mp hread
        rw [hcs, Option.some.inj heq]
      · simp [pure, Except.pure] at hread

/-- The data is an object, and conditions stand in an object. They are come to if the data has a
type that there is and names a class. -/
structure Readable (data : Json) : Prop where
  isObj : data.isObj
  conditions : (∃ type, typeOf (data.field? "type") = .ok type) →
    (data.field? "node_type").isSome → (data.field "when").truthy → (data.field "when").isObj

theorem failsIn_ofJson : FailsIn Fault.IsOfData (ofJson data) ↔ Readable data := by
  cases hobj : data.isObj with
  | false =>
    rw [ofJson_eq_error hobj, failsIn_error]
    exact iff_of_false (fun h => h) fun h => Bool.false_ne_true (hobj.symm.trans h.isObj)
  | true =>
    have hconditions : FailsIn Fault.IsOfData (conditionsOf (data.field "when")) ↔
        ((data.field "when").truthy → (data.field "when").isObj) := by
      unfold conditionsOf
      split <;> simp_all [Condition.failsIn_ofJson]
    have hreadable : Readable data ↔ ((∃ type, typeOf (data.field? "type") = .ok type) →
        (data.field? "node_type").isSome → (data.field "when").truthy →
          (data.field "when").isObj) :=
      ⟨fun h => h.conditions, fun h => ⟨hobj, h⟩⟩
    rw [ofJson_eq hobj, failsIn_bind, hreadable, forall_exists_index, ← hconditions]
    simp only [failsIn_typeOf, true_and]
    refine forall₂_congr fun type _ => ?_
    cases data.field? "node_type" with
    | none => simp [throw, throwThe, MonadExceptOf.throw, Fault.IsOfData]
    | some nodeType => simp

end ParameterSpec

namespace Registry

variable {data : Json} {registry : Registry}

/-- The data is an object of specifications that can be read, up to the first that is refused. -/
structure Readable (data : Json) : Prop where
  isObj : data.isObj
  specs : ∀ before e after, data = .obj (before ++ e :: after) →
    (∀ f ∈ before, ∃ spec, ParameterSpec.ofJson f.2 = .ok spec) → ParameterSpec.Readable e.2

theorem failsIn_ofJson : FailsIn Fault.IsOfData (ofJson data) ↔ Readable data := by
  cases data with
  | obj entries =>
    simp only [ofJson, failsIn_mapM, failsIn_bind, ParameterSpec.failsIn_ofJson, failsIn_pure,
      implies_true, and_true, Except.bind_eq_ok]
    constructor
    · intro h
      refine ⟨rfl, fun before e after hsplit hbefore => ?_⟩
      refine h before e after (Json.obj.inj hsplit) fun f hf => ?_
      obtain ⟨spec, hspec⟩ := hbefore f hf
      exact ⟨_, spec, hspec, rfl⟩
    · rintro h before e after rfl hbefore
      refine h.specs before e after rfl fun f hf => ?_
      obtain ⟨_, spec, hspec, -⟩ := hbefore f hf
      exact ⟨spec, hspec⟩
  | _ =>
    refine iff_of_false ?_ fun h => Bool.false_ne_true h.isObj
    simp [ofJson, Fault.IsOfData]

def TextConditions (data : Json) : Prop :=
  ∀ entries, data = .obj entries → ∀ e ∈ entries, ∀ conditions,
    e.2.field "when" = .obj conditions → ∀ c ∈ conditions, ∃ text, c.2 = .str text

theorem conditions_decided (h : ofJson data = .ok registry) (htexts : TextConditions data)
    {e : Scalar × ParameterSpec} (he : e ∈ registry) {conditions : List Condition}
    (hconditions : e.2.conditions = some conditions) : ∀ c ∈ conditions, c.Decided := by
  cases data with
  | obj entries =>
    obtain ⟨f, hf, hread⟩ := (Except.mem_mapM h).mp he
    obtain ⟨spec, hspec, heq⟩ := Except.bind_eq_ok.mp hread
    obtain rfl := Except.ok.inj heq
    have hconditions := ParameterSpec.conditions_of_ofJson hspec hconditions
    cases hwhen : f.2.field "when" with
    | obj given =>
      rw [hwhen] at hconditions
      intro c hc
      obtain ⟨g, hg, hentry⟩ := (Except.mem_mapM hconditions).mp hc
      obtain ⟨text, htext⟩ := htexts entries rfl f hf given hwhen g hg
      exact Condition.decided_of_text (htext ▸ hentry)
    | _ => simp [hwhen, Condition.ofJson] at hconditions
  | _ => simp [ofJson] at h

end Registry
end NodeWorkflow
