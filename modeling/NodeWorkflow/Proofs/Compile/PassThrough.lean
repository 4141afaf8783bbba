import NodeWorkflow.Compile.Depth
import NodeWorkflow.Proofs.Json.Decoded
import NodeWorkflow.Proofs.Outcome
import NodeWorkflow.Proofs.Validation.Acyclic

/-!
# What becomes of an execution graph

An execution graph is checked node by node up to the first fault, and completed on the way. It comes
out with the same nodes, each with a class and an object of inputs, and validation finds nothing in
the structure of these. Where no type is taken for a class, the check stops at the first of the
faults that validation collects.
-/
namespace NodeWorkflow

namespace Entries

variable {α : Type} {es : Entries α}

theorem erase_sublist (key : Scalar) (es : Entries α) : (erase key es).Sublist es := by
  induction es with
  | nil => exact .slnil
  | cons e es ih =>
    rw [erase]
    split
    · exact List.sublist_cons_self e es
    · exact ih.cons_cons e

theorem Textual.erase (h : es.Textual) (key : Scalar) : (Entries.erase key es).Textual where
  texts e he := h.texts e ((erase_sublist key es).mem he)
  distinct := h.distinct.sublist (erase_sublist key es)

theorem get?_erase_self (h : es.Distinct) (s : String) :
    get? (.str s) (erase (.str s) es) = none := by
  induction es with
  | nil => rfl
  | cons e es ih =>
    obtain ⟨hhead, htail⟩ := List.pairwise_cons.mp h
    by_cases hkey : e.1.agrees (.str s) = true
    · rw [erase, if_pos hkey, get?_eq_none_iff]
      intro later hlater
      rw [← Bool.not_eq_true]
      intro hagrees
      have hother := hhead later hlater
      rw [Scalar.agrees_str_iff.mp hkey, Scalar.agrees_str_iff.mp hagrees] at hother
      simp at hother
    · rw [erase, if_neg hkey, get?_cons, if_neg hkey, ih htail]

theorem keys_erase (s : String) (es : Entries α) :
    (erase (.str s) es).map Prod.fst = (es.map Prod.fst).erase (.str s) := by
  induction es with
  | nil => rfl
  | cons e es ih =>
    rw [erase, List.map_cons, List.erase_cons]
    by_cases hkey : e.1 = .str s
    · rw [if_pos (Scalar.agrees_str_iff.mpr hkey), if_pos (beq_iff_eq.mpr hkey)]
    · rw [if_neg (mt Scalar.agrees_str_iff.mp hkey), if_neg (mt beq_iff_eq.mp hkey),
        List.map_cons, ih]

/-- Keys with one more behind them, unless it is among them. -/
def withKey (key : Scalar) (keys : List Scalar) : List Scalar :=
  if key ∈ keys then keys else keys ++ [key]

theorem Textual.keys_put (h : es.Textual) (s : String) (v : α) :
    (Entries.put (.str s) v es).map Prod.fst = withKey (.str s) (es.map Prod.fst) := by
  unfold withKey
  split
  next hmem => exact keys_put_of_present (h.mem_keys_iff.mp hmem) v
  next hmem =>
    have habsent : get? (.str s) es = none := by simpa using mt h.mem_keys_iff.mpr hmem
    rw [put_of_absent habsent, List.map_append, List.map_cons, List.map_nil]

end Entries

namespace Compile
open Validation

variable {id : Scalar} {node data done : Json} {es fs nodes before out : Entries Json}
    {fault : Fault}

/-- A node that has no class but a type that can be taken for it. -/
def Legacy (node : Json) : Prop :=
  (node.field "class_type").truthy = false ∧ (node.field "type").truthy = true

instance : DecidablePred Legacy := fun _ => inferInstanceAs (Decidable (_ ∧ _))

structure Complete (node : Json) : Prop where
  class_type : (node.field "class_type").truthy = true
  inputs : (node.field "inputs").isObj = true

/-- The second object is the first one but for its class and its inputs: inputs that are missing or
null are an empty object, and the type of a node without a class is its class. New keys stand at the
end. -/
structure Completes (es fs : Entries Json) : Prop where
  keys : fs.map Prod.fst = Entries.withKey (.str "inputs") (if Legacy (.obj es) then
    Entries.withKey (.str "class_type") ((es.map Prod.fst).erase (.str "type")) else es.map Prod.fst)
  class_type : Entries.get? (.str "class_type") fs =
    Entries.get? (.str (if Legacy (.obj es) then "type" else "class_type")) es
  type : Entries.get? (.str "type") fs =
    if Legacy (.obj es) then none else Entries.get? (.str "type") es
  inputs : Entries.get? (.str "inputs") fs = some
    (if ((Json.obj es).field "inputs").isNull then .obj [] else (Json.obj es).field "inputs")
  others : ∀ name, name ≠ "class_type" → name ≠ "type" → name ≠ "inputs" →
    Entries.get? (.str name) fs = Entries.get? (.str name) es

section Node

theorem field_obj (name : String) (es : Entries Json) :
    (Json.obj es).field name = (Entries.get? (.str name) es).getD .null := rfl

theorem exists_field_of_truthy {name : String} (h : ((Json.obj es).field name).truthy) :
    ∃ v, Entries.get? (.str name) es = some v ∧ (Json.obj es).field name = v := by
  rw [field_obj] at h ⊢
  cases hget : Entries.get? (.str name) es with
  | some v => exact ⟨v, rfl, rfl⟩
  | none => simp [hget, Json.truthy, Scalar.truthy] at h

theorem Complete.exists_obj (h : Complete node) : ∃ es, node = .obj es := by
  have hclass := h.class_type
  cases node with
  | obj es => exact ⟨es, rfl⟩
  | _ => exact absurd hclass (by simp [Json.field, Json.field?, Json.truthy, Scalar.truthy])

theorem Complete.isNode (h : Complete node) : IsNode node := by
  obtain ⟨es, rfl⟩ := h.exists_obj
  exact ⟨rfl, h.class_type, .inr h.inputs⟩

theorem promoteType_of_legacy (h : Legacy (.obj es)) : promoteType es =
    Entries.put (.str "class_type") ((Json.obj es).field "type") (Entries.erase (.str "type") es) := by
  simp [promoteType, h.1, h.2]

theorem promoteType_of_not_legacy (h : ¬ Legacy (.obj es)) : promoteType es = es := by
  unfold promoteType
  rw [if_neg]
  simpa [Legacy] using h

theorem textual_promoteType (h : es.Textual) : (promoteType es).Textual := by
  by_cases hlegacy : Legacy (.obj es)
  · rw [promoteType_of_legacy hlegacy]
    exact (h.erase _).put _ _
  · rwa [promoteType_of_not_legacy hlegacy]

theorem keys_promoteType (h : es.Textual) : (promoteType es).map Prod.fst =
    if Legacy (.obj es) then
      Entries.withKey (.str "class_type") ((es.map Prod.fst).erase (.str "type"))
    else es.map Prod.fst := by
  split
  next hlegacy =>
    rw [promoteType_of_legacy hlegacy, (h.erase _).keys_put, Entries.keys_erase]
  next hlegacy => rw [promoteType_of_not_legacy hlegacy]

theorem get?_promoteType {name : String} (hclass : name ≠ "class_type") (htype : name ≠ "type") :
    Entries.get? (.str name) (promoteType es) = Entries.get? (.str name) es := by
  by_cases hlegacy : Legacy (.obj es)
  · rw [promoteType_of_legacy hlegacy, Entries.get?_put, if_neg (by simpa using hclass.symm),
      Entries.get?_erase (by simpa using htype.symm)]
  · rw [promoteType_of_not_legacy hlegacy]

theorem get?_class_promoteType : Entries.get? (.str "class_type") (promoteType es) =
    Entries.get? (.str (if Legacy (.obj es) then "type" else "class_type")) es := by
  split
  next hlegacy =>
    obtain ⟨v, hget, htype⟩ := exists_field_of_truthy hlegacy.2
    rw [promoteType_of_legacy hlegacy, Entries.get?_put, if_pos (by simp), htype, hget]
  next hlegacy => rw [promoteType_of_not_legacy hlegacy]

theorem get?_type_promoteType (h : es.Textual) : Entries.get? (.str "type") (promoteType es) =
    if Legacy (.obj es) then none else Entries.get? (.str "type") es := by
  split
  next hlegacy =>
    rw [promoteType_of_legacy hlegacy, Entries.get?_put, if_neg (by simp),
      Entries.get?_erase_self h.distinct]
  next hlegacy => rw [promoteType_of_not_legacy hlegacy]

/-- A node is completed if it has a class, or a type for one, and inputs that are null or an
object. -/
theorem completeNode_eq_ok {name : String} : (completeNode name node).result = .ok done ↔
    ∃ es, node = .obj es ∧ ((Json.obj (promoteType es)).field "class_type").truthy ∧
      (((Json.obj es).field "inputs").isNull ∧
          done = .obj (Entries.put (.str "inputs") (.obj []) (promoteType es)) ∨
        ((Json.obj es).field "inputs").isObj ∧ done = .obj (promoteType es)) := by
  cases node with
  | obj es =>
    have hinputs : (Json.obj (promoteType es)).field "inputs" = (Json.obj es).field "inputs" := by
      rw [field_obj, field_obj, get?_promoteType (by decide) (by decide)]
    simp only [completeNode, hinputs, Json.obj.injEq, exists_eq_left']
    cases ((Json.obj (promoteType es)).field "class_type").truthy with
    | false => simp
    | true =>
      rw [if_neg (by simp)]
      cases (Json.obj es).field "inputs" with
      | scalar a => cases a <;> simp [Json.isNull, Json.isObj, eq_comm]
      | list xs => simp [Json.isNull, Json.isObj]
      | obj inputs => simp [Json.isNull, Json.isObj, eq_comm]
  | _ => simp [completeNode]

theorem complete_of_completeNode {name : String} (h : (completeNode name node).result = .ok done) :
    Complete done := by
  obtain ⟨es, rfl, hclass, ⟨-, rfl⟩ | ⟨hinputs, rfl⟩⟩ := completeNode_eq_ok.mp h
  · constructor
    · rwa [field_obj, Entries.get?_put, if_neg (by simp)]
    · rw [field_obj, Entries.get?_put, if_pos (by simp)]
      rfl
  · refine ⟨hclass, ?_⟩
    rwa [field_obj, get?_promoteType (by decide) (by decide)]

theorem completes_of_completeNode {name : String}
    (h : (completeNode name (.obj es)).result = .ok done) (hes : es.Textual) :
    ∃ fs, done = .obj fs ∧ Completes es fs := by
  obtain ⟨_, heq, -, hdone⟩ := completeNode_eq_ok.mp h
  obtain rfl := Json.obj.inj heq
  rcases hdone with ⟨hnull, rfl⟩ | ⟨hinputs, rfl⟩
  · refine ⟨_, rfl, ?_⟩
    constructor
    case keys => rw [(textual_promoteType hes).keys_put, keys_promoteType hes]
    case class_type => rw [Entries.get?_put, if_neg (by simp), get?_class_promoteType]
    case type => rw [Entries.get?_put, if_neg (by simp), get?_type_promoteType hes]
    case inputs => rw [Entries.get?_put, if_pos (by simp), if_pos hnull]
    case others =>
      intro name hclass htype hinputs
      rw [Entries.get?_put, if_neg (by simpa using hinputs.symm), get?_promoteType hclass htype]
  · have hget : Entries.get? (.str "inputs") es = some ((Json.obj es).field "inputs") := by
      rw [field_obj] at hinputs ⊢
      cases hget : Entries.get? (.str "inputs") es with
      | some v => rfl
      | none => simp [hget, Json.isObj] at hinputs
    have hpresent : Entries.get? (.str "inputs") (promoteType es) =
        some ((Json.obj es).field "inputs") := by
      rw [get?_promoteType (by decide) (by decide), hget]
    refine ⟨_, rfl, ?_⟩
    constructor
    case keys =>
      have hmem := (textual_promoteType hes).mem_keys_iff.mpr (Option.isSome_of_eq_some hpresent)
      rw [← keys_promoteType hes, Entries.withKey, if_pos hmem]
    case class_type => exact get?_class_promoteType
    case type => exact get?_type_promoteType hes
    case inputs =>
      have hnotnull : ((Json.obj es).field "inputs").isNull = false := by
        cases hv : (Json.obj es).field "inputs" <;> simp_all [Json.isObj, Json.isNull]
      rw [hpresent, hnotnull, if_neg (by simp)]
    case others =>
      intro name hclass htype _
      exact get?_promoteType hclass htype

/-- A complete node stays as it is, and nothing is reported. -/
theorem completeNode_of_complete (h : Complete node) (name : String) :
    completeNode name node = .ok node := by
  obtain ⟨es, rfl⟩ := h.exists_obj
  obtain ⟨hclass, hinputs⟩ := h
  have hlegacy : ¬ Legacy (.obj es) := fun hlegacy => by simp [hlegacy.1] at hclass
  simp only [completeNode, promoteType_of_not_legacy hlegacy, hclass]
  cases hv : (Json.obj es).field "inputs" with
  | obj inputs => rfl
  | _ => simp [hv, Json.isObj] at hinputs

/-- A node that has no type to take for its class is refused for the first of its faults. -/
theorem completeNode_eq_error (h : ¬ Legacy node) (id : Scalar) :
    (completeNode id.text node).result = .error fault ↔
      ∃ cause, (nodeFaults id node).head? = some cause ∧ fault = .shape cause := by
  cases node with
  | obj es =>
    simp only [completeNode, promoteType_of_not_legacy h, nodeFaults]
    cases ((Json.obj es).field "class_type").truthy with
    | false => simp [Json.isObj, @eq_comm _ fault]
    | true =>
      cases (Json.obj es).field "inputs" with
      | scalar a => cases a <;> simp [Json.isObj, Json.isNull, @eq_comm _ fault]
      | _ => simp [Json.isObj, Json.isNull, @eq_comm _ fault]
  | _ => simp [completeNode, nodeFaults, Json.isObj, @eq_comm _ fault]

end Node

section Nodes

private theorem absent_of_textual {e : Scalar × Json} {s : String}
    (h : Entries.Textual (before ++ e :: nodes)) (hs : e.1 = .str s) :
    Entries.get? (.str s) before = none := by
  rw [Entries.get?_eq_none_iff]
  intro earlier hearlier
  exact hs ▸ (List.pairwise_append.mp h.distinct).2.2 earlier hearlier e List.mem_cons_self

theorem completeNodes_cons {e : Scalar × Json} :
    (completeNodes (e :: nodes) before).result = .ok out ↔
      ∃ done, (completeNode e.1.text e.2).result = .ok done ∧
        (completeNodes nodes (Entries.put (.str e.1.text) done before)).result = .ok out := by
  simp [completeNodes, Traced.result_bind_eq_ok]

theorem forall₂_of_completeNodes (h : (completeNodes nodes before).result = .ok out)
    (hnodes : Entries.Textual (before ++ nodes)) : ∃ fresh, out = before ++ fresh ∧
      List.Forall₂ (fun e f => f.1 = e.1 ∧ (completeNode e.1.text e.2).result = .ok f.2)
        nodes fresh := by
  induction nodes generalizing before with
  | nil =>
    obtain rfl : before = out := by simpa [completeNodes] using h
    exact ⟨[], by simp, .nil⟩
  | cons e nodes ih =>
    obtain ⟨done, hdone, hrest⟩ := completeNodes_cons.mp h
    obtain ⟨s, hs⟩ := hnodes.texts e (by simp)
    have habsent : Entries.get? (.str s) before = none := absent_of_textual hnodes hs
    rw [hs, show (Scalar.str s).text = s from rfl, Entries.put_of_absent habsent, ← hs] at hrest
    obtain ⟨fresh, rfl, hfresh⟩ := ih hrest <| hnodes.of_keys (by simp)
    exact ⟨(e.1, done) :: fresh, by simp, .cons ⟨rfl, hdone⟩ hfresh⟩

theorem completeNodes_of_complete (hcomplete : ∀ e ∈ nodes, Complete e.2)
    (hnodes : Entries.Textual (before ++ nodes)) :
    completeNodes nodes before = .ok (before ++ nodes) := by
  induction nodes generalizing before with
  | nil => simp [completeNodes]
  | cons e nodes ih =>
    obtain ⟨hnode, hcomplete⟩ := List.forall_mem_cons.mp hcomplete
    obtain ⟨s, hs⟩ := hnodes.texts e (by simp)
    have habsent : Entries.get? (.str s) before = none := absent_of_textual hnodes hs
    rw [completeNodes, completeNode_of_complete hnode]
    change completeNodes nodes (Entries.put (.str e.1.text) e.2 before) = _
    rw [hs, show (Scalar.str s).text = s from rfl, Entries.put_of_absent habsent, ← hs]
    rw [ih hcomplete (by simpa using hnodes)]
    simp

theorem textual_completeNodes (h : (completeNodes nodes before).result = .ok out)
    (hbefore : before.Textual) : out.Textual := by
  induction nodes generalizing before with
  | nil =>
    obtain rfl : before = out := by simpa [completeNodes] using h
    exact hbefore
  | cons e nodes ih =>
    obtain ⟨done, -, hrest⟩ := completeNodes_cons.mp h
    exact ih hrest (hbefore.put _ done)

theorem mem_completeNodes (h : (completeNodes nodes before).result = .ok out) {e : Scalar × Json}
    (he : e ∈ out) :
    e ∈ before ∨ ∃ n ∈ nodes, (completeNode n.1.text n.2).result = .ok e.2 := by
  induction nodes generalizing before with
  | nil =>
    obtain rfl : before = out := by simpa [completeNodes] using h
    exact .inl he
  | cons n nodes ih =>
    obtain ⟨done, hdone, hrest⟩ := completeNodes_cons.mp h
    rcases ih hrest with hmem | ⟨other, hother, hcompleted⟩
    · rcases Entries.mem_put hmem with hbefore | ⟨hvalue, -⟩
      · exact .inl hbefore
      · exact .inr ⟨n, List.mem_cons_self, hvalue ▸ hdone⟩
    · exact .inr ⟨other, List.mem_cons_of_mem _ hother, hcompleted⟩

/-- Nodes without types to take for classes are refused for the first fault of validation. -/
theorem completeNodes_eq_error (h : ∀ e ∈ nodes, ¬ Legacy e.2) :
    (completeNodes nodes before).result = .error fault ↔
      ∃ cause, (structureFaults nodes).head? = some cause ∧ fault = .shape cause := by
  induction nodes generalizing before with
  | nil => simp [completeNodes, structureFaults]
  | cons e nodes ih =>
    obtain ⟨hnode, hnodes⟩ := List.forall_mem_cons.mp h
    have hsplit : structureFaults (e :: nodes) = nodeFaults e.1 e.2 ++ structureFaults nodes :=
      List.flatMap_cons
    have hfails (fault : Fault) : (completeNode e.1.text e.2).result = .error fault ↔
        ∃ cause, (nodeFaults e.1 e.2).head? = some cause ∧ fault = .shape cause :=
      completeNode_eq_error hnode e.1
    rw [completeNodes, Traced.result_bind_eq_error, hsplit, List.head?_append]
    cases hresult : (completeNode e.1.text e.2).result with
    | ok done =>
      have hnone : (nodeFaults e.1 e.2).head? = none := by
        refine Option.eq_none_iff_forall_ne_some.mpr fun cause hcause => ?_
        simp [(hfails _).mpr ⟨cause, hcause, rfl⟩] at hresult
      simp only [hnone, Option.none_or, reduceCtorEq, false_or, Except.ok.injEq, exists_eq_left',
        ih hnodes]
    | error first =>
      obtain ⟨cause, hcause, rfl⟩ := (hfails first).mp hresult
      simp [hcause, @eq_comm _ fault]

/-- A fault among the first nodes stops the check whatever follows. -/
theorem completeNodes_append (h : (completeNodes nodes before).result = .error fault)
    (after : Entries Json) : (completeNodes (nodes ++ after) before).result = .error fault := by
  induction nodes generalizing before with
  | nil => simp [completeNodes] at h
  | cons e nodes ih =>
    rw [List.cons_append, completeNodes, Traced.result_bind_eq_error]
    rw [completeNodes, Traced.result_bind_eq_error] at h
    exact h.imp_right fun ⟨done, hdone, hrest⟩ => ⟨done, hdone, ih hrest⟩

end Nodes

section Graph

theorem passThrough_eq_ok {r : Json} : (passThrough (.obj nodes)).result = .ok r ↔
    ∃ out, (completeNodes nodes []).result = .ok out ∧ r = .obj out := by
  simp [passThrough, Except.map_eq_ok, @eq_comm _ r]

theorem passThrough_eq_error : (passThrough (.obj nodes)).result = .error fault ↔
    (completeNodes nodes []).result = .error fault := by
  simp [passThrough]

/-- An execution graph with complete nodes stays as it is, and nothing is reported. -/
theorem passThrough_of_complete (hnodes : nodes.Textual) (h : ∀ e ∈ nodes, Complete e.2) :
    passThrough (.obj nodes) = .ok (.obj nodes) := by
  rw [passThrough, completeNodes_of_complete h (by simpa using hnodes)]
  rfl

theorem complete_of_passThrough {r : Json} (h : (passThrough (.obj nodes)).result = .ok r) :
    ∃ out : Entries Json, r = .obj out ∧ out.Textual ∧ ∀ e ∈ out, Complete e.2 := by
  obtain ⟨out, hout, rfl⟩ := passThrough_eq_ok.mp h
  refine ⟨out, rfl, textual_completeNodes hout ⟨by simp, .nil⟩, fun e he => ?_⟩
  rcases mem_completeNodes hout he with hnil | ⟨n, -, hdone⟩
  · simp at hnil
  · exact complete_of_completeNode hdone

end Graph

end Compile
end NodeWorkflow
