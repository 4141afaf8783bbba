import NodeWorkflow.Proofs.Compile.PassThrough
import NodeWorkflow.Proofs.Compile.Refusal

/-!
# What depth changes

A compilation that meets data too deep to copy gives no workflow, so one that gives a workflow is
the compilation as it is without a limit. The nodes of an execution graph do not get deeper when
they are completed.
-/
namespace NodeWorkflow

theorem Json.nestsWithin_obj {levels : Nat} {es : Entries Json} :
    (Json.obj es).nestsWithin levels ↔ 1 ≤ levels ∧ ∀ e ∈ es, e.2.nestsWithin (levels - 1) := by
  have hentries : entriesNestWithin (levels - 1) es ↔ ∀ e ∈ es, e.2.nestsWithin (levels - 1) := by
    induction es with
    | nil => simp [entriesNestWithin]
    | cons e es ih => simp [entriesNestWithin, ih]
  rw [nestsWithin, Bool.and_eq_true, decide_eq_true_iff, hentries]

theorem Json.one_le_of_nestsWithin {levels : Nat} {v : Json} (h : v.nestsWithin levels) :
    1 ≤ levels := by
  cases v <;> simp [nestsWithin] at h <;> omega

namespace Compile
open Editor

variable {levels : Nat} {options : Options} {data node done : Json} {es nodes : Entries Json}
  {graph : Graph}

theorem overrun_fails {run : Traced Json} (h : overrun? levels options data = some run) :
    ∃ fault, run.result = .error fault := by
  cases hresult : run.result with
  | error fault => exact ⟨fault, rfl⟩
  | ok v =>
    unfold overrun? at h
    split at h
    · simp at h
    · simp only [editorOverrun?] at h
      split at h
      · simp at h
      · simp only [graphOverrun?] at h
        split at h
        · simp at h
        · split at h
          · simp at h
          · rw [← Option.some.inj h] at hresult
            simp [Traced.result_bind_eq_ok] at hresult
    · unfold executionOverrun? at h
      split at h
      · split at h
        · simp at h
        · rw [← Option.some.inj h] at hresult
          simp [Traced.result_bind_eq_ok] at hresult
      · simp at h

/-- A compilation that gives a workflow meets nothing too deep. -/
theorem compileWithin_eq_ok {workflow : Json}
    (h : (compileWithin levels options data).result = .ok workflow) :
    overrun? levels options data = none ∧ (compileWorkflow options data).result = .ok workflow := by
  unfold compileWithin at h
  cases hrun : overrun? levels options data with
  | some run =>
    obtain ⟨fault, hfault⟩ := overrun_fails hrun
    simp [hrun, hfault] at h
  | none => exact ⟨rfl, by simpa [hrun] using h⟩

theorem compileWithin_of_graph (hformat : formatOf data = .ok .editor)
    (hread : Graph.ofJson data = .ok graph) (levels : Nat) (options : Options) :
    compileWithin levels options data = compileGraphWithin levels options graph := by
  simp only [compileWithin, overrun?, hformat, editorOverrun?, hread, compileWorkflow,
    compileEditorData, Traced.lift_ok_bind, compileGraphWithin]

section PassThrough

variable {before after : Entries Json} {e : Scalar × Json} {fault : Fault}

/-- Where every node can be copied, the check is the one without a limit. -/
theorem passThroughWithin_of_copyable (h : ∀ e ∈ nodes, isCopyable levels e) :
    passThroughWithin levels (.obj nodes) = passThrough (.obj nodes) := by
  rw [passThroughWithin, executionOverrun?, if_pos (List.all_eq_true.mpr h), Option.getD_none]

theorem exists_first_deep (h : ¬ ∀ e ∈ nodes, isCopyable levels e) :
    ∃ before e after, nodes = before ++ e :: after ∧ ¬ isCopyable levels e ∧
      ∀ f ∈ before, isCopyable levels f := by
  have hdeep : ∃ e ∈ nodes, ¬ isCopyable levels e := by simpa only [not_forall, exists_prop] using h
  obtain ⟨before, e, after, hsplit, he, hbefore⟩ := List.exists_first hdeep
  exact ⟨before, e, after, hsplit, he, fun f hf => not_not.mp (hbefore f hf)⟩

/-- The check ends at the first node that is too deep to copy, if it gets there. -/
theorem passThroughWithin_of_deep (hbefore : ∀ f ∈ before, isCopyable levels f)
    (he : ¬ isCopyable levels e) : passThroughWithin levels (.obj (before ++ e :: after)) =
      (do let _ ← completeNodes before []; Traced.fail .tooDeep) := by
  have hsome : ¬ (before ++ e :: after).all (isCopyable levels) := by
    simp [he]
  have htaken : (before ++ e :: after).takeWhile (isCopyable levels) = before := by
    rw [List.takeWhile_append_of_pos hbefore, List.takeWhile_cons_of_neg he, List.append_nil]
  simp only [passThroughWithin, executionOverrun?, if_neg hsome, htaken, Option.getD_some]

theorem passThroughWithin_eq_ok : (passThroughWithin levels (.obj nodes)).result = .ok done ↔
    (∀ e ∈ nodes, isCopyable levels e) ∧ (passThrough (.obj nodes)).result = .ok done := by
  by_cases h : ∀ e ∈ nodes, isCopyable levels e
  · rw [passThroughWithin_of_copyable h, and_iff_right h]
  · obtain ⟨before, e, after, rfl, he, hbefore⟩ := exists_first_deep h
    refine iff_of_false ?_ fun hok => h hok.1
    simp [passThroughWithin_of_deep hbefore he, Traced.result_bind_eq_ok]

theorem passThrough_ne_tooDeep : (passThrough (.obj nodes)).result ≠ .error .tooDeep := by
  rw [Ne, passThrough_eq_error]
  exact fun h => Fault.not_isStructural_tooDeep (failsIn_completeNodes _ h)

/-- The check overruns if and only if it comes to a node that is too deep to copy, which is to say
that what stands before the node is let through. -/
theorem passThroughWithin_eq_tooDeep :
    (passThroughWithin levels (.obj nodes)).result = .error .tooDeep ↔
      ∃ before e after, nodes = before ++ e :: after ∧ ¬ isCopyable levels e ∧
        ∃ r, (passThroughWithin levels (.obj before)).result = .ok r := by
  constructor
  · intro h
    by_cases hall : ∀ e ∈ nodes, isCopyable levels e
    · rw [passThroughWithin_of_copyable hall] at h
      exact absurd h passThrough_ne_tooDeep
    · obtain ⟨before, e, after, rfl, he, hbefore⟩ := exists_first_deep hall
      rw [passThroughWithin_of_deep hbefore he, Traced.result_bind_eq_error] at h
      rcases h with hfault | ⟨out, hout, -⟩
      · exact absurd (passThrough_eq_error.mpr hfault) passThrough_ne_tooDeep
      · exact ⟨before, e, after, rfl, he, .obj out,
          passThroughWithin_eq_ok.mpr ⟨hbefore, passThrough_eq_ok.mpr ⟨out, hout, rfl⟩⟩⟩
  · rintro ⟨before, e, after, rfl, he, r, hr⟩
    obtain ⟨hbefore, hdone⟩ := passThroughWithin_eq_ok.mp hr
    obtain ⟨out, hout, -⟩ := passThrough_eq_ok.mp hdone
    rw [passThroughWithin_of_deep hbefore he]
    exact Traced.result_bind_eq_error.mpr (.inr ⟨out, hout, rfl⟩)

theorem passThroughWithin_eq_error (hfault : fault ≠ .tooDeep)
    (h : (passThroughWithin levels (.obj nodes)).result = .error fault) :
    (passThrough (.obj nodes)).result = .error fault := by
  by_cases hall : ∀ e ∈ nodes, isCopyable levels e
  · rwa [passThroughWithin_of_copyable hall] at h
  · obtain ⟨before, e, after, rfl, he, hbefore⟩ := exists_first_deep hall
    rw [passThroughWithin_of_deep hbefore he, Traced.result_bind_eq_error] at h
    rcases h with hbefore | ⟨-, -, htooDeep⟩
    · exact passThrough_eq_error.mpr (completeNodes_append hbefore _)
    · exact absurd (Except.error.inj htooDeep).symm hfault

end PassThrough

theorem mem_promoteType {e : Scalar × Json} (h : e ∈ promoteType es) : ∃ f ∈ es, f.2 = e.2 := by
  by_cases hlegacy : Legacy (.obj es)
  · rw [promoteType_of_legacy hlegacy] at h
    rcases Entries.mem_put h with hmem | ⟨hvalue, -⟩
    · exact ⟨e, (Entries.erase_sublist _ _).mem hmem, rfl⟩
    · obtain ⟨v, hget, htype⟩ := exists_field_of_truthy hlegacy.2
      exact ⟨_, Entries.mem_of_get?_str hget, by rw [hvalue, htype]⟩
  · rw [promoteType_of_not_legacy hlegacy] at h
    exact ⟨e, h, rfl⟩

theorem nestsWithin_of_completeNode {name : String}
    (h : (completeNode name node).result = .ok done) (hnode : node.nestsWithin levels) :
    done.nestsWithin levels := by
  obtain ⟨es, rfl, hclass, hdone⟩ := completeNode_eq_ok.mp h
  obtain ⟨hlevels, hentries⟩ := Json.nestsWithin_obj.mp hnode
  have hpromoted : ∀ e ∈ promoteType es, e.2.nestsWithin (levels - 1) := by
    intro e he
    obtain ⟨f, hf, hvalue⟩ := mem_promoteType he
    exact hvalue ▸ hentries f hf
  rcases hdone with ⟨-, rfl⟩ | ⟨-, rfl⟩
  · refine Json.nestsWithin_obj.mpr ⟨hlevels, fun e he => ?_⟩
    rcases Entries.mem_put he with hmem | ⟨hvalue, -⟩
    · exact hpromoted e hmem
    · -- The class of the node takes a level already, and an empty object takes no more.
      obtain ⟨v, hget, -⟩ := exists_field_of_truthy hclass
      have hlevel := Json.one_le_of_nestsWithin
        (hpromoted _ (Entries.mem_of_get?_str hget))
      exact hvalue ▸ Json.nestsWithin_obj.mpr ⟨hlevel, by simp⟩
  · exact Json.nestsWithin_obj.mpr ⟨hlevels, hpromoted⟩

end Compile
end NodeWorkflow
