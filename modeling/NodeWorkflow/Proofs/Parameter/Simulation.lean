import NodeWorkflow.Parameter.Injection

/-!
# Injections through two surfaces

An injection sees a surface only through its graph and the outcomes of writes. So if the writes to
two surfaces keep them related, an injection through either reports the same and leaves them
related; and what every write into a node that can be found keeps, an injection keeps.
-/
namespace NodeWorkflow

def Path.Parsed (path : Path) : Prop := ∃ text, Path.parse text = .ok path

variable {σ τ : Type}

/-- The nodes that are found in a graph are among those with some ids. -/
def FindsAmong (A : Scalar → Prop) (graph : Json) : Prop :=
  ∀ nodeType conditions ids, findNodes graph nodeType conditions = .ok ids → ∀ id ∈ ids, A id

theorem findsAmong_all (graph : Json) : FindsAmong (fun _ => True) graph :=
  fun _ _ _ _ _ _ => trivial

/-- Related states show one graph, and a write to both, into a node that can be found, has one
outcome and relates the results. -/
structure Surface.Simulates (S : Surface σ) (T : Surface τ) (A : Scalar → Prop)
    (R : σ → τ → Prop) : Prop where
  graph : ∀ {s t}, R s t → S.graph s = T.graph t
  finds : ∀ {s t}, R s t → FindsAmong A (T.graph t)
  write : ∀ {s t}, R s t → ∀ id path value, A id → Path.Parsed path →
    (S.write s id path value).2 = (T.write t id path value).2 ∧
      R (S.write s id path value).1 (T.write t id path value).1

/-- Two injections report the same and end in related states. -/
structure Injection.Agree (R : σ → τ → Prop) (i : Injection σ) (j : Injection τ) : Prop where
  events : i.events = j.events
  fault : i.fault = j.fault
  state : R i.state j.state

variable {S : Surface σ} {T : Surface τ} {A : Scalar → Prop} {R : σ → τ → Prop}

theorem Injection.Agree.andThen {i : Injection σ} {j : Injection τ} (h : Injection.Agree R i j)
    {f : σ → Injection σ} {g : τ → Injection τ}
    (hnext : ∀ s t, R s t → Injection.Agree R (f s) (g t)) :
    Injection.Agree R (i.andThen f) (j.andThen g) := by
  have hfg := hnext _ _ h.state
  unfold Injection.andThen
  rw [← h.fault]
  cases i.fault with
  | some fault => exact h
  | none => exact ⟨by simp [h.events, hfg.events], hfg.fault, hfg.state⟩

theorem Injection.Agree.foldl {α : Type} (xs : List α) {f : α → σ → Injection σ}
    {g : α → τ → Injection τ} (hnext : ∀ x ∈ xs, ∀ s t, R s t → Injection.Agree R (f x s) (g x t))
    {i : Injection σ} {j : Injection τ} (h : Injection.Agree R i j) :
    Injection.Agree R (xs.foldl (fun i x => i.andThen (f x)) i)
      (xs.foldl (fun j x => j.andThen (g x)) j) := by
  induction xs generalizing i j with
  | nil => exact h
  | cons x xs ih =>
    refine ih (fun y hy => hnext y (List.mem_cons_of_mem _ hy)) ?_
    exact h.andThen (hnext x List.mem_cons_self)

namespace Surface.Simulates

theorem writeData (h : S.Simulates T A R) {s : σ} {t : τ} (hst : R s t) {id : Scalar} (hid : A id)
    (path value : Json) : (S.writeData s id path value).2 = (T.writeData t id path value).2 ∧
      R (S.writeData s id path value).1 (T.writeData t id path value).1 := by
  unfold Surface.writeData
  split
  next p hp =>
    refine h.write hst id p value hid ?_
    unfold Path.ofJson at hp
    split at hp
    next text => exact ⟨text, hp⟩
    next => simp at hp
  · exact ⟨rfl, hst⟩
  · exact ⟨rfl, hst⟩

theorem writeIfGiven (h : S.Simulates T A R) {s : σ} {t : τ} (hst : R s t) {id : Scalar}
    (hid : A id) (path value : Json) :
    (S.writeIfGiven s id path value).2 = (T.writeIfGiven t id path value).2 ∧
      R (S.writeIfGiven s id path value).1 (T.writeIfGiven t id path value).1 := by
  unfold Surface.writeIfGiven
  split
  · exact h.writeData hst hid path value
  · exact ⟨rfl, hst⟩

theorem injectNode (h : S.Simulates T A R) (name : Scalar) (spec : ParameterSpec) (value : Json)
    {id : Scalar} (hid : A id) {s : σ} {t : τ} (hst : R s t) :
    Injection.Agree R (injectNode S name spec value s id) (injectNode T name spec value t id) := by
  obtain ⟨houtcome, hfirst⟩ := h.writeIfGiven hst hid spec.primaryPath value
  obtain ⟨s', outcome, hs⟩ : ∃ s' o, S.writeIfGiven s id spec.primaryPath value = (s', o) :=
    ⟨_, _, rfl⟩
  obtain ⟨t', outcome', ht⟩ : ∃ t' o, T.writeIfGiven t id spec.primaryPath value = (t', o) :=
    ⟨_, _, rfl⟩
  rw [hs, ht] at houtcome hfirst
  obtain rfl : outcome = outcome' := houtcome
  unfold NodeWorkflow.injectNode
  rw [hs, ht]
  cases outcome with
  | done => exact ⟨rfl, rfl, hfirst⟩
  | stopped fault => exact ⟨rfl, rfl, hfirst⟩
  | refused =>
    obtain ⟨hfallback, hsecond⟩ := h.writeIfGiven hfirst hid spec.fallbackPath value
    obtain ⟨s'', last, hs'⟩ : ∃ s'' o, S.writeIfGiven s' id spec.fallbackPath value = (s'', o) :=
      ⟨_, _, rfl⟩
    obtain ⟨t'', last', ht'⟩ : ∃ t'' o, T.writeIfGiven t' id spec.fallbackPath value = (t'', o) :=
      ⟨_, _, rfl⟩
    simp only [hs', ht'] at hfallback hsecond ⊢
    subst hfallback
    cases last <;> exact ⟨rfl, rfl, hsecond⟩

theorem injectOne (h : S.Simulates T A R) (registry : Registry) (name : Scalar) (value : Json)
    {s : σ}
    {t : τ} (hst : R s t) :
    Injection.Agree R (injectOne S registry name value s) (injectOne T registry name value t) := by
  unfold NodeWorkflow.injectOne
  split
  · exact ⟨rfl, rfl, hst⟩
  split
  · exact ⟨rfl, rfl, hst⟩
  split
  · exact ⟨rfl, rfl, hst⟩
  next value _ =>
    rw [h.graph hst]
    split
    · exact ⟨rfl, rfl, hst⟩
    · exact ⟨rfl, rfl, hst⟩
    next ids _ hfound =>
      have hids := h.finds hst _ _ ids hfound
      exact Injection.Agree.foldl ids
        (fun id hid s t hst => h.injectNode name _ value (hids id hid) hst) ⟨rfl, rfl, hst⟩

theorem inject (h : S.Simulates T A R) (registry : Registry) (values : Json) {s : σ} {t : τ}
    (hst : R s t) :
    Injection.Agree R (inject S registry values s) (inject T registry values t) := by
  unfold NodeWorkflow.inject
  split
  next entries =>
    exact Injection.Agree.foldl entries
      (fun e _ s t hst => h.injectOne registry e.1 e.2 hst) ⟨rfl, rfl, hst⟩
  · exact ⟨rfl, rfl, hst⟩

end Surface.Simulates

/-- What every write into a node that can be found keeps, an injection keeps. -/
theorem inject_keeps {P : σ → Prop} (hfinds : ∀ s, P s → FindsAmong A (S.graph s))
    (hwrite : ∀ s id path value, P s → A id → Path.Parsed path → P (S.write s id path value).1)
    (registry : Registry) (values : Json) {s : σ} (h : P s) :
    P (inject S registry values s).state := by
  have hself : S.Simulates S A fun s t => s = t ∧ P s :=
    ⟨fun hst => by rw [hst.1], fun hst => hst.1 ▸ hfinds _ hst.2, fun hst id path value hid hpath =>
      ⟨by rw [hst.1], by rw [hst.1], hwrite _ id path value hst.2 hid hpath⟩⟩
  exact (hself.inject registry values ⟨rfl, h⟩).state.2

end NodeWorkflow
