import NodeWorkflow.Proofs.Outcome

/-!
# How operations fail

An operation made of steps fails only in ways in which a step fails. A fault is structural if it
says what is wrong with the shape of a workflow.
-/
namespace NodeWorkflow

variable {ε α β : Type} {kind : ε → Prop}

/-- If the operation fails at all, then with a fault of this kind. -/
def FailsIn (kind : ε → Prop) (r : Except ε α) : Prop := ∀ fault, r = .error fault → kind fault

@[simp] theorem failsIn_ok (a : α) : FailsIn kind (.ok a : Except ε α) := by
  simp [FailsIn]

@[simp] theorem failsIn_pure (a : α) : FailsIn kind (pure a : Except ε α) := failsIn_ok a

@[simp] theorem failsIn_error {fault : ε} :
    FailsIn kind (.error fault : Except ε α) ↔ kind fault := by
  simp [FailsIn]

theorem failsIn_bind {r : Except ε α} {f : α → Except ε β} :
    FailsIn kind (r >>= f) ↔ FailsIn kind r ∧ ∀ a, r = .ok a → FailsIn kind (f a) := by
  cases r <;> simp [bind, Except.bind]

@[simp] theorem failsIn_map {r : Except ε α} {f : α → β} :
    FailsIn kind (r.map f) ↔ FailsIn kind r := by
  cases r <;> simp [Except.map]

@[simp] theorem failsIn_functor {r : Except ε α} {f : α → β} :
    FailsIn kind (f <$> r) ↔ FailsIn kind r := failsIn_map

theorem FailsIn.mapM {f : α → Except ε β} {xs : List α} (h : ∀ x ∈ xs, FailsIn kind (f x)) :
    FailsIn kind (xs.mapM f) := by
  induction xs with
  | nil => simp
  | cons x xs ih =>
    obtain ⟨hx, hxs⟩ := List.forall_mem_cons.mp h
    simp only [List.mapM_cons, failsIn_bind]
    exact ⟨hx, fun _ _ => ⟨ih hxs, fun _ _ => failsIn_pure _⟩⟩

theorem failsIn_mapM {f : α → Except ε β} {xs : List α} :
    FailsIn kind (xs.mapM f) ↔ ∀ before x after, xs = before ++ x :: after →
      (∀ y ∈ before, ∃ z, f y = .ok z) → FailsIn kind (f x) := by
  induction xs with
  | nil => simp
  | cons x xs ih =>
    simp only [List.mapM_cons, failsIn_bind, failsIn_pure, implies_true, and_true, ih]
    constructor
    · rintro ⟨hx, hxs⟩ before y after hsplit hbefore
      cases before with
      | nil =>
        obtain rfl : x = y := by simpa using congrArg List.head? hsplit
        exact hx
      | cons z before =>
        obtain ⟨rfl, rfl⟩ := List.cons.inj hsplit
        obtain ⟨⟨a, ha⟩, hbefore⟩ := List.forall_mem_cons.mp hbefore
        exact hxs a ha before y after rfl hbefore
    · intro h
      refine ⟨h [] x xs rfl (by simp), fun a ha before y after hsplit hbefore => ?_⟩
      exact h (x :: before) y after (by rw [hsplit, List.cons_append])
        (List.forall_mem_cons.mpr ⟨⟨a, ha⟩, hbefore⟩)

theorem FailsIn.filterM {p : α → Except ε Bool} {xs : List α} (h : ∀ x ∈ xs, FailsIn kind (p x)) :
    FailsIn kind (xs.filterM p) := by
  have haux (acc : List α) : FailsIn kind (xs.filterAuxM p acc) := by
    induction xs generalizing acc with
    | nil => simp [List.filterAuxM]
    | cons x xs ih =>
      obtain ⟨hx, hxs⟩ := List.forall_mem_cons.mp h
      exact failsIn_bind.mpr ⟨hx, fun b _ => ih hxs (cond b (x :: acc) acc)⟩
  exact failsIn_bind.mpr ⟨haux [], fun _ _ => failsIn_pure _⟩

/-- An operation that fails in one kind only fails in no other only if it succeeds. -/
theorem FailsIn.iff_exists_ok {other : ε → Prop} {r : Except ε α} (h : FailsIn kind r)
    (hother : ∀ fault, kind fault → ¬ other fault) : FailsIn other r ↔ ∃ a, r = .ok a := by
  cases r with
  | ok a => simp
  | error fault => simpa using hother fault (failsIn_error.mp h)

theorem Traced.failsIn_bind {kind : Fault → Prop} {t : Traced α} {f : α → Traced β} :
    FailsIn kind (t >>= f).result ↔
      FailsIn kind t.result ∧ ∀ a, t.result = .ok a → FailsIn kind (f a).result := by
  change FailsIn kind (Traced.bind t f).result ↔ _
  cases h : t.result <;> simp [Traced.bind, h]

/-- How the second step fails often does not hang on the result of the first. -/
theorem Traced.failsIn_bind_iff {kind : Fault → Prop} {t : Traced α} {f : α → Traced β}
    {succeeds : Prop} (h : ∀ a, FailsIn kind (f a).result ↔ succeeds) :
    FailsIn kind (t >>= f).result ↔
      FailsIn kind t.result ∧ ((∃ a, t.result = .ok a) → succeeds) := by
  simp only [failsIn_bind, h, forall_exists_index]

def Fault.IsStructural (fault : Fault) : Prop := ∃ cause, fault = .shape cause

@[simp] theorem Fault.isStructural_shape (cause : ShapeFault) : IsStructural (.shape cause) :=
  ⟨cause, rfl⟩

@[simp] theorem Fault.not_isStructural_tooDeep : ¬ IsStructural .tooDeep := by
  simp [IsStructural]

end NodeWorkflow
