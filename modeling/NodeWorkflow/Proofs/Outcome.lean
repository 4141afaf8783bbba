import NodeWorkflow.Event

/-!
# Outcomes of operations

An operation made of steps succeeds if and only if every step does. These laws take a successful
run apart without opening the steps.
-/
namespace NodeWorkflow

theorem Event.warnings_append (events more : List Event) :
    Event.warnings (events ++ more) = Event.warnings events ++ Event.warnings more := by
  simp [Event.warnings]

namespace Traced
variable {α β : Type}

@[simp] theorem result_lift (r : Except Fault α) : (liftM r : Traced α).result = r := rfl

@[simp] theorem result_ok (a : α) : (Traced.ok a).result = .ok a := rfl

@[simp] theorem result_pure (a : α) : (pure a : Traced α).result = .ok a := rfl

@[simp] theorem result_fail (fault : Fault) :
    (Traced.fail fault : Traced α).result = .error fault := rfl

@[simp] theorem result_report (events : List Event) : (report events).result = .ok () := rfl

@[simp] theorem lift_ok_bind (a : α) (f : α → Traced β) :
    ((liftM (.ok a : Except Fault α) : Traced α) >>= f) = f a := rfl

@[simp] theorem lift_error_bind (fault : Fault) (f : α → Traced β) :
    ((liftM (.error fault : Except Fault α) : Traced α) >>= f) = .fail fault := rfl

theorem lift_map (r : Except Fault α) (f : α → β) :
    (liftM (r.map f) : Traced β) = f <$> (liftM r : Traced α) := by
  cases r <;> rfl

theorem mk_ok_bind (events : List Event) (a : α) (f : α → Traced β) :
    ((⟨events, .ok a⟩ : Traced α) >>= f) = ⟨events ++ (f a).events, (f a).result⟩ := rfl

@[simp] theorem events_pure (a : α) : (pure a : Traced α).events = [] := rfl

@[simp] theorem events_fail (fault : Fault) : (Traced.fail fault : Traced α).events = [] := rfl

@[simp] theorem fail_bind (fault : Fault) (f : α → Traced β) :
    (Traced.fail fault : Traced α) >>= f = .fail fault := rfl

protected theorem bind_assoc {γ : Type} (t : Traced α) (f : α → Traced β) (g : β → Traced γ) :
    t >>= f >>= g = t >>= fun a => f a >>= g := by
  obtain ⟨events, result⟩ := t
  cases result with
  | error fault => rfl
  | ok a =>
    rw [mk_ok_bind, mk_ok_bind]
    obtain ⟨more, next⟩ := f a
    cases next with
    | error fault => rfl
    | ok b => simp only [mk_ok_bind, List.append_assoc]

instance : LawfulMonad Traced := .mk' Traced
  (fun t => by
    obtain ⟨events, result⟩ := t
    cases result with
    | error fault => rfl
    | ok a => exact congrArg (Traced.mk · (.ok a)) (List.append_nil events))
  (fun _ _ => rfl)
  Traced.bind_assoc

@[simp] theorem result_map (f : α → β) (t : Traced α) : (f <$> t).result = t.result.map f := by
  obtain ⟨events, result⟩ := t
  cases result <;> rfl

@[simp] theorem events_map (f : α → β) (t : Traced α) : (f <$> t).events = t.events := by
  obtain ⟨events, result⟩ := t
  cases result with
  | error fault => rfl
  | ok a => exact List.append_nil events

/-- What comes second matters only for the results that the first step gives. -/
theorem bind_congr_ok {t : Traced α} {f g : α → Traced β} (h : ∀ a, t.result = .ok a → f a = g a) :
    t >>= f = t >>= g := by
  obtain ⟨events, result⟩ := t
  cases result with
  | error fault => rfl
  | ok a => rw [mk_ok_bind, mk_ok_bind, h a rfl]

theorem result_bind_eq_ok {t : Traced α} {f : α → Traced β} {b : β} :
    (t >>= f).result = .ok b ↔ ∃ a, t.result = .ok a ∧ (f a).result = .ok b := by
  change (Traced.bind t f).result = .ok b ↔ _
  cases h : t.result <;> simp [Traced.bind, h]

theorem result_bind_eq_error {t : Traced α} {f : α → Traced β} {fault : Fault} :
    (t >>= f).result = .error fault ↔
      t.result = .error fault ∨ ∃ a, t.result = .ok a ∧ (f a).result = .error fault := by
  change (Traced.bind t f).result = .error fault ↔ _
  cases h : t.result <;> simp [Traced.bind, h]

theorem warnings_bind {t : Traced α} {f : α → Traced β} {a : α} (h : t.result = .ok a) :
    (t >>= f).warnings = t.warnings ++ (f a).warnings := by
  obtain ⟨events, result⟩ := t
  obtain rfl : result = .ok a := h
  exact Event.warnings_append events (f a).events

end Traced

namespace Except
variable {ε α β : Type}

theorem bind_eq_ok {r : Except ε α} {f : α → Except ε β} {b : β} :
    (r >>= f) = .ok b ↔ ∃ a, r = .ok a ∧ f a = .ok b := by
  cases r <;> simp [bind, Except.bind]

theorem map_eq_ok {r : Except ε α} {f : α → β} {b : β} :
    r.map f = .ok b ↔ ∃ a, r = .ok a ∧ f a = b := by
  cases r <;> simp [Except.map]

@[simp] theorem map_eq_error {r : Except ε α} {f : α → β} {e : ε} :
    r.map f = .error e ↔ r = .error e := by
  cases r <;> simp [Except.map]

theorem mapM_eq_ok {f : α → Except ε β} {xs : List α} {ys : List β} :
    xs.mapM f = .ok ys ↔ xs.map f = ys.map .ok := by
  induction xs generalizing ys with
  | nil => cases ys <;> simp [pure, Except.pure]
  | cons x xs ih =>
    rw [List.mapM_cons, bind_eq_ok]
    cases ys with
    | nil => simp [bind_eq_ok, pure, Except.pure]
    | cons y ys => simp [bind_eq_ok, pure, Except.pure, ih]

theorem exists_mapM {f : α → Except ε β} {xs : List α} :
    (∃ ys, xs.mapM f = .ok ys) ↔ ∀ x ∈ xs, ∃ y, f x = .ok y := by
  induction xs with
  | nil => simp [pure, Except.pure]
  | cons x xs ih =>
    rw [List.forall_mem_cons, ← ih]
    simp only [List.mapM_cons, bind_eq_ok]
    constructor
    · rintro ⟨_, y, hy, ys, hys, -⟩
      exact ⟨⟨y, hy⟩, ys, hys⟩
    · rintro ⟨⟨y, hy⟩, ys, hys⟩
      exact ⟨y :: ys, y, hy, ys, hys, rfl⟩

theorem mem_mapM {f : α → Except ε β} {xs : List α} {ys : List β} (h : xs.mapM f = .ok ys) {y : β} :
    y ∈ ys ↔ ∃ x ∈ xs, f x = .ok y := by
  rw [mapM_eq_ok] at h
  rw [← List.mem_map, h, List.mem_map]
  simp

theorem getElem?_mapM {f : α → Except ε β} {xs : List α} {ys : List β} (h : xs.mapM f = .ok ys)
    {i : Nat} {y : β} (hy : ys[i]? = some y) : ∃ x, xs[i]? = some x ∧ f x = .ok y := by
  rw [mapM_eq_ok] at h
  have hi : (xs.map f)[i]? = some (.ok y) := by rw [h, List.getElem?_map, hy, Option.map_some]
  rw [List.getElem?_map, Option.map_eq_some_iff] at hi
  exact hi

private theorem filterAuxM_eq_ok {p : α → Except ε Bool} {xs acc kept : List α}
    (h : xs.filterAuxM p acc = .ok kept) :
    (∀ x ∈ xs, ∃ b, p x = .ok b) ∧
      kept = (xs.filter fun x => (p x).toOption == some true).reverse ++ acc := by
  induction xs generalizing acc with
  | nil => simpa [List.filterAuxM, pure, Except.pure, eq_comm] using h
  | cons x xs ih =>
    obtain ⟨b, hb, hrest⟩ := bind_eq_ok.mp h
    obtain ⟨hall, hkept⟩ := ih hrest
    refine ⟨fun y hy => ?_, ?_⟩
    · rcases List.mem_cons.mp hy with rfl | hy
      · exact ⟨b, hb⟩
      · exact hall y hy
    · rw [hkept]
      cases b <;> simp [hb, Except.toOption]

theorem filterM_eq_ok {p : α → Except ε Bool} {xs kept : List α} (h : xs.filterM p = .ok kept) :
    (∀ x ∈ xs, ∃ b, p x = .ok b) ∧ kept = xs.filter fun x => (p x).toOption == some true := by
  obtain ⟨reversed, haux, hkept⟩ := bind_eq_ok.mp h
  obtain ⟨hall, hreversed⟩ := filterAuxM_eq_ok haux
  refine ⟨hall, ?_⟩
  rw [← Except.ok.inj hkept, hreversed, List.append_nil, List.reverse_reverse]

theorem exists_filterM {p : α → Except ε Bool} {xs : List α} (h : ∀ x ∈ xs, ∃ b, p x = .ok b) :
    ∃ kept, xs.filterM p = .ok kept := by
  have haux (acc : List α) : ∃ kept, xs.filterAuxM p acc = .ok kept := by
    induction xs generalizing acc with
    | nil => exact ⟨acc, rfl⟩
    | cons x xs ih =>
      obtain ⟨b, hb⟩ := h x List.mem_cons_self
      obtain ⟨kept, hkept⟩ := ih (fun y hy => h y (List.mem_cons_of_mem _ hy)) (cond b (x :: acc) acc)
      exact ⟨kept, bind_eq_ok.mpr ⟨b, hb, hkept⟩⟩
  obtain ⟨kept, hkept⟩ := haux []
  exact ⟨kept.reverse, bind_eq_ok.mpr ⟨kept, hkept, rfl⟩⟩

theorem mem_filterM {p : α → Except ε Bool} {xs kept : List α} (h : xs.filterM p = .ok kept)
    {x : α} : x ∈ kept ↔ x ∈ xs ∧ p x = .ok true := by
  rw [(filterM_eq_ok h).2, List.mem_filter]
  cases p x <;> simp [Except.toOption]

end Except

namespace Option
variable {α β : Type} {f : α → Option β} {xs : List α}

theorem isSome_mapM : (xs.mapM f).isSome ↔ ∀ x ∈ xs, (f x).isSome := by
  induction xs with
  | nil => simp
  | cons x xs ih =>
    rw [List.forall_mem_cons, ← ih, List.mapM_cons]
    cases f x <;> cases xs.mapM f <;> simp

theorem mapM_eq_map {g : α → β} (h : ∀ x ∈ xs, f x = some (g x)) : xs.mapM f = some (xs.map g) := by
  induction xs with
  | nil => rfl
  | cons x xs ih =>
    obtain ⟨hx, hxs⟩ := List.forall_mem_cons.mp h
    rw [List.mapM_cons, hx, ih hxs]
    rfl

end Option
end NodeWorkflow
