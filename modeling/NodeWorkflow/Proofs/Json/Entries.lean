import NodeWorkflow.Proofs.Json.Agreement

/-!
# Laws of entries

What look-up finds after entries are stored: the value that was stored last under an agreeing key.
No assumption is made on the entries; keys may be of any kind and stand there more than once.
-/
namespace NodeWorkflow.Entries

variable {α β : Type} {key k : Scalar} {es new : Entries α}

@[simp] theorem get?_nil (key : Scalar) : get? key ([] : Entries α) = none := rfl

theorem get?_cons (key k : Scalar) (v : α) (es : Entries α) :
    get? key ((k, v) :: es) = if k.agrees key then some v else get? key es := rfl

theorem exists_of_get? {v : α} (h : get? key es = some v) :
    ∃ k, (k, v) ∈ es ∧ k.agrees key = true := by
  induction es with
  | nil => simp at h
  | cons e es ih =>
    obtain ⟨k, w⟩ := e
    rw [get?_cons] at h
    by_cases hk : k.agrees key = true
    · rw [if_pos hk] at h
      exact ⟨k, by simp [Option.some.inj h], hk⟩
    · rw [if_neg hk] at h
      obtain ⟨l, hl, hagrees⟩ := ih h
      exact ⟨l, List.mem_cons_of_mem _ hl, hagrees⟩

theorem get?_eq_none_iff : get? key es = none ↔ ∀ e ∈ es, e.1.agrees key = false := by
  induction es with
  | nil => simp
  | cons e es ih =>
    obtain ⟨k, v⟩ := e
    rw [get?_cons]
    cases hk : k.agrees key <;> simp [hk, ih]

theorem get?_reverse_eq_none_iff : get? key es.reverse = none ↔ get? key es = none := by
  simp [get?_eq_none_iff]

theorem get?_append (es more : Entries α) :
    get? key (es ++ more) = (get? key es).or (get? key more) := by
  induction es with
  | nil => simp
  | cons e es ih =>
    obtain ⟨k, v⟩ := e
    rw [List.cons_append, get?_cons, get?_cons]
    split <;> simp_all

theorem get?_eq_some_iff {v : α} : get? key es = some v ↔
    ∃ before k after, es = before ++ (k, v) :: after ∧ k.agrees key = true ∧
      ∀ e ∈ before, e.1.agrees key = false := by
  constructor
  · intro h
    induction es with
    | nil => simp at h
    | cons e es ih =>
      obtain ⟨l, w⟩ := e
      rw [get?_cons] at h
      split at h
      next hl => exact ⟨[], l, es, by rw [Option.some.inj h]; rfl, hl, by simp⟩
      next hl =>
        obtain ⟨before, k, after, rfl, hk, hbefore⟩ := ih h
        refine ⟨(l, w) :: before, k, after, rfl, hk, ?_⟩
        exact List.forall_mem_cons.mpr ⟨by simpa using hl, hbefore⟩
  · rintro ⟨before, k, after, rfl, hk, hbefore⟩
    rw [get?_append, get?_eq_none_iff.mpr hbefore, get?_cons, if_pos hk, Option.none_or]

/-- From the end, look-up finds the last such entry. -/
theorem get?_reverse_eq_some_iff {v : α} : get? key es.reverse = some v ↔
    ∃ before k after, es = before ++ (k, v) :: after ∧ k.agrees key = true ∧
      ∀ e ∈ after, e.1.agrees key = false := by
  rw [get?_eq_some_iff]
  constructor
  · rintro ⟨after, k, before, hsplit, hk, hafter⟩
    refine ⟨before.reverse, k, after.reverse, ?_, hk, by simpa using hafter⟩
    simpa using congrArg List.reverse hsplit
  · rintro ⟨before, k, after, rfl, hk, hafter⟩
    exact ⟨after.reverse, k, before.reverse, by simp, hk, by simpa using hafter⟩

theorem get?_map (f : α → β) (es : Entries α) :
    get? key (es.map fun e => (e.1, f e.2)) = (get? key es).map f := by
  induction es with
  | nil => rfl
  | cons e es ih =>
    obtain ⟨k, v⟩ := e
    rw [List.map_cons, get?_cons, get?_cons, ih]
    split <;> rfl

theorem get?_congr {l : Scalar} (h : k.agrees l = true) (es : Entries α) :
    get? k es = get? l es := by
  induction es with
  | nil => rfl
  | cons e es ih =>
    obtain ⟨m, v⟩ := e
    have hm : m.agrees k = m.agrees l := Bool.eq_iff_iff.mpr
      ⟨fun hk => Scalar.agrees_trans hk h,
        fun hl => Scalar.agrees_trans hl (Scalar.agrees_symm h)⟩
    rw [get?_cons, get?_cons, ih, hm]

theorem get?_put (key k : Scalar) (v : α) (es : Entries α) :
    get? key (put k v es) = if k.agrees key then some v else get? key es := by
  induction es with
  | nil => rfl
  | cons e es ih =>
    obtain ⟨l, w⟩ := e
    by_cases hl : l.agrees k = true
    · rw [put, if_pos hl, get?_cons, get?_cons]
      by_cases hk : k.agrees key = true
      · rw [if_pos (Scalar.agrees_trans hl hk), if_pos hk]
      · have hlk : ¬ l.agrees key = true := fun h =>
          hk (Scalar.agrees_trans (Scalar.agrees_symm hl) h)
        rw [if_neg hlk, if_neg hk, if_neg hlk]
    · rw [put, if_neg hl, get?_cons, get?_cons, ih]
      by_cases hk : k.agrees key = true
      · have hlk : ¬ l.agrees key = true := fun h =>
          hl (Scalar.agrees_trans h (Scalar.agrees_symm hk))
        rw [if_neg hlk, if_pos hk, if_pos hk]
      · rw [if_neg hk, if_neg hk]

/-- Of the values stored under agreeing keys the last counts. -/
theorem get?_putAll (key : Scalar) (new es : Entries α) :
    get? key (putAll new es) = (get? key new.reverse).or (get? key es) := by
  induction new generalizing es with
  | nil => rfl
  | cons e new ih =>
    obtain ⟨k, v⟩ := e
    change get? key (putAll new (put k v es)) = _
    rw [ih, List.reverse_cons, get?_append, get?_put, get?_cons]
    split <;> simp

/-- What stands in entries after a value is stored stood there before, or is that value under an
agreeing key. -/
theorem mem_put {v : α} {e : Scalar × α} (h : e ∈ put k v es) :
    e ∈ es ∨ e.2 = v ∧ (e.1 = k ∨ e.1.agrees k = true) := by
  induction es with
  | nil => simp_all [put]
  | cons e' es ih =>
    obtain ⟨l, w⟩ := e'
    rw [put] at h
    split at h
    next hagrees =>
      rcases List.mem_cons.mp h with rfl | hmem
      · exact .inr ⟨rfl, .inr hagrees⟩
      · exact .inl (List.mem_cons_of_mem _ hmem)
    next =>
      rcases List.mem_cons.mp h with rfl | hmem
      · exact .inl List.mem_cons_self
      · exact (ih hmem).imp_left (List.mem_cons_of_mem _)

theorem mem_putAll {e : Scalar × α} (h : e ∈ putAll new es) :
    e ∈ es ∨ ∃ e' ∈ new, e.2 = e'.2 := by
  induction new generalizing es with
  | nil => exact .inl h
  | cons e' new ih =>
    rcases ih h with hmem | ⟨e'', hmem, hval⟩
    · rcases mem_put hmem with hes | ⟨hval, -⟩
      · exact .inl hes
      · exact .inr ⟨e', List.mem_cons_self, hval⟩
    · exact .inr ⟨e'', List.mem_cons_of_mem _ hmem, hval⟩

theorem put_of_absent (h : get? key es = none) (v : α) : put key v es = es ++ [(key, v)] := by
  induction es with
  | nil => rfl
  | cons e es ih =>
    rw [get?_eq_none_iff, List.forall_mem_cons, ← get?_eq_none_iff] at h
    rw [put, if_neg (by simp [h.1]), ih h.2, List.cons_append]

theorem keys_put_of_present (h : (get? key es).isSome) (v : α) :
    (put key v es).map Prod.fst = es.map Prod.fst := by
  induction es with
  | nil => simp at h
  | cons e es ih =>
    by_cases hkey : e.1.agrees key = true
    · rw [put, if_pos hkey, List.map_cons, List.map_cons]
    · rw [get?_cons, if_neg hkey] at h
      rw [put, if_neg hkey, List.map_cons, List.map_cons, ih h]

theorem distinct_put (h : es.Distinct) (k : Scalar) (v : α) : (es.put k v).Distinct := by
  induction es with
  | nil => simp [put, Distinct]
  | cons e es ih =>
    obtain ⟨l, w⟩ := e
    obtain ⟨hhead, htail⟩ := List.pairwise_cons.mp h
    rw [put]
    split
    next => exact List.pairwise_cons.mpr ⟨hhead, htail⟩
    next hother =>
      refine List.pairwise_cons.mpr ⟨fun b hb => ?_, ih htail⟩
      rcases mem_put hb with hmem | ⟨-, hk⟩
      · exact hhead b hmem
      · rw [← Bool.not_eq_true]
        intro hagrees
        rcases hk with rfl | hk
        · exact hother hagrees
        · exact hother (Scalar.agrees_trans hagrees hk)

theorem distinct_putAll (h : es.Distinct) (new : Entries α) : (putAll new es).Distinct := by
  induction new generalizing es with
  | nil => exact h
  | cons e new ih => exact ih (distinct_put h e.1 e.2)

/-- Among distinct keys it does not matter from which end an entry is looked up. -/
theorem get?_reverse (h : es.Distinct) : get? key es.reverse = get? key es := by
  induction es with
  | nil => rfl
  | cons e es ih =>
    obtain ⟨k, v⟩ := e
    obtain ⟨hhead, htail⟩ := List.pairwise_cons.mp h
    rw [List.reverse_cons, get?_append, ih htail, get?_cons, get?_cons, get?_nil]
    split
    next hk =>
      have habsent : get? key es = none := get?_eq_none_iff.mpr fun b hb => by
        rw [← Bool.not_eq_true]
        intro hb'
        simpa [hhead b hb] using Scalar.agrees_trans hk (Scalar.agrees_symm hb')
      rw [habsent, Option.none_or]
    next => rw [Option.or_none]

theorem get?_putAll_of_distinct (hnew : new.Distinct) (key : Scalar) (es : Entries α) :
    get? key (putAll new es) = (get? key new).or (get? key es) := by
  rw [get?_putAll, get?_reverse hnew]

/-- What is stored already is stored again without any change. -/
theorem put_of_get? {v : α} (h : get? key es = some v) : put key v es = es := by
  induction es with
  | nil => simp at h
  | cons e es ih =>
    obtain ⟨k, w⟩ := e
    rw [get?_cons] at h
    rw [put]
    split
    next hk =>
      rw [if_pos hk, Option.some.injEq] at h
      rw [h]
    next hk =>
      rw [if_neg hk] at h
      rw [ih h]

theorem putAll_of_stored (h : ∀ e ∈ new, get? e.1 es = some e.2) : putAll new es = es := by
  induction new with
  | nil => rfl
  | cons e new ih =>
    obtain ⟨hhead, hrest⟩ := List.forall_mem_cons.mp h
    change putAll new (put e.1 e.2 es) = es
    rw [put_of_get? hhead, ih hrest]

/-- Among distinct keys look-up finds every entry whose key agrees with itself. -/
theorem get?_of_mem (h : es.Distinct) {v : α} (hmem : (key, v) ∈ es)
    (hkey : key.agrees key = true) : get? key es = some v := by
  induction es with
  | nil => simp at hmem
  | cons e es ih =>
    obtain ⟨k, w⟩ := e
    obtain ⟨hhead, htail⟩ := List.pairwise_cons.mp h
    rw [get?_cons]
    rcases List.mem_cons.mp hmem with heq | hmem
    · obtain ⟨rfl, rfl⟩ := Prod.mk.inj heq
      rw [if_pos hkey]
    · rw [if_neg (by simp [hhead _ hmem]), ih htail hmem]

/-- Among distinct keys there is one entry with a key that agrees with itself. -/
theorem Distinct.unique (h : es.Distinct) {v w : α} (hv : (key, v) ∈ es) (hw : (key, w) ∈ es)
    (hkey : key.agrees key = true) : v = w :=
  Option.some.inj ((get?_of_mem h hv hkey).symm.trans (get?_of_mem h hw hkey))

/-- All keys are texts, and no two of them are the same. -/
structure Textual (es : Entries α) : Prop where
  texts : ∀ e ∈ es, ∃ s, e.1 = .str s
  distinct : es.Distinct

theorem Textual.unique (h : es.Textual) {e f : Scalar × α} (he : e ∈ es) (hf : f ∈ es)
    (hkey : e.1 = f.1) : e = f := by
  obtain ⟨s, hs⟩ := h.texts e he
  refine Prod.ext hkey (h.distinct.unique he (hkey ▸ hf) ?_)
  simp [hs]

theorem Textual.put (h : es.Textual) (s : String) (v : α) :
    (Entries.put (.str s) v es).Textual where
  texts e he := by
    rcases mem_put he with hmem | ⟨-, hkey | hkey⟩
    · exact h.texts e hmem
    · exact ⟨s, hkey⟩
    · exact ⟨s, Scalar.agrees_str_iff.mp hkey⟩
  distinct := distinct_put h.distinct _ v

theorem Textual.of_keys (h : es.Textual) {fs : Entries β}
    (hkeys : fs.map Prod.fst = es.map Prod.fst) :
    fs.Textual where
  texts f hf := by
    have hmem : f.1 ∈ es.map Prod.fst := hkeys ▸ List.mem_map_of_mem hf
    obtain ⟨e, he, heq⟩ := List.mem_map.mp hmem
    exact heq ▸ h.texts e he
  distinct := by
    have hes : (es.map Prod.fst).Pairwise fun a b => a.agrees b = false :=
      List.pairwise_map.mpr h.distinct
    rw [← hkeys] at hes
    exact List.pairwise_map.mp hes

theorem Textual.get?_of_mem (h : es.Textual) {s : String} {v : α} (hmem : (.str s, v) ∈ es) :
    get? (.str s) es = some v :=
  Entries.get?_of_mem h.distinct hmem (by simp)

theorem Textual.nodup_keys (h : es.Textual) : (es.map Prod.fst).Nodup := by
  rw [List.nodup_iff_pairwise_ne, List.pairwise_map]
  refine h.distinct.imp_of_mem fun {a b} ha _ hagrees heq => ?_
  obtain ⟨s, hs⟩ := h.texts a ha
  simp [← heq, hs] at hagrees

theorem mem_of_get?_str {s : String} {v : α} (h : get? (.str s) es = some v) :
    (.str s, v) ∈ es := by
  obtain ⟨k, hmem, hk⟩ := exists_of_get? h
  rwa [Scalar.agrees_str_iff.mp hk] at hmem

theorem Textual.mem_keys_iff (h : es.Textual) {s : String} :
    .str s ∈ es.map Prod.fst ↔ (get? (.str s) es).isSome := by
  rw [Option.isSome_iff_exists, List.mem_map]
  constructor
  · rintro ⟨⟨_, v⟩, hmem, rfl⟩
    exact ⟨v, h.get?_of_mem hmem⟩
  · rintro ⟨v, hget⟩
    exact ⟨_, mem_of_get?_str hget, rfl⟩

theorem Textual.put_middle {before after : Entries α} {v : α}
    (h : Textual (before ++ (key, v) :: after)) (w : α) :
    Entries.put key w (before ++ (key, v) :: after) = before ++ (key, w) :: after := by
  obtain ⟨s, rfl⟩ : ∃ s, key = .str s := h.texts (key, v) (by simp)
  have hdistinct := h.distinct
  induction before with
  | nil => simp [Entries.put]
  | cons e before ih =>
    obtain ⟨hhead, htail⟩ := List.pairwise_cons.mp hdistinct
    have hne : e.1.agrees (.str s) = false := hhead (.str s, v) (by simp)
    simp [Entries.put, hne, ih ⟨fun e he => h.texts e (List.mem_cons_of_mem _ he), htail⟩ htail]

end NodeWorkflow.Entries
