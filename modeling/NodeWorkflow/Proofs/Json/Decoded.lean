import Mathlib.Data.List.Forall2
import Mathlib.Data.List.Perm.Subperm
import NodeWorkflow.Json.Equality
import NodeWorkflow.Proofs.Json.Entries

/-!
# Equality of decoded data

Data that is read from JSON text has texts for keys, no key twice in one object, and no part that
differs from itself. On such data agreement is an equivalence. It goes inside: lists agree item by
item, and objects key by key in any order.
-/
namespace NodeWorkflow

namespace Entries

variable {α : Type} {key other : Scalar} {es fs : Entries α} {v : α}

theorem length_erase (h : get? key es = some v) : (erase key es).length + 1 = es.length := by
  induction es with
  | nil => simp at h
  | cons e es ih =>
    obtain ⟨k, w⟩ := e
    rw [get?_cons] at h
    by_cases hk : k.agrees key = true
    · simp [erase, hk]
    · rw [if_neg hk] at h
      simp [erase, hk, ih h]

theorem get?_erase (h : ¬ key.agrees other = true) (es : Entries α) :
    get? other (erase key es) = get? other es := by
  induction es with
  | nil => rfl
  | cons e es ih =>
    obtain ⟨k, w⟩ := e
    by_cases hk : k.agrees key = true
    · have hother : ¬ k.agrees other = true := fun hko =>
        h (Scalar.agrees_trans (Scalar.agrees_symm hk) hko)
      simp [erase, hk, get?_cons, hother]
    · simp [erase, hk, get?_cons, ih]

theorem mem_erase {e : Scalar × α} (h : e ∈ es) (key : Scalar) :
    e ∈ erase key es ∨ e.1.agrees key = true ∧ get? key es = some e.2 := by
  induction es with
  | nil => simp at h
  | cons e' es ih =>
    obtain ⟨k, w⟩ := e'
    by_cases hk : k.agrees key = true
    · rcases List.mem_cons.mp h with rfl | h
      · exact .inr ⟨hk, by rw [get?_cons, if_pos hk]⟩
      · exact .inl (by simpa [erase, hk] using h)
    · rw [get?_cons, if_neg hk]
      rcases List.mem_cons.mp h with rfl | h
      · simp [erase, hk]
      · simpa [erase, hk] using (ih h).imp_left (.inr ·)

/-- If every key of some entries is found among as many others, then every one of these is found. -/
theorem found_of_length_eq (hes : es.Distinct) (hlength : es.length = fs.length)
    (hfound : ∀ e ∈ es, ∃ w, get? e.1 fs = some w) {f : Scalar × α} (hf : f ∈ fs) :
    ∃ e ∈ es, f.1.agrees e.1 = true ∧ get? e.1 fs = some f.2 := by
  induction es generalizing fs with
  | nil =>
    rw [List.length_nil, eq_comm, List.length_eq_zero_iff] at hlength
    simp [hlength] at hf
  | cons e es ih =>
    obtain ⟨hfirst, hes⟩ := List.pairwise_cons.mp hes
    obtain ⟨w, hw⟩ := hfound e List.mem_cons_self
    rcases mem_erase hf e.1 with hf | ⟨hagrees, hget⟩
    · have hsame : ∀ e' ∈ es, get? e'.1 (erase e.1 fs) = get? e'.1 fs := fun e' he' =>
        get?_erase (by simp [hfirst e' he']) fs
      have hshort : es.length = (erase e.1 fs).length := by
        have hfs := length_erase hw
        rw [List.length_cons] at hlength
        omega
      obtain ⟨e', he', hagrees, hget⟩ := ih hes hshort
        (fun e' he' => by rw [hsame e' he']; exact hfound e' (List.mem_cons_of_mem _ he')) hf
      rw [hsame e' he'] at hget
      exact ⟨e', List.mem_cons_of_mem _ he', hagrees, hget⟩
    · exact ⟨e, List.mem_cons_self, hagrees, hget⟩

end Entries

theorem Scalar.same_nan (a : Scalar) : a.same (.float (.nan true)) = false := by
  cases a with
  | float x => simp [same, Number.Binary64.same]
  | _ => simp [same, int?, Number.Binary64.sameInt]

/-- Equal values are those that agree, except that one thing equals nothing. -/
theorem Scalar.same_iff {a b : Scalar} :
    a.same b = true ↔ a.agrees b = true ∧ a ≠ .float (.nan true) := by
  by_cases ha : a = .float (.nan true)
  · subst ha
    simp [Scalar.same_eq_false (a := .float (.nan true)) rfl b]
  · have heq : a.agrees b = a.same b := by
      unfold Scalar.agrees
      split
      · exact absurd rfl ha
      · rfl
    simp [heq, ha]

namespace Json

variable {u v w x y : Json} {xs ys : List Json} {es fs : Entries Json}

theorem agreesItems_iff :
    agreesItems xs ys = true ↔ List.Forall₂ (fun x y => x.agrees y = true) xs ys := by
  induction xs generalizing ys with
  | nil => cases ys <;> simp [agreesItems]
  | cons x xs ih => cases ys <;> simp [agreesItems, ih]

theorem agreesEntries_iff : agreesEntries es fs = true ↔
    ∀ e ∈ es, ∃ y, Entries.get? e.1 fs = some y ∧ e.2.agrees y = true := by
  induction es with
  | nil => simp [agreesEntries]
  | cons e es ih =>
    obtain ⟨k, x⟩ := e
    cases hget : Entries.get? k fs <;> simp [agreesEntries, ih, hget]

inductive Decoded : Json → Prop where
  | scalar {a : Scalar} (h : a.agrees a = true) : Decoded (.scalar a)
  | list {xs : List Json} (h : ∀ x ∈ xs, Decoded x) : Decoded (.list xs)
  | obj {es : Entries Json} (hkeys : es.Textual) (h : ∀ e ∈ es, Decoded e.2) : Decoded (.obj es)

theorem Decoded.items (h : (Json.list xs).Decoded) : ∀ x ∈ xs, x.Decoded := by
  cases h
  assumption

theorem Decoded.keys (h : (Json.obj es).Decoded) : es.Textual := by
  cases h
  assumption

theorem Decoded.entries (h : (Json.obj es).Decoded) : ∀ e ∈ es, e.2.Decoded := by
  cases h
  assumption

theorem Decoded.field? (h : v.Decoded) {name : String} {x : Json} (hx : v.field? name = some x) :
    x.Decoded := by
  cases v with
  | obj es =>
    obtain ⟨k, hmem, -⟩ := Entries.exists_of_get? hx
    exact h.entries (k, x) hmem
  | _ => simp [Json.field?] at hx

@[simp] theorem decoded_null : Decoded .null := .scalar rfl

@[simp] theorem decoded_str (s : String) : Decoded (.str s) := .scalar (by simp)

@[simp] theorem decoded_int (n : Int) : Decoded (.int n) := .scalar (by simp)

@[simp] theorem decoded_list_iff : Decoded (.list xs) ↔ ∀ x ∈ xs, x.Decoded := ⟨Decoded.items, .list⟩

@[simp] theorem decoded_ofFields_iff {fields : List (String × Json)} : Decoded (.ofFields fields) ↔
    (fields.map Prod.fst).Nodup ∧ ∀ f ∈ fields, f.2.Decoded := by
  have hdistinct : Entries.Distinct (fields.map fun f => (Scalar.str f.1, f.2)) ↔
      (fields.map Prod.fst).Nodup := by
    simp [Entries.Distinct, List.Nodup, List.pairwise_map, ← Bool.not_eq_true]
  constructor
  · intro h
    refine ⟨hdistinct.mp h.keys.distinct, fun f hf => h.entries (.str f.1, f.2) ?_⟩
    exact List.mem_map_of_mem hf
  · rintro ⟨hnodup, hvalues⟩
    refine .obj ⟨fun e he => ?_, hdistinct.mpr hnodup⟩ fun e he => ?_
    · obtain ⟨f, -, rfl⟩ := List.mem_map.mp he
      exact ⟨f.1, rfl⟩
    · obtain ⟨f, hf, rfl⟩ := List.mem_map.mp he
      exact hvalues f hf

theorem Decoded.agrees_self (h : v.Decoded) : v.agrees v = true := by
  induction h with
  | scalar h => exact h
  | list h ih => exact agreesItems_iff.mpr (List.forall₂_same.mpr ih)
  | obj hkeys h ih =>
    simp only [agrees, beq_self_eq_true, Bool.true_and, agreesEntries_iff]
    intro e he
    obtain ⟨s, hs⟩ := hkeys.texts e he
    exact ⟨e.2, Entries.get?_of_mem hkeys.distinct he (by simp [hs]), ih e he⟩

/-- What one decoded value agrees with agrees. -/
theorem Decoded.agrees_of_agrees (h : u.Decoded) (hv : u.agrees v = true)
    (hw : u.agrees w = true) : v.agrees w = true := by
  induction h generalizing v w with
  | scalar h =>
    cases v <;> cases w <;> simp only [agrees, Bool.false_eq_true] at hv hw ⊢
    exact Scalar.agrees_trans (Scalar.agrees_symm hv) hw
  | @list us h ih =>
    cases v <;> cases w <;> simp only [agrees, Bool.false_eq_true] at hv hw ⊢
    next xs ys =>
      rw [agreesItems_iff] at hv hw ⊢
      rw [List.forall₂_iff_get] at hv hw ⊢
      obtain ⟨hxs, hv⟩ := hv
      obtain ⟨hys, hw⟩ := hw
      refine ⟨hxs.symm.trans hys, fun i hi hi' => ?_⟩
      have hu : i < us.length := by omega
      exact ih _ (List.get_mem us ⟨i, hu⟩) (hv i hu hi) (hw i hu hi')
  | @obj us hkeys h ih =>
    cases v <;> cases w <;> simp only [agrees, Bool.false_eq_true] at hv hw ⊢
    next es fs =>
      simp only [Bool.and_eq_true, beq_iff_eq, agreesEntries_iff] at hv hw ⊢
      refine ⟨hv.1.symm.trans hw.1, fun e he => ?_⟩
      obtain ⟨e', he', hkey, hget⟩ := Entries.found_of_length_eq hkeys.distinct hv.1
        (fun e he => (hv.2 e he).imp fun y hy => hy.1) he
      obtain ⟨x, hx, hagrees⟩ := hv.2 e' he'
      obtain rfl : x = e.2 := Option.some.inj (hx.symm.trans hget)
      obtain ⟨y, hy, hagrees'⟩ := hw.2 e' he'
      exact ⟨y, by rw [Entries.get?_congr hkey, hy], ih e' he' hagrees hagrees'⟩

theorem same_scalar (a b : Scalar) : (Json.scalar a).same (.scalar b) = a.same b := rfl

theorem agrees_of_same (h : v.same w = true) : v.agrees w = true := by
  cases v <;> cases w <;> first | exact h | exact (Scalar.same_iff.mp h).1

theorem Decoded.same_of_same (h : u.Decoded) (hv : u.same v = true) (hw : u.same w = true) :
    v.same w = true := by
  have hagrees := h.agrees_of_agrees (agrees_of_same hv) (agrees_of_same hw)
  cases v with
  | scalar a => cases u with
    | scalar c => cases w with
      | scalar b =>
        refine Scalar.same_iff.mpr ⟨hagrees, ?_⟩
        rintro rfl
        simp [same_scalar, Scalar.same_nan] at hv
      | _ => simp [agrees] at hagrees
    | _ => simp [same, agrees] at hv
  | _ => exact hagrees

/-- Both values are decoded, and they agree. -/
structure Alike (v w : Json) : Prop where
  left : v.Decoded
  right : w.Decoded
  agrees : v.agrees w = true

theorem Alike.refl (h : v.Decoded) : Alike v v := ⟨h, h, h.agrees_self⟩

theorem Alike.symm (h : Alike v w) : Alike w v :=
  ⟨h.right, h.left, h.left.agrees_of_agrees h.agrees h.left.agrees_self⟩

theorem Alike.trans (h : Alike u v) (h' : Alike v w) : Alike u w :=
  ⟨h.left, h'.right, h.right.agrees_of_agrees h.symm.agrees h'.agrees⟩

/-- Alike values are both scalars, both lists or both objects. -/
theorem Alike.shape (h : Alike v w) : (∃ a b, v = .scalar a ∧ w = .scalar b) ∨
    (∃ xs ys, v = .list xs ∧ w = .list ys) ∨ ∃ es fs, v = .obj es ∧ w = .obj fs := by
  have hagrees := h.agrees
  cases v <;> cases w <;> simp_all [Json.agrees]

theorem Alike.same_eq (h : Alike v w) (x : Json) : v.same x = w.same x := by
  suffices hone : ∀ {v w : Json}, Alike v w → v.same x = true → w.same x = true from
    Bool.eq_iff_iff.mpr ⟨hone h, hone h.symm⟩
  intro v w h hx
  refine h.left.same_of_same ?_ hx
  cases v with
  | scalar a => cases w with
    | scalar b => cases x with
      | scalar c => exact Scalar.same_iff.mpr ⟨h.agrees, (Scalar.same_iff.mp hx).2⟩
      | _ => simp [same, Json.agrees] at hx
    | _ => exact absurd h.agrees (by simp [Json.agrees])
  | _ => exact h.agrees

theorem isNull_iff : v.isNull ↔ v = .null := by
  cases v with
  | scalar a => cases a <;> simp [isNull]
  | _ => simp [isNull]

theorem same_str_iff {s : String} : v.same (.str s) = true ↔ v = .str s := by
  constructor
  · intro h
    cases v with
    | scalar a => rw [Scalar.agrees_str_iff.mp (Scalar.same_iff.mp h).1]
    | _ => simp [same, Json.agrees] at h
  · rintro rfl
    simp [same, Scalar.same]

theorem same_null (v : Json) : v.same .null = v.isNull := by
  cases v with
  | scalar a => cases a <;> simp [same, isNull, Scalar.same, Scalar.int?]
  | _ => rfl

theorem Alike.isNull_eq (h : Alike v w) : v.isNull = w.isNull := by
  rw [← same_null, ← same_null, h.same_eq]

theorem alike_list_iff : Alike (.list xs) (.list ys) ↔
    xs.length = ys.length ∧ ∀ i : Nat, Alike (xs[i]?.getD .null) (ys[i]?.getD .null) := by
  constructor
  · intro h
    obtain ⟨hlength, hitems⟩ := List.forall₂_iff_get.mp (agreesItems_iff.mp h.agrees)
    refine ⟨hlength, fun i => ?_⟩
    by_cases hi : i < xs.length
    · have hi' : i < ys.length := by omega
      simp only [List.getElem?_eq_getElem hi, List.getElem?_eq_getElem hi', Option.getD_some]
      exact ⟨h.left.items _ (List.getElem_mem hi), h.right.items _ (List.getElem_mem hi'),
        hitems i hi hi'⟩
    · have hi' : ¬ i < ys.length := by omega
      simp only [List.getElem?_eq_none (not_lt.mp hi), List.getElem?_eq_none (not_lt.mp hi'),
        Option.getD_none]
      exact Alike.refl decoded_null
  · rintro ⟨hlength, hitems⟩
    have hboth (i : Nat) (hi : i < xs.length) (hi' : i < ys.length) : Alike xs[i] ys[i] := by
      simpa [hi, hi'] using hitems i
    refine ⟨.list fun x hx => ?_, .list fun y hy => ?_, ?_⟩
    · obtain ⟨i, hi, rfl⟩ := List.getElem_of_mem hx
      exact (hboth i hi (hlength ▸ hi)).left
    · obtain ⟨i, hi, rfl⟩ := List.getElem_of_mem hy
      exact (hboth i (hlength ▸ hi) hi).right
    · refine agreesItems_iff.mpr (List.forall₂_iff_get.mpr ⟨hlength, fun i hi hi' => ?_⟩)
      exact (hboth i hi hi').agrees

/-- A text that is a key of an object is a key of one that agrees with it, with an alike value. -/
theorem Alike.get? (h : Alike (.obj es) (.obj fs)) {s : String}
    (hx : Entries.get? (.str s) es = some x) :
    ∃ y, Entries.get? (.str s) fs = some y ∧ Alike x y := by
  have hmem := Entries.mem_of_get?_str hx
  have hagrees := h.agrees
  simp only [Json.agrees, Bool.and_eq_true, agreesEntries_iff] at hagrees
  obtain ⟨y, hy, hxy⟩ := hagrees.2 _ hmem
  exact ⟨y, hy, h.left.entries _ hmem, h.right.entries _ (Entries.mem_of_get?_str hy), hxy⟩

theorem Alike.rel_get? (h : Alike (.obj es) (.obj fs)) (s : String) :
    Option.Rel Alike (Entries.get? (.str s) es) (Entries.get? (.str s) fs) := by
  cases hx : Entries.get? (.str s) es with
  | some x =>
    obtain ⟨y, hy, hxy⟩ := h.get? hx
    rw [hy]
    exact .some hxy
  | none => cases hy : Entries.get? (.str s) fs with
    | none => exact .none
    | some y =>
      obtain ⟨x, hx', -⟩ := h.symm.get? hy
      simp [hx] at hx'

private theorem entry_of_rel {r : Json → Json → Prop} (hes : es.Textual)
    (h : ∀ s : String, Option.Rel r (Entries.get? (.str s) es) (Entries.get? (.str s) fs))
    {e : Scalar × Json} (he : e ∈ es) : ∃ y, Entries.get? e.1 fs = some y ∧ (e.1, y) ∈ fs ∧ r e.2 y := by
  obtain ⟨k, x⟩ := e
  obtain ⟨s, rfl⟩ : ∃ s, k = .str s := hes.texts _ he
  have hrel := h s
  rw [hes.get?_of_mem he] at hrel
  cases hy : Entries.get? (.str s) fs with
  | none =>
    rw [hy] at hrel
    cases hrel
  | some y =>
    rw [hy] at hrel
    cases hrel with
    | some hxy => exact ⟨y, rfl, Entries.mem_of_get?_str hy, hxy⟩

/-- Objects are alike if and only if under every text they have alike values, or both none. -/
theorem alike_obj_iff : Alike (.obj es) (.obj fs) ↔ es.Textual ∧ fs.Textual ∧
    ∀ s : String, Option.Rel Alike (Entries.get? (.str s) es) (Entries.get? (.str s) fs) := by
  constructor
  · intro h
    exact ⟨h.left.keys, h.right.keys, h.rel_get?⟩
  · rintro ⟨hes, hfs, hrel⟩
    have hback : ∀ s : String, Option.Rel (fun y x => Alike x y) (Entries.get? (.str s) fs)
        (Entries.get? (.str s) es) := by
      intro s
      cases hx : Entries.get? (.str s) es <;> cases hy : Entries.get? (.str s) fs <;>
        have hs := hrel s <;> rw [hx, hy] at hs <;> cases hs
      · exact .none
      · exact .some (by assumption)
    have hle : es.length ≤ fs.length := by
      have hsub : es.map Prod.fst ⊆ fs.map Prod.fst := by
        intro k hk
        obtain ⟨e, he, rfl⟩ := List.mem_map.mp hk
        obtain ⟨y, -, hy, -⟩ := entry_of_rel hes hrel he
        exact List.mem_map.mpr ⟨_, hy, rfl⟩
      simpa using (hes.nodup_keys.subperm hsub).length_le
    have hge : fs.length ≤ es.length := by
      have hsub : fs.map Prod.fst ⊆ es.map Prod.fst := by
        intro k hk
        obtain ⟨f, hf, rfl⟩ := List.mem_map.mp hk
        obtain ⟨x, -, hx, -⟩ := entry_of_rel hfs hback hf
        exact List.mem_map.mpr ⟨_, hx, rfl⟩
      simpa using (hfs.nodup_keys.subperm hsub).length_le
    refine ⟨.obj hes fun e he => ?_, .obj hfs fun f hf => ?_, ?_⟩
    · obtain ⟨y, -, -, hxy⟩ := entry_of_rel hes hrel he
      exact hxy.left
    · obtain ⟨x, -, -, hxy⟩ := entry_of_rel hfs hback hf
      exact hxy.right
    · simp only [Json.agrees, Bool.and_eq_true, beq_iff_eq, agreesEntries_iff]
      refine ⟨le_antisymm hle hge, fun e he => ?_⟩
      obtain ⟨y, hy, -, hxy⟩ := entry_of_rel hes hrel he
      exact ⟨y, hy, hxy.agrees⟩

theorem Alike.put (h : Alike (.obj es) (.obj fs)) (s : String) (hxy : Alike x y) :
    Alike (.obj (Entries.put (.str s) x es)) (.obj (Entries.put (.str s) y fs)) := by
  refine alike_obj_iff.mpr ⟨h.left.keys.put s x, h.right.keys.put s y, fun t => ?_⟩
  rw [Entries.get?_put, Entries.get?_put]
  split
  · exact .some hxy
  · exact h.rel_get? t

theorem alike_of_forall₂ (h : List.Forall₂ (fun e f : Scalar × Json => f.1 = e.1 ∧ Alike e.2 f.2) es fs)
    (hes : es.Textual) : Alike (.obj es) (.obj fs) := by
  have hkeys : fs.map Prod.fst = es.map Prod.fst := by
    induction h with
    | nil => rfl
    | cons hef _ ih => simp [hef.1, ih ⟨fun e he => hes.texts e (List.mem_cons_of_mem _ he),
        (List.pairwise_cons.mp hes.distinct).2⟩]
  refine alike_obj_iff.mpr ⟨hes, hes.of_keys hkeys, fun s => ?_⟩
  clear hkeys hes
  induction h with
  | nil => exact .none
  | @cons e f es fs hef _ ih =>
    obtain ⟨k, v⟩ := e
    obtain ⟨l, w⟩ := f
    obtain ⟨rfl, hvw⟩ := hef
    rw [Entries.get?_cons, Entries.get?_cons]
    split
    · exact .some hvw
    · exact ih

end Json
end NodeWorkflow
