import Mathlib
import NodeWorkflow.Proofs.Outcome
import NodeWorkflow.Sharing.Drawn

/-!
# The parts of a compiled document

Which places of a compiled document share a part is settled by the drawings alone: two places do if
and only if what they hold comes from one place of the editor graph, or from one place of the
compiled graph itself. The numbers of the parts depend on what was compiled before.
-/
namespace NodeWorkflow.Compile

inductive Origin where
  | editor (place : Place)
  | compiled (place : Place)
  deriving DecidableEq

abbrev Outline := List (Place × Origin)

def Outline.draw (outline : Outline) : Drawing → Outline
  | .fromEditor source target => outline ++ [(target, .editor source)]
  | .fromCompiled source target => match outline.find? fun e => e.1 = source with
    | some e => outline ++ [(target, e.2)]
    | none => outline ++ [(source, .compiled source), (target, .compiled source)]

def outline (ds : List Drawing) : Outline := ds.foldl Outline.draw []

/-- The holdings of an editor document and of the one that is compiled from it, and the number of
the next part. -/
structure Pair where
  editor : List Holding
  compiled : List Holding
  parts : Nat

namespace Pair

/-- Holdings with a part at a place, the part, and the number of the next one. -/
def partIn (holdings : List Holding) (place : Place) (next : Nat) : List Holding × Nat × Nat :=
  match holdings.find? fun h => h.place = place with
  | some h => (holdings, h.part, next)
  | none => (holdings ++ [⟨place, next⟩], next, next + 1)

def draw (p : Pair) : Drawing → Pair
  | .fromEditor source target =>
    let (editor, part, parts) := partIn p.editor source p.parts
    ⟨editor, p.compiled ++ [⟨target, part⟩], parts⟩
  | .fromCompiled source target =>
    let (compiled, part, parts) := partIn p.compiled source p.parts
    ⟨p.editor, compiled ++ [⟨target, part⟩], parts⟩

/-- The parts of the compiled document are told apart by their origins. -/
structure Traces (p : Pair) (outline : Outline) (part : Origin → Nat) : Prop where
  compiled : p.compiled = outline.map fun e => ⟨e.1, part e.2⟩
  places : (p.editor.map Holding.place).Nodup
  parts : (p.editor.map Holding.part).Nodup
  bounded : ∀ h ∈ p.editor, h.part < p.parts
  known : ∀ e ∈ outline, part e.2 < p.parts
  apart : ∀ e ∈ outline, ∀ e' ∈ outline, part e.2 = part e'.2 → e.2 = e'.2
  editor : ∀ e ∈ outline, ∀ source, e.2 = .editor source → ⟨source, part (.editor source)⟩ ∈ p.editor
  own : ∀ e ∈ outline, ∀ source, e.2 = .compiled source →
    (∀ h ∈ p.editor, h.part ≠ part e.2) ∧ ∃ e' ∈ outline, e'.1 = source

variable {p : Pair} {outline : Outline} {part : Origin → Nat} {source target : Place}

theorem Traces.append (h : p.Traces outline part) (target : Place) {origin : Origin}
    (hknown : part origin < p.parts)
    (hapart : ∀ e ∈ outline, part e.2 = part origin → e.2 = origin)
    (heditor : ∀ source, origin = .editor source → ⟨source, part (.editor source)⟩ ∈ p.editor)
    (hown : ∀ source, origin = .compiled source →
      (∀ h ∈ p.editor, h.part ≠ part origin) ∧ ∃ e' ∈ outline ++ [(target, origin)], e'.1 = source) :
    (Pair.mk p.editor (p.compiled ++ [⟨target, part origin⟩]) p.parts).Traces
      (outline ++ [(target, origin)]) part where
  compiled := by simp [h.compiled]
  places := h.places
  parts := h.parts
  bounded := h.bounded
  known e he := by
    rcases List.mem_append.mp he with he | he
    · exact h.known e he
    · rw [List.mem_singleton.mp he]
      exact hknown
  apart e he e' he' heq := by
    rcases List.mem_append.mp he with he | he <;> rcases List.mem_append.mp he' with he' | he'
    · exact h.apart e he e' he' heq
    · rw [List.mem_singleton.mp he'] at heq ⊢
      exact hapart e he heq
    · rw [List.mem_singleton.mp he] at heq ⊢
      exact (hapart e' he' heq.symm).symm
    · rw [List.mem_singleton.mp he, List.mem_singleton.mp he']
  editor e he s hs := by
    rcases List.mem_append.mp he with he | he
    · exact h.editor e he s hs
    · rw [List.mem_singleton.mp he] at hs
      exact heditor s hs
  own e he s hs := by
    rcases List.mem_append.mp he with he | he
    · obtain ⟨hne, e', he', hplace⟩ := h.own e he s hs
      exact ⟨hne, e', List.mem_append_left _ he', hplace⟩
    · rw [List.mem_singleton.mp he] at hs ⊢
      exact hown s hs

theorem Traces.rename (h : p.Traces outline part) {origin : Origin}
    (hnew : ∀ e ∈ outline, e.2 ≠ origin) (n : Nat) :
    p.Traces outline (Function.update part origin n) := by
  have hsame : ∀ e ∈ outline, Function.update part origin n e.2 = part e.2 :=
    fun e he => Function.update_of_ne (hnew e he) _ _
  constructor
  · rw [h.compiled]
    exact List.map_congr_left fun e he => by rw [hsame e he]
  · exact h.places
  · exact h.parts
  · exact h.bounded
  · exact fun e he => by rw [hsame e he]; exact h.known e he
  · intro e he e' he' heq
    rw [hsame e he, hsame e' he'] at heq
    exact h.apart e he e' he' heq
  · intro e he s hs
    have hpart := hsame e he
    rw [hs] at hpart
    rw [hpart]
    exact h.editor e he s hs
  · intro e he s hs
    rw [hsame e he]
    exact h.own e he s hs

/-- A new part for a place of the editor document. -/
theorem Traces.grow (h : p.Traces outline part) (hnew : ∀ x ∈ p.editor, x.place ≠ source) :
    (Pair.mk (p.editor ++ [⟨source, p.parts⟩]) p.compiled (p.parts + 1)).Traces outline part where
  compiled := h.compiled
  places := by
    rw [List.map_append, List.nodup_append]
    exact ⟨h.places, by simp, by simpa using hnew⟩
  parts := by
    rw [List.map_append, List.nodup_append]
    refine ⟨h.parts, by simp, ?_⟩
    simp only [List.mem_map, List.map_cons, List.map_nil, List.mem_singleton]
    rintro _ ⟨x, hx, rfl⟩ _ rfl
    exact (h.bounded x hx).ne
  bounded x hx := by
    rcases List.mem_append.mp hx with hx | hx
    · exact (h.bounded x hx).trans (Nat.lt_succ_self _)
    · rw [List.mem_singleton.mp hx]
      exact Nat.lt_succ_self _
  known e he := (h.known e he).trans (Nat.lt_succ_self _)
  apart := h.apart
  editor e he s hs := List.mem_append_left _ (h.editor e he s hs)
  own e he s hs := by
    obtain ⟨hne, hroot⟩ := h.own e he s hs
    refine ⟨fun x hx => ?_, hroot⟩
    rcases List.mem_append.mp hx with hx | hx
    · exact hne x hx
    · rw [List.mem_singleton.mp hx]
      exact (h.known e he).ne'

theorem Traces.raise (h : p.Traces outline part) :
    (Pair.mk p.editor p.compiled (p.parts + 1)).Traces outline part :=
  { h with
    bounded := fun x hx => (h.bounded x hx).trans (Nat.lt_succ_self _)
    known := fun e he => (h.known e he).trans (Nat.lt_succ_self _) }

/-- An entry for a place at which the editor document holds a part. -/
theorem Traces.adopt (h : p.Traces outline part) {n : Nat} (hn : ⟨source, n⟩ ∈ p.editor) :
    ∃ part, (Pair.mk p.editor (p.compiled ++ [⟨target, n⟩]) p.parts).Traces
      (outline ++ [(target, .editor source)]) part := by
  obtain ⟨part, h, hpart⟩ : ∃ part, p.Traces outline part ∧ part (.editor source) = n := by
    by_cases hseen : ∃ e ∈ outline, e.2 = .editor source
    · obtain ⟨e, he, horigin⟩ := hseen
      have hmem := h.editor e he source horigin
      have hsame := List.inj_on_of_nodup_map h.places hmem hn rfl
      exact ⟨part, h, congrArg Holding.part hsame⟩
    · push Not at hseen
      exact ⟨_, h.rename hseen n, Function.update_self _ _ _⟩
  refine ⟨part, hpart ▸ h.append target ?_ ?_ ?_ ?_⟩
  · rw [hpart]
    exact h.bounded _ hn
  · intro e he heq
    rw [hpart] at heq
    cases horigin : e.2 with
    | editor place =>
      have hmem := h.editor e he place horigin
      rw [← horigin, heq] at hmem
      have hsame := List.inj_on_of_nodup_map h.parts hmem hn rfl
      exact congrArg (fun x => Origin.editor x.place) hsame
    | compiled place => exact absurd heq.symm ((h.own e he place horigin).1 _ hn)
  · intro place hplace
    obtain rfl := Origin.editor.inj hplace
    rw [hpart]
    exact hn
  · intro place hplace
    cases hplace

/-- Another entry of an origin that is there. -/
theorem Traces.again (h : p.Traces outline part) {e : Place × Origin} (he : e ∈ outline)
    (target : Place) : (Pair.mk p.editor (p.compiled ++ [⟨target, part e.2⟩]) p.parts).Traces
      (outline ++ [(target, e.2)]) part := by
  refine h.append target (h.known e he) (fun e' he' => h.apart e' he' e he) ?_ ?_
  · intro place hplace
    exact h.editor e he place hplace
  · intro place hplace
    obtain ⟨hne, root, hroot, hrooted⟩ := h.own e he place hplace
    exact ⟨hne, root, List.mem_append_left _ hroot, hrooted⟩

/-- An entry with a new part for a place of the compiled document itself. -/
theorem Traces.root (h : p.Traces outline part) (hroot : ∀ e ∈ outline, e.1 ≠ source) :
    ∃ part, part (.compiled source) = p.parts ∧
      (Pair.mk p.editor (p.compiled ++ [⟨source, p.parts⟩]) (p.parts + 1)).Traces
        (outline ++ [(source, .compiled source)]) part := by
  have hnew : ∀ e ∈ outline, e.2 ≠ .compiled source := by
    intro e he horigin
    obtain ⟨-, root, hmem, hrooted⟩ := h.own e he source horigin
    exact hroot root hmem hrooted
  obtain ⟨renamed, hpart, hsame, hrenamed⟩ : ∃ renamed, renamed (.compiled source) = p.parts ∧
      (∀ e ∈ outline, renamed e.2 = part e.2) ∧
      (Pair.mk p.editor p.compiled (p.parts + 1)).Traces outline renamed :=
    ⟨_, Function.update_self _ _ _, fun e he => Function.update_of_ne (hnew e he) _ _,
      h.raise.rename hnew p.parts⟩
  have hapart : ∀ e ∈ outline, renamed e.2 = renamed (.compiled source) →
      e.2 = .compiled source := by
    intro e he heq
    rw [hsame e he, hpart] at heq
    exact absurd heq (h.known e he).ne
  have hown : ∀ place, Origin.compiled source = .compiled place →
      (∀ x ∈ p.editor, x.part ≠ renamed (.compiled source)) ∧
        ∃ e ∈ outline ++ [(source, Origin.compiled source)], e.1 = place := by
    intro place hplace
    rw [hpart]
    exact ⟨fun x hx => (h.bounded x hx).ne, _, List.mem_append_right _ List.mem_cons_self,
      Origin.compiled.inj hplace⟩
  have hrooted := hrenamed.append source (by rw [hpart]; exact Nat.lt_succ_self _) hapart
    (fun _ hplace => by cases hplace) hown
  rw [hpart] at hrooted
  exact ⟨renamed, hpart, hrooted⟩

theorem Traces.draw (h : p.Traces outline part) (d : Drawing) :
    ∃ part, (p.draw d).Traces (outline.draw d) part := by
  cases d with
  | fromEditor source target =>
    simp only [Pair.draw, Outline.draw, partIn]
    cases hfind : p.editor.find? fun x => x.place = source with
    | some x =>
      have hplace : x.place = source := by simpa using List.find?_some hfind
      exact h.adopt (hplace ▸ List.mem_of_find?_eq_some hfind)
    | none =>
      have hnew : ∀ x ∈ p.editor, x.place ≠ source := by
        simpa using List.find?_eq_none.mp hfind
      exact (h.grow hnew).adopt (List.mem_append_right _ (List.mem_singleton_self _))
  | fromCompiled source target =>
    have hfind : p.compiled.find? (fun x => x.place = source) =
        (outline.find? fun e => e.1 = source).map fun e => ⟨e.1, part e.2⟩ := by
      rw [h.compiled, List.find?_map]
      rfl
    simp only [Pair.draw, Outline.draw, partIn]
    cases hentry : outline.find? fun e => e.1 = source with
    | some e =>
      rw [hfind, hentry]
      exact ⟨part, h.again (List.mem_of_find?_eq_some hentry) target⟩
    | none =>
      rw [hfind, hentry]
      have hroot : ∀ e ∈ outline, e.1 ≠ source := by
        simpa using List.find?_eq_none.mp hentry
      obtain ⟨renamed, hpart, hrooted⟩ := h.root hroot
      have hmem : (source, Origin.compiled source) ∈ outline ++ [(source, .compiled source)] :=
        List.mem_append_right _ List.mem_cons_self
      have hagain := hrooted.again hmem target
      rw [List.append_assoc outline, hpart] at hagain
      exact ⟨renamed, hagain⟩

/-- All drawings of a compilation, from holdings of the editor document that share nothing. -/
theorem traces_foldl (ds : List Drawing) {editor : List Holding} {parts : Nat}
    (hplaces : (editor.map Holding.place).Nodup) (hparts : (editor.map Holding.part).Nodup)
    (hbounded : ∀ h ∈ editor, h.part < parts) :
    ∃ part, (ds.foldl draw ⟨editor, [], parts⟩).Traces (Compile.outline ds) part := by
  have hstart : (Pair.mk editor [] parts).Traces [] fun _ => 0 := by
    constructor <;> simp_all
  have hrun (p : Pair) (outline : Outline) (part : Origin → Nat) (h : p.Traces outline part) :
      ∃ part, (ds.foldl draw p).Traces (ds.foldl Outline.draw outline) part := by
    induction ds generalizing p outline part with
    | nil => exact ⟨part, h⟩
    | cons d ds ih =>
      obtain ⟨part, h⟩ := h.draw d
      exact ih _ _ _ h
  exact hrun _ _ _ hstart

/-- What a drawing adds: parts of the editor document with new numbers, and a holding of a part that
the editor document has, that was there, or that is new. -/
structure Extends (p q : Pair) : Prop where
  editor : ∃ more, q.editor = p.editor ++ more ∧ ∀ h ∈ more, p.parts ≤ h.part
  parts : p.parts ≤ q.parts
  compiled : ∀ h ∈ q.compiled, (∃ x ∈ q.editor, x.part = h.part) ∨
    (∃ x ∈ p.compiled, x.part = h.part) ∨ p.parts ≤ h.part

theorem Extends.refl (p : Pair) : p.Extends p :=
  ⟨⟨[], by simp⟩, le_rfl, fun h hh => .inr (.inl ⟨h, hh, rfl⟩)⟩

theorem Extends.trans {q r : Pair} (h : p.Extends q) (h' : q.Extends r) : p.Extends r := by
  obtain ⟨more, heditor, hmore⟩ := h.editor
  obtain ⟨more', heditor', hmore'⟩ := h'.editor
  refine ⟨⟨more ++ more', by rw [heditor', heditor, List.append_assoc], ?_⟩,
    h.parts.trans h'.parts, ?_⟩
  · intro x hx
    rcases List.mem_append.mp hx with hx | hx
    · exact hmore x hx
    · exact h.parts.trans (hmore' x hx)
  · intro x hx
    rcases h'.compiled x hx with heditor | ⟨y, hy, hpart⟩ | hnew
    · exact .inl heditor
    · rw [← hpart]
      rcases h.compiled y hy with ⟨z, hz, hsame⟩ | hold
      · exact .inl ⟨z, heditor' ▸ List.mem_append_left _ hz, hsame⟩
      · exact .inr hold
    · exact .inr (.inr (h.parts.trans hnew))

private theorem partIn_cases (holdings : List Holding) (place : Place) (next : Nat) :
    (∃ h ∈ holdings, partIn holdings place next = (holdings, h.part, next)) ∨
      partIn holdings place next = (holdings ++ [⟨place, next⟩], next, next + 1) := by
  unfold partIn
  cases hfind : holdings.find? fun h => h.place = place with
  | some h => exact .inl ⟨h, List.mem_of_find?_eq_some hfind, rfl⟩
  | none => exact .inr rfl

theorem extends_draw (p : Pair) (d : Drawing) : p.Extends (p.draw d) := by
  cases d with
  | fromEditor source target =>
    simp only [draw]
    rcases partIn_cases p.editor source p.parts with ⟨h, hh, heq⟩ | heq <;> rw [heq]
    · refine ⟨⟨[], by simp⟩, le_rfl, fun x hx => ?_⟩
      rcases List.mem_append.mp hx with hx | hx
      · exact .inr (.inl ⟨x, hx, rfl⟩)
      · exact .inl ⟨h, hh, by rw [List.mem_singleton.mp hx]⟩
    · refine ⟨⟨_, rfl, by simp⟩, Nat.le_succ _, fun x hx => ?_⟩
      rcases List.mem_append.mp hx with hx | hx
      · exact .inr (.inl ⟨x, hx, rfl⟩)
      · exact .inr (.inr (by rw [List.mem_singleton.mp hx]))
  | fromCompiled source target =>
    simp only [draw]
    rcases partIn_cases p.compiled source p.parts with ⟨h, hh, heq⟩ | heq <;> rw [heq]
    · refine ⟨⟨[], by simp⟩, le_rfl, fun x hx => .inr (.inl ?_)⟩
      rcases List.mem_append.mp hx with hx | hx
      · exact ⟨x, hx, rfl⟩
      · exact ⟨h, hh, by rw [List.mem_singleton.mp hx]⟩
    · refine ⟨⟨[], by simp⟩, Nat.le_succ _, fun x hx => .inr ?_⟩
      simp only [List.append_assoc, List.mem_append, List.mem_singleton] at hx
      rcases hx with hx | rfl | rfl
      · exact .inl ⟨x, hx, rfl⟩
      · exact .inr le_rfl
      · exact .inr le_rfl

theorem extends_foldl (ds : List Drawing) (p : Pair) : p.Extends (ds.foldl draw p) := by
  induction ds generalizing p with
  | nil => exact .refl p
  | cons d ds ih => exact (p.extends_draw d).trans (ih _)

/-- The workspace with the two documents of a pair: the editor document among those that were there,
and the compiled one behind them. -/
def place (documents : List Document) (doc : Nat) (v x : Json) (p : Pair) : Workspace :=
  ⟨documents.set doc ⟨v, p.editor⟩ ++ [⟨x, p.compiled⟩], p.parts⟩

theorem draw_place {documents : List Document} {doc : Nat} (hdoc : doc < documents.length)
    (v x : Json) (p : Pair) (d : Drawing) :
    (p.place documents doc v x).draw doc documents.length d = (p.draw d).place documents doc v x := by
  have hlength (a : Document) : (documents.set doc a).length = documents.length := List.length_set
  have heditor (a b : Document) : (documents.set doc a ++ [b])[doc]? = some a := by
    rw [List.getElem?_append_left (by rw [hlength]; exact hdoc), List.getElem?_set_self hdoc]
  have hcompiled (a b : Document) : (documents.set doc a ++ [b])[documents.length]? = some b := by
    rw [List.getElem?_append_right (by rw [hlength]), hlength]
    simp
  have hsetEditor (a a' b : Document) :
      (documents.set doc a ++ [b]).set doc a' = documents.set doc a' ++ [b] := by
    rw [List.set_append_left _ _ (by rw [hlength]; exact hdoc), List.set_set]
  have hsetCompiled (a b b' : Document) :
      (documents.set doc a ++ [b]).set documents.length b' = documents.set doc a ++ [b'] := by
    rw [List.set_append_right _ _ (by rw [hlength]), hlength]
    simp
  cases d with
  | fromEditor source target =>
    simp only [Workspace.draw, Workspace.link, Workspace.partAt, place, heditor, draw, partIn]
    cases p.editor.find? fun h => h.place = source with
    | some h => simp [hsetCompiled]
    | none => simp [hsetEditor, hsetCompiled]
  | fromCompiled source target =>
    simp only [Workspace.draw, Workspace.link, Workspace.partAt, place, hcompiled, draw, partIn]
    cases p.compiled.find? fun h => h.place = source with
    | some h => simp [hsetCompiled]
    | none => simp [hsetCompiled]

theorem foldl_draw_place {documents : List Document} {doc : Nat} (hdoc : doc < documents.length)
    (v x : Json) (ds : List Drawing) (p : Pair) :
    ds.foldl (fun w d => w.draw doc documents.length d) (p.place documents doc v x) =
      (ds.foldl draw p).place documents doc v x := by
  induction ds generalizing p with
  | nil => rfl
  | cons d ds ih => rw [List.foldl_cons, draw_place hdoc, ih, List.foldl_cons]

end Pair

open Editor

def drawn (options : Options) (data : Json) : Traced (Json × List Drawing) := do
  match ← formatOf data with
  | .editor =>
    let graph ← Graph.ofJson data
    let compiled ← compileGraph options graph
    return (compiled.toJson, drawings options graph data compiled)
  | .execution => return (← passThrough data, [])

/-- The workspace and the answer when the workflow of a document is compiled: the value of the
document decides what is answered, and its holdings only the parts that are shared. -/
theorem compile_eq {w : Workspace} {doc : Nat} {d : Document} (hd : w.documents[doc]? = some d)
    (options : Options) : w.compile options doc =
      match (drawn options d.value).result with
      | .error fault => (w, ⟨(drawn options d.value).events, .error fault⟩)
      | .ok (x, ds) => ((ds.foldl Pair.draw ⟨d.holdings, [], w.parts⟩).place w.documents doc d.value x,
          ⟨(drawn options d.value).events, .ok w.documents.length⟩) := by
  have hvalue : w.value doc = d.value := by simp [Workspace.value, hd]
  have hdoc : doc < w.documents.length := (List.getElem?_eq_some_iff.mp hd).1
  have hset : w.documents.set doc d = w.documents := by
    obtain ⟨-, rfl⟩ := List.getElem?_eq_some_iff.mp hd
    exact List.set_getElem_self hdoc
  have hadd (x : Json) :
      w.add (.own x) = ((Pair.mk d.holdings [] w.parts).place w.documents doc d.value x,
        w.documents.length) := by
    simp [Workspace.add, Document.own, Pair.place, hset]
  unfold Workspace.compile drawn
  rw [hvalue]
  cases formatOf d.value with
  | error fault => rfl
  | ok format =>
    cases format with
    | execution =>
      simp only [hadd, Traced.lift_ok_bind]
      cases passThrough d.value with
      | mk events result => cases result <;> simp [Except.map]
    | editor =>
      simp only [Workspace.compileEditor, hvalue, hadd, Traced.lift_ok_bind]
      cases Graph.ofJson d.value with
      | error fault => rfl
      | ok graph =>
        simp only [Traced.lift_ok_bind]
        cases compileGraph options graph with
        | mk events result =>
          cases result <;> simp [Except.map, Pair.foldl_draw_place hdoc]

end NodeWorkflow.Compile
