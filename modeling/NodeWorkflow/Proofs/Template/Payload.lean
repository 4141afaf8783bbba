import NodeWorkflow.Proofs.Compile.Depth
import NodeWorkflow.Proofs.Sharing.Alike
import NodeWorkflow.Proofs.Sharing.Outline
import NodeWorkflow.Template.Payload

/-!
# What a payload depends on

The payload of a template depends on the stored workflow and not on what else the catalogue holds:
which parts the workflow shares by now changes neither the graph nor what is reported.
-/
namespace NodeWorkflow

namespace Compile

def drawnWithin (levels : Nat) (options : Options) (data : Json) : Traced (Json × List Drawing) :=
  match overrun? levels options data with
  | some run => ⟨run.events, run.result.map fun v => (v, [])⟩
  | none => drawn options data

end Compile

open Compile

/-- No two places of the document share a part, and its parts have numbers below a bound. -/
structure Document.Plain (d : Document) (bound : Nat) : Prop where
  places : (d.holdings.map Holding.place).Nodup
  parts : (d.holdings.map Holding.part).Nodup
  bounded : ∀ h ∈ d.holdings, h.part < bound

theorem Document.Plain.mono {d : Document} {bound bound' : Nat} (h : d.Plain bound)
    (hbound : bound ≤ bound') : d.Plain bound' :=
  ⟨h.places, h.parts, fun x hx => (h.bounded x hx).trans_le hbound⟩

theorem Document.Plain.sublist {d e : Document} {bound : Nat} (h : d.Plain bound)
    (hsub : e.holdings.Sublist d.holdings) : e.Plain bound where
  places := h.places.sublist (hsub.map _)
  parts := h.parts.sublist (hsub.map _)
  bounded x hx := h.bounded x (hsub.subset hx)

theorem Catalogue.compile_eq [Machine] {c : Catalogue} {doc : Nat} {d : Document}
    (hd : c.workspace.documents[doc]? = some d) (options : Options) : c.compile options doc =
      match (drawnWithin Machine.copyLevels options d.value).result with
      | .error fault => (c, ⟨(drawnWithin Machine.copyLevels options d.value).events, .error fault⟩)
      | .ok (x, ds) => ({ c with workspace := (ds.foldl Pair.draw
            ⟨d.holdings, [], c.workspace.parts⟩).place c.workspace.documents doc d.value x },
          ⟨(drawnWithin Machine.copyLevels options d.value).events,
            .ok c.workspace.documents.length⟩) := by
  have hvalue : c.workspace.value doc = d.value := by simp [Workspace.value, hd]
  unfold Catalogue.compile drawnWithin
  rw [hvalue]
  cases hoverrun : overrun? Machine.copyLevels options d.value with
  | some run =>
    obtain ⟨fault, hfault⟩ := overrun_fails hoverrun
    simp only [hfault]
    rfl
  | none =>
    simp only [Compile.compile_eq hd options]
    cases (drawn options d.value).result <;> rfl

/-- The new document of a compilation, as the drawings leave it. -/
def compiledDocument (d : Document) (parts : Nat) (x : Json) (ds : List Drawing) : Document :=
  ⟨x, (ds.foldl Pair.draw ⟨d.holdings, [], parts⟩).compiled⟩

theorem Compile.Pair.place_compiled (documents : List Document) (doc : Nat) (v x : Json)
    (p : Pair) :
    (p.place documents doc v x).documents[documents.length]? = some ⟨x, p.compiled⟩ := by
  simp [Pair.place]

/-- Documents of one value compile to documents that share alike. -/
theorem compiled_alike {d d' : Document} {parts parts' : Nat} (h : d.Plain parts)
    (h' : d'.Plain parts') (x : Json) (ds : List Drawing) :
    (compiledDocument d parts x ds).Alike (compiledDocument d' parts' x ds) := by
  obtain ⟨part, htrace⟩ := Pair.traces_foldl ds h.places h.parts h.bounded
  obtain ⟨part', htrace'⟩ := Pair.traces_foldl ds h'.places h'.parts h'.bounded
  refine ⟨(outline ds).map fun e => (e.1, part e.2, part' e.2), rfl, ?_, ?_, ?_⟩
  · simpa [compiledDocument, Function.comp_def] using htrace.compiled
  · simpa [compiledDocument, Function.comp_def] using htrace'.compiled
  · simp only [List.mem_map]
    rintro _ ⟨e, he, rfl⟩ _ ⟨f, hf, rfl⟩
    constructor
    · intro heq
      rw [htrace.apart e he f hf heq]
    · intro heq
      rw [htrace'.apart e he f hf heq]

theorem inject_alike [Machine] {w w' : Workspace} {doc doc' : Nat} {d d' : Document}
    (hd : w.documents[doc]? = some d) (hd' : w'.documents[doc']? = some d') (h : d.Alike d')
    (registry : Registry) (values : Json) :
    (inject (Workspace.surface doc) registry values w).events =
        (inject (Workspace.surface doc') registry values w').events ∧
      (inject (Workspace.surface doc) registry values w).fault =
        (inject (Workspace.surface doc') registry values w').fault ∧
      (inject (Workspace.surface doc) registry values w).state.value doc =
        (inject (Workspace.surface doc') registry values w').state.value doc' := by
  have hleft := (Workspace.surface_simulates doc).inject registry values hd
  have hright := (Workspace.surface_simulates doc').inject registry values hd'
  have hmiddle := Document.alike_simulates.inject registry values h
  refine ⟨hleft.events.trans (hmiddle.events.trans hright.events.symm),
    hleft.fault.trans (hmiddle.fault.trans hright.fault.symm), ?_⟩
  obtain ⟨links, hlinks⟩ := hmiddle.state
  rw [Workspace.value, Workspace.value, hleft.state, hright.state]
  exact hlinks.value

namespace Payload

/-- What building a payload reports, and the payload as data. -/
def answer [Machine] (c : Catalogue) (listing : Listing) (parameters : Json) (options : Options)
    (timestamp : Json) : List Event × Except Fault Json :=
  let (c, run) := build c listing parameters options timestamp
  (run.events, run.result.map fun payload => payload.toJson (c.workspace.value payload.document))

theorem answer_congr [Machine] {c c' : Catalogue} {listing : Listing} {doc' : Nat} {d d' : Document}
    (hd : c.workspace.documents[listing.document]? = some d)
    (hd' : c'.workspace.documents[doc']? = some d')
    (hplain : d.Plain c.workspace.parts) (hplain' : d'.Plain c'.workspace.parts)
    (hvalue : d.value = d'.value) (parameters : Json) (options : Options) (timestamp : Json) :
    answer c listing parameters options timestamp =
      answer c' { listing with document := doc' } parameters options timestamp := by
  unfold answer build
  cases parameters.entries with
  | error fault => rfl
  | ok entries =>
    simp only [Catalogue.compile_eq hd, Catalogue.compile_eq hd', hvalue]
    cases (drawnWithin Machine.copyLevels options d'.value).result with
    | error fault => rfl
    | ok drawn =>
      obtain ⟨x, ds⟩ := drawn
      obtain ⟨hevents, hfault, hstate⟩ := inject_alike
        (Pair.place_compiled c.workspace.documents listing.document d'.value x _)
        (Pair.place_compiled c'.workspace.documents doc' d'.value x _)
        (compiled_alike hplain hplain' x ds) listing.parameters (.obj (stamped timestamp entries))
      simp only [Catalogue.inject, hevents, hfault]
      cases (inject (Workspace.surface c'.workspace.documents.length) listing.parameters
        (.obj (stamped timestamp entries)) _).fault with
      | some fault => simp only [Except.map]
      | none =>
        simp only [Except.map, hstate]
        rfl

end Payload
end NodeWorkflow
