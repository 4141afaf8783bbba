import NodeWorkflow.Parameter.Injection
import NodeWorkflow.Sharing.Place

/-!
# Documents that share parts

A workspace holds documents. A list or an object inside one may be held by others as well, or at
several places of one document: a write inside it is seen at all of them. Such a part has a number,
and each document knows the places at which it holds parts. A part may lie inside another one; it is
then held inside every place of the outer part, until something is put in its place there. A copy of
a document keeps what its own places share with each other and shares nothing with the documents
that were there.
-/
namespace NodeWorkflow

/-- A place at which a document holds a shared part. -/
structure Holding where
  place : Place
  part : Nat
  deriving DecidableEq

structure Document where
  value : Json
  holdings : List Holding

/-- A document that shares nothing. -/
def Document.own (value : Json) : Document := ⟨value, []⟩

namespace Document

/-- Puts a content in all places that hold a part. -/
def fill (part : Nat) (content : Json) (d : Document) : Document :=
  let fillOne (v : Json) (h : Holding) : Json :=
    if h.part = part then Json.setPlace content h.place v else v
  { d with value := d.holdings.foldl fillOne d.value }

/-- The holdings that are left when a value is put at a place: what stood there is held no more. -/
def release (place : Place) (d : Document) : Document :=
  { d with holdings := d.holdings.filter fun h => !place.isPrefixOf h.place }

/-- The holdings of parts that have a place in their inside, from the outermost part on. -/
def around (place : Place) (d : Document) : List Holding :=
  (List.range place.length).flatMap fun n => d.holdings.filter fun h => h.place = place.take n

def partsAround (place : Place) (d : Document) : List (Nat × Json) :=
  (d.around place).filterMap fun h =>
    (Json.atPlace? h.place d.value).map fun content => (h.part, content)

/-- The ways down to a place from the parts that have it in their inside. -/
def waysAround (place : Place) (d : Document) : List (Nat × Place) :=
  (d.around place).map fun h => (h.part, place.drop h.place.length)

def leadsTo (ways : List (Nat × Place)) (d : Document) (place : Place) : Bool :=
  d.holdings.any fun h => ways.any fun way =>
    h.part == way.1 && (h.place ++ way.2).isPrefixOf place

/-- The holdings that are left when a value is put at the ends of ways down from parts. -/
def releaseInside (ways : List (Nat × Place)) (d : Document) : Document :=
  { d with holdings := d.holdings.filter fun h => !d.leadsTo ways h.place }

end Document

structure Workspace where
  documents : List Document
  /-- The numbers of parts in use are below this one. -/
  parts : Nat

namespace Workspace

def empty : Workspace := ⟨[], 0⟩

def value (w : Workspace) (doc : Nat) : Json :=
  (w.documents[doc]?.map Document.value).getD .null

def add (w : Workspace) (d : Document) : Workspace × Nat :=
  ({ w with documents := w.documents ++ [d] }, w.documents.length)

def fill (w : Workspace) (part : Nat) (content : Json) : Workspace :=
  { w with documents := w.documents.map (Document.fill part content) }

/-- Stores a document that was written at a place and brings the parts around it up to date. A part
that lies inside another one comes after it, because its content is the newer one. -/
def store (w : Workspace) (doc : Nat) (d : Document) (place : Place) : Workspace :=
  let stored : Workspace := { w with documents := w.documents.set doc d }
  (d.partsAround place).foldl (fun w p => w.fill p.1 p.2) stored

def releaseInside (w : Workspace) (ways : List (Nat × Place)) : Workspace :=
  { w with documents := w.documents.map (Document.releaseInside ways) }

/-- Writes into a node of a document. A fault leaves what was made until then. -/
def write [Machine] (doc : Nat) (w : Workspace) (id : Scalar) (path : Path) (value : Json) :
    Workspace × WriteOutcome :=
  match w.documents[doc]? with
  | none => (w, .refused)
  | some d =>
    let (v, outcome) := Surface.writeNode d.value id path value
    let d := { d with value := v }
    let place := .field id :: path.steps
    match outcome with
    | .refused => (w, .refused)
    | .done =>
      let d := d.release place
      ((w.store doc d place).releaseInside (d.waysAround place), .done)
    | .stopped fault => (w.store doc d place, .stopped fault)

/-- A document of a workspace as a surface to inject into. -/
def surface [Machine] (doc : Nat) : Surface Workspace := ⟨fun w => w.value doc, write doc⟩

/-- Copies a document. The parts of the copy get new numbers. -/
def copy (w : Workspace) (doc : Nat) : Workspace × Nat :=
  match w.documents[doc]? with
  | none => w.add (.own .null)
  | some d =>
    let holdings := d.holdings.map fun h => { h with part := w.parts + h.part }
    add { w with parts := w.parts + w.parts } ⟨d.value, holdings⟩

/-- The number of the part that a document holds at a place; a new one if it holds none. -/
def partAt (w : Workspace) (doc : Nat) (place : Place) : Workspace × Nat :=
  match w.documents[doc]? with
  | none => (w, w.parts)
  | some d => match d.holdings.find? fun h => h.place = place with
    | some h => (w, h.part)
    | none =>
      let d := { d with holdings := d.holdings ++ [⟨place, w.parts⟩] }
      (⟨w.documents.set doc d, w.parts + 1⟩, w.parts)

/-- Lets a place of one document share what a place of another one, or of the same, holds. -/
def link (w : Workspace) (source : Nat) (sourcePlace : Place) (target : Nat) (targetPlace : Place) :
    Workspace :=
  let (w, part) := w.partAt source sourcePlace
  match w.documents[target]? with
  | none => w
  | some d =>
    let d := { d with holdings := d.holdings ++ [⟨targetPlace, part⟩] }
    { w with documents := w.documents.set target d }

end Workspace
end NodeWorkflow
