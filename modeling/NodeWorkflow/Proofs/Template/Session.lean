import NodeWorkflow.Proofs.Json.Entries
import NodeWorkflow.Service.Handler

/-!
# Sessions

A session is what callers do with a catalogue: they register templates, compile them, inject
parameters into the graphs they were handed or into copies of these, build payloads and send
requests to the service. Each call is made of few moves on the documents: one is added, compiled,
copied or injected into.
-/
namespace NodeWorkflow

open Compile

inductive Call where
  | register (template : Template)
  /-- A caller has a graph of its own. -/
  | bring (graph : Json)
  | load (name : Json) (options : Options)
  /-- Injects into a copy of a graph of a caller, which is handed out in turn. -/
  | apply (graph : Nat) (parameters : Registry) (values : Json)
  /-- Injects into a copy of the workflow of a template. -/
  | applyStored (name : Json) (parameters : Registry) (values : Json)
  | inject (graph : Nat) (parameters : Registry) (values : Json)
  | payload (name parameters : Json) (options : Options) (timestamp : Json)
  /-- A request to the service, which a framework runs. -/
  | request (framework : Service.Framework) (settings : Settings) (now : Option Int)
    (request : Service.Request)

/-- The call puts another template in the place of the one with a name. -/
def Call.Replaces (name : Scalar) : Call → Prop
  | .register template => ∃ other, template.name = .scalar other ∧ other.agrees name = true
  | _ => False

/-- A catalogue and the documents of the graphs that callers have. -/
structure Session where
  catalogue : Catalogue
  graphs : List Nat

namespace Session

def start : Session := ⟨.empty, []⟩

/-- Goes on with a catalogue, and hands out the graph of a run that succeeds. -/
def handOut (s : Session) (c : Catalogue) (run : Traced Nat) : Session :=
  match run.result with
  | .ok doc => ⟨c, s.graphs ++ [doc]⟩
  | .error _ => ⟨c, s.graphs⟩

/-- The session after a call. One that names no graph or no template changes nothing. -/
def serve [Machine] (s : Session) : Call → Session
  | .register template => match s.catalogue.register template with
    | .ok c => ⟨c, s.graphs⟩
    | .error _ => s
  | .bring graph =>
    let (workspace, doc) := s.catalogue.workspace.add (.own graph)
    ⟨{ s.catalogue with workspace := workspace }, s.graphs ++ [doc]⟩
  | .load name options =>
    let (c, run) := s.catalogue.load name options
    s.handOut c run
  | .apply graph parameters values => match s.graphs[graph]? with
    | some doc =>
      let (c, run) := s.catalogue.apply doc parameters values
      s.handOut c run
    | none => s
  | .applyStored name parameters values => match s.catalogue.get name with
    | .ok listing =>
      let (c, run) := s.catalogue.apply listing.document parameters values
      s.handOut c run
    | .error _ => s
  | .inject graph parameters values => match s.graphs[graph]? with
    | some doc => ⟨(s.catalogue.inject doc parameters values).1, s.graphs⟩
    | none => s
  | .payload name parameters options timestamp => match s.catalogue.get name with
    | .ok listing =>
      let (c, run) := Payload.build s.catalogue listing parameters options timestamp
      s.handOut c ⟨run.events, run.result.map Payload.document⟩
    | .error _ => s
  | .request framework settings now request =>
    ⟨(Service.handle framework ⟨settings, s.catalogue, now⟩ request).1.catalogue, s.graphs⟩

def run [Machine] (calls : List Call) (s : Session) : Session := calls.foldl serve s

def stored (s : Session) (name : Json) : Except Fault Json :=
  (s.catalogue.get name).map fun listing => s.catalogue.workspace.value listing.document

variable {name : Scalar}

theorem register_eq_ok {c c' : Catalogue} {t : Template} (h : c.register t = .ok c') :
    ∃ name, t.name = .scalar name ∧
      c' = ⟨⟨c.workspace.documents ++ [.own t.workflow], c.workspace.parts⟩,
        Entries.put name ⟨name, t.description, t.parameters, c.workspace.documents.length⟩
          c.listings⟩ := by
  unfold Catalogue.register at h
  split at h
  next name hname => exact ⟨name, hname, (Except.ok.inj h).symm⟩
  next => simp at h

theorem mem_of_get {c : Catalogue} {name : Json} {listing : Listing}
    (h : c.get name = .ok listing) : ∃ entry ∈ c.listings, entry.2 = listing := by
  unfold Catalogue.get at h
  split at h
  next key =>
    split at h
    next found hfound =>
      obtain ⟨k, hmem, -⟩ := Entries.exists_of_get? hfound
      exact ⟨(k, found), hmem, Except.ok.inj h⟩
    next => simp at h
  next => simp at h

theorem listings_handOut (s : Session) (c : Catalogue) (run : Traced Nat) :
    (s.handOut c run).catalogue.listings = c.listings := by
  unfold Session.handOut
  split <;> rfl

variable [Machine]

/-- A request to the service builds a payload or leaves the catalogue alone. -/
theorem handle_catalogue (framework : Service.Framework) (server : Service.Server)
    (request : Service.Request) :
    (Service.handle framework server request).1.catalogue = server.catalogue ∨
      ∃ name listing parameters timestamp, server.catalogue.get name = .ok listing ∧
        (Service.handle framework server request).1.catalogue = (Payload.build server.catalogue
          listing parameters server.settings.compileOptions timestamp).1 := by
  unfold Service.handle
  split
  next => exact .inl rfl
  next call _ =>
    cases call with
    | payload name parameters =>
      simp only [Service.invoke, Service.payload, Service.withListing]
      split
      next listing hget =>
        split
        · exact .inl rfl
        next now _ => exact .inr ⟨_, listing, parameters, .int now, hget, rfl⟩
      next => exact .inl rfl
    | _ => exact .inl rfl

theorem listings_compile (c : Catalogue) (options : Options) (doc : Nat) :
    (c.compile options doc).1.listings = c.listings := by
  unfold Catalogue.compile
  split <;> rfl

theorem listings_apply (c : Catalogue) (doc : Nat) (parameters : Registry) (values : Json) :
    (c.apply doc parameters values).1.listings = c.listings := by
  unfold Catalogue.apply
  split <;> rfl

theorem listings_build (c : Catalogue) (listing : Listing) (parameters : Json) (options : Options)
    (timestamp : Json) :
    (Payload.build c listing parameters options timestamp).1.listings = c.listings := by
  have hcompile := listings_compile c options listing.document
  unfold Payload.build
  split
  · rfl
  · dsimp only
    split <;> exact hcompile

theorem get?_serve {call : Call} (h : ¬ call.Replaces name) (s : Session) :
    Entries.get? name (s.serve call).catalogue.listings =
      Entries.get? name s.catalogue.listings := by
  -- No call but a registration puts a listing into the catalogue.
  cases call with
  | bring graph => rfl
  | register template =>
    simp only [Session.serve]
    split
    next c hregister =>
      obtain ⟨other, hother, rfl⟩ := register_eq_ok hregister
      have hne : ¬ other.agrees name = true := fun hagrees => h ⟨other, hother, hagrees⟩
      rw [Entries.get?_put, if_neg hne]
    next => rfl
  | load name' options =>
    simp only [Session.serve, listings_handOut, Catalogue.load]
    split
    · rfl
    · rw [listings_compile]
  | apply graph parameters values =>
    simp only [Session.serve]
    split
    · rw [listings_handOut, listings_apply]
    · rfl
  | applyStored name' parameters values =>
    simp only [Session.serve]
    split
    · rw [listings_handOut, listings_apply]
    · rfl
  | inject graph parameters values =>
    simp only [Session.serve]
    split <;> rfl
  | payload name' parameters options timestamp =>
    simp only [Session.serve]
    split
    · rw [listings_handOut, listings_build]
    · rfl
  | request framework settings now request =>
    simp only [Session.serve]
    rcases handle_catalogue framework ⟨settings, s.catalogue, now⟩ request with hsame |
      ⟨_, listing, parameters, timestamp, -, hbuilt⟩
    · rw [hsame]
    · rw [hbuilt, listings_build]

theorem get?_run {calls : List Call} (h : ∀ call ∈ calls, ¬ call.Replaces name)
    (s : Session) : Entries.get? name (Session.run calls s).catalogue.listings =
      Entries.get? name s.catalogue.listings := by
  induction calls generalizing s with
  | nil => rfl
  | cons call calls ih =>
    have hrest := ih (fun c hc => h c (List.mem_cons_of_mem _ hc)) (s.serve call)
    exact hrest.trans (get?_serve (h call List.mem_cons_self) s)

end Session
end NodeWorkflow
