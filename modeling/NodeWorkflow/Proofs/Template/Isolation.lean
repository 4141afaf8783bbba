import NodeWorkflow.Proofs.Template.Breach
import NodeWorkflow.Proofs.Template.Secure
import NodeWorkflow.Template.Bundled

/-!
# Isolation of templates

The workflow of a template stays what was registered, and its payloads do not depend on what was
asked for before, unless the template is exposed; the workflow of an exposed template can be
changed.
-/
namespace NodeWorkflow

open Compile

namespace Service

/-- The end of a call for a payload, by what building it gives. -/
def payloadAnswer (timestamp : Json) : List Event × Except Fault Json → Answer
  | (events, .ok payload) => ⟨.returned (.ofFields [("timestamp", timestamp), ("payload", payload),
      ("warnings", texts (Event.warnings events))]), events⟩
  | (events, .error fault) => .ofFault events fault

variable [Machine]

theorem timestamp_of_build {c : Catalogue} {listing : Listing} {parameters timestamp : Json}
    {options : Options} {payload : Payload}
    (h : (Payload.build c listing parameters options timestamp).2.result = .ok payload) :
    payload.timestamp = timestamp := by
  unfold Payload.build at h
  split at h
  · simp at h
  · dsimp only at h
    split at h
    · simp at h
    · obtain ⟨_, -, rfl⟩ := Except.map_eq_ok.mp h
      rfl

theorem payload_eq {server : Server} {text : String} {listing : Listing}
    (hget : server.catalogue.get (.str text) = .ok listing) {now : Int}
    (hnow : server.now = some now) (parameters : Json) :
    (payload server text parameters).2 = payloadAnswer (.int now)
      (Payload.answer server.catalogue listing parameters server.settings.compileOptions
        (.int now)) := by
  simp only [payload, withListing, hget, hnow, Payload.answer]
  cases hresult : (Payload.build server.catalogue listing parameters server.settings.compileOptions
    (.int now)).2.result with
  | error fault => simp only [Answer.ofTraced, hresult, Except.map, payloadAnswer]
  | ok payload =>
    simp only [Answer.ofTraced, hresult, Except.map, payloadAnswer, payloadData,
      timestamp_of_build hresult, Traced.warnings]

end Service

namespace Session

/-- What building a payload of the template with a name reports, and the payload as data. -/
def answer [Machine] (s : Session) (name parameters : Json) (options : Options) (timestamp : Json) :
    List Event × Except Fault Json :=
  match s.catalogue.get name with
  | .ok listing => Payload.answer s.catalogue listing parameters options timestamp
  | .error fault => ([], .error fault)

def reply [Machine] (s : Session) (framework : Service.Framework) (settings : Settings)
    (now : Option Int) (request : Service.Request) : Service.Reply :=
  (Service.handle framework ⟨settings, s.catalogue, now⟩ request).2

variable {s s' : Session} {t : Template} {name : Scalar} {doc doc' : Nat} {d d' : Document}

/-- A template is as it was registered, in a document that shares no part with itself. -/
structure Stores (s : Session) (t : Template) (name : Scalar) (doc : Nat) (d : Document) :
    Prop where
  listed : s.catalogue.get t.name = .ok ⟨name, t.description, t.parameters, doc⟩
  there : s.documents[doc]? = some d
  plain : d.Plain s.catalogue.workspace.parts
  value : d.value = t.workflow

theorem Stores.stored (h : s.Stores t name doc d) : s.stored t.name = .ok t.workflow := by
  have hd : s.catalogue.workspace.documents[doc]? = some d := h.there
  simp [Session.stored, h.listed, Except.map, Workspace.value, hd, h.value]

section
variable [Machine]

theorem Stores.payload_answer (h : s.Stores t name doc d) (h' : s'.Stores t name doc' d')
    (parameters : Json) (options : Options) (timestamp : Json) :
    Payload.answer s.catalogue ⟨name, t.description, t.parameters, doc⟩ parameters options timestamp =
      Payload.answer s'.catalogue ⟨name, t.description, t.parameters, doc'⟩ parameters options
        timestamp :=
  Payload.answer_congr h.there h'.there h.plain h'.plain (h.value.trans h'.value.symm) parameters
    options timestamp

theorem Stores.answer (h : s.Stores t name doc d) (h' : s'.Stores t name doc' d')
    (parameters : Json) (options : Options) (timestamp : Json) :
    s.answer t.name parameters options timestamp = s'.answer t.name parameters options timestamp := by
  simp only [Session.answer, h.listed, h'.listed]
  exact h.payload_answer h' parameters options timestamp

theorem Stores.reply (h : s.Stores t name doc d) (h' : s'.Stores t name doc' d') {text : String}
    (htext : t.name = .str text) {framework : Service.Framework} {request : Service.Request}
    (hcall : ∀ call, framework.receive request = .ok call → call.route = .payload text)
    (settings : Settings) (now : Option Int) :
    s.reply framework settings now request = s'.reply framework settings now request := by
  have hget := h.listed
  have hget' := h'.listed
  rw [htext] at hget hget'
  simp only [Session.reply, Service.handle]
  cases hreceive : framework.receive request with
  | error response => rfl
  | ok call =>
    have hroute := hcall call hreceive
    cases call with
    | payload other parameters =>
      obtain rfl : other = text := Service.Route.payload.inj hroute
      have hsame : (Service.payload ⟨settings, s.catalogue, now⟩ other parameters).2 =
          (Service.payload ⟨settings, s'.catalogue, now⟩ other parameters).2 := by
        cases now with
        | none => simp only [Service.payload, Service.withListing, hget, hget']
        | some now =>
          rw [Service.payload_eq hget rfl, Service.payload_eq hget' rfl]
          exact congrArg _ (h.payload_answer h' parameters _ _)
      simp only [Service.invoke, hsame]
    | _ => cases hroute

/-- A template that is not exposed stays as it was registered until it is replaced. -/
theorem Secure.stores_run (h : s.Secure []) (hname : t.name = .scalar name)
    (hself : name.agrees name = true) (hexposed : ¬ Exposed t.workflow) {after : List Call}
    (hafter : ∀ call ∈ after, ¬ call.Replaces name) :
    ∃ doc d, (Session.run after (s.serve (.register t))).Stores t name doc d := by
  obtain ⟨c, hregister⟩ : ∃ c, s.catalogue.register t = .ok c := by
    simp [Catalogue.register, hname]
  have hserve : s.serve (.register t) = ⟨c, s.graphs⟩ := by
    simp only [Session.serve, hregister]
  have hsecure := (h.register hregister).run (by simpa using hexposed) after
  rw [← hserve] at hsecure
  obtain ⟨d, hvalue, hguards⟩ := hsecure.guards _ List.mem_cons_self
  obtain ⟨other, hother, hc⟩ := register_eq_ok hregister
  obtain rfl : name = other := Json.scalar.inj (hname.symm.trans hother)
  have hlisted : Entries.get? name (Session.run after (s.serve (.register t))).catalogue.listings =
      some ⟨name, t.description, t.parameters, s.documents.length⟩ := by
    rw [get?_run hafter, hserve, hc, Entries.get?_put, if_pos hself]
  refine ⟨_, d, ?_, hguards.stored, hguards.plain, hvalue⟩
  rw [hname]
  simp only [Catalogue.get, hlisted]

end

def sharingWorkflow (v : Json) : Json :=
  .ofFields [("nodes", .list [.ofFields [("id", .int 1), ("type", .str "A"),
    ("inputs", .list [.ofFields [("name", .str "text"), ("link", .null)]]),
    ("widgets_values", .list [.ofFields [("k", v)]])]]), ("links", .list [])]

def sharing : Template :=
  ⟨.str "t", sharingWorkflow (.str "old"), .str "", [(.str "p", probe (.str "A") "inputs.text.k")]⟩

attribute [local instance] Machine.common in
theorem exposed_sharing : Exposed sharing.workflow := by
  refine ⟨.plain, _, _, _, ⟨rfl, rfl, rfl, rfl, List.mem_cons_self, ?_, rfl⟩⟩
  exact .inr ⟨"text", _, List.mem_cons_self, ⟨by decide, by simp [Segment.isMark]⟩, rfl⟩

/-- Whatever is done before and after it is registered, the workflow of a template stays what it
was, and its payloads are what they are in a session of its own. -/
structure Isolated [Machine] (t : Template) (before after : List Call) : Prop where
  stored : (run (before ++ .register t :: after) start).stored t.name = .ok t.workflow
  answer : ∀ parameters options timestamp,
    (run (before ++ .register t :: after) start).answer t.name parameters options timestamp =
      (run [.register t] start).answer t.name parameters options timestamp
  reply : ∀ (framework : Service.Framework) settings now request text, t.name = .str text →
    (∀ call, framework.receive request = .ok call → call.route = .payload text) →
    (run (before ++ .register t :: after) start).reply framework settings now request =
      (run [.register t] start).reply framework settings now request

/-- Templates are isolated, as long as no others take their places, unless they are exposed. Of an
exposed template a graph is loaded, and after one injection into that graph its workflow is no
longer what was registered. -/
theorem isolated_unless_exposed [Machine] {t : Template} {name : Scalar}
    (hname : t.name = .scalar name)
    (hself : name.agrees name = true) :
    (¬ Exposed t.workflow → ∀ before after : List Call, (∀ call ∈ after, ¬ call.Replaces name) →
      Isolated t before after) ∧
    (Exposed t.workflow → ∃ options data parameters values, Registry.ofJson data = .ok parameters ∧
      (run [.register t, .load t.name options, .inject 0 parameters values] start).stored t.name ≠
        .ok t.workflow) := by
  constructor
  · intro hexposed before after hafter
    have hbefore : (run before start).Secure [] := secure_start.run (by simp) before
    obtain ⟨doc, d, hstores⟩ := hbefore.stores_run hname hself hexposed hafter
    obtain ⟨doc', d', halone⟩ := secure_start.stores_run hname hself hexposed
      (List.forall_mem_nil fun call => ¬ Call.Replaces name call)
    have hrun : run (before ++ .register t :: after) start =
        run after ((run before start).serve (.register t)) := List.foldl_append
    rw [← hrun] at hstores
    exact ⟨hstores.stored, hstores.answer halone,
      fun framework settings now request text htext hcall =>
        hstores.reply halone htext hcall settings now⟩
  · rintro ⟨options, graph, compiled, e, hexposes⟩
    exact ⟨options, hexposes.breach hname hself⟩

attribute [local instance] Machine.common in
/-- The bundled template is isolated, and the one with an object among its widget values is not. -/
theorem isolated_bundled :
    (∃ t, Template.ofJson Template.Bundled.data = .ok t ∧ ∀ before after : List Call,
      (∀ call ∈ after, ¬ call.Replaces (.str "txt2img-basic")) → Isolated t before after) ∧
    ∃ options data parameters values, Registry.ofJson data = .ok parameters ∧
      (run [.register sharing, .load sharing.name options, .inject 0 parameters values]
        start).stored sharing.name ≠ .ok sharing.workflow := by
  constructor
  · refine ⟨_, rfl, (isolated_unless_exposed rfl (by decide)).1 ?_⟩
    exact not_exposed_of_isFlat rfl rfl
  · exact (isolated_unless_exposed rfl (by decide)).2 exposed_sharing

attribute [local instance] Machine.common in
/-- A payload is enough to change that template. -/
example : (run [.register sharing,
      .payload (.str "t") (.obj [(.str "p", .str "new")]) .plain (.int 7)] start).stored
    (.str "t") = .ok (sharingWorkflow (.str "new")) := rfl

end Session
end NodeWorkflow
