import NodeWorkflow.Proofs.Validation.Acyclic

/-!
# The course of a sweep

A sweep is followed step by step, with the references of the graph for the edges. It ends after one
step per node at most: every step takes a node, and what is queued was not queued before. All along,
the count of a node is the number of references in its inputs to nodes that were not taken, where
two references to one node count twice and a reference of the node to itself counts too.
-/
namespace NodeWorkflow.Validation

variable {nodes es : Entries Json} {ids taken : List String} {id : String}

theorem length_eraseDups_nodeIds (nodes : Entries Json) :
    (nodeIds nodes).eraseDups.length ≤ nodes.length := by
  have hsub : (nodeIds nodes).eraseDups ⊆ nodeIds nodes := fun id hid => List.mem_eraseDups.mp hid
  have hle := ((List.nodup_eraseDups (nodeIds nodes)).subperm hsub).length_le
  rwa [nodeIds, List.length_map] at hle

def isOpen (ids taken : List String) (input : Scalar × Json) : Bool :=
  input.2.reference?.any fun r => ids.contains r.node && !taken.contains r.node

/-- How many inputs of a node refer to nodes of the graph that were not taken. -/
def openReferences (nodes : Entries Json) (taken : List String) (id : String) : Nat :=
  ((nodes.filter fun e => e.1.text == id).flatMap fun e => e.2.nodeInputs).countP
    (isOpen (nodeIds nodes) taken)

/-- The open edges of one node are its open inputs, and they all lead into it. -/
theorem inflow_edgesInto (key : Scalar) (node : Json) :
    inflow (openEdges (edgesInto ids key node) taken) id =
      if key.text = id then node.nodeInputs.countP (isOpen ids taken) else 0 := by
  simp only [inflow, openEdges, edgesInto, List.countP_filter, List.countP_filterMap]
  split
  next hid =>
    congr 1
    funext input
    cases hr : input.2.reference? with
    | none => simp [isOpen, hr]
    | some r => by_cases hnode : r.node ∈ ids <;> simp [isOpen, hr, hnode, hid]
  next hid =>
    refine List.countP_eq_zero.mpr fun input _ => ?_
    cases hr : input.2.reference? with
    | none => simp
    | some r => by_cases hnode : r.node ∈ ids <;> simp [hnode, hid]

theorem inflow_flatMap_edgesInto :
    inflow (openEdges (es.flatMap fun e => edgesInto ids e.1 e.2) taken) id =
      ((es.filter fun e => e.1.text == id).flatMap fun e => e.2.nodeInputs).countP
        (isOpen ids taken) := by
  induction es with
  | nil => rfl
  | cons e es ih =>
    have hsplit : inflow (openEdges ((e :: es).flatMap fun e => edgesInto ids e.1 e.2) taken) id =
        inflow (openEdges (edgesInto ids e.1 e.2) taken) id +
          inflow (openEdges (es.flatMap fun e => edgesInto ids e.1 e.2) taken) id := by
      simp [inflow, openEdges]
    rw [hsplit, ih, inflow_edgesInto]
    by_cases hid : e.1.text = id
    · simp [hid]
    · simp [hid]

/-- The open edges into a node are the references of its inputs to nodes that were not taken. -/
theorem inflow_edges (taken : List String) (id : String) :
    inflow (openEdges (edges nodes) taken) id = openReferences nodes taken id :=
  inflow_flatMap_edgesInto

namespace Sweep

variable {all : List (String × String)} {s t : Sweep}

/-- What was queued up to now, in order: what was taken and what waits still. -/
def queued (s : Sweep) : List String := s.taken.reverse ++ s.queue

theorem queued_perm (s : Sweep) : s.queued.Perm (s.queue ++ s.taken) :=
  List.perm_append_comm.trans ((List.reverse_perm _).append_left _)

theorem queued_close (b : String) : (s.close b).queued =
    s.queued ++ if (s.close b).count? b = some 0 then [b] else [] := by
  simp only [queued, queue_close, taken_close]
  split <;> simp

theorem queued_closeAll (targets : List String) :
    s.queued <+: (targets.foldl close s).queued := by
  induction targets generalizing s with
  | nil => exact List.prefix_refl _
  | cons b targets ih =>
    have hfirst : s.queued <+: (s.close b).queued := by
      rw [queued_close]
      exact List.prefix_append _ _
    exact hfirst.trans ih

/-- What a step does to the queue: it takes what waits first, and puts new nodes behind all that was
queued up to now. -/
theorem queued_step (h : s.step? all = some t) :
    (∃ id, s.queue.head? = some id ∧ t.taken = id :: s.taken) ∧ s.queued <+: t.queued := by
  cases hqueue : s.queue with
  | nil => simp [step?, hqueue] at h
  | cons id queue =>
    simp only [step?, hqueue, Option.some.injEq] at h
    have hmoved : queued ⟨queue, s.degree, id :: s.taken⟩ = s.queued := by simp [queued, hqueue]
    rw [← h]
    refine ⟨⟨id, rfl, taken_closeAll _⟩, ?_⟩
    rw [← hmoved]
    exact queued_closeAll _

/-- Repeated ids make no difference to where a sweep starts. -/
theorem start_eraseDups (ids : List String) (all : List (String × String)) :
    start ids.eraseDups all = start ids all := by
  simp only [start, List.eraseDups_of_nodup (List.nodup_eraseDups ids)]

structure OnCourse (nodes : Entries Json) (count : Nat) (s : Sweep) : Prop where
  within : count ≤ nodes.length
  taken : s.taken.length = count
  once : s.queued.Nodup
  ready : ∀ id, id ∈ s.queued ↔ id ∈ nodeIds nodes ∧ openReferences nodes s.taken id = 0
  counts : ∀ id ∈ nodeIds nodes, ∃ degree : Int, s.count? id = some degree ∧ 0 ≤ degree ∧
    degree = openReferences nodes s.taken id

theorem Sound.onCourse (h : Sound (nodeIds nodes).eraseDups (edges nodes) s) :
    OnCourse nodes s.taken.length s where
  within := by
    have hdistinct := length_eraseDups_nodeIds nodes
    have hlength := h.length_le
    omega
  taken := rfl
  once := (queued_perm s).nodup_iff.mpr h.balanced.nodup
  ready id := by
    rw [(queued_perm s).mem_iff, h.balanced.reached id, List.mem_eraseDups, inflow_edges]
  counts id hid := by
    refine ⟨_, h.balanced.counts id (List.mem_eraseDups.mpr hid), Int.natCast_nonneg _, ?_⟩
    rw [inflow_edges]

end Sweep

/-- The sweep of any object of nodes ends with an empty queue after one step per node at most.
However many steps are made, every step takes the node that waits first and queues others behind all
that were queued up to then; a node is queued when its inputs refer to no node any more that was not
taken, and it is not queued twice; and the count of a node is never negative and equals the number
of references in its inputs to nodes of the graph that were not taken. -/
theorem sweep_stays_on_course (nodes : Entries Json) :
    let start := Sweep.start (nodeIds nodes) (edges nodes)
    (∃ count ≤ nodes.length, Sweep.steps? (edges nodes) count start = some (sweep nodes) ∧
      (sweep nodes).step? (edges nodes) = none) ∧
    ∀ count s, Sweep.steps? (edges nodes) count start = some s →
      Sweep.OnCourse nodes count s ∧ ∀ t, s.step? (edges nodes) = some t →
        (∃ id, s.queue.head? = some id ∧ t.taken = id :: s.taken) ∧ s.queued <+: t.queued := by
  intro start
  have hends : ∀ e ∈ edges nodes, e.2 ∈ (nodeIds nodes).eraseDups := fun e he =>
    List.mem_eraseDups.mpr (edges_lead_to_nodes e he)
  have hstart : Sweep.Sound (nodeIds nodes).eraseDups (edges nodes) start := by
    rw [show start = Sweep.start (nodeIds nodes).eraseDups (edges nodes) from
      (Sweep.start_eraseDups ..).symm]
    exact Sweep.sound_start (List.nodup_eraseDups _)
  have hcourse : ∀ count s, Sweep.steps? (edges nodes) count start = some s →
      Sweep.OnCourse nodes count s := by
    intro count s hsteps
    obtain ⟨hsound, htaken⟩ := hstart.steps hends hsteps
    have hcount : s.taken.length = count := by simpa [start, Sweep.start] using htaken
    exact hcount ▸ hsound.onCourse
  refine ⟨?_, fun count s hsteps => ⟨hcourse count s hsteps, fun t => Sweep.queued_step⟩⟩
  obtain ⟨count, -, hrun, -⟩ :=
    Sweep.exists_steps_run (edges nodes) (nodeIds nodes).length start
  refine ⟨count, (hcourse count _ hrun).within, hrun, Sweep.step?_eq_none.mpr ?_⟩
  refine (hstart.run hends _ ?_).2
  have hdistinct := length_eraseDups_nodeIds nodes
  simp only [nodeIds, List.length_map] at hdistinct ⊢
  omega

/-- The second node refers to the first one twice; the third one refers to the second one, to itself
and to a node that is not there. -/
theorem course_of_repeated_references :
    let nodes : Entries Json :=
      [(.str "1", .ofFields [("class_type", .str "A")]),
        (.str "2", .ofFields [("inputs", .ofFields
          [("x", .list [.str "1", .int 0]), ("y", .list [.str "1", .int 1])])]),
        (.str "3", .ofFields [("inputs", .ofFields
          [("x", .list [.str "2", .int 0]), ("y", .list [.str "3", .int 0]),
            ("z", .list [.str "9", .int 0])])])]
    let first : Sweep := ⟨["2"], [("1", 0), ("2", 0), ("3", 2)], ["1"]⟩
    let second : Sweep := ⟨[], [("1", 0), ("2", 0), ("3", 1)], ["2", "1"]⟩
    Sweep.steps? (edges nodes) 1 (Sweep.start (nodeIds nodes) (edges nodes)) = some first ∧
      Sweep.OnCourse nodes 1 first ∧ first.step? (edges nodes) = some second ∧
      first.queued <+: second.queued ∧ openReferences nodes second.taken "3" = 1 := by
  intro nodes first second
  have hsteps : Sweep.steps? (edges nodes) 1 (Sweep.start (nodeIds nodes) (edges nodes)) =
      some first := rfl
  have hstep : first.step? (edges nodes) = some second := rfl
  obtain ⟨hcourse, hnext⟩ := (sweep_stays_on_course nodes).2 1 first hsteps
  exact ⟨hsteps, hcourse, hstep, (hnext second hstep).2, by decide +kernel⟩

end NodeWorkflow.Validation
