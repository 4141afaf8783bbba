import Mathlib.Data.Fintype.Card
import Mathlib.Logic.Relation
import NodeWorkflow.Proofs.Lists
import NodeWorkflow.Validation.Cycle

/-!
# The sweep of a graph

A sweep that takes nodes without open incoming edges counts the open edges into every node at each
of its steps, never queues a node twice, and takes a node only after all nodes with edges into it.
So it ends after one step per node at most, and what it leaves behind holds a cycle.
-/
namespace NodeWorkflow.Validation

variable {ids : List String} {all rest : List (String × String)} {s t : Sweep}

/-- How many edges of a list lead into a node. -/
def inflow (edges : List (String × String)) (id : String) : Nat := edges.countP fun e => e.2 == id

def openEdges (edges : List (String × String)) (taken : List String) : List (String × String) :=
  edges.filter fun e => !taken.contains e.1

/-- Every node comes before those that edges lead to from it; the latest stands first. -/
def Ordered (edges : List (String × String)) : List String → Prop
  | [] => True
  | id :: earlier => (∀ a, (a, id) ∈ edges → a ∈ earlier) ∧ Ordered edges earlier

theorem inflow_eq_zero {edges : List (String × String)} {id : String} :
    inflow edges id = 0 ↔ ∀ a, (a, id) ∉ edges := by
  simp only [inflow, List.countP_eq_zero, beq_iff_eq]
  constructor
  · intro h a ha
    exact h _ ha rfl
  · rintro h ⟨a, b⟩ he rfl
    exact h a he

theorem inflow_cons (a b id : String) :
    inflow ((a, b) :: rest) id = inflow rest id + if b = id then 1 else 0 := by
  simp [inflow, List.countP_cons]

theorem inflow_openEdges_cons (a id : String) (taken : List String) :
    inflow (openEdges all taken) id =
      inflow (((openEdges all taken).filter (·.1 == a)) ++ openEdges all (a :: taken)) id := by
  have hrest : openEdges all (a :: taken) = (openEdges all taken).filter fun e => !(e.1 == a) := by
    simp only [openEdges, List.filter_filter]
    congr 1
    funext e
    cases h : e.1 == a <;> simp_all
  rw [hrest]
  exact ((List.filter_append_perm _ _).countP_eq _).symm

namespace Sweep

/-- The counts are those of the open edges, and the nodes without open edges into them were queued,
each once. -/
structure Balanced (ids : List String) (rest : List (String × String)) (s : Sweep) : Prop where
  counts : ∀ id ∈ ids, s.count? id = some (inflow rest id : Int)
  nodup : (s.queue ++ s.taken).Nodup
  reached : ∀ id, id ∈ s.queue ++ s.taken ↔ id ∈ ids ∧ inflow rest id = 0

theorem Balanced.congr {other : List (String × String)} (h : Balanced ids rest s)
    (hflow : ∀ id, inflow rest id = inflow other id) : Balanced ids other s where
  counts id hid := by rw [← hflow, h.counts id hid]
  nodup := h.nodup
  reached id := by rw [← hflow, h.reached]

private theorem lookup_decrement (counts : List (String × Int)) (b id : String) :
    (counts.map fun c => if c.1 == b then (c.1, c.2 - 1) else c).lookup id =
      (counts.lookup id).map fun n => if b = id then n - 1 else n := by
  induction counts with
  | nil => rfl
  | cons c counts ih =>
    obtain ⟨key, n⟩ := c
    have hhead : (if key == b then (key, n - 1) else (key, n)) =
        (key, if b = key then n - 1 else n) := by
      by_cases hb : b = key
      · simp [hb]
      · simp [hb, Ne.symm hb]
    simp only [List.map_cons, hhead, List.lookup_cons]
    cases hid : id == key with
    | true => simp [beq_iff_eq.mp hid]
    | false => simpa only using ih

theorem count?_close (b id : String) :
    (s.close b).count? id = (s.count? id).map fun n => if b = id then n - 1 else n :=
  lookup_decrement s.degree b id

theorem taken_close (b : String) : (s.close b).taken = s.taken := rfl

theorem queue_close (b : String) :
    (s.close b).queue = if (s.close b).count? b = some 0 then s.queue ++ [b] else s.queue := rfl

/-- Closing an edge takes it off the list. -/
theorem Balanced.close {a b : String} (h : Balanced ids ((a, b) :: rest) s) (hb : b ∈ ids) :
    Balanced ids rest (s.close b) := by
  have hcounts : ∀ id ∈ ids, (s.close b).count? id = some (inflow rest id : Int) := by
    intro id hid
    rw [count?_close, h.counts id hid, inflow_cons]
    by_cases hbid : b = id <;> simp [hbid]
  have hopen : inflow ((a, b) :: rest) b ≠ 0 := by simp [inflow_cons]
  have hnew : b ∉ s.queue ++ s.taken := fun hmem => hopen ((h.reached b).mp hmem).2
  have hreached : ∀ id, id ∈ s.queue ++ s.taken ↔ id ∈ ids ∧ inflow rest id = 0 ∧ id ≠ b := by
    intro id
    rw [h.reached id, inflow_cons]
    by_cases hbid : b = id
    · simp [hbid]
    · simp [hbid, Ne.symm hbid]
  have hqueue : (s.close b).queue = if inflow rest b = 0 then s.queue ++ [b] else s.queue := by
    rw [queue_close, hcounts b hb]
    simp
  by_cases hzero : inflow rest b = 0
  · rw [if_pos hzero] at hqueue
    refine ⟨hcounts, ?_, ?_⟩
    · rw [hqueue, taken_close, List.append_assoc]
      refine (List.perm_middle.nodup_iff).mpr (List.nodup_cons.mpr ⟨by simpa using hnew, ?_⟩)
      exact h.nodup
    · intro id
      have hmem : id ∈ (s.close b).queue ++ (s.close b).taken ↔
          id = b ∨ id ∈ s.queue ++ s.taken := by
        rw [hqueue, taken_close]
        simp only [List.mem_append, List.mem_singleton]
        tauto
      rw [hmem, hreached id]
      by_cases hid : id = b
      · simp [hid, hb, hzero]
      · simp [hid]
  · rw [if_neg hzero] at hqueue
    refine ⟨hcounts, ?_, ?_⟩
    · rw [hqueue, taken_close]
      exact h.nodup
    · intro id
      rw [hqueue, taken_close, hreached id]
      by_cases hid : id = b
      · simp [hid, hzero]
      · simp [hid]

theorem Balanced.closeAll {a : String} {targets : List String}
    (h : Balanced ids (targets.map (fun b => (a, b)) ++ rest) s) (ht : ∀ b ∈ targets, b ∈ ids) :
    Balanced ids rest (targets.foldl Sweep.close s) := by
  induction targets generalizing s with
  | nil => exact h
  | cons b targets ih =>
    have hclosed : Balanced ids (targets.map (fun b => (a, b)) ++ rest) (s.close b) :=
      Balanced.close h (ht b List.mem_cons_self)
    exact ih hclosed fun c hc => ht c (List.mem_cons_of_mem _ hc)

theorem taken_closeAll (targets : List String) : (targets.foldl Sweep.close s).taken = s.taken := by
  induction targets generalizing s with
  | nil => rfl
  | cons b targets ih => rw [List.foldl_cons, ih, taken_close]

private theorem lookup_graph (f : String → Int) (ids : List String) (id : String) (hid : id ∈ ids) :
    (ids.map fun a => (a, f a)).lookup id = some (f id) := by
  induction ids with
  | nil => simp at hid
  | cons a ids ih =>
    cases ha : id == a with
    | true => simp [beq_iff_eq.mp ha]
    | false =>
      have hmem : id ∈ ids := (List.mem_cons.mp hid).resolve_left (by simpa using ha)
      simp [List.lookup_cons, ha, ih hmem]

theorem balanced_start (hids : ids.Nodup) : Balanced ids all (start ids all) := by
  have hcounts : ∀ id ∈ ids, (start ids all).count? id = some (inflow all id : Int) := by
    intro id hid
    have hlook := lookup_graph (fun a => (inflow all a : Int)) ids id hid
    simpa [start, count?, List.eraseDups_of_nodup hids, inflow] using hlook
  have hqueue : (start ids all).queue = ids.filter fun id => inflow all id = 0 := by
    simp only [start, List.eraseDups_of_nodup hids, List.filterMap_map]
    rw [← List.filterMap_eq_filter]
    congr 1
    funext id
    change (if (inflow all id : Int) = 0 then some id else none) = Option.guard _ id
    by_cases hzero : inflow all id = 0 <;> simp [hzero, Option.guard]
  refine ⟨hcounts, ?_, ?_⟩
  · rw [hqueue, show (start ids all).taken = [] from rfl, List.append_nil]
    exact hids.filter _
  · intro id
    rw [hqueue, show (start ids all).taken = [] from rfl, List.append_nil, List.mem_filter]
    simp

theorem openEdges_out {id : String} {taken : List String} (hnew : id ∉ taken) :
    (openEdges all taken).filter (·.1 == id) =
      (all.filterMap fun e => if e.1 == id then some e.2 else none).map fun b => (id, b) := by
  rw [openEdges, List.filter_filter, List.map_filterMap, ← List.filterMap_eq_filter]
  congr 1
  funext e
  cases he : e.1 == id with
  | true =>
    have hid : e.1 = id := beq_iff_eq.mp he
    simp [Option.guard, hid, hnew, Prod.ext_iff]
  | false => simp [Option.guard, he]

/-- Taking the first node of the queue leaves the counts as they are. -/
theorem Balanced.take {id : String} {queue : List String} (h : Balanced ids rest s)
    (hqueue : s.queue = id :: queue) : Balanced ids rest ⟨queue, s.degree, id :: s.taken⟩ := by
  have hperm : (queue ++ id :: s.taken).Perm (s.queue ++ s.taken) := by
    rw [hqueue]
    exact List.perm_middle
  refine ⟨h.counts, hperm.nodup_iff.mpr h.nodup, fun a => ?_⟩
  rw [hperm.mem_iff]
  exact h.reached a

theorem Balanced.not_mem_taken {id : String} (h : Balanced ids rest s) (hid : id ∈ s.queue) :
    id ∉ s.taken :=
  fun hmem => (List.nodup_append.mp h.nodup).2.2 id hid id hmem rfl

/-- A step takes one node and keeps the counts right. -/
theorem Balanced.step (h : Balanced ids (openEdges all s.taken) s)
    (hall : ∀ e ∈ all, e.2 ∈ ids) (hstep : s.step? all = some t) :
    ∃ id ∈ s.queue, t.taken = id :: s.taken ∧ Balanced ids (openEdges all t.taken) t := by
  cases hqueue : s.queue with
  | nil => simp [step?, hqueue] at hstep
  | cons id queue =>
    simp only [step?, hqueue, Option.some.injEq] at hstep
    have hnew : id ∉ s.taken := h.not_mem_taken (by simp [hqueue])
    have htaken : t.taken = id :: s.taken := by rw [← hstep, taken_closeAll]
    -- The edges that the step closes stand first in the list of those that were open.
    have hflow (a : String) : inflow (openEdges all s.taken) a = _ :=
      inflow_openEdges_cons id a s.taken
    simp only [openEdges_out hnew] at hflow
    refine ⟨id, List.mem_cons_self, htaken, ?_⟩
    rw [htaken, ← hstep]
    refine ((h.congr hflow).take hqueue).closeAll fun b hb => ?_
    obtain ⟨e, he, heb⟩ := List.mem_filterMap.mp hb
    split at heb
    · rw [← Option.some.inj heb]
      exact hall e he
    · simp at heb

/-- A step takes a node after all nodes with edges into it. -/
theorem Balanced.step_ordered (h : Balanced ids (openEdges all s.taken) s)
    (hordered : Ordered all s.taken) (hall : ∀ e ∈ all, e.2 ∈ ids)
    (hstep : s.step? all = some t) : Ordered all t.taken := by
  obtain ⟨id, hid, htaken, -⟩ := h.step hall hstep
  rw [htaken]
  refine ⟨fun a ha => ?_, hordered⟩
  have hzero := ((h.reached id).mp (List.mem_append_left _ hid)).2
  have hclosed : (a, id) ∉ openEdges all s.taken := inflow_eq_zero.mp hzero a
  by_contra hopen
  exact hclosed (by simp [openEdges, ha, hopen])

structure Sound (ids : List String) (all : List (String × String)) (s : Sweep) : Prop where
  balanced : Balanced ids (openEdges all s.taken) s
  ordered : Ordered all s.taken

theorem sound_start (hids : ids.Nodup) : Sound ids all (start ids all) := by
  have hopen : openEdges all (start ids all).taken = all := by
    simp [openEdges, start]
  exact ⟨hopen.symm ▸ balanced_start hids, trivial⟩

theorem Sound.step (h : Sound ids all s) (hall : ∀ e ∈ all, e.2 ∈ ids)
    (hstep : s.step? all = some t) : Sound ids all t := by
  obtain ⟨id, -, -, hbalanced⟩ := h.balanced.step hall hstep
  exact ⟨hbalanced, h.balanced.step_ordered h.ordered hall hstep⟩

theorem Sound.taken_subset (h : Sound ids all s) : s.taken ⊆ ids := fun id hid =>
  ((h.balanced.reached id).mp (List.mem_append_right _ hid)).1

theorem Sound.length_le (h : Sound ids all s) :
    s.queue.length + s.taken.length ≤ ids.length := by
  rw [← List.length_append]
  refine (h.balanced.nodup.subperm fun id hid => ?_).length_le
  exact ((h.balanced.reached id).mp hid).1

def steps? (edges : List (String × String)) : Nat → Sweep → Option Sweep
  | 0, s => some s
  | count + 1, s => (s.step? edges).bind (steps? edges count)

theorem step?_eq_none : s.step? all = none ↔ s.queue = [] := by
  cases hqueue : s.queue <;> simp [step?, hqueue]

/-- Every step takes one more node. -/
theorem Sound.steps (h : Sound ids all s) (hall : ∀ e ∈ all, e.2 ∈ ids) {count : Nat}
    (hsteps : steps? all count s = some t) :
    Sound ids all t ∧ t.taken.length = s.taken.length + count := by
  induction count generalizing s with
  | zero =>
    obtain rfl := Option.some.inj hsteps
    exact ⟨h, rfl⟩
  | succ count ih =>
    obtain ⟨next, hstep, hsteps⟩ := Option.bind_eq_some_iff.mp hsteps
    obtain ⟨id, -, htaken, -⟩ := h.balanced.step hall hstep
    obtain ⟨hsound, hlength⟩ := ih (h.step hall hstep) hsteps
    refine ⟨hsound, ?_⟩
    rw [hlength, htaken, List.length_cons]
    omega

/-- A run makes steps until the queue is empty or the fuel is used up. -/
theorem exists_steps_run (all : List (String × String)) (fuel : Nat) (s : Sweep) :
    ∃ count ≤ fuel, steps? all count s = some (run all fuel s) ∧
      (count < fuel → (run all fuel s).queue = []) := by
  induction fuel generalizing s with
  | zero => exact ⟨0, le_rfl, rfl, fun h => absurd h (Nat.lt_irrefl 0)⟩
  | succ fuel ih =>
    cases hstep : s.step? all with
    | none =>
      simp only [run, hstep]
      exact ⟨0, Nat.zero_le _, rfl, fun _ => step?_eq_none.mp hstep⟩
    | some t =>
      obtain ⟨count, hcount, hrun, hend⟩ := ih t
      simp only [run, hstep]
      refine ⟨count + 1, Nat.succ_le_succ hcount, ?_, fun h => hend (Nat.lt_of_succ_lt_succ h)⟩
      simpa [steps?, hstep] using hrun

/-- A run keeps the counts right, and ends with an empty queue if it may take as many steps as there
are nodes left. -/
theorem Sound.run (h : Sound ids all s) (hall : ∀ e ∈ all, e.2 ∈ ids) (fuel : Nat)
    (hfuel : ids.length ≤ s.taken.length + fuel) :
    Sound ids all (run all fuel s) ∧ (run all fuel s).queue = [] := by
  obtain ⟨count, hcount, hsteps, hend⟩ := exists_steps_run all fuel s
  obtain ⟨hsound, htaken⟩ := h.steps hall hsteps
  refine ⟨hsound, ?_⟩
  rcases Nat.lt_or_eq_of_le hcount with hlt | rfl
  · exact hend hlt
  · -- All nodes are taken, so that none is left to wait.
    have hlength := hsound.length_le
    apply List.eq_nil_of_length_eq_zero
    omega

/-- What is not taken when the queue is empty has an edge into it from what is not taken either. -/
theorem Sound.blocked (h : Sound ids all s) (hqueue : s.queue = []) {id : String} (hid : id ∈ ids)
    (hleft : id ∉ s.taken) : ∃ a, (a, id) ∈ all ∧ a ∉ s.taken := by
  have hflow : inflow (openEdges all s.taken) id ≠ 0 := by
    intro hzero
    have hmem := (h.balanced.reached id).mpr ⟨hid, hzero⟩
    rw [hqueue, List.nil_append] at hmem
    exact hleft hmem
  rw [Ne, inflow_eq_zero] at hflow
  push Not at hflow
  obtain ⟨a, ha⟩ := hflow
  simp only [openEdges, List.mem_filter] at ha
  exact ⟨a, ha.1, by simpa using ha.2⟩

end Sweep
end NodeWorkflow.Validation
