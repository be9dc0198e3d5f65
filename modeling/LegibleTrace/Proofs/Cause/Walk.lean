import LegibleTrace.Cause.Assembly
import Mathlib.Data.List.Nodup
import Mathlib.Order.Bounds.Basic

/-! What a walk along causes takes and why it stops. The judgment `Follows` restates the loop
without its monad and has one rule for each way in which a turn can end; the facts about a
walk are inductions on it. The causes of a node in order, without any guard, are `ancestor`,
and a walk takes exactly those before the first index at which it has to halt. -/
namespace LegibleTrace.CauseGraph
open Cause

variable {ν : Type}

/-- The node that is reached by going `n` times to the cause. -/
def ancestor (graph : CauseGraph ν) (node : ν) : Nat → Option ν
  | 0 => some node
  | n + 1 => (graph.cause node).bind fun next => graph.ancestor next n

/-- No node is left, the node was taken before, or `limit` causes are taken. -/
def HaltsAt (graph : CauseGraph ν) (limit : Nat) (start : ν) (n : Nat) : Prop :=
  graph.ancestor start n = none ∨
    (∃ earlier < n, graph.ancestor start earlier = graph.ancestor start n) ∨
    n = limit + 1

/-- The start and its causes in order, each once, up to the first index at which a walk has
to halt. -/
structure Takes (graph : CauseGraph ν) (limit : Nat) (start : ν) (nodes : List ν) : Prop where
  halts : IsLeast {n | graph.HaltsAt limit start n} nodes.length
  ancestors : nodes.map some = (List.range nodes.length).map (graph.ancestor start)
  nodup : nodes.Nodup

inductive Follows (graph : CauseGraph ν) : Nat → List ν → ν → Walk ν → Prop
  | ended (room seen node) (cause : graph.cause node = none) :
      Follows graph room seen node ⟨[], .ended⟩
  | revisited (room seen node next) (cause : graph.cause node = some next)
      (old : next ∈ seen) :
      Follows graph room seen node ⟨[], .revisited next⟩
  | full (seen node next) (cause : graph.cause node = some next) (new : next ∉ seen) :
      Follows graph 0 seen node ⟨[], .full⟩
  | taken (room seen node next) (rest : Walk ν) (cause : graph.cause node = some next)
      (new : next ∉ seen) (follows : Follows graph room (next :: seen) next rest) :
      Follows graph (room + 1) seen node ⟨next :: rest.nodes, rest.stop⟩

def Stopped (graph : CauseGraph ν) (taken : List ν) (isFull : Prop) (last : ν) :
    Stop ν → Prop
  | .ended => graph.cause last = none
  | .revisited node => graph.cause last = some node ∧ node ∈ taken
  | .full => isFull ∧ ∃ next, graph.cause last = some next ∧ next ∉ taken

theorem ancestor_succ (graph : CauseGraph ν) (node : ν) (n : Nat) :
    graph.ancestor node (n + 1) = (graph.ancestor node n).bind graph.cause := by
  induction n generalizing node with
  | zero => cases found : graph.cause node <;> simp [ancestor, found]
  | succ n ih =>
    cases found : graph.cause node with
    | none => simp [ancestor, found]
    | some next =>
      have unfolded (k : Nat) : graph.ancestor node (k + 1) = graph.ancestor next k := by
        rw [ancestor, found, Option.bind_some]
      rw [unfolded (n + 1), unfolded n]
      exact ih next

namespace Follows

variable {graph : CauseGraph ν} {room : Nat} {seen : List ν} {node : ν} {walk : Walk ν}

theorem length_le (follows : graph.Follows room seen node walk) :
    walk.nodes.length ≤ room := by
  induction follows with
  | ended | revisited | full => exact Nat.zero_le _
  | taken _ _ _ _ _ _ _ _ ih => exact Nat.succ_le_succ ih

theorem nodup (follows : graph.Follows room seen node walk) (distinct : seen.Nodup) :
    (walk.nodes.reverse ++ seen).Nodup := by
  induction follows with
  | ended | revisited | full => exact distinct
  | taken room seen node next rest cause new follows ih =>
    simpa using ih (List.nodup_cons.mpr ⟨new, distinct⟩)

theorem ancestors (follows : graph.Follows room seen node walk) :
    (node :: walk.nodes).map some =
      (List.range (walk.nodes.length + 1)).map (graph.ancestor node) := by
  induction follows with
  | ended | revisited | full => rfl
  | taken room seen node next rest cause new follows ih =>
    rw [List.map_cons, ih, List.length_cons, List.range_succ_eq_map (n := _ + 1)]
    simp [ancestor, cause, Function.comp_def]

theorem ancestor_length (follows : graph.Follows room seen node walk) :
    graph.ancestor node (walk.nodes.length + 1) =
      graph.cause (walk.nodes.getLastD node) := by
  induction follows with
  | ended | revisited | full => exact ancestor_succ _ _ 0
  | taken room seen node next rest cause new follows ih =>
    rw [List.length_cons, ancestor, cause, List.getLastD_cons]
    exact ih

theorem stopped (follows : graph.Follows room seen node walk) :
    graph.Stopped (walk.nodes.reverse ++ seen) (walk.nodes.length = room)
      (walk.nodes.getLastD node) walk.stop := by
  induction follows with
  | ended room seen node cause => exact cause
  | revisited room seen node next cause old => exact ⟨cause, old⟩
  | full seen node next cause new => exact ⟨rfl, next, cause, new⟩
  | taken room seen node next rest cause new follows ih =>
    rw [List.getLastD_cons, List.reverse_cons, List.append_assoc, List.length_cons,
      Nat.add_right_cancel_iff]
    exact ih

theorem unique {other : Walk ν} (follows : graph.Follows room seen node walk)
    (others : graph.Follows room seen node other) : walk = other := by
  induction follows generalizing other with
  | ended | revisited | full => cases others <;> simp_all
  | taken room seen node next rest cause new follows ih =>
    cases others with
    | ended | revisited => simp_all
    | taken _ _ _ next' rest' cause' new' follows' =>
      obtain rfl : next = next' := Option.some.inj (cause.symm.trans cause')
      rw [ih follows']

end Follows

variable [DecidableEq ν]

theorem follows_follow (graph : CauseGraph ν) (room : Nat) (seen : List ν) (node : ν) :
    graph.Follows room seen node
      (Id.run (follow (fun node => pure (graph.cause node)) room seen node)) := by
  rw [follow.eq_def]
  dsimp only
  rw [pure_bind]
  cases found : graph.cause node with
  | none => exact .ended _ _ _ found
  | some next =>
    by_cases old : next ∈ seen
    · simp only [if_pos old]
      exact .revisited _ _ _ _ found old
    · simp only [if_neg old]
      cases room with
      | zero => exact .full _ _ _ found old
      | succ room =>
        exact .taken _ _ _ _ _ found old (follows_follow graph room (next :: seen) next)

theorem assemble_eq (assembler : Assembler) (graph : CauseGraph ν) (start : ν) :
    graph.assemble assembler start =
      let walk := graph.walk assembler.limit start
      let trace := assembler.trace (graph.throwable start) (walk.nodes.tail.map graph.throwable)
      (trace, assembler.truncation (fun node => (graph.throwable node).typeName)
        walk.nodes.length walk.stop ++ [Assembler.assembled trace]) :=
  rfl

theorem walk_of_follows {graph : CauseGraph ν} {limit : Nat} {start : ν} {rest : Walk ν}
    (follows : graph.Follows limit [start] start rest) :
    graph.walk limit start = ⟨start :: rest.nodes, rest.stop⟩ := by
  obtain rfl := (graph.follows_follow limit [start] start).unique follows
  rfl

theorem exists_follows (graph : CauseGraph ν) (limit : Nat) (start : ν) :
    ∃ rest, graph.Follows limit [start] start rest ∧
      graph.walk limit start = ⟨start :: rest.nodes, rest.stop⟩ :=
  ⟨_, graph.follows_follow limit [start] start, rfl⟩

theorem length_walk_le (graph : CauseGraph ν) (limit : Nat) (start : ν) :
    (graph.walk limit start).nodes.length ≤ limit + 1 := by
  obtain ⟨rest, follows, walk⟩ := graph.exists_follows limit start
  rw [walk, List.length_cons]
  exact Nat.succ_le_succ follows.length_le

theorem walk_nodup (graph : CauseGraph ν) (limit : Nat) (start : ν) :
    (graph.walk limit start).nodes.Nodup := by
  obtain ⟨rest, follows, walk⟩ := graph.exists_follows limit start
  rw [walk]
  have distinct := follows.nodup (List.nodup_singleton start)
  rw [← List.reverse_cons] at distinct
  exact (List.reverse_perm _).nodup_iff.mp distinct

theorem walk_ancestors (graph : CauseGraph ν) (limit : Nat) (start : ν) :
    (graph.walk limit start).nodes.map some =
      (List.range (graph.walk limit start).nodes.length).map (graph.ancestor start) := by
  obtain ⟨rest, follows, walk⟩ := graph.exists_follows limit start
  rw [walk]
  exact follows.ancestors

theorem ancestor_eq_getElem (graph : CauseGraph ν) (limit : Nat) (start : ν) {n : Nat}
    (inside : n < (graph.walk limit start).nodes.length) :
    graph.ancestor start n = some (graph.walk limit start).nodes[n] := by
  have taken := congrArg (fun nodes => nodes[n]?) (graph.walk_ancestors limit start)
  simpa [inside] using taken.symm

theorem ancestor_length (graph : CauseGraph ν) (limit : Nat) (start : ν) :
    graph.ancestor start (graph.walk limit start).nodes.length =
      graph.cause ((graph.walk limit start).nodes.getLastD start) := by
  obtain ⟨rest, follows, walk⟩ := graph.exists_follows limit start
  rw [walk, List.getLastD_cons]
  exact follows.ancestor_length

/-- Why a walk ended, in terms of the nodes that it took. -/
theorem walk_stopped (graph : CauseGraph ν) (limit : Nat) (start : ν) :
    graph.Stopped (graph.walk limit start).nodes.reverse
      ((graph.walk limit start).nodes.length = limit + 1)
      ((graph.walk limit start).nodes.getLastD start) (graph.walk limit start).stop := by
  obtain ⟨rest, follows, walk⟩ := graph.exists_follows limit start
  rw [walk, List.reverse_cons, List.getLastD_cons, List.length_cons,
    Nat.add_right_cancel_iff]
  exact follows.stopped

theorem haltsAt_length (graph : CauseGraph ν) (limit : Nat) (start : ν) :
    graph.HaltsAt limit start (graph.walk limit start).nodes.length := by
  have stopped := graph.walk_stopped limit start
  rw [HaltsAt, graph.ancestor_length limit start]
  cases reason : (graph.walk limit start).stop with
  | ended =>
    rw [reason] at stopped
    exact .inl stopped
  | revisited node =>
    rw [reason] at stopped
    obtain ⟨cause, old⟩ := stopped
    obtain ⟨earlier, inside, taken⟩ := List.getElem_of_mem (List.mem_reverse.mp old)
    refine .inr (.inl ⟨earlier, inside, ?_⟩)
    rw [graph.ancestor_eq_getElem limit start inside, taken, cause]
  | full =>
    rw [reason] at stopped
    exact .inr (.inr stopped.1)

theorem not_haltsAt_of_lt (graph : CauseGraph ν) (limit : Nat) (start : ν) {n : Nat}
    (inside : n < (graph.walk limit start).nodes.length) : ¬ graph.HaltsAt limit start n := by
  have taken := graph.ancestor_eq_getElem limit start inside
  rintro (ended | ⟨earlier, before, same⟩ | full)
  · rw [taken] at ended
    contradiction
  · rw [taken, graph.ancestor_eq_getElem limit start (before.trans inside),
      Option.some_inj] at same
    have equal := (graph.walk_nodup limit start).getElem_inj_iff.mp same
    exact before.ne equal
  · have bound := graph.length_walk_le limit start
    omega

theorem takes_walk (graph : CauseGraph ν) (limit : Nat) (start : ν) :
    graph.Takes limit start (graph.walk limit start).nodes where
  halts := by
    refine ⟨graph.haltsAt_length limit start, ?_⟩
    intro n halts
    by_contra! inside
    exact graph.not_haltsAt_of_lt limit start inside halts
  ancestors := graph.walk_ancestors limit start
  nodup := graph.walk_nodup limit start

example : (walk ⟨fun _ : Bool => ⟨[], none, none, []⟩, fun node => some !node⟩ 5 true).nodes =
    [true, false] := by
  cbv

end LegibleTrace.CauseGraph
