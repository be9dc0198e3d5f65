import LegibleTrace.Proofs.Cause.Assembly
import Mathlib.Data.List.TakeWhile
import Mathlib.Data.Set.Card

/-! Two walks of one graph. The walk with the smaller limit keeps the first nodes of the other,
and once the limit leaves room for every node that can be reached it no longer matters. A walk
from a node is the node and then the walk from its cause, cut before the node comes again. -/
namespace LegibleTrace.CauseGraph
open Cause

variable {ν : Type}

/-- The node and all nodes behind it along causes. -/
def reachable (graph : CauseGraph ν) (node : ν) : Set ν :=
  {other | ∃ n, graph.ancestor node n = some other}

theorem reachable_subset {graph : CauseGraph ν} {node : ν} {closed : Set ν}
    (start : node ∈ closed)
    (step : ∀ other ∈ closed, ∀ next, graph.cause other = some next → next ∈ closed) :
    graph.reachable node ⊆ closed := by
  rintro other ⟨n, reached⟩
  induction n generalizing other with
  | zero =>
    obtain rfl := Option.some.inj reached
    exact start
  | succ n ih =>
    rw [ancestor_succ] at reached
    obtain ⟨before, inside, cause⟩ := Option.bind_eq_some_iff.mp reached
    exact step before (ih inside) other cause

namespace Follows

variable {graph : CauseGraph ν} {room : Nat} {seen : List ν} {node : ν} {walk : Walk ν}

theorem take (follows : graph.Follows room seen node walk) {fewer : Nat}
    (le : fewer ≤ room) :
    ∃ stop, graph.Follows fewer seen node ⟨walk.nodes.take fewer, stop⟩ := by
  induction follows generalizing fewer with
  | ended room seen node cause =>
    rw [List.take_nil]
    exact ⟨_, .ended _ _ _ cause⟩
  | revisited room seen node next cause old =>
    rw [List.take_nil]
    exact ⟨_, .revisited _ _ _ next cause old⟩
  | full seen node next cause new =>
    obtain rfl := Nat.le_zero.mp le
    exact ⟨_, .full _ _ next cause new⟩
  | taken room seen node next rest cause new follows ih =>
    cases fewer with
    | zero => exact ⟨_, .full _ _ next cause new⟩
    | succ fewer =>
      obtain ⟨stop, further⟩ := ih (Nat.le_of_succ_le_succ le)
      exact ⟨stop, .taken _ _ _ next _ cause new further⟩

theorem enlarge (follows : graph.Follows room seen node walk) (unfilled : walk.stop ≠ .full)
    {more : Nat} (le : room ≤ more) : graph.Follows more seen node walk := by
  induction follows generalizing more with
  | ended room seen node cause => exact .ended _ _ _ cause
  | revisited room seen node next cause old => exact .revisited _ _ _ next cause old
  | full => exact absurd rfl unfilled
  | taken room seen node next rest cause new follows ih =>
    obtain ⟨more, rfl⟩ := Nat.exists_eq_add_of_le' (Nat.one_le_of_lt le)
    exact .taken _ _ _ next _ cause new (ih unfilled (Nat.le_of_succ_le_succ le))

-- The walk that has seen `start` too is the same up to the moment at which it meets `start`.
theorem takeWhile [DecidableEq ν] (follows : graph.Follows room seen node walk) (start : ν) :
    ∃ stop, graph.Follows room (seen ++ [start]) node
      ⟨walk.nodes.takeWhile (· ≠ start), stop⟩ := by
  induction follows with
  | ended room seen node cause => exact ⟨_, .ended _ _ _ cause⟩
  | revisited room seen node next cause old =>
    exact ⟨_, .revisited _ _ _ next cause (List.mem_append_left _ old)⟩
  | full seen node next cause new =>
    by_cases same : next = start
    · exact ⟨_, .revisited _ _ _ next cause (by simp [same])⟩
    · exact ⟨_, .full _ _ next cause (by simp [same, new])⟩
  | taken room seen node next rest cause new follows ih =>
    by_cases same : next = start
    · rw [List.takeWhile_cons_of_neg (by simp [same])]
      exact ⟨_, .revisited _ _ _ next cause (by simp [same])⟩
    · obtain ⟨stop, further⟩ := ih
      rw [List.takeWhile_cons_of_pos (by simp [same])]
      exact ⟨stop, .taken _ _ _ next _ cause (by simp [same, new]) further⟩

end Follows

theorem truncation_of_not_full {stop : Stop ν} (unfilled : stop ≠ .full) (limit more : Nat)
    (placeholder : Text) (typeName : ν → Text) (depth : Nat) :
    Assembler.truncation ⟨more, placeholder⟩ typeName depth stop =
      Assembler.truncation ⟨limit, placeholder⟩ typeName depth stop := by
  cases stop with
  | ended => rfl
  | revisited node => rfl
  | full => exact absurd rfl unfilled

variable [DecidableEq ν]

theorem walk_take (graph : CauseGraph ν) (start : ν) {limit more : Nat} (le : limit ≤ more) :
    (graph.walk limit start).nodes = (graph.walk more start).nodes.take (limit + 1) := by
  obtain ⟨rest, follows, walk⟩ := graph.exists_follows more start
  obtain ⟨stop, fewer⟩ := follows.take le
  rw [walk, walk_of_follows fewer, List.take_succ_cons]

theorem walk_of_not_full {graph : CauseGraph ν} {start : ν} {limit more : Nat}
    (unfilled : (graph.walk limit start).stop ≠ .full) (le : limit ≤ more) :
    graph.walk more start = graph.walk limit start := by
  obtain ⟨rest, follows, walk⟩ := graph.exists_follows limit start
  rw [walk] at unfilled
  rw [walk, walk_of_follows (follows.enlarge unfilled le)]

theorem mem_reachable_of_mem_walk {graph : CauseGraph ν} {limit : Nat} {start node : ν}
    (kept : node ∈ (graph.walk limit start).nodes) : node ∈ graph.reachable start := by
  obtain ⟨n, inside, rfl⟩ := List.getElem_of_mem kept
  exact ⟨n, graph.ancestor_eq_getElem limit start inside⟩

-- A full walk has left one more node that it had not met.
theorem lt_encard_reachable {graph : CauseGraph ν} {limit : Nat} {start : ν}
    (full : (graph.walk limit start).stop = .full) :
    (limit + 1 : ℕ∞) < (graph.reachable start).encard := by
  have stopped := graph.walk_stopped limit start
  rw [full] at stopped
  obtain ⟨length, next, cause, new⟩ := stopped
  have distinct : (next :: (graph.walk limit start).nodes).Nodup :=
    List.nodup_cons.mpr ⟨fun old => new (List.mem_reverse.mpr old), graph.walk_nodup limit start⟩
  have inside : (↑(next :: (graph.walk limit start).nodes).toFinset : Set ν) ⊆
      graph.reachable start := by
    intro node member
    rcases List.mem_cons.mp (List.mem_toFinset.mp member) with rfl | kept
    · exact ⟨_, (graph.ancestor_length limit start).trans cause⟩
    · exact mem_reachable_of_mem_walk kept
  have counted := Set.encard_le_encard inside
  rw [Set.encard_coe_eq_coe_finsetCard, List.toFinset_card_of_nodup distinct, List.length_cons,
    length] at counted
  refine lt_of_lt_of_le ?_ counted
  exact_mod_cast Nat.lt_succ_self (limit + 1)

theorem assemble_of_not_full {graph : CauseGraph ν} {start : ν} {limit more : Nat}
    (unfilled : (graph.walk limit start).stop ≠ .full) (le : limit ≤ more)
    (placeholder : Text) :
    graph.assemble ⟨more, placeholder⟩ start = graph.assemble ⟨limit, placeholder⟩ start := by
  rw [assemble_eq, assemble_eq]
  simp only [walk_of_not_full unfilled le]
  rw [truncation_of_not_full unfilled limit more]
  rfl

/-- A smaller limit keeps the first entries of the chain. With room for all nodes that can be
reached, a larger limit changes neither the trace nor the events. -/
theorem assemble_limits (graph : CauseGraph ν) (start : ν) (placeholder : Text)
    {limit more : Nat} (le : limit ≤ more) :
    (graph.assemble ⟨limit, placeholder⟩ start).1.chain =
      (graph.assemble ⟨more, placeholder⟩ start).1.chain.take (limit + 1) ∧
    ((graph.reachable start).encard ≤ limit + 1 →
      graph.assemble ⟨more, placeholder⟩ start = graph.assemble ⟨limit, placeholder⟩ start) := by
  constructor
  · rw [chain_assemble, chain_assemble, graph.walk_take start le, List.map_take]
    rfl
  · intro room
    refine assemble_of_not_full ?_ le placeholder
    intro full
    exact absurd (lt_encard_reachable full) (not_lt_of_ge room)

theorem limits_of_cycle :
    let graph : CauseGraph Bool := ⟨fun _ => ⟨"E", none, none, []⟩, fun node => some !node⟩
    (1 ≤ 9 ∧ (graph.reachable true).encard ≤ (1 : ℕ) + 1) ∧
      (graph.assemble ⟨1, "-"⟩ true).1.chain =
        (graph.assemble ⟨9, "-"⟩ true).1.chain.take 2 ∧
      graph.assemble ⟨9, "-"⟩ true = graph.assemble ⟨1, "-"⟩ true := by
  intro graph
  have le : 1 ≤ 9 := by decide
  have room : (graph.reachable true).encard ≤ (1 : ℕ) + 1 :=
    (Set.encard_le_encard (Set.subset_univ _)).trans
      (by rw [← Finset.coe_univ, Set.encard_coe_eq_coe_finsetCard]; rfl)
  obtain ⟨chain, same⟩ := graph.assemble_limits true "-" le
  exact ⟨⟨le, room⟩, chain, same room⟩

theorem walk_of_cause {graph : CauseGraph ν} {node cause : ν}
    (found : graph.cause node = some cause) (limit : Nat) :
    (graph.walk (limit + 1) node).nodes =
      node :: (graph.walk limit cause).nodes.takeWhile (· ≠ node) := by
  obtain ⟨rest, follows, walk⟩ := graph.exists_follows limit cause
  rw [walk]
  by_cases same : cause = node
  · rw [List.takeWhile_cons_of_neg (by simp [same]),
      walk_of_follows (.revisited _ _ _ cause found (by simp [same]))]
  · obtain ⟨stop, further⟩ := follows.takeWhile node
    rw [List.takeWhile_cons_of_pos (by simp [same]),
      walk_of_follows (.taken _ _ _ cause _ found (by simp [same]) further)]

theorem takeWhile_walk_of_not_reachable {graph : CauseGraph ν} {node cause : ν}
    (apart : node ∉ graph.reachable cause) (limit : Nat) :
    (graph.walk limit cause).nodes.takeWhile (· ≠ node) = (graph.walk limit cause).nodes := by
  rw [List.takeWhile_eq_self_iff]
  intro other kept
  rw [decide_eq_true_iff]
  rintro rfl
  exact apart (mem_reachable_of_mem_walk kept)

/-- A walk agrees with its recursive reading: the node, then what the walk from its cause keeps
with one less to take, cut before the node comes again. When it never does, the trace of the
cause is the cause of the trace. -/
theorem assemble_of_cause {graph : CauseGraph ν} {node cause : ν}
    (found : graph.cause node = some cause) (limit : Nat) :
    (graph.walk (limit + 1) node).nodes =
      node :: (graph.walk limit cause).nodes.takeWhile (· ≠ node) ∧
    (node ∉ graph.reachable cause → ∀ placeholder,
      (graph.assemble ⟨limit + 1, placeholder⟩ node).1.cause? =
        some (graph.assemble ⟨limit, placeholder⟩ cause).1) := by
  refine ⟨walk_of_cause found limit, ?_⟩
  intro apart placeholder
  rw [Trace.cause?_eq_some_iff, causes_assemble, chain_assemble, walk_of_cause found limit,
    takeWhile_walk_of_not_reachable apart]
  rfl

-- The first node leads into a cycle that does not lead back to it.
theorem cause_of_lasso :
    let graph : CauseGraph (Fin 3) :=
      ⟨fun _ => ⟨"E", none, none, []⟩, fun node => if node = 1 then some 2 else some 1⟩
    (graph.cause 0 = some 1 ∧ 0 ∉ graph.reachable 1) ∧
      (graph.walk 5 0).nodes = 0 :: (graph.walk 4 1).nodes.takeWhile (· ≠ 0) ∧
      (graph.assemble ⟨5, "-"⟩ 0).1.cause? = some (graph.assemble ⟨4, "-"⟩ 1).1 := by
  intro graph
  have found : graph.cause 0 = some 1 := rfl
  have apart : 0 ∉ graph.reachable 1 := by
    have closed : graph.reachable 1 ⊆ {node | node ≠ 0} :=
      reachable_subset (by decide) (by decide)
    exact fun back => closed back rfl
  obtain ⟨nodes, trace⟩ := assemble_of_cause found 4
  exact ⟨⟨found, apart⟩, nodes, trace apart "-"⟩

end LegibleTrace.CauseGraph
