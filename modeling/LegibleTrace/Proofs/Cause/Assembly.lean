import LegibleTrace.Proofs.Cause.Simulation

/-! The trace assembled from a cause graph. Its chain shows the nodes that the walk takes, each
from its own throwable; the looks for a cause are as many as the nodes kept, so assembly ends
on every graph. -/
namespace LegibleTrace

/-- The entry shows this throwable and nothing of any other. -/
structure Entry.Shows (assembler : Assembler) (throwable : Throwable) (entry : Entry) :
    Prop where
  name : (entry.component, entry.className) =
    Text.splitLast '.' (Mangled.display .className throwable.typeName)
  structured (message) (given : throwable.structured = some message) : entry.message = message
  text (given : throwable.structured = none) :
    entry.message = Message.of (throwable.message.getD [])
  frames : entry.frames = throwable.frames.map (Frame.ofRaw assembler.placeholder)

theorem Assembler.shows_entry (assembler : Assembler) (throwable : Throwable) :
    (assembler.entry throwable).Shows assembler throwable where
  name := rfl
  structured message given := by rw [entry, given, Option.getD_some]
  text given := by rw [entry, given, Option.getD_none]
  frames := rfl

namespace CauseGraph

variable {ν : Type}

def countedCause (graph : CauseGraph ν) (node : ν) : StateM Nat (Option ν) := do
  modify (· + 1)
  return graph.cause node

theorem countedCause_run (graph : CauseGraph ν) (node : ν) (looks : Nat) :
    (graph.countedCause node).run looks = (graph.cause node, looks + 1) :=
  rfl

-- Ahead of a look there was one for each node taken but the last, and behind it for each.
theorem simulates_countedCause (graph : CauseGraph ν) :
    Cause.Simulates graph id graph.countedCause
      (fun looks taken => looks + 1 = taken.length) (fun looks taken => looks = taken.length) where
  answer _ := by
    rw [countedCause_run]
    exact Option.map_id_apply
  after before := before
  known _ _ old := by simpa using old
  next before _ _ := congrArg Nat.succ before

variable [DecidableEq ν]

theorem chain_assemble (assembler : Assembler) (graph : CauseGraph ν) (start : ν) :
    (graph.assemble assembler start).1.chain =
      (graph.walk assembler.limit start).nodes.map fun node =>
        assembler.entry (graph.throwable node) := by
  obtain ⟨rest, _, walk⟩ := graph.exists_follows assembler.limit start
  rw [assemble_eq, walk]
  simp [Assembler.trace, Trace.chain]

theorem causes_assemble (assembler : Assembler) (graph : CauseGraph ν) (start : ν) :
    (graph.assemble assembler start).1.causes =
      (graph.walk assembler.limit start).nodes.tail.map fun node =>
        assembler.entry (graph.throwable node) := by
  rw [List.map_tail, ← graph.chain_assemble]
  rfl

theorem assembleWith_countedCause (assembler : Assembler) (graph : CauseGraph ν) (start : ν) :
    (assembler.assembleWith graph.throwable graph.countedCause start).run 0 =
      (graph.assemble assembler start, (graph.walk assembler.limit start).nodes.length) := by
  have none : 0 + 1 = [start].length := rfl
  obtain ⟨nodes, looks, run, same, count⟩ :=
    graph.simulates_countedCause.assemble assembler none
  rw [List.map_id, id] at same
  rw [List.length_reverse] at count
  rw [← same, ← count]
  exact run

/-- The chain shows the start and its causes in order, each once and from its own throwable, up
to the first index at which the walk has to halt: no cause is left, the cause was taken before,
or the limit is reached. As many looks for a cause are made as nodes are shown. -/
theorem assemble_shows_ancestors (assembler : Assembler) (graph : CauseGraph ν) (start : ν) :
    ∃ nodes : List ν, graph.Takes assembler.limit start nodes ∧
      List.Forall₂ (fun node entry => entry.Shows assembler (graph.throwable node)) nodes
        (graph.assemble assembler start).1.chain ∧
      (assembler.assembleWith graph.throwable graph.countedCause start).run 0 =
        (graph.assemble assembler start, nodes.length) := by
  refine ⟨(graph.walk assembler.limit start).nodes, graph.takes_walk _ _, ?_,
    graph.assembleWith_countedCause _ _⟩
  rw [chain_assemble, List.forall₂_map_right_iff, List.forall₂_same]
  intro node _
  exact assembler.shows_entry (graph.throwable node)

end CauseGraph
end LegibleTrace
