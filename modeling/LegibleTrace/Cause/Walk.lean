/-! The walk from a node along its causes. Nodes are told apart by identity only. The walk
ends with the causes, before a node already taken, or when there is no room left, and says
which. Looking for a cause may have an effect. -/
namespace LegibleTrace.Cause

inductive Stop (ν : Type u)
  | ended
  | revisited (node : ν)
  | full
deriving DecidableEq

structure Walk (ν : Type u) where
  nodes : List ν
  stop : Stop ν

variable {ν : Type} {m : Type → Type} [DecidableEq ν] [Monad m]

/-- The causes taken after `node`, at most `room` of them and none of `seen`. -/
def follow (cause : ν → m (Option ν)) : Nat → List ν → ν → m (Walk ν)
  | room, seen, node => do
    match ← cause node with
    | none => return ⟨[], .ended⟩
    | some next =>
      if next ∈ seen then return ⟨[], .revisited next⟩
      else match room with
        | 0 => return ⟨[], .full⟩
        | room + 1 =>
          let rest ← follow cause room (next :: seen) next
          return ⟨next :: rest.nodes, rest.stop⟩

/-- The node itself and at most `limit` causes. -/
def walk (cause : ν → m (Option ν)) (limit : Nat) (start : ν) : m (Walk ν) := do
  let rest ← follow cause limit [start] start
  return ⟨start :: rest.nodes, rest.stop⟩

end LegibleTrace.Cause
