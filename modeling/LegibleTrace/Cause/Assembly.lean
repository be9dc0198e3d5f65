import LegibleTrace.Cause.Walk
import LegibleTrace.Log.Event
import LegibleTrace.Trace

/-! Assembly of a trace from an exception and the chain of its causes. Every entry is made
from its own exception alone; a chain that was cut short is reported before the trace. -/
namespace LegibleTrace

/-- What a host tells about one exception. -/
structure Throwable where
  typeName : Text
  message : Option Text
  structured : Option Message
  frames : List RawFrame

structure Assembler where
  limit : Nat
  placeholder : Text
deriving DecidableEq

namespace Assembler

def standard : Assembler := ⟨64, Frame.noFile⟩

structure NegativeLimit where
  limit : Int

def NegativeLimit.message (fault : NegativeLimit) : Text :=
  "max_cause_depth must be >= 0, got " ++ Text.ofInt fault.limit

def make (limit : Int) (placeholder : Text) : Except NegativeLimit Assembler :=
  if limit < 0 then .error ⟨limit⟩ else .ok ⟨limit.toNat, placeholder⟩

/-- The part of the displayed type name after its last dot is the class. -/
def entry (assembler : Assembler) (throwable : Throwable) : Entry :=
  let (component, className) :=
    Text.splitLast '.' (Mangled.display .className throwable.typeName)
  { component, className,
    message := throwable.structured.getD (Message.of (throwable.message.getD []))
    frames := throwable.frames.map (Frame.ofRaw assembler.placeholder) }

/-- The warning for a chain that was cut after `depth` exceptions. -/
def truncation (assembler : Assembler) (typeName : ν → Text) (depth : Nat) :
    Cause.Stop ν → List Log.Event
  | .ended => []
  | .revisited node => [.causeCycle depth (typeName node)]
  | .full => [.causesTooDeep depth assembler.limit]

def trace (assembler : Assembler) (first : Throwable) (rest : List Throwable) : Trace :=
  ⟨assembler.entry first, rest.map assembler.entry⟩

def assembled (trace : Trace) : Log.Event :=
  .traceAssembled trace.top.className trace.top.frames.length trace.causes.length

/-- Assembly where looking for a cause may have an effect. -/
def assembleWith {ν : Type} {m : Type → Type} [DecidableEq ν] [Monad m]
    (assembler : Assembler) (throwable : ν → Throwable) (cause : ν → m (Option ν))
    (start : ν) : m (Trace × List Log.Event) := do
  let walk ← Cause.walk cause assembler.limit start
  let trace := assembler.trace (throwable start) (walk.nodes.tail.map throwable)
  return (trace,
    assembler.truncation (fun node => (throwable node).typeName) walk.nodes.length walk.stop
      ++ [assembled trace])

end Assembler

/-- Exceptions told apart by identity, each with at most one cause. -/
structure CauseGraph (ν : Type) where
  throwable : ν → Throwable
  cause : ν → Option ν

namespace CauseGraph

variable {ν : Type} [DecidableEq ν]

def walk (graph : CauseGraph ν) (limit : Nat) (start : ν) : Cause.Walk ν :=
  Id.run (Cause.walk (fun node => pure (graph.cause node)) limit start)

def assemble (assembler : Assembler) (graph : CauseGraph ν) (start : ν) :
    Trace × List Log.Event :=
  Id.run (assembler.assembleWith graph.throwable (fun node => pure (graph.cause node)) start)

end CauseGraph
end LegibleTrace
