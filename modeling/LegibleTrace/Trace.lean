import LegibleTrace.Frame
import LegibleTrace.Message

/-! A displayed exception with its causes, outermost first. The frames of an entry run from
the throw site outward. -/
namespace LegibleTrace

structure Entry where
  component : Text
  className : Text
  message : Message
  frames : List Frame
deriving DecidableEq

structure Trace where
  top : Entry
  causes : List Entry
deriving DecidableEq

namespace Entry

def fullClassName (entry : Entry) : Text :=
  if entry.component = [] then entry.className
  else entry.component ++ "." ++ entry.className

def signature (entry : Entry) : Text :=
  entry.className ++ ": " ++ entry.message.text

end Entry

namespace Trace

def chain (trace : Trace) : List Entry :=
  trace.top :: trace.causes

def cause? (trace : Trace) : Option Trace :=
  match trace.causes with
  | [] => none
  | top :: causes => some ⟨top, causes⟩

theorem cause?_eq_some_iff {trace rest : Trace} :
    trace.cause? = some rest ↔ trace.causes = rest.chain := by
  cases rest
  cases causes : trace.causes <;> simp [cause?, chain, causes]

structure NoFrames where

def NoFrames.message (_ : NoFrames) : Text := "Stack trace has no frames"

def innermost (trace : Trace) : Except NoFrames Frame :=
  match trace.top.frames with
  | [] => .error ⟨⟩
  | frame :: _ => .ok frame

end Trace
end LegibleTrace
