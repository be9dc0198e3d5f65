import LegibleTrace.Failure
import LegibleTrace.Log.Event
import LegibleTrace.Text.Quoted

/-! Dotted names whose segments all keep the rules. A name is read from a text or built from
segments; both refuse at the first bad segment. -/
namespace LegibleTrace

structure QualifiedName where
  segments : List Text
  nonempty : segments ≠ []
  sound : ∀ segment ∈ segments, QualifiedName.fault? segment = none

namespace QualifiedName

def text (name : QualifiedName) : Text :=
  Text.join "." name.segments

def className (name : QualifiedName) : Text :=
  name.segments.getLast name.nonempty

def packageName (name : QualifiedName) : Text :=
  Text.join "." name.segments.dropLast

inductive BuildError
  | noSegments
  | invalid (segment : Text) (fault : Fault)
deriving DecidableEq

def BuildError.message : BuildError → Text
  | noSegments => "ValidatedName needs at least one segment"
  | invalid segment fault =>
    "Invalid segment " ++ Text.quoted segment ++ ": " ++ fault.describe

def ofSegments (segments : List Text) : Except BuildError QualifiedName :=
  if nonempty : segments = [] then .error .noSegments
  else match first : firstFault? segments with
    | some (segment, fault) => .error (.invalid segment fault)
    | none => .ok ⟨segments, nonempty, firstFault?_eq_none_iff.1 first⟩

def isValid (name : Text) : Bool :=
  (Text.split '.' name).all fun segment => (fault? segment).isNone

/-- Reads a dotted name. A rejected name is reported once, by its first bad segment. -/
def validate (name : Text) : Except Failure QualifiedName × List Log.Event :=
  match first : firstFault? (Text.split '.' name) with
  | some (segment, fault) =>
    (.error (.invalidName name fault), [.nameRejected name segment fault.describe])
  | none =>
    (.ok ⟨Text.split '.' name, Text.split_ne_nil '.' name, firstFault?_eq_none_iff.1 first⟩, [])

end QualifiedName
end LegibleTrace
