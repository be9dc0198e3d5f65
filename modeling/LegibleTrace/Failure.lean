import LegibleTrace.Message
import LegibleTrace.QualifiedName.Segment

/-! The failures that the library itself reports. Each carries a structured message. -/
namespace LegibleTrace

inductive Failure
  | general (message : Message)
  | invalidName (name : Text) (fault : QualifiedName.Fault)
  | config (message : Message)
deriving DecidableEq

def Failure.message : Failure → Message
  | general message | config message => message
  | invalidName name fault =>
    ⟨"the class name ", [(name, " is not valid because "), (fault.describe, [])]⟩

end LegibleTrace
