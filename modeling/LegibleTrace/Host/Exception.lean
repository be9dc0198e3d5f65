import LegibleTrace.Cause.Assembly
import LegibleTrace.Failure

/-! Live exceptions of a host. An exception has an explicit cause, a context in which it was
raised, and a mark that hides the context. -/
namespace LegibleTrace.Host

/-- A call in a traceback, which lists the outermost call first. -/
structure Call where
  scope : Option Text
  qualifiedName : Text
  file : Text
  line : Int

/-- The module stands in for the class, and an empty file name for no file. -/
def Call.rawFrame (call : Call) : RawFrame where
  className := call.scope.getD []
  methodName := call.qualifiedName
  file := if call.file = [] then none else some call.file
  line := call.line
  native := false

/-- An exception has a text of its own or stands for a failure of this library. -/
inductive Content
  | foreign (text : Text)
  | failure (failure : Failure)

namespace Content

def text : Content → Text
  | foreign text => text
  | failure f => f.message.text

def structured : Content → Option Message
  | foreign _ => none
  | failure f => some f.message

end Content

/-- An exception is of a class, which has a qualified name in the module it is defined in. -/
structure Exception (ε : Type) where
  scope : Text
  qualifiedName : Text
  content : Content
  traceback : List Call
  cause : Option ε
  context : Option ε
  hidesContext : Bool

namespace Exception

def typeName (exception : Exception ε) : Text :=
  exception.scope ++ "." ++ exception.qualifiedName

def message? (exception : Exception ε) : Option Text :=
  if exception.content.text = [] then none else some exception.content.text

def throwable (exception : Exception ε) : Throwable where
  typeName := exception.typeName
  message := exception.message?
  structured := exception.content.structured
  frames := (exception.traceback.map Call.rawFrame).reverse

/-- The explicit cause, else the context if contexts are followed and it is not hidden. -/
def causeOf (followContext : Bool) (exception : Exception ε) : Option ε :=
  exception.cause <|>
    if followContext && !exception.hidesContext then exception.context else none

end Exception

abbrev Heap (ε : Type) := ε → Exception ε

def Heap.graph (heap : Heap ε) (followContext : Bool) : CauseGraph ε where
  throwable := fun exception => (heap exception).throwable
  cause := fun exception => (heap exception).causeOf followContext

end LegibleTrace.Host
