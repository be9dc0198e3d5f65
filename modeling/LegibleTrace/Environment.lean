import LegibleTrace.Failure

/-! Texts with references to variables. A reference is a dollar sign and a name in braces; the
name is not empty and runs to the first closing brace. Values are put in as they are and never
searched again. -/
namespace LegibleTrace

/-- The variables that are set, each once. -/
abbrev Environment := List (Text × Text)

namespace Environment

def value? (environment : Environment) (name : Text) : Option Text :=
  environment.lookup name

inductive Part
  | literal (char : Char)
  | reference (name : Text)
deriving DecidableEq

def Part.source : Part → Text
  | literal c => [c]
  | reference name => ['$', '\x7b'] ++ name ++ ['\x7d']

/-- The reference with which a text begins. -/
def reference? : Text → Option Text
  | '$' :: '\x7b' :: rest =>
    match rest.takeWhile (· != '\x7d'), rest.dropWhile (· != '\x7d') with
    | c :: name, _ :: _ => some (c :: name)
    | _, _ => none
  | _ => none

def Part.next (c : Char) (rest : Text) : Part :=
  match reference? (c :: rest) with
  | some name => reference name
  | none => literal c

def parts : Text → List Part
  | [] => []
  | c :: rest =>
    let part := Part.next c rest
    part :: parts (rest.drop (part.source.length - 1))
termination_by text => text.length
decreasing_by simp only [List.length_cons, List.length_drop]; omega

structure Unset where
  name : Text
deriving DecidableEq

def Unset.failure (fault : Unset) : Failure :=
  .config (Message.of ("Environment variable " ++ fault.name ++ " not found"))

def fill (environment : Environment) : Part → Except Unset Text
  | .literal c => .ok [c]
  | .reference name => (environment.value? name).elim (.error ⟨name⟩) .ok

def substitute (environment : Environment) (text : Text) : Except Unset Text :=
  ((parts text).mapM environment.fill).map List.flatten

end Environment
end LegibleTrace
