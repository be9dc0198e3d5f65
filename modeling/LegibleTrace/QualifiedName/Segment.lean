import LegibleTrace.Text

/-! The rules for one segment of a dotted name. They are tried in order and the first that
fails is reported. -/
namespace LegibleTrace.QualifiedName

inductive Fault
  | empty
  | reserved (word : Text)
  | badChar (char : Text)
  | badStart (char : Text)
deriving DecidableEq

def Fault.describe : Fault → Text
  | empty => "a package name cannot be empty"
  | reserved word => "a package name cannot be the Java keyword, " ++ word
  | badChar char => "a package name may not contain the character " ++ char
  | badStart char => "a package name may not start with the character " ++ char

def nameChars : Text :=
  "0123456789ABCDEFGHIJKLMNOPQRSTUVWXYZ_abcdefghijklmnopqrstuvwxyz"

def reservedWords : List Text :=
  List.map String.toList
    ["abstract", "assert", "boolean", "break", "byte", "case", "catch", "char", "class",
     "const", "continue", "default", "do", "double", "else", "enum", "extends", "false",
     "final", "finally", "float", "for", "goto", "if", "implements", "import", "instanceof",
     "int", "interface", "long", "native", "new", "null", "package", "private", "protected",
     "public", "return", "short", "static", "strictfp", "super", "switch", "synchronized",
     "this", "throw", "throws", "transient", "true", "try", "void", "volatile", "while"]

def fault? (segment : Text) : Option Fault :=
  match segment with
  | [] => some .empty
  | first :: _ =>
    if segment ∈ reservedWords then some (.reserved segment)
    else match segment.find? (· ∉ nameChars) with
      | some c => some (.badChar [c])
      | none => if first.isDigit then some (.badStart [first]) else none

/-- The first segment that breaks a rule, and how. -/
def firstFault? (segments : List Text) : Option (Text × Fault) :=
  segments.findSome? fun segment => (fault? segment).map (segment, ·)

theorem firstFault?_eq_none_iff {segments : List Text} :
    firstFault? segments = none ↔ ∀ segment ∈ segments, fault? segment = none := by
  simp [firstFault?]

end LegibleTrace.QualifiedName
