import LegibleTrace.Log.Library
import LegibleTrace.Log.Shown

/-! Lines of a log. What an entry holds becomes a line of named fields or lines for the eye. -/
namespace LegibleTrace.Log

/-- A key that can be written as the name of a field. -/
def isNaming : Value → Bool
  | .null | .bool _ | .int _ | .number _ | .text _ => true
  | .bytes _ | .timestamp _ | .list _ | .tuple _ | .set _ | .mapping _ => false

mutual

/-- The keys of all mappings in a value can be written as names. A set is written in words. -/
def isNamed : Value → Bool
  | .list items | .tuple items => areNamed items
  | .mapping entries => areNamedEntries entries
  | _ => true

def areNamed : List Value → Bool
  | [] => true
  | item :: items => isNamed item && areNamed items

def areNamedEntries : List (Value × Value) → Bool
  | [] => true
  | (key, value) :: entries => isNaming key && isNamed value && areNamedEntries entries

end

/-- Characters for which a text is quoted in a line. -/
def quotedFor : Text := [' ', '\t', '=', '\r', '\n', '"', '\'']

def shownField : Value → Text
  | .text text => if text.any (· ∈ quotedFor) then Text.quoted text else text
  | value => shown value

def levelWidth : Nat := 9
def eventWidth : Nat := 30
def ruleWidth : Nat := 79

def bracketed (text : Text) : Text :=
  "[" ++ text ++ "]"

/-- The columns of a line for the eye. One without a text leaves no gap. -/
def columns (fields : Fields) : List Text :=
  List.filter (· ≠ []) (List.filterMap id
    [ column? "timestamp" id,
      column? "level" fun level => bracketed (Text.padRight levelWidth level),
      column? "event" (Text.padRight eventWidth),
      column? "logger" bracketed,
      column? "logger_name" bracketed ])
where
  column? (name : Text) (lay : Text → Text) : Option Text :=
    (fields.lookup name).map fun value => lay (plain value)

/-- What is written below a line, where only a text can stand. -/
def below? : Option Value → Option (Option Text)
  | none | some .null => some none
  | some (.text text) => some (some text)
  | some _ => none

def placed : List Text :=
  List.map String.toList ["timestamp", "level", "event", "logger", "logger_name"]
    ++ [stackName, exceptionName]

/-- The lines for the eye: the columns, then the fields by name, and below them the calls and the
exception, with a rule between the two. -/
def consoleText? (fields : Fields) : Option Text := do
  let stack ← below? (fields.lookup stackName)
  let exception ← below? (fields.lookup exceptionName)
  let others := fields.filter (·.1 ∉ placed)
  let named := (others.mergeSort fun a b => Text.isAtMost a.1 b.1).map fun (name, value) =>
    name ++ '=' :: shownField value
  let rule := if stack.isSome && exception.isSome
    then "\n\n" ++ List.replicate ruleWidth '=' ++ "\n" else []
  return Text.join " " (columns fields ++ named) ++ stack.elim [] ('\n' :: ·) ++ rule
    ++ exception.elim [] ('\n' :: ·)

def lines? (format : Format) (fields : Fields) : Option (List Line) :=
  match format with
  | .json => if fields.all fun field => isNamed field.2 then some [.fields fields] else none
  | .console => (consoleText? fields).map fun text => (Text.split '\n' text).map Line.text

end LegibleTrace.Log
