import LegibleTrace.Environment
import LegibleTrace.Json
import LegibleTrace.Settings.Merge
import LegibleTrace.Text.LetterCase

/-! Settings given by environment variables. A variable named for a section holds the section
in JSON; a variable named for a field, with the names on its way joined by doubled low lines,
holds that field as a text and wins over the section. Names and keys are read without regard
to case. -/
namespace LegibleTrace.Settings

/-- The variables by lowercase name, the last of each. -/
def lowerNames (environment : Environment) : Environment :=
  environment.foldl (fun named (name, content) =>
    let name := Text.lower name
    if named.any (·.1 = name) then
      named.map fun entry => if entry.1 = name then (name, content) else entry
    else named ++ [(name, content)]) []

def sectionName (area : Text) : Text := "stackglyph_" ++ area

/-- The parts of a name between doubled low lines. -/
def namePath : Text → List Text
  | '_' :: '_' :: rest => [] :: namePath rest
  | c :: rest => (namePath rest).modifyHead (c :: ·)
  | [] => [[]]

/-- Puts a value at the end of a path of keys. What is no mapping on the way stays. -/
def assign (value : Value) : List Text → Fields → Fields
  | [], fields => fields
  | [key], fields => fields.set key value
  | key :: keys, fields =>
    match fields.lookup key with
    | none => fields.set key (asMapping (assign value keys []))
    | some (.mapping entries) =>
      fields.set key (asMapping (assign value keys (Value.mapping entries).fields))
    | some _ => fields

/-- Keys in lower case down to a depth, the last of each. -/
def lowerKeys : Nat → Value → Value
  | depth + 1, .mapping entries =>
    asMapping ((Value.mapping entries).fields.foldl (fun fields (key, value) =>
      fields.set (Text.lower key) (lowerKeys depth value)) [])
  | _, value => value

/-- The value of a variable for a field. A section inside the section is read as JSON. -/
def fieldValue? (nested : List Text) (keys : List Text) (content : Text) : Option Value :=
  if keys ∈ nested.map ([·]) ∧ content ≠ [] then Json.read? content else some (.text content)

/-- The fields of a section that have variables of their own. Nothing is given if the JSON of
one cannot be read. -/
def fieldVariables? (nested : List Text) (named : Environment) (area : Text) :
    Option Fields :=
  named.foldlM (fun fields (name, content) =>
    match Text.after? (sectionName area ++ "__") name with
    | none => some fields
    | some rest =>
      let keys := namePath rest
      (fieldValue? nested keys content).map fun value => assign value keys fields) []

/-- What the environment gives for a section, if it gives something. A null section counts as
not given. -/
def sectionVariables? (nested : List Text) (named : Environment) (area : Text) :
    Option (Option Value) := do
  match named.value? (sectionName area) with
  | none =>
    let fields := lowerKeys 2 (asMapping (← fieldVariables? nested named area))
    return if fields.fields = [] then none else some fields
  | some content =>
    match lowerKeys 2 (← Json.read? content) with
    | .null => return none
    | .mapping entries =>
      let fields := lowerKeys 2 (asMapping (← fieldVariables? nested named area))
      return some (laidOver (some (.mapping entries)) fields)
    | value => return some value

/-- A section under its name, if it is there. -/
def sectionFields (area : Text) (held : Option Value) : Fields :=
  held.toList.map (area, ·)

/-- The sections that the environment gives. -/
def variables? (environment : Environment) : Option Fields := do
  let named := lowerNames environment
  let trace ← sectionVariables? [] named "trace"
  let logging ← sectionVariables? ["file"] named "logging"
  return sectionFields "trace" trace ++ sectionFields "logging" logging

end LegibleTrace.Settings
