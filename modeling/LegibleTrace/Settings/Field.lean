import LegibleTrace.Settings.Schema
import LegibleTrace.Text.Numeral
import LegibleTrace.Value

/-! Single settings read from values. A number may be written in several forms; words are
taken as they stand, but a switch ignores the case of its word. -/
namespace LegibleTrace.Settings

/-- The text that bytes spell. -/
def decoded? (content : List UInt8) : Option Text :=
  (String.fromUTF8? ⟨content.toArray⟩).map String.toList

/-- Digits with single low lines between them, without these. -/
def digitGroups? (text : Text) : Option Text :=
  let groups := Text.split '_' text
  if groups.all (fun group => group ≠ [] ∧ group.all Char.isDigit) then some groups.flatten
  else none

/-- A number in a text has at most so many digits behind its leading zeros. -/
def maxDigits : Nat := 4300

/-- A sign, digits and a fraction of zeros, in white space. -/
def integerOfText (text : Text) : Except FaultKind Int :=
  let (negative, body) : Bool × Text :=
    match Text.trim text with
    | '-' :: body => (true, body)
    | '+' :: body => (false, body)
    | body => (false, body)
  let (digits, rest) := body.span (· ≠ '.')
  match digitGroups? digits, rest.tail.all (· = '0') with
  | some digits, true =>
    let size : Int := Text.valueOf 10 digits
    if maxDigits < (digits.dropWhile (· = '0')).length then .error .longInteger
    else .ok (if negative then -size else size)
  | _, _ => .error .badInteger

def integer (value : Value) : Except FaultKind Int :=
  match value with
  | .int n => .ok n
  | .bool b => .ok (if b then 1 else 0)
  | .number x =>
    if x.isFinite then x.toInt?.elim (.error .hasFraction) .ok else .error .notFinite
  | .text t => integerOfText t
  | .bytes content => (decoded? content).elim (.error .badInteger) integerOfText
  | .null | .timestamp _ | .list _ | .tuple _ | .set _ | .mapping _ => .error .notInteger

def limit (value : Value) : Except FaultKind Int := do
  let n ← integer value
  if n < minLimit then .error .tooSmall
  else if maxLimit < n then .error .tooLarge
  else .ok n

def word (value : Value) : Except FaultKind Text :=
  match value with
  | .text t => .ok t
  | .bytes content => (decoded? content).elim (.error .notUnicode) .ok
  | _ => .error .notText

def placeholder (value : Value) : Except FaultKind Text := do
  (validatePlaceholder (← word value)).mapError fun _ => .unusable

def level (value : Value) : Except FaultKind Log.Level :=
  (value.text?.bind Log.Level.ofName?).elim (.error .notListed) .ok

def format (value : Value) : Except FaultKind Log.Format :=
  (value.text?.bind Log.Format.ofName?).elim (.error .notListed) .ok

def onWords : List Text := List.map String.toList ["1", "true", "t", "yes", "y", "on"]
def offWords : List Text := List.map String.toList ["0", "false", "f", "no", "n", "off"]

/-- One and zero are switches, and so are the words for them. -/
def switchOfInt (n : Int) : Except FaultKind Bool :=
  if n = 1 then .ok true else if n = 0 then .ok false else .error .badSwitch

def switchOfText (text : Text) : Except FaultKind Bool :=
  let word := text.map Char.toLower
  if word ∈ onWords then .ok true
  else if word ∈ offWords then .ok false
  else .error .badSwitch

def switch (value : Value) : Except FaultKind Bool :=
  match value with
  | .bool b => .ok b
  | .int n => switchOfInt n
  | .number x => x.toInt?.elim (.error .notSwitch) switchOfInt
  | .text t => switchOfText t
  | .bytes content => (decoded? content).elim (.error .badSwitch) switchOfText
  | .null | .timestamp _ | .list _ | .tuple _ | .set _ | .mapping _ => .error .notSwitch

def path (value : Value) : Except FaultKind Path :=
  match word value with
  | .ok t => .ok (Path.ofText t)
  | .error _ => .error .notPath

def readSetting : (setting : Setting) → Value → Except FaultKind setting.Kind
  | .maxCauseDepth => limit
  | .noFilePlaceholder => placeholder
  | .level => level
  | .format => format
  | .fileEnabled => switch
  | .filePath => path

end LegibleTrace.Settings
