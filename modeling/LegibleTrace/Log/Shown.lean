import LegibleTrace.Value
import LegibleTrace.Text.Quoted

/-! Values in words. -/
namespace LegibleTrace.Log

mutual

def shown : Value → Text
  | .null => "None"
  | .bool value => if value then "True" else "False"
  | .int value => Text.ofInt value
  | .number value => value.text
  | .text value => Text.quoted value
  | .bytes content => Text.quotedBytes content
  | .timestamp written => written
  | .list items => "[" ++ Text.join ", " (shownItems items) ++ "]"
  | .tuple [item] => "(" ++ shown item ++ ",)"
  | .tuple items => "(" ++ Text.join ", " (shownItems items) ++ ")"
  | .set [] => "set()"
  | .set items => ['\x7b'] ++ Text.join ", " (shownItems items) ++ ['\x7d']
  | .mapping entries => ['\x7b'] ++ Text.join ", " (shownEntries entries) ++ ['\x7d']

def shownItems : List Value → List Text
  | [] => []
  | item :: items => shown item :: shownItems items

def shownEntries : List (Value × Value) → List Text
  | [] => []
  | entry :: entries => shownEntry entry :: shownEntries entries

def shownEntry : Value × Value → Text
  | (key, value) => shown key ++ ": " ++ shown value

end

/-- A text as it is, and any other value in words. -/
def plain : Value → Text
  | .text text => text
  | value => shown value

end LegibleTrace.Log
