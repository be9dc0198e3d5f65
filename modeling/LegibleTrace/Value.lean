import LegibleTrace.Text
import LegibleTrace.Number.Binary64

/-! Values whose kind is known only when they are read: settings, documents and the fields of
log lines. A mapping keeps its entries in the order of their first keys. -/
namespace LegibleTrace

inductive Value
  | null
  | bool (value : Bool)
  | int (value : Int)
  | number (value : Binary64)
  | text (value : Text)
  | bytes (content : List UInt8)
  | timestamp (written : Text)
  | list (items : List Value)
  | tuple (items : List Value)
  | set (items : List Value)
  | mapping (entries : List (Value × Value))

namespace Value

def text? : Value → Option Text
  | text value => some value
  | _ => none

/-- The keys that are texts, with their values. -/
def fields : Value → List (Text × Value)
  | mapping entries => entries.filterMap fun (key, value) => key.text?.map (·, value)
  | _ => []

def isNull : Value → Bool
  | null => true
  | _ => false

def isMapping : Value → Bool
  | mapping _ => true
  | _ => false

/-- The empty and zero values, which stand for a document without settings. -/
def isVacant : Value → Bool
  | null => true
  | bool value => !value
  | int value => value == 0
  | number value => value.isZero
  | text value => value.isEmpty
  | bytes content => content.isEmpty
  | timestamp _ => false
  | list items | tuple items | set items => items.isEmpty
  | mapping entries => entries.isEmpty

/-- The value at the end of a path of keys. -/
def reach? : List Text → Value → Option Value
  | [], value => some value
  | key :: keys, value => (value.fields.lookup key).bind (reach? keys)

end Value

/-- Named values. A name occurs once, at the place where it was first set. -/
abbrev Fields := List (Text × Value)

namespace Fields

/-- The value at the end of a path of keys, of which there is one at least. -/
def reach? : List Text → Fields → Option Value
  | [], _ => none
  | key :: keys, fields => (fields.lookup key).bind (Value.reach? keys)

def entries (fields : Fields) : List (Value × Value) :=
  fields.map fun (key, value) => (.text key, value)

def set (name : Text) (value : Value) : Fields → Fields
  | [] => [(name, value)]
  | (other, old) :: fields =>
    if other = name then (name, value) :: fields else (other, old) :: set name value fields

def erase (name : Text) (fields : Fields) : Fields :=
  fields.filter (·.1 != name)

/-- Sets every field of `changes` in order. -/
def override (fields changes : Fields) : Fields :=
  changes.foldl (fun fields (name, value) => fields.set name value) fields

end Fields
end LegibleTrace
