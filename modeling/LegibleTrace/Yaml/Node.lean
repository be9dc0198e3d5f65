import LegibleTrace.Yaml.Kind

/-! Nodes of a document, as they are written. A document is written out before the first of its
scalars gets a value, and then collections are filled level by level. -/
namespace LegibleTrace.Yaml

inductive Node
  | plain (written : Text)
  | quoted (content : Text)
  | list (items : List Node)
  | mapping (entries : List (Node × Node))

namespace Node

/-- Where nothing is written, there is an empty scalar. -/
def empty : Node := plain []

def isScalar : Node → Bool
  | plain _ | quoted _ => true
  | list _ | mapping _ => false

/-- Puts an entry in front of those that follow it, which win. -/
def addEntry (key value : Value) (entries : List (Value × Value)) : List (Value × Value) :=
  match key.text? with
  | none => (key, value) :: entries
  | some name =>
    match entries.find? (fun entry => entry.1.text? = some name) with
    | none => (key, value) :: entries
    | some entry =>
      (key, entry.2) :: entries.filter fun entry => entry.1.text? ≠ some name

mutual

/-- The value of a node. A scalar with a fault stands for nothing. -/
def value : Node → Value
  | plain written => (plainValue written).toOption.getD .null
  | quoted content => .text content
  | list items => .list (values items)
  | mapping entries => .mapping (entryValues entries)

def values : List Node → List Value
  | [] => []
  | item :: items => item.value :: values items

def entryValues : List (Node × Node) → List (Value × Value)
  | [] => []
  | entry :: entries =>
    let (key, value) := entryValue entry
    addEntry key value (entryValues entries)

def entryValue : Node × Node → Value × Value
  | (key, value) => (key.value, value.value)

end

mutual

/-- The faults of the scalars in a node in their order, each with its depth. -/
def faults (depth : Nat) : Node → List (Nat × Fault)
  | plain written =>
    match plainValue written with
    | .ok _ => []
    | .error fault => [(depth, fault)]
  | quoted _ => []
  | list items => itemFaults (depth + 1) items
  | mapping entries => entryFaults (depth + 1) entries

def itemFaults (depth : Nat) : List Node → List (Nat × Fault)
  | [] => []
  | item :: items => item.faults depth ++ itemFaults depth items

def entryFaults (depth : Nat) : List (Node × Node) → List (Nat × Fault)
  | [] => []
  | entry :: entries => pairFaults depth entry ++ entryFaults depth entries

def pairFaults (depth : Nat) : Node × Node → List (Nat × Fault)
  | (key, value) => key.faults depth ++ value.faults depth

end

/-- The value of a node, or the fault that is met first: the first one on the highest level. -/
def construct (node : Node) : Except Fault Value :=
  match (node.faults 0).mergeSort (fun a b => a.1 ≤ b.1) with
  | [] => .ok node.value
  | (_, fault) :: _ => .error fault

end Node
end LegibleTrace.Yaml
