import LegibleTrace.Value

/-! Fields over other fields. A field that both have is the first one, unless both are mappings,
which are put together in the same way. -/
namespace LegibleTrace.Settings

def asMapping (fields : Fields) : Value :=
  .mapping fields.entries

mutual

/-- A value over what lies below it. -/
def laidOver (below : Option Value) : Value → Value
  | .mapping entries =>
    match below with
    | some (.mapping others) =>
      let below := (Value.mapping others).fields
      asMapping (overEntries below entries ++
        below.filter fun field => ((Value.mapping entries).fields.lookup field.1).isNone)
    | _ => .mapping entries
  | value => value

def overEntries (below : Fields) : List (Value × Value) → Fields
  | [] => []
  | entry :: entries => overEntry below entry ++ overEntries below entries

def overEntry (below : Fields) : Value × Value → Fields
  | (.text key, value) => [(key, laidOver (below.lookup key) value)]
  | _ => []

end

def merge (fields below : Fields) : Fields :=
  overEntries below fields.entries ++
    below.filter fun field => (fields.lookup field.1).isNone

end LegibleTrace.Settings
