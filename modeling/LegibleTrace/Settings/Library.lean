import LegibleTrace.Environment
import LegibleTrace.Settings.Schema
import LegibleTrace.Value

/-! The library that checks settings, as far as it is called. How it finds values in the
environment, puts them together and reads them is left open. -/
namespace LegibleTrace.Settings

/-- Why a stage gives no result: it refuses what it was given, or breaks off on its own. -/
inductive StageFault (φ ε : Type)
  | refused (fault : φ)
  | brokenOff (error : ε)
deriving DecidableEq

/-- What is wrong with settings, also in words. -/
structure Refusal where
  faults : List Fault
  text : Text
deriving DecidableEq

/-- A way to check the entries of a document. -/
abbrev Checker (ε : Type) :=
  List (Value × Value) → Environment → Except (StageFault Refusal ε) Settings

/-- A check with its parts: the sections that the environment gives, if all of them can be read,
fields put over others, the reading of a value, and the names that are options of the check and
no settings. -/
structure Library (ε : Type) where
  check : Checker ε
  variables? : Environment → Option Fields
  merge : Fields → Fields → Fields
  read : (setting : Setting) → Value → Except FaultKind setting.Kind
  options : List Text

/-- What a setting is read as if this value is chosen for it; without one it is the standard. -/
def Library.outcome (library : Library ε) (setting : Setting) (chosen : Option Value) :
    Except FaultKind setting.Kind :=
  chosen.elim (.ok (setting.ofSettings .standard)) (library.read setting)

end LegibleTrace.Settings
