import LegibleTrace.Log.Library
import LegibleTrace.Proofs.Value
import Mathlib.Logic.Function.Basic

/-! What is documented of a logging library: what calls change of its state, when it keeps the
processors of a first use, and what each processor makes of an entry. Where it breaks off, the
call that logs raises. -/
namespace LegibleTrace

def Fields.held (entry : Fields) (name : Text) : Option Value :=
  entry.lookup name

theorem Fields.held_set (entry : Fields) (name : Text) (value : Value) :
    (entry.set name value).held = Function.update entry.held name (some value) := by
  funext key
  by_cases same : key = name
  · rw [same, Function.update_self]
    exact lookup_set_self entry name value
  · rw [Function.update_of_ne same]
    exact lookup_set_of_ne (Ne.symm same)

theorem Fields.held_erase (entry : Fields) (name : Text) :
    (entry.erase name).held = Function.update entry.held name none := by
  funext key
  by_cases same : key = name
  · rw [same, Function.update_self]
    exact lookup_erase_self entry name
  · rw [Function.update_of_ne same]
    exact lookup_erase_of_ne same

namespace Log

/-- An entry goes on, with these values under distinct names. -/
def GoesOn (held : Text → Option Value) (outcome : Outcome) : Prop :=
  ∃ entry : Fields, outcome = .next entry ∧ entry.Distinct ∧ entry.held = held

/-- What a call gives under a name. Its event and its arguments go over fields of their names. -/
def Record.own (record : Record) (arguments : List Value) (name : Text) : Option Value :=
  if name = "event" then some (.text record.event)
  else if name = argumentsName ∧ arguments ≠ [] then some (.tuple arguments)
  else record.fields.given? name

/-- Held values with a question taken out. What is told goes over what stands under the name of
the answer. -/
def answering (question name : Text) (told : Option Text) (held : Text → Option Value) :
    Text → Option Value :=
  Function.update (Function.update held question none) name ((told.map .text).or (held name))

section

variable {question name key : Text} {told : Option Text} {held : Text → Option Value}

theorem answering_question (apart : question ≠ name) :
    answering question name told held question = none := by
  rw [answering, Function.update_of_ne apart, Function.update_self]

theorem answering_name :
    answering question name told held name = (told.map .text).or (held name) := by
  rw [answering, Function.update_self]

theorem answering_of_ne (other : key ≠ question) (apart : key ≠ name) :
    answering question name told held key = held key := by
  rw [answering, Function.update_of_ne apart, Function.update_of_ne other]

end

def stackTold (host : Host) (question : Option Value) : Option Text :=
  if asks question then some host.stack else none

/-- As many digits as the language writes of an integer. -/
def maxDigits : Nat := 4300

/-- Values that every renderer can write. -/
inductive Simple : Value → Prop
  | null : Simple .null
  | bool (value) : Simple (.bool value)
  | int (value) (short : value.natAbs < Nat.pow 10 maxDigits) : Simple (.int value)
  | number (value) : Simple (.number value)
  | text (value) : Simple (.text value)

/-- Nothing or a text, which is all that can be written below a line. -/
def Below (field : Option Value) : Prop :=
  ∀ value, field = some value → value = .null ∨ ∃ text, value = .text text

/-- Fields that can be written for sure. Lines for the eye need texts below them. -/
structure Fits (fields : Fields) (format : Format) : Prop where
  simple : ∀ field ∈ fields, Simple field.2
  below : format = .console → Below (fields.held stackName) ∧ Below (fields.held exceptionName)

namespace Library

variable {σ : Type} (library : Library σ)

/-- An event with what stands for its arguments put in, unless that is vacant. -/
def filled? (text : Text) : Option Value → Option Text
  | none => some text
  | some value => if value.isVacant then some text else library.fill? text value

/-- What is told of an exception, if it is asked for. -/
def told? (host : Host) : Option Value → Option (Option Text)
  | none => some none
  | some value => if value.isVacant then some none else library.tell? host value

def decoded : Value → Value :=
  decodedBy library.decode

/-- What calls change of the state. -/
structure Remembers : Prop where
  initial : library.view library.initial = ⟨none, fun _ => none, fun _ => none⟩
  configure : ∀ config state, library.view (library.configure config state) =
    { library.view state with config := some config }
  bind : ∀ fields state, library.view (library.bind fields state) =
    { library.view state with
      bound := fun name => (fields.given? name).or ((library.view state).bound name) }
  unbind : ∀ names state, library.view (library.unbind names state) =
    { library.view state with
      bound := fun name => if name ∈ names then none else (library.view state).bound name }
  clear : ∀ state, library.view (library.clear state) =
    { library.view state with bound := fun _ => none }
  processors : ∀ config state, (library.view state).config = some config →
    library.processors state = config.processors

/-- A lazy logger uses the processors that are kept for it, or else the current ones, and these
are kept from then on if the configuration asks for it. -/
structure Caches : Prop where
  used : ∀ keeper state, (library.use keeper state).2 =
    ((library.view state).kept keeper).getD (library.processors state)
  keeps : ∀ keeper state config, (library.view state).config = some config →
    config.cachesFirstUse = true → library.view (library.use keeper state).1 =
      { library.view state with
        kept := Function.update (library.view state).kept keeper
          (some (library.use keeper state).2) }
  passes : ∀ keeper state,
    (∀ config, (library.view state).config = some config → config.cachesFirstUse = false) →
      library.view (library.use keeper state).1 = library.view state

/-- How an entry is made and sent through processors, and what each of them makes of it. -/
structure Processes : Prop where
  prepares : ∀ record arguments, (library.prepare record arguments).Distinct ∧
    (library.prepare record arguments).held = record.own arguments
  handsOn : ∀ scene processor rest entry next, library.process scene processor entry = .next next →
    library.dispatch scene (processor :: rest) entry = library.dispatch scene rest next
  drops : ∀ scene processor rest entry, library.process scene processor entry = .dropped →
    library.dispatch scene (processor :: rest) entry = .dropped
  breaksOff : ∀ scene processor rest entry, library.process scene processor entry = .broken →
    library.dispatch scene (processor :: rest) entry = .broken
  ends : ∀ scene processor entry lines, library.process scene processor entry = .written lines →
    library.dispatch scene [processor] entry = .written lines
  merges : ∀ scene (entry : Fields), entry.Distinct →
    GoesOn (fun name => (entry.held name).or ((library.view scene.state).bound name))
      (library.process scene .mergeContext entry)
  calls : ∀ scene function entry,
    library.process scene (.call function) entry = .next (function scene.host entry)
  filters : ∀ scene entry, library.process scene .filterByLevel entry =
    if scene.threshold.rank ≤ scene.level.rank then .next entry else .dropped
  names : ∀ scene (entry : Fields), entry.Distinct → (entry.held originName).all Value.isNull →
    GoesOn (Function.update entry.held "logger" (some (.text scene.logger)))
      (library.process scene .addLoggerName entry)
  foreign : ∀ scene (entry : Fields), (entry.held originName).all Value.isNull = false →
    library.process scene .addLoggerName entry = .broken
  labels : ∀ scene (entry : Fields), entry.Distinct →
    GoesOn (Function.update entry.held "level" (some (.text scene.level.label)))
      (library.process scene .addLogLevel entry)
  fills : ∀ scene (entry : Fields) text event, entry.Distinct →
    entry.held "event" = some (.text text) →
    library.filled? text (entry.held argumentsName) = some event →
    GoesOn (Function.update (Function.update entry.held "event" (some (.text event)))
        argumentsName ((entry.held argumentsName).filter Value.isNull))
      (library.process scene .positionalArguments entry)
  misfits : ∀ scene (entry : Fields) text, entry.held "event" = some (.text text) →
    library.filled? text (entry.held argumentsName) = none →
    library.process scene .positionalArguments entry = .broken
  stamps : ∀ scene (entry : Fields), entry.Distinct → ∃ time,
    GoesOn (Function.update entry.held "timestamp" (some (.text time)))
      (library.process scene .timeStamper entry)
  tellsStack : ∀ scene (entry : Fields), entry.Distinct →
    GoesOn (answering stackQuestion stackName
        (stackTold scene.host (entry.held stackQuestion)) entry.held)
      (library.process scene .stackInfo entry)
  tellsException : ∀ scene (entry : Fields) told, entry.Distinct →
    library.told? scene.host (entry.held exceptionQuestion) = some told →
    GoesOn (answering exceptionQuestion exceptionName told entry.held)
      (library.process scene .exceptionInfo entry)
  untold : ∀ scene (entry : Fields),
    library.told? scene.host (entry.held exceptionQuestion) = none →
    library.process scene .exceptionInfo entry = .broken
  decodes : ∀ scene (entry : Fields), entry.Distinct →
    GoesOn (fun name => (entry.held name).map library.decoded)
      (library.process scene .unicodeDecoder entry)
  renders : ∀ scene format entry, library.process scene (.renderer format) entry =
    (library.render? format entry).elim .broken .written
  writes : ∀ format fields, Fits fields format → (library.render? format fields).isSome
  leavesLine : ∀ format fields lines, library.render? format fields = some lines → lines ≠ []
  namesFields : ∀ fields lines, library.render? .json fields = some lines →
    lines = [.fields fields]

structure Documented : Prop extends Remembers library, Caches library, Processes library

end Library
end Log
end LegibleTrace
