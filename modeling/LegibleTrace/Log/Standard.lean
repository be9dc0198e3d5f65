import LegibleTrace.Log.Line
import LegibleTrace.Log.Mark
import LegibleTrace.Text.Utf8

/-! The logging library that runs. -/
namespace LegibleTrace.Log

/-- Its state: the configuration, the bound values, and the processors that are kept. -/
structure Memory where
  config : Option Config
  bound : Fields
  kept : List (Keeper × List Processor)

/-- Sets the fields that are missing. -/
def completed (entry context : Fields) : Fields :=
  context.foldl (fun entry (name, value) =>
    if (entry.lookup name).isSome then entry else entry ++ [(name, value)]) entry

/-- Takes a question out, and sets what is told in answer to it. -/
def answered (question name : Text) (told : Option Text) (entry : Fields) : Fields :=
  let others := entry.erase question
  match told with
  | some text => if asks (entry.lookup question) then others.set name (.text text) else others
  | none => others

def filledEvent? (entry : Fields) : Option Text := do
  let text ← (entry.lookup ("event" : Text)).bind Value.text?
  let value ← entry.lookup argumentsName
  fillMarks? text value

/-- Puts the arguments into the event and takes them out. Vacant ones are taken out as well. -/
def filledEntry (entry : Fields) : Outcome :=
  let given := entry.lookup argumentsName
  if given.all Value.isNull then .next entry
  else if asks given then
    (filledEvent? entry).elim .broken fun event =>
      .next ((entry.set "event" (.text event)).erase argumentsName)
  else .next (entry.erase argumentsName)

namespace Memory

def processors (memory : Memory) : List Processor :=
  memory.config.elim [] (·.processors)

def caches (memory : Memory) : Bool :=
  memory.config.any (·.cachesFirstUse)

def use (memory : Memory) (keeper : Keeper) : Memory × List Processor :=
  let used := (memory.kept.lookup keeper).getD memory.processors
  (if memory.caches then { memory with kept := (keeper, used) :: memory.kept } else memory, used)

def process (scene : Scene Memory) : Processor → Fields → Outcome
  | .mergeContext, entry => .next (completed entry scene.state.bound)
  | .call function, entry => .next (function scene.host entry)
  | .filterByLevel, entry =>
    if scene.threshold.rank ≤ scene.level.rank then .next entry else .dropped
  | .addLoggerName, entry =>
    if (entry.lookup originName).all Value.isNull then
      .next (entry.set "logger" (.text scene.logger))
    else .broken
  | .addLogLevel, entry => .next (entry.set "level" (.text scene.level.label))
  | .positionalArguments, entry => filledEntry entry
  | .timeStamper, entry => .next (entry.set "timestamp" (.text scene.host.time))
  | .stackInfo, entry => .next (answered stackQuestion stackName (some scene.host.stack) entry)
  | .exceptionInfo, entry =>
    .next (answered exceptionQuestion exceptionName scene.host.exception entry)
  | .unicodeDecoder, entry =>
    .next (entry.map fun (name, value) => (name, decodedBy Text.ofUtf8 value))
  | .renderer format, entry => (lines? format entry).elim .broken .written

def dispatch (scene : Scene Memory) : List Processor → Fields → Outcome
  | [], entry => .next entry
  | processor :: processors, entry =>
    match process scene processor entry with
    | .next entry => dispatch scene processors entry
    | outcome => outcome

end Memory

def Record.entry (record : Record) (arguments : List Value) : Fields :=
  let own := Fields.override [] record.fields
  let own := if arguments.isEmpty then own else own.set argumentsName (.tuple arguments)
  own.set "event" (.text record.event)

def Library.standard : Library Memory where
  initial := ⟨none, [], []⟩
  view memory :=
    { config := memory.config
      bound name := memory.bound.lookup name
      kept keeper := memory.kept.lookup keeper }
  configure config memory := { memory with config := some config }
  bind fields memory := { memory with bound := memory.bound.override fields }
  unbind names memory :=
    { memory with bound := memory.bound.filter fun (name, _) => name ∉ names }
  clear memory := { memory with bound := [] }
  processors := Memory.processors
  use keeper memory := memory.use keeper
  prepare := Record.entry
  process := Memory.process
  dispatch := Memory.dispatch
  fill? := fillMarks?
  tell? host _ := some host.exception
  decode := Text.ofUtf8
  render? := lines?

end LegibleTrace.Log
