import LegibleTrace.Log.Chain
import LegibleTrace.Log.Directory
import LegibleTrace.Settings
import LegibleTrace.Text.LetterCase
import LegibleTrace.Text.Quoted

/-! A session of logging over a library: the state of the library, the setup of the handlers, and
the files. A step gives the next state and what it wrote. -/
namespace LegibleTrace.Log

/-- Lines go to the error stream, and to a file if there is one. -/
structure Setup where
  level : Level
  file : Option Location

inductive Effect
  | stream (line : Line)
  | created (file : Location)
  | appended (file : Location) (line : Line)

structure Session (σ : Type) where
  state : σ
  setup : Option Setup
  directory : Directory
  host : Host

inductive UnknownName
  | level (name : Text)
  | format (name : Text)

def UnknownName.message : UnknownName → Text
  | level name => Text.quoted name ++ " is not a valid LogLevel"
  | format name => Text.quoted name ++ " is not a valid LogFormat"

def Level.parse (name : Text) : Except UnknownName Level :=
  let name := Text.upper name
  (Level.ofName? name).elim (.error (.level name)) .ok

def Format.parse (name : Text) : Except UnknownName Format :=
  let name := Text.lower name
  (Format.ofName? name).elim (.error (.format name)) .ok

namespace Session

variable {σ : Type} (library : Library σ)

def start (directory : Directory) (host : Host) : Session σ :=
  ⟨library.initial, none, directory, host⟩

/-- Before the first setup warnings and worse are let through. -/
def level (session : Session σ) : Level :=
  session.setup.elim .warning (·.level)

def lets (session : Session σ) (level : Level) : Bool :=
  session.level.rank ≤ level.rank

/-- Writes a line wherever the setup sends it; without one, to the error stream. -/
def write (session : Session σ) (line : Line) : List Effect :=
  .stream line :: match session.setup.bind (·.file) with
    | some file => [.appended file line]
    | none => []

def fileWarning (path : Path) (refusal : Text) : List Line :=
  (Text.split '\n' ("Could not create log file " ++ path.text ++ ": " ++ refusal)).map .text

/-- Puts a new setup in force. If its file cannot be opened the old setup gets a warning and
the new one has no file. -/
def configure (session : Session σ) (level : Level) (format : Format) (file : Option Path) :
    Session σ × List Effect :=
  let state := library.configure (config format) session.state
  match file with
  | none => ({ session with state, setup := some ⟨level, none⟩ }, [])
  | some path =>
    match session.directory.openFile path with
    | (directory, some location) =>
      ({ session with state, setup := some ⟨level, some location⟩, directory },
        if session.directory.isFile location then [] else [.created location])
    | (directory, none) =>
      ({ session with state, setup := some ⟨level, none⟩, directory },
        if session.lets .warning then
          (fileWarning path (session.host.refusal path)).flatMap session.write
        else [])

def chosenFile (path : Option Text) (enabled : Bool) : Option Path :=
  match enabled, path with
  | true, some (c :: rest) => some (Path.ofText (c :: rest))
  | _, _ => none

def configureByName (session : Session σ) (level format : Text) (file : Option Path) :
    Except UnknownName (Session σ × List Effect) := do
  -- Both names are looked up before anything is changed.
  let level ← Level.parse level
  let format ← Format.parse format
  return session.configure library level format file

def applySettings (session : Session σ) (settings : LoggingSettings) :
    Session σ × List Effect :=
  session.configure library settings.level settings.format
    (if settings.file.enabled then some settings.file.path else none)

def scene (session : Session σ) (record : Record) : Scene σ :=
  ⟨session.state, record.logger, record.level, session.level, session.host⟩

/-- Writes what processors make of a record. There is no answer if one of them breaks off, or if
none of them writes the entry. -/
def emit (session : Session σ) (processors : List Processor) (record : Record)
    (arguments : List Value) : Option (List Effect) :=
  match library.dispatch (session.scene record) processors (library.prepare record arguments) with
  | .written lines => some (if session.lets record.level then lines.flatMap session.write else [])
  | .dropped => some []
  | .next _ | .broken => none

def loggerName (name : Text) : Text :=
  if name = [] then "root" else name

/-- Logs by the lazy logger of a keeper, or by a new one. A lazy logger is used even if the level of
the record is too low. Ahead of the first setup the library writes in its own way, to the standard
output, which is not followed here. -/
def logBy (session : Session σ) (keeper : Option Keeper) (record : Record)
    (arguments : List Value) : Session σ × Option (List Effect) :=
  let (state, processors) := match keeper with
    | some keeper => library.use keeper session.state
    | none => (session.state, library.processors session.state)
  let next := { session with state }
  (next, if next.setup.isNone then some [] else next.emit library processors record arguments)

def log (session : Session σ) (keeper : Option Nat) (record : Record) (arguments : List Value) :
    Session σ × Option (List Effect) :=
  session.logBy library (keeper.map .application)
    { record with logger := loggerName record.logger } arguments

def report (session : Session σ) (reporter : Reporter) (event : Event) :
    Session σ × Option (List Effect) :=
  session.logBy library (some (.reporter reporter)) (Record.ofEvent reporter.logger event) []

/-- Reports events in order, up to one that cannot be written. -/
def reportAll (session : Session σ) (reporter : Reporter) :
    List Event → Session σ × List Effect
  | [] => (session, [])
  | event :: events =>
    match session.report library reporter event with
    | (next, none) => (next, [])
    | (next, some effects) =>
      let (last, more) := next.reportAll reporter events
      (last, effects ++ more)

end Session
end LegibleTrace.Log
