import LegibleTrace.Log.Event
import LegibleTrace.Path

/-! Records of a log, and what a program says of itself in the entry for each. -/
namespace LegibleTrace.Log

structure Record where
  logger : Text
  level : Level
  event : Text
  fields : Fields

/-- Where the version of the package stands: with the installed package, or else in its project. -/
structure Package where
  installed : Option Text
  project : Option Text

def Package.version? (package : Package) : Option Text :=
  package.installed <|> package.project

/-- What a host can tell where a record is made: the time, the calls that led there, the exception
that is being handled, the package, and why it does not open a file. -/
structure Host where
  time : Text
  stack : Text
  exception : Option Text
  package : Package
  refusal : Path → Text

def service : Text := "stackglyph"

/-- Says which service an entry is from, and of which version if one can be found. -/
def addContext (host : Host) (entry : Fields) : Fields :=
  let entry := entry.set "service" (.text service)
  match host.package.version? with
  | some version => entry.set "version" (.text version)
  | none => entry

namespace Record

def ofEvent (logger : Text) (event : Event) : Record :=
  ⟨logger, event.level, event.name, event.fields⟩

end Record
end LegibleTrace.Log
