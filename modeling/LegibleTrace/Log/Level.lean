import LegibleTrace.Text

/-! Severity levels of log events and the formats of log lines. -/
namespace LegibleTrace.Log

inductive Level
  | debug
  | info
  | warning
  | error
  | critical
deriving DecidableEq

namespace Level

def all : List Level := [debug, info, warning, error, critical]

def rank : Level → Nat
  | debug => 10
  | info => 20
  | warning => 30
  | error => 40
  | critical => 50

def name : Level → Text
  | debug => "DEBUG"
  | info => "INFO"
  | warning => "WARNING"
  | error => "ERROR"
  | critical => "CRITICAL"

def label : Level → Text
  | debug => "debug"
  | info => "info"
  | warning => "warning"
  | error => "error"
  | critical => "critical"

def ofName? (name : Text) : Option Level :=
  all.find? (·.name == name)

end Level

inductive Format
  | json
  | console
deriving DecidableEq

namespace Format

def all : List Format := [json, console]

def name : Format → Text
  | json => "json"
  | console => "console"

def ofName? (name : Text) : Option Format :=
  all.find? (·.name == name)

end Format
end LegibleTrace.Log
