import LegibleTrace.Log.Level
import LegibleTrace.Value

/-! The events that the library reports about its own work. -/
namespace LegibleTrace.Log

inductive Event
  | traceAssembled (className : Text) (frames causes : Nat)
  | causeCycle (depth : Nat) (typeName : Text)
  | causesTooDeep (depth limit : Nat)
  | nameRejected (name segment reason : Text)
  | configLoaded (path : Text)
  | configError (path error : Text)

namespace Event

def name : Event → Text
  | traceAssembled .. => "trace_assembled"
  | causeCycle .. | causesTooDeep .. => "cause_chain_truncated"
  | nameRejected .. => "name_rejected"
  | configLoaded _ => "config_loaded"
  | configError .. => "config_error"

def level : Event → Level
  | traceAssembled .. | nameRejected .. | configLoaded _ => .debug
  | causeCycle .. | causesTooDeep .. => .warning
  | configError .. => .error

def fields : Event → Fields
  | traceAssembled className frames causes =>
    [("class_name", .text className), ("frames", .int frames), ("causes", .int causes)]
  | causeCycle depth typeName =>
    [("reason", .text "cycle"), ("depth", .int depth), ("type_name", .text typeName)]
  | causesTooDeep depth limit =>
    [("reason", .text "max_depth"), ("depth", .int depth), ("max_cause_depth", .int limit)]
  | nameRejected name segment reason =>
    [("name", .text name), ("segment", .text segment), ("reason", .text reason)]
  | configLoaded path => [("path", .text path)]
  | configError path error => [("path", .text path), ("error", .text error)]

end Event
end LegibleTrace.Log
