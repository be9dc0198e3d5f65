import LegibleTrace.Log.Session

/-! What a program does about its log, call by call. A call leaves the next state of the session
and what it wrote, or is refused. -/
namespace LegibleTrace.Log

/-- A program logs by new loggers, or by one that it keeps under a number. Between its calls it
proceeds, so that its host has something else to tell. -/
inductive Call
  | configure (level format : Text) (path : Option Text) (enabled : Bool)
  | apply (settings : LoggingSettings)
  | bind (fields : Fields)
  | unbind (names : List Text)
  | clear
  | log (keeper : Option Nat) (record : Record) (arguments : List Value)
  | report (reporter : Reporter) (event : Event)
  | proceed (host : Host)

inductive Refusal
  | unknown (name : UnknownName)
  | unwritable

namespace Session

variable {σ : Type} (library : Library σ)

/-- The answer to a call that writes something, if it can be written. -/
def answer : Option (List Effect) → Except Refusal (List Effect)
  | some effects => .ok effects
  | none => .error .unwritable

def step (session : Session σ) : Call → Session σ × Except Refusal (List Effect)
  | .configure level format path enabled =>
    match session.configureByName library level format (chosenFile path enabled) with
    | .ok (next, effects) => (next, .ok effects)
    | .error name => (session, .error (.unknown name))
  | .apply settings =>
    let (next, effects) := session.applySettings library settings
    (next, .ok effects)
  | .bind fields => ({ session with state := library.bind fields session.state }, .ok [])
  | .unbind names => ({ session with state := library.unbind names session.state }, .ok [])
  | .clear => ({ session with state := library.clear session.state }, .ok [])
  | .log keeper record arguments =>
    let (next, effects) := session.log library keeper record arguments
    (next, answer effects)
  | .report reporter event =>
    let (next, effects) := session.report library reporter event
    (next, answer effects)
  | .proceed host => ({ session with host }, .ok [])

def run (session : Session σ) (calls : List Call) : Session σ :=
  calls.foldl (fun session call => (session.step library call).1) session

end Session
end LegibleTrace.Log
