import LegibleTrace.Trace

/-! Trimming the frames of a trace. The causes and everything but the frames of the top entry
stay as they are; moving to the cause leaves every entry below as it is. -/
namespace LegibleTrace.Trace

def withFrames (trace : Trace) (frames : List Frame) : Trace :=
  { trace with top := { trace.top with frames } }

/-- Keeps the frames before the first call of a method. -/
def crop (target : Method) (trace : Trace) : Trace :=
  trace.withFrames (trace.top.frames.takeWhile (·.method != target))

/-- Removes the `n` frames nearest to the throw site; a negative number removes none. -/
def drop (n : Int) (trace : Trace) : Trace :=
  trace.withFrames (trace.top.frames.drop n.toNat)

/-- Removes the `n` frames nearest to the entry point of the program. -/
def dropFromEnd (n : Int) (trace : Trace) : Trace :=
  trace.withFrames (trace.top.frames.take (trace.top.frames.length - n.toNat))

inductive Trim
  | crop (target : Method)
  | drop (n : Int)
  | dropFromEnd (n : Int)
  | toCause
deriving DecidableEq

/-- A trace without a cause stays where it is. -/
def step (trace : Trace) : Trim → Trace
  | .crop target => trace.crop target
  | .drop n => trace.drop n
  | .dropFromEnd n => trace.dropFromEnd n
  | .toCause => trace.cause?.getD trace

def run (trims : List Trim) (trace : Trace) : Trace :=
  trims.foldl step trace

end LegibleTrace.Trace
