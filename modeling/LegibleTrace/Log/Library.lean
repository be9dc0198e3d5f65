import LegibleTrace.Log.Record

/-! The logging library, as far as it is called. An entry goes through processors in turn, and
the last of them writes it. What each of them does, how they are called and what the library keeps
between two events is left open. -/
namespace LegibleTrace.Log

/-- A processor of the library, or a function of the program that is called as one. -/
inductive Processor
  | mergeContext
  | call (function : Host → Fields → Fields)
  | filterByLevel
  | addLoggerName
  | addLogLevel
  | positionalArguments
  | timeStamper
  | stackInfo
  | exceptionInfo
  | unicodeDecoder
  | renderer (format : Format)

/-- Names that an entry may hold for the processors rather than for its line. -/
def argumentsName : Text := "positional_args"
def stackQuestion : Text := "stack_info"
def exceptionQuestion : Text := "exc_info"
def originName : Text := "_record"

def stackName : Text := "stack"
def exceptionName : Text := "exception"

/-- A question asks for its answer unless its value is vacant. -/
def asks (question : Option Value) : Bool :=
  question.any fun value => !value.isVacant

/-- With what the library is configured. -/
structure Config where
  processors : List Processor
  cachesFirstUse : Bool

/-- The parts of the package that report events, each by a lazy logger of its own. -/
inductive Reporter
  | validation
  | assembly
  | loading
deriving DecidableEq

/-- Who keeps a lazy logger: a part of the package, or an application, which may keep many. -/
inductive Keeper
  | reporter (reporter : Reporter)
  | application (number : Nat)
deriving DecidableEq

def Reporter.logger : Reporter → Text
  | validation => "stackglyph.core.name_validator"
  | assembly => "stackglyph.core.assembler"
  | loading => "stackglyph.config.loader"

inductive Line
  | fields (fields : Fields)
  | text (text : Text)

/-- What becomes of an entry: another one, nothing, the lines of a log, or an error. -/
inductive Outcome
  | next (entry : Fields)
  | dropped
  | written (lines : List Line)
  | broken

/-- Where an entry is processed. -/
structure Scene (σ : Type) where
  state : σ
  logger : Text
  level : Level
  threshold : Level
  host : Host

/-- What can be told of the state of the library: its configuration, the values that are bound, and
the processors that lazy loggers keep. -/
structure View where
  config : Option Config
  bound : Text → Option Value
  kept : Keeper → Option (List Processor)

/-- A logging library, with the processors of a new logger and those that the use of a lazy logger
gives. -/
structure Library (σ : Type) where
  initial : σ
  view : σ → View
  configure : Config → σ → σ
  bind : Fields → σ → σ
  unbind : List Text → σ → σ
  clear : σ → σ
  processors : σ → List Processor
  use : Keeper → σ → σ × List Processor
  prepare : Record → List Value → Fields
  process : Scene σ → Processor → Fields → Outcome
  dispatch : Scene σ → List Processor → Fields → Outcome
  /-- An event with the value for its arguments put in. -/
  fill? : Text → Value → Option Text
  /-- What is told of an exception if a value asks for it. -/
  tell? : Host → Value → Option (Option Text)
  decode : List UInt8 → Text
  render? : Format → Fields → Option (List Line)

/-- A value as it stands in a line: bytes are read as a text. -/
def decodedBy (decode : List UInt8 → Text) : Value → Value
  | .bytes content => .text (decode content)
  | value => value

end LegibleTrace.Log
