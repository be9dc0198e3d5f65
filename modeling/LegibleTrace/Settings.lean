import LegibleTrace.Cause.Assembly
import LegibleTrace.Path

/-! The settings of the library and what can be wrong with given ones. -/
namespace LegibleTrace

structure TraceSettings where
  maxCauseDepth : Int
  noFilePlaceholder : Text
deriving DecidableEq

structure FileSettings where
  enabled : Bool
  path : Path
deriving DecidableEq

structure LoggingSettings where
  level : Log.Level
  format : Log.Format
  file : FileSettings
deriving DecidableEq

structure Settings where
  trace : TraceSettings
  logging : LoggingSettings
deriving DecidableEq

namespace Settings

def standard : Settings where
  trace := ⟨64, Frame.noFile⟩
  logging := ⟨.info, .console, ⟨false, Path.ofText "stackglyph.log"⟩⟩

def assembler (settings : Settings) : Except Assembler.NegativeLimit Assembler :=
  Assembler.make settings.trace.maxCauseDepth settings.trace.noFilePlaceholder

inductive FaultKind
  | unknownKey
  | notSection
  | notInteger
  | badInteger
  | longInteger
  | hasFraction
  | notFinite
  | tooSmall
  | tooLarge
  | notText
  | notUnicode
  | unusable
  | notListed
  | notSwitch
  | badSwitch
  | notPath
deriving DecidableEq

def FaultKind.name : FaultKind → Text
  | unknownKey => "extra_forbidden"
  | notSection => "model_type"
  | notInteger => "int_type"
  | badInteger => "int_parsing"
  | longInteger => "int_parsing_size"
  | hasFraction => "int_from_float"
  | notFinite => "finite_number"
  | tooSmall => "greater_than_equal"
  | tooLarge => "less_than_equal"
  | notText => "string_type"
  | notUnicode => "string_unicode"
  | unusable => "value_error"
  | notListed => "literal_error"
  | notSwitch => "bool_type"
  | badSwitch => "bool_parsing"
  | notPath => "path_type"

structure Fault where
  location : List Text
  kind : FaultKind
deriving DecidableEq

end Settings
end LegibleTrace
