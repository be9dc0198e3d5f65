import LegibleTrace.Mangled.Display
import LegibleTrace.Text.Numeral

/-! Stack frames as a host reports them and as they are displayed. -/
namespace LegibleTrace

/-- A frame with mangled names. A negative line is unknown. -/
structure RawFrame where
  className : Text
  methodName : Text
  file : Option Text
  line : Int
  native : Bool
deriving DecidableEq

structure Method where
  className : Text
  methodName : Text
deriving DecidableEq

structure Frame where
  method : Method
  file : Text
  line : Option Int
  native : Bool
deriving DecidableEq

namespace Frame

def noFile : Text := "[no file]"

def ofRaw (placeholder : Text) (raw : RawFrame) : Frame where
  method :=
    ⟨Mangled.display .className raw.className, Mangled.display .methodName raw.methodName⟩
  file := raw.file.getD placeholder
  line := if 0 ≤ raw.line then some raw.line else none
  native := raw.native

/-- The file, with the line where one is known. -/
def location (frame : Frame) : Text :=
  match frame.line with
  | some line => frame.file ++ ":" ++ Text.ofInt line
  | none => frame.file

end Frame
end LegibleTrace
