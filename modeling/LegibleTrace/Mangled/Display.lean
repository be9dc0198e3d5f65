import LegibleTrace.Mangled.Piece
import LegibleTrace.Mangled.FunctionType

/-! The display form of a mangled name: its pieces in order, or the function type that the
pieces spell, followed by the call marks of a method. -/
namespace LegibleTrace.Mangled

def display (context : Context) (name : Text) : Text :=
  let shown := scan context name
  ((FunctionType.ofName? shown).elim shown FunctionType.render) ++ context.ending

end LegibleTrace.Mangled
