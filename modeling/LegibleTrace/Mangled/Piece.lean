import LegibleTrace.Mangled.Index

/-! A mangled name is cut into pieces, each of which has its own display. The cut goes from
left to right and loses nothing; only the piece just taken decides whether a digit that
follows stands below the line. -/
namespace LegibleTrace.Mangled

inductive Context
  | className
  | methodName
deriving DecidableEq

inductive Mode
  | plain
  | digits
deriving DecidableEq

inductive Piece
  | token (token : Token)
  | subscript (digit : Char)
  | marker
  | separator
  | copied (char : Char)
deriving DecidableEq

def subscripts : List (Char × Char) :=
  "0123456789".toList.zip "₀₁₂₃₄₅₆₇₈₉".toList

def lowered (digit : Char) : Char :=
  (subscripts.lookup digit).getD digit

namespace Context

def separator : Context → Text
  | className => "#"
  | methodName => "()."

/-- A method is shown as a call. -/
def ending : Context → Text
  | className => []
  | methodName => "()"

end Context

namespace Piece

def source : Piece → Text
  | token t => t.text
  | subscript d => [d]
  | marker | separator => ['$']
  | copied c => [c]

def render (context : Context) : Piece → Text
  | token t => t.glyph
  | subscript d => [lowered d]
  | marker => []
  | separator => context.separator
  | copied c => [c]

/-- How a digit right after the piece is read. -/
def mode : Piece → Mode
  | token t => if t.digits then .digits else .plain
  | subscript _ | marker => .digits
  | separator | copied _ => .plain

/-- The piece at the head of a name: a lowered digit, else the token that `find` knows, else
a dollar sign by what follows it, else the character itself. -/
def next (find : Text → Option Token) (mode : Mode) (c : Char) (rest : Text) : Piece :=
  if mode = .digits ∧ c.isDigit then subscript c
  else match find (c :: rest) with
    | some t => token t
    | none =>
      if c ≠ '$' then copied c
      else if rest.head?.any Char.isDigit then marker
      else separator

end Piece

def cutFrom (find : Text → Option Token) (mode : Mode) : Text → List Piece
  | [] => []
  | c :: rest =>
    let piece := Piece.next find mode c rest
    piece :: cutFrom find piece.mode (rest.drop (piece.source.length - 1))
termination_by name => name.length
decreasing_by simp only [List.length_cons, List.length_drop]; omega

def cut (name : Text) : List Piece :=
  cutFrom Index.standard.find? .plain name

def scan (context : Context) (name : Text) : Text :=
  (cut name).flatMap (Piece.render context)

end LegibleTrace.Mangled
