import LegibleTrace.Text

/-! Positions in a document. Between tokens blanks, comments and line breaks are passed over;
a line that holds only dashes or dots in its first three columns bounds a document. -/
namespace LegibleTrace.Yaml

def isBreak (c : Char) : Bool :=
  c = '\n' || c = '\u2028' || c = '\u2029'

/-- A blank, a tab or a line break; the end of the text counts as one. -/
def endsWord (rest : Text) : Bool :=
  rest.head?.all fun c => c = ' ' || c = '\t' || isBreak c

/-- What is left of a document, with the line and column it begins at. -/
structure Cursor where
  rest : Text
  line : Nat
  column : Nat

namespace Cursor

def skip (n : Nat) (cursor : Cursor) : Cursor :=
  ⟨cursor.rest.drop n, cursor.line, cursor.column + n⟩

/-- A dash, colon or other mark that stands by itself. -/
def atMark (mark : Char) (cursor : Cursor) : Bool :=
  match cursor.rest with
  | c :: rest => c = mark && endsWord rest
  | [] => false

def atBound (bound : Text) (cursor : Cursor) : Bool :=
  cursor.column = 0 && (Text.after? bound cursor.rest).any endsWord

def atStart (cursor : Cursor) : Bool := cursor.atBound "---"
def atFinish (cursor : Cursor) : Bool := cursor.atBound "..."

def atEnd (cursor : Cursor) : Bool :=
  cursor.rest.isEmpty || cursor.atStart || cursor.atFinish

/-- The next token, past blanks, breaks and comments. -/
def settleFrom (comment : Bool) : Text → Nat → Nat → Cursor
  | [], line, column => ⟨[], line, column⟩
  | c :: rest, line, column =>
    if isBreak c then settleFrom false rest (line + 1) 0
    else if comment || c = ' ' then settleFrom comment rest line (column + 1)
    else if c = '#' then settleFrom true rest line (column + 1)
    else ⟨c :: rest, line, column⟩

def settle (cursor : Cursor) : Cursor :=
  settleFrom false cursor.rest cursor.line cursor.column

/-- Collects the line breaks of the blank lines from here on. Nothing is given if a bound of
the document stands at the beginning of one of the lines. -/
def breaksFrom (isBlank : Char → Bool) : Text → Nat → Nat → Option (Text × Cursor)
  | [], line, column => some ([], ⟨[], line, column⟩)
  | c :: rest, line, column =>
    let here : Cursor := ⟨c :: rest, line, column⟩
    if here.atStart || here.atFinish then none
    else if isBlank c then breaksFrom isBlank rest line (column + 1)
    else if isBreak c then
      (breaksFrom isBlank rest (line + 1) 0).map fun (breaks, cursor) => (c :: breaks, cursor)
    else some ([], here)

/-- A folded line break is a blank unless empty lines follow it. -/
def fold : Text → Text
  | [] => []
  | '\n' :: [] => [' ']
  | '\n' :: breaks => breaks
  | breaks => breaks

end Cursor
end LegibleTrace.Yaml
