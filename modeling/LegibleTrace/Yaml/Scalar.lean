import LegibleTrace.Text.Numeral
import LegibleTrace.Yaml.Cursor

/-! Scalars as they are written: plain, or between apostrophes or quotation marks. Each may
run over several lines, which are folded. Inside brackets a plain scalar ends at the marks of
the collection, outside of them at a line that is not indented far enough. -/
namespace LegibleTrace.Yaml

inductive Place
  | block
  | flow
deriving DecidableEq

def flowMarks : Text := [',', '[', ']', '\x7b', '\x7d']

def endsPlain (place : Place) (c : Char) (rest : Text) : Bool :=
  endsWord [c]
    || (c = ':' && (endsWord rest || (place = .flow && rest.head?.any (· ∈ flowMarks))))
    || (place = .flow && (c = '?' || c ∈ flowMarks))

/-- Marks with which no plain scalar begins, unless one of the first three is part of a word. -/
def startsPlain (place : Place) : Text → Bool
  | [] => false
  | c :: rest =>
    if c = '-' then !endsWord rest
    else if c = '?' || c = ':' then place = .block && !endsWord rest
    else !endsWord [c] && c ∉ flowMarks && c ∉ "#&*!|>'\"%@`".toList

def plainRun (place : Place) : Text → Text
  | [] => []
  | c :: rest => if endsPlain place c rest then [] else c :: plainRun place rest

/-- The join between two runs of a plain scalar and the place of the next. -/
def plainJoint (cursor : Cursor) : Text × Cursor :=
  let blanks := cursor.rest.takeWhile (· = ' ')
  let after := cursor.skip blanks.length
  match after.rest with
  | c :: rest =>
    if isBreak c then
      match Cursor.breaksFrom (· = ' ') rest (after.line + 1) 0 with
      | some (breaks, next) => (Cursor.fold (c :: breaks), next)
      | none => ([], ⟨rest, after.line + 1, 0⟩)
    else (blanks, after)
  | [] => ([], after)

def plainFrom (place : Place) (indent : Int) : Nat → Cursor → Text × Cursor
  | 0, cursor => ([], cursor)
  | steps + 1, cursor =>
    let run := if cursor.rest.head? = some '#' then [] else plainRun place cursor.rest
    if run = [] then ([], cursor) else
    let (joint, next) := plainJoint (cursor.skip run.length)
    if joint = [] ∨ (place = .block ∧ next.column ≤ indent) then (run, next) else
    let (more, last) := plainFrom place indent steps next
    if more = [] then (run, last) else (run ++ joint ++ more, last)

def escapes : List (Char × Char) :=
  [('0', '\x00'), ('a', '\x07'), ('b', '\x08'), ('t', '\t'), ('\t', '\t'), ('n', '\n'),
   ('v', '\x0b'), ('f', '\x0c'), ('r', '\r'), ('e', '\x1b'), (' ', ' '), ('"', '"'),
   ('\\', '\\'), ('/', '/'), ('N', '\u0085'), ('_', '\u00a0'), ('L', '\u2028'),
   ('P', '\u2029')]

/-- Escapes that give a code in so many digits. -/
def codeEscapes : List (Char × Nat) := [('x', 2), ('u', 4), ('U', 8)]

/-- The character of an escape and the number of characters that spell it. -/
def escape? (c : Char) (rest : Text) : Option (Char × Nat) :=
  match escapes.lookup c, codeEscapes.lookup c with
  | some char, _ => some (char, 1)
  | none, some width =>
    let digits := rest.take width
    let code := Text.valueOf 16 digits
    if digits.length = width ∧ digits.all (Text.isDigitOf 16) ∧ code.isValidChar then
      some (Char.ofNat code, width + 1)
    else none
  | none, none => none

/-- The content of a quoted scalar up to its closing mark. -/
def quotedFrom (mark : Char) : Nat → Cursor → Option (Text × Cursor)
  | 0, _ => none
  | steps + 1, cursor =>
    let joined (content : Text) (next : Cursor) : Option (Text × Cursor) :=
      (quotedFrom mark steps next).map fun (more, last) => (content ++ more, last)
    match cursor.rest with
    | [] => none
    | c :: rest =>
      if c = mark then
        if mark = '\'' ∧ rest.head? = some mark then joined [mark] (cursor.skip 2)
        else some ([], cursor.skip 1)
      else if mark = '"' ∧ c = '\\' then
        match rest with
        | [] => none
        | d :: after =>
          if isBreak d then do
            let (breaks, next) ←
              Cursor.breaksFrom (fun c => c = ' ' || c = '\t') after (cursor.line + 1) 0
            joined breaks next
          else do
            let (char, width) ← escape? d after
            joined [char] (cursor.skip (width + 1))
      else if endsWord [c] then
        let blanks := cursor.rest.takeWhile fun c => c = ' ' || c = '\t'
        let after := cursor.skip blanks.length
        match after.rest with
        | [] => none
        | d :: rest =>
          if isBreak d then do
            let (breaks, next) ←
              Cursor.breaksFrom (fun c => c = ' ' || c = '\t') rest (after.line + 1) 0
            joined (Cursor.fold (d :: breaks)) next
          else joined blanks after
      else joined [c] (cursor.skip 1)

end LegibleTrace.Yaml
