import LegibleTrace.Log.Shown

/-! Texts with marks for values. A mark begins with a percent sign and ends with the letter of a
conversion; between them stand a name, flags, a width and a precision. -/
namespace LegibleTrace.Log

structure Mark where
  name : Option Text
  flags : Text
  width : Nat
  precision : Option Nat

inductive Stage
  | start
  | name
  | flags
  | width
  | precision

namespace Mark

def empty : Mark := ⟨none, [], 0, none⟩

def flagChars : Text := "-+ #0"

/-- Reads one more character of a mark, unless it ends the mark. -/
def advance? (mark : Mark) (stage : Stage) (c : Char) : Option (Stage × Mark) :=
  let digit := (Text.digitValue? c).getD 0
  match stage with
  | .start =>
    if c = '(' then some (.name, { mark with name := some [] })
    else if c ∈ flagChars then some (.flags, { mark with flags := [c] })
    else number? digit
  | .name =>
    if c = ')' then some (.flags, mark)
    else some (.name, { mark with name := mark.name.map (· ++ [c]) })
  | .flags =>
    if c ∈ flagChars then some (.flags, { mark with flags := mark.flags ++ [c] })
    else number? digit
  | .width => number? digit
  | .precision =>
    if c.isDigit then
      some (.precision, { mark with precision := mark.precision.map (10 * · + digit) })
    else none
where
  number? (digit : Nat) : Option (Stage × Mark) :=
    if c.isDigit then some (.width, { mark with width := 10 * mark.width + digit })
    else if c = '.' then some (.precision, { mark with precision := some 0 })
    else none

def padded (mark : Mark) (text : Text) : Text :=
  if '-' ∈ mark.flags then Text.padRight mark.width text
  else List.replicate (mark.width - text.length) ' ' ++ text

def cut (mark : Mark) (text : Text) : Text :=
  mark.padded (mark.precision.elim text text.take)

/-- An integer with its sign, the mark of its base if this is asked for, and zeros ahead. -/
def signed (mark : Mark) (base : Text) (digits : Nat → Text) (value : Int) : Text :=
  let digits := digits value.natAbs
  let digits := List.replicate (mark.precision.getD 0 - digits.length) '0' ++ digits
  let sign := if value < 0 then ['-'] else ['+', ' '].filter (· ∈ mark.flags) |>.take 1
  let ahead := sign ++ if '#' ∈ mark.flags then base else []
  let zeros := if '0' ∈ mark.flags ∧ '-' ∉ mark.flags
    then mark.width - ahead.length - digits.length else 0
  mark.padded (ahead ++ List.replicate zeros '0' ++ digits)

def whole? : Value → Option Int
  | .int value => some value
  | .bool value => some value.toNat
  | _ => none

def char? : Value → Option Char
  | .text [c] => some c
  | value => do
    let code ← (whole? value).bind Int.toNat?
    if code.isValidChar then some (Char.ofNat code) else none

/-- What stands in the place of a mark that ends with this letter. -/
def converted? (mark : Mark) (letter : Char) (value : Value) : Option Text :=
  match letter with
  | 's' => some (mark.cut (plain value))
  | 'r' => some (mark.cut (shown value))
  | 'c' => (char? value).map fun c => mark.padded [c]
  | 'x' => (whole? value).map (mark.signed "0x" (Text.hexadecimal 1))
  | 'X' => (whole? value).map (mark.signed "0X" fun n => (Text.hexadecimal 1 n).map Char.toUpper)
  | 'o' => (whole? value).map (mark.signed "0o" (Nat.toDigits 8))
  | 'd' | 'i' | 'u' =>
    match value with
    | .number value => value.truncated?.map (mark.signed [] Text.ofNat)
    | value => (whole? value).map (mark.signed [] Text.ofNat)
  | _ => none

end Mark

/-- The values for the marks of a text, in order or by name. Some kinds of values may find no
mark. -/
structure Arguments where
  values : List Value
  named : Fields
  mayRemain : Bool

namespace Arguments

def ofValue : Value → Arguments
  | .tuple items => ⟨items, [], false⟩
  | .list items => ⟨[.list items], [], true⟩
  | .bytes content => ⟨[.bytes content], [], true⟩
  | .mapping entries => ⟨[.mapping entries], Value.fields (.mapping entries), true⟩
  | value => ⟨[value], [], false⟩

def take? (arguments : Arguments) : Option Text → Option (Value × Arguments)
  | some name => (arguments.named.lookup name).map (·, arguments)
  | none =>
    match arguments.values with
    | [] => none
    | value :: values => some (value, { arguments with values })

/-- The rest of a text, behind the beginning of a mark if there is one, with its marks filled. -/
def fill? : Option (Stage × Mark) → Text → Arguments → Option Text
  | none, [], arguments =>
    if arguments.mayRemain || arguments.values.isEmpty then some [] else none
  | some _, [], _ => none
  | none, c :: rest, arguments =>
    if c = '%' then fill? (some (.start, .empty)) rest arguments
    else (fill? none rest arguments).map (c :: ·)
  | some (stage, mark), c :: rest, arguments =>
    match mark.advance? stage c with
    | some more => fill? (some more) rest arguments
    | none =>
      if c = '%' then (fill? none rest arguments).map (c :: ·)
      else do
        let (value, arguments) ← arguments.take? mark.name
        let filled ← mark.converted? c value
        let rest ← fill? none rest arguments
        return filled ++ rest

end Arguments

/-- A text with a value put in that holds its arguments. A mapping that is alone stands for all of
them. What has no length or no first item cannot be used. -/
def fillMarks? (text : Text) (value : Value) : Option Text :=
  (chosen? value).bind fun value => Arguments.fill? none text (.ofValue value)
where
  chosen? : Value → Option Value
    | .tuple [.mapping (entry :: entries)] | .list [.mapping (entry :: entries)]
    | .mapping [(.int 0, .mapping (entry :: entries))]
    | .mapping [(.bool false, .mapping (entry :: entries))] => some (.mapping (entry :: entries))
    | .mapping [(.int 0, value)] => some (.mapping [(.int 0, value)])
    | .mapping [(.bool false, value)] => some (.mapping [(.bool false, value)])
    | .mapping [_] | .set [_] => none
    | .null | .bool _ | .int _ | .number _ | .timestamp _ => none
    | value => some value

end LegibleTrace.Log
