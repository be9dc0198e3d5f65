import LegibleTrace.Text.Numeral
import LegibleTrace.Value

/-! Reading JSON. Besides the standard, the words for infinite numbers and for no number are
read; of several entries with one key the last counts. -/
namespace LegibleTrace.Json

def isBlank (c : Char) : Bool :=
  c ∈ [' ', '\t', '\n', '\r']

def skip (text : Text) : Text :=
  text.dropWhile isBlank

def escapes : List (Char × Char) :=
  [('"', '"'), ('\\', '\\'), ('/', '/'), ('b', '\x08'), ('f', '\x0c'), ('n', '\n'),
   ('r', '\r'), ('t', '\t')]

/-- The codes of a text after its opening quotation mark, and what follows the closing one. -/
def codes? : Text → Option (List Nat × Text)
  | [] => none
  | '"' :: rest => some ([], rest)
  | '\\' :: 'u' :: a :: b :: c :: d :: rest =>
    if [a, b, c, d].all (Text.isDigitOf 16) then
      (codes? rest).map fun (codes, tail) => (Text.valueOf 16 [a, b, c, d] :: codes, tail)
    else none
  | '\\' :: c :: rest => do
    let plain ← escapes.lookup c
    let (codes, tail) ← codes? rest
    return (plain.toNat :: codes, tail)
  | c :: rest =>
    if c = '\\' ∨ c.toNat < 0x20 then none
    else (codes? rest).map fun (codes, tail) => (c.toNat :: codes, tail)

/-- Half a character that stands alone is replaced. -/
def charOf (code : Nat) : Char :=
  if code.isValidChar then Char.ofNat code else '\ufffd'

/-- A high and a low half that stand together are one character. -/
def joinHalves : List Nat → Text
  | high :: low :: codes =>
    if 0xD800 ≤ high ∧ high < 0xDC00 ∧ 0xDC00 ≤ low ∧ low < 0xE000 then
      Char.ofNat (0x10000 + (high - 0xD800) * 0x400 + (low - 0xDC00)) :: joinHalves codes
    else charOf high :: joinHalves (low :: codes)
  | [code] => [charOf code]
  | [] => []

def text? (text : Text) : Option (Text × Text) :=
  (codes? text).map fun (codes, rest) => (joinHalves codes, rest)

/-- A leading zero is a whole part of its own. -/
def wholePart : Text → Text × Text
  | '0' :: rest => (['0'], rest)
  | text => text.span Char.isDigit

def fraction : Text → Text × Text
  | '.' :: rest =>
    match rest.span Char.isDigit with
    | ([], _) => ([], '.' :: rest)
    | parts => parts
  | text => ([], text)

def exponent : Text → Option Int × Text
  | c :: rest =>
    let (negative, body) : Bool × Text :=
      match rest with
      | '-' :: body => (true, body)
      | '+' :: body => (false, body)
      | body => (false, body)
    match c == 'e' || c == 'E', body.span Char.isDigit with
    | true, (digit :: digits, tail) =>
      let size : Int := Text.valueOf 10 (digit :: digits)
      (some (if negative then -size else size), tail)
    | _, _ => (none, c :: rest)
  | [] => (none, [])

def number? (text : Text) : Option (Value × Text) :=
  let (negative, body) : Bool × Text :=
    match text with
    | '-' :: body => (true, body)
    | body => (false, body)
  let (whole, rest) := wholePart body
  if whole = [] then none else
  let (digits, rest) := fraction rest
  let (power, rest) := exponent rest
  if digits = [] ∧ power = none then
    let size : Int := Text.valueOf 10 whole
    some (.int (if negative then -size else size), rest)
  else
    some (.number (Binary64.ofDecimal negative (Text.valueOf 10 (whole ++ digits))
      (power.getD 0 - digits.length)), rest)

def words : List (Text × Value) :=
  [("null", .null), ("true", .bool true), ("false", .bool false),
   ("NaN", .number .nan), ("Infinity", .number (.infinite false)),
   ("-Infinity", .number (.infinite true))]

def word? (text : Text) : Option (Value × Text) :=
  words.findSome? fun (word, value) => (Text.after? word text).map (value, ·)

/-- A mapping of the given entries, the last of each key. -/
def mappingOf (entries : Fields) : Value :=
  .mapping (((Fields.override [] entries)).map fun (key, value) => (.text key, value))

mutual

/-- The value at the head of a text; `depth` bounds the steps. -/
def value? : Nat → Text → Option (Value × Text)
  | 0, _ => none
  | depth + 1, text =>
    match text with
    | '"' :: rest => (text? rest).map fun (content, tail) => (.text content, tail)
    | '[' :: rest =>
      match skip rest with
      | ']' :: tail => some (.list [], tail)
      | items => (items? depth items).map fun (items, tail) => (.list items, tail)
    | '\x7b' :: rest =>
      match skip rest with
      | '\x7d' :: tail => some (.mapping [], tail)
      | entries => (entries? depth entries).map fun (entries, tail) => (mappingOf entries, tail)
    | text => word? text <|> number? text

def items? : Nat → Text → Option (List Value × Text)
  | 0, _ => none
  | depth + 1, text => do
    let (item, rest) ← value? depth text
    match skip rest with
    | ',' :: rest =>
      let (items, tail) ← items? depth (skip rest)
      return (item :: items, tail)
    | ']' :: tail => return ([item], tail)
    | _ => none

def entries? : Nat → Text → Option (Fields × Text)
  | 0, _ => none
  | depth + 1, '"' :: text => do
    let (key, rest) ← text? text
    let rest ← Text.after? [':'] (skip rest)
    let (value, rest) ← value? depth (skip rest)
    match skip rest with
    | ',' :: rest =>
      let (entries, tail) ← entries? depth (skip rest)
      return ((key, value) :: entries, tail)
    | '\x7d' :: tail => return ([(key, value)], tail)
    | _ => none
  | _, _ => none

end

def read? (text : Text) : Option Value := do
  let (value, rest) ← value? (text.length + 1) (skip text)
  if skip rest = [] then some value else none

end LegibleTrace.Json
