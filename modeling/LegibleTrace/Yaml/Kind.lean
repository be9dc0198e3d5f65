import LegibleTrace.Text.Numeral
import LegibleTrace.Value

/-! What a plain scalar stands for. Words for nothing and for truth come in three spellings;
integers have four bases and minutes, numbers a point; a day or a moment is a timestamp; all
else is text. A day that no month has, or digits that are none, have no value. -/
namespace LegibleTrace.Yaml

/-- A scalar is refused, or it is written like a value that does not exist. -/
inductive Fault
  | refused
  | noSuchValue

/-- A word in small letters, with a capital, or in capitals. -/
def spellings (word : Text) : List Text :=
  match word with
  | [] => []
  | c :: rest => [c :: rest, c.toUpper :: rest, c.toUpper :: rest.map Char.toUpper]

def bool? (text : Text) : Option Bool :=
  if text ∈ (["yes", "true", "on"].map String.toList).flatMap spellings then some true
  else if text ∈ (["no", "false", "off"].map String.toList).flatMap spellings then some false
  else none

def isNull (text : Text) : Bool :=
  text ∈ [] :: ['~'] :: spellings "null"

/-- Splits off a sign; `true` for a minus. -/
def signed : Text → Bool × Text
  | '-' :: rest => (true, rest)
  | '+' :: rest => (false, rest)
  | text => (false, text)

/-- A run of digits between which low lines may stand, without these. -/
def digitRun? (base : Nat) (text : Text) : Option Text :=
  if text ≠ [] ∧ text.all (fun c => c = '_' || Text.isDigitOf base c) then
    some (text.filter (· != '_'))
  else none

/-- A decimal integer has at most so many digits. -/
def maxDigits : Nat := 4300

def valueOfRun (base : Nat) (digits : Text) : Except Fault Nat :=
  if digits = [] ∨ (base = 10 ∧ maxDigits < digits.length) then .error .noSuchValue
  else .ok (Text.valueOf base digits)

/-- A part of sixty: one digit, or two below sixty. -/
def sixtieth? : Text → Option Nat
  | [c] => if c.isDigit then some (Text.valueOf 10 [c]) else none
  | [c, d] =>
    if Text.isDigitOf 6 c ∧ d.isDigit then some (Text.valueOf 10 [c, d]) else none
  | _ => none

/-- The digits of a whole and its parts between colons, each a sixtieth of the one before. -/
def sixties? (text : Text) : Option (Text × List Nat) :=
  match Text.split ':' text with
  | whole :: part :: parts => do
    if whole.head?.any Char.isDigit then
      let whole ← digitRun? 10 whole
      let parts ← (part :: parts).mapM sixtieth?
      return (whole, parts)
    else none
  | _ => none

def inSixties (whole : Nat) (parts : List Nat) : Nat :=
  parts.foldl (fun value part => 60 * value + part) whole

def natural? : Text → Option (Except Fault Nat)
  | '0' :: [] => some (.ok 0)
  | '0' :: 'b' :: digits => (digitRun? 2 digits).map (valueOfRun 2)
  | '0' :: 'x' :: digits => (digitRun? 16 digits).map (valueOfRun 16)
  | '0' :: digits => (digitRun? 8 digits).map fun digits => valueOfRun 8 ('0' :: digits)
  | c :: digits =>
    if c.isDigit then
      (digitRun? 10 (c :: digits)).map (valueOfRun 10) <|>
        (sixties? (c :: digits)).map fun (whole, parts) =>
          (valueOfRun 10 whole).map (inSixties · parts)
    else none
  | [] => none

def int? (text : Text) : Option (Except Fault Int) :=
  let (negative, body) := signed text
  (natural? body).map fun size =>
    size.map fun size => if negative then -(size : Int) else size

/-- An exponent, which always has a sign. -/
def exponent? : Text → Option Int
  | [] => some 0
  | c :: sign :: digits =>
    if (c = 'e' ∨ c = 'E') ∧ (sign = '+' ∨ sign = '-') ∧ digits ≠ [] ∧ digits.all Char.isDigit then
      let size : Int := Text.valueOf 10 digits
      some (if sign = '-' then -size else size)
    else none
  | _ => none

/-- The digits after the point, with an exponent behind them. -/
def fraction? (text : Text) : Option (Text × Int) :=
  let (digits, rest) := text.span fun c => c = '_' || c.isDigit
  (exponent? rest).map (digits.filter (· != '_'), ·)

def finite? (negative hasSign : Bool) (text : Text) : Option Binary64 := do
  let (whole, rest) := text.span (· != '.')
  let tail ← Text.after? ['.'] rest
  let (digits, exponent) ← fraction? tail
  let number (whole : Nat) : Binary64 :=
    .ofDecimal negative (Text.valueOf 10 (Text.ofNat whole ++ digits)) (exponent - digits.length)
  if whole = [] then
    if !hasSign && tail.head?.any Char.isDigit then some (number 0) else none
  else if whole.head?.any Char.isDigit then
    match digitRun? 10 whole with
    | some digits => some (number (Text.valueOf 10 digits))
    | none =>
      if tail.all (fun c => c = '_' || c.isDigit) then
        (sixties? whole).map fun (whole, parts) =>
          number (inSixties (Text.valueOf 10 whole) parts)
      else none
  else none

def number? (text : Text) : Option Binary64 :=
  let (negative, body) := signed text
  let hasSign := body.length < text.length
  if body ∈ (["inf", "Inf", "INF"].map fun word => '.' :: word.toList) then
    some (.infinite negative)
  else if text ∈ (["nan", "NaN", "NAN"].map fun word => '.' :: word.toList) then some .nan
  else finite? negative hasSign body

/-- Takes between `least` and `most` digits off a text. -/
def digits? (least most : Nat) (text : Text) : Option (Nat × Text) :=
  let digits := (text.take most).takeWhile Char.isDigit
  if least ≤ digits.length then some (Text.valueOf 10 digits, text.drop digits.length) else none

/-- A time of day, with the minutes by which it differs from universal time. -/
structure Time where
  hour : Nat
  minute : Nat
  second : Nat
  offset : Nat

structure Moment where
  year : Nat
  month : Nat
  day : Nat
  time : Option Time

def Time.isPossible (time : Time) : Bool :=
  time.hour < 24 && time.minute < 60 && time.second < 60 && time.offset < 24 * 60

def isLeapYear (year : Nat) : Bool :=
  year % 4 = 0 && (year % 100 ≠ 0 || year % 400 = 0)

def daysOf (year month : Nat) : Nat :=
  if month = 2 then if isLeapYear year then 29 else 28
  else if month ∈ [4, 6, 9, 11] then 30 else 31

def Moment.isPossible (moment : Moment) : Bool :=
  1 ≤ moment.year && 1 ≤ moment.month && moment.month ≤ 12 && 1 ≤ moment.day &&
    moment.day ≤ daysOf moment.year moment.month && moment.time.all Time.isPossible

/-- The difference to universal time at the end of a moment. -/
def offset? (text : Text) : Option Nat :=
  match text.dropWhile (fun c => c = ' ' || c = '\t') with
  | [] => if text = [] then some 0 else none
  | ['Z'] => some 0
  | c :: rest => do
    guard (c = '+' || c = '-')
    let (hours, rest) ← digits? 1 2 rest
    if rest = [] then return 60 * hours
    let (minutes, rest) ← digits? 2 2 (← Text.after? [':'] rest)
    guard (rest = [])
    return 60 * hours + minutes

/-- The time of day after a date. -/
def time? (text : Text) : Option Time := do
  let (hour, text) ← digits? 1 2 text
  let (minute, text) ← digits? 2 2 (← Text.after? [':'] text)
  let (second, text) ← digits? 2 2 (← Text.after? [':'] text)
  let offset ← offset? (match text with
    | '.' :: rest => rest.dropWhile Char.isDigit
    | rest => rest)
  return ⟨hour, minute, second, offset⟩

def moment? (text : Text) : Option Moment := do
  let (year, rest) ← digits? 4 4 text
  let (month, rest) ← digits? 1 2 (← Text.after? ['-'] rest)
  let (day, rest) ← digits? 1 2 (← Text.after? ['-'] rest)
  match rest with
  | [] => if text.length = 10 then some ⟨year, month, day, none⟩ else none
  | c :: rest =>
    let time ← if c = 'T' ∨ c = 't' then time? rest
      else if c = ' ' ∨ c = '\t' then time? (rest.dropWhile fun c => c = ' ' || c = '\t')
      else none
    return ⟨year, month, day, some time⟩

/-- The value of a plain scalar. Two marks are kept for uses that a document here has not. -/
def plainValue (text : Text) : Except Fault Value :=
  if isNull text then .ok .null
  else match bool? text, number? text, int? text, moment? text with
    | some value, _, _, _ => .ok (.bool value)
    | none, some value, _, _ => .ok (.number value)
    | none, none, some value, _ => value.map .int
    | none, none, none, some moment =>
      if moment.isPossible then .ok (.timestamp text) else .error .noSuchValue
    | none, none, none, none =>
      if text = ['='] ∨ text = ['<', '<'] then .error .refused else .ok (.text text)

end LegibleTrace.Yaml
