import LegibleTrace.Text

/-! Decimal numerals and the digits of other bases. A numeral is read digit by digit from the
left, so leading zeros change nothing. -/
namespace LegibleTrace.Text

def ofNat (n : Nat) : Text :=
  Nat.toDigits 10 n

def ofInt : Int → Text
  | .ofNat n => ofNat n
  | .negSucc n => '-' :: ofNat (n + 1)

/-- The value of a digit in any base up to sixteen. -/
def digitValue? (c : Char) : Option Nat :=
  if c.isDigit then some (c.toNat - '0'.toNat)
  else if c ∈ "abcdef".toList then some (c.toNat - 'a'.toNat + 10)
  else if c ∈ "ABCDEF".toList then some (c.toNat - 'A'.toNat + 10)
  else none

def isDigitOf (base : Nat) (c : Char) : Bool :=
  (digitValue? c).any (· < base)

/-- The value of a run of digits; characters that are no digits count as zero. -/
def valueOf (base : Nat) (digits : Text) : Nat :=
  digits.foldl (fun value c => base * value + (digitValue? c).getD 0) 0

/-- The lowercase digits of `n`, at least `width` of them. -/
def hexadecimal (width n : Nat) : Text :=
  let digits := Nat.toDigits 16 n
  List.replicate (width - digits.length) '0' ++ digits

end LegibleTrace.Text
