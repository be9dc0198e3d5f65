import LegibleTrace.Text.Numeral

/-! Binary numbers with 53 significant bits. A decimal becomes the nearest of them, a tie goes
to the even significand, and what is too large becomes infinite. -/
namespace LegibleTrace

/-- A finite number is its significand times a power of two. -/
inductive Binary64
  | finite (significand exponent : Int)
  | infinite (negative : Bool)
  | nan
deriving DecidableEq

namespace Binary64

/-- The quotient rounded to the nearest natural number, ties to even. -/
def roundHalfEven (numerator denominator : Nat) : Nat :=
  let quotient := numerator / denominator
  let twice := 2 * (numerator % denominator)
  if twice < denominator ∨ (twice = denominator ∧ quotient % 2 = 0) then quotient
  else quotient + 1

/-- The quotient divided by a power of two and rounded. -/
def scaled (numerator denominator : Nat) : Int → Nat
  | .ofNat shift => roundHalfEven numerator (denominator <<< shift)
  | .negSucc shift => roundHalfEven (numerator <<< (shift + 1)) denominator

/-- The exponent of the last significant bit, not below that of the least number. -/
def lastBit (numerator denominator : Nat) : Int :=
  let guess : Int := (numerator.log2 : Int) - (denominator.log2 : Int)
  let below : Bool :=
    match guess with
    | .ofNat shift => numerator < denominator <<< shift
    | .negSucc shift => numerator <<< (shift + 1) < denominator
  max ((if below then guess - 1 else guess) - 52) (-1074)

def ofQuotient (negative : Bool) (numerator denominator : Nat) : Binary64 :=
  if numerator = 0 then finite 0 0 else
  let exponent := lastBit numerator denominator
  let significand := scaled numerator denominator exponent
  if 1024 ≤ exponent + significand.log2 then infinite negative
  else finite (if negative then -significand else significand) exponent

/-- The number nearest to `mantissa * 10 ^ exponent`. Far outside the range no power is
computed. -/
def ofDecimal (negative : Bool) (mantissa : Nat) (exponent : Int) : Binary64 :=
  let size := exponent + (Nat.toDigits 10 mantissa).length
  if mantissa = 0 ∨ size < -400 then finite 0 0
  else if 400 < size then infinite negative
  else match exponent with
    | .ofNat power => ofQuotient negative (mantissa * Nat.pow 10 power) 1
    | .negSucc power => ofQuotient negative mantissa (Nat.pow 10 (power + 1))

/-- The integer that a number without a fraction is. -/
def toInt? : Binary64 → Option Int
  | finite significand (.ofNat shift) => some (significand * Nat.pow 2 shift)
  | finite significand (.negSucc shift) =>
    let unit : Int := Nat.pow 2 (shift + 1)
    if significand % unit = 0 then some (significand / unit) else none
  | infinite _ | nan => none

/-- The integer that is left without the fraction. -/
def truncated? : Binary64 → Option Int
  | finite significand (.ofNat shift) => some (significand * Nat.pow 2 shift)
  | finite significand (.negSucc shift) => some (significand.tdiv (Nat.pow 2 (shift + 1)))
  | infinite _ | nan => none

def isFinite : Binary64 → Bool
  | finite _ _ => true
  | infinite _ | nan => false

def isZero : Binary64 → Bool
  | finite significand _ => significand == 0
  | infinite _ | nan => false

/-- All decimal digits of a number, at least one of them behind the point. -/
def text : Binary64 → Text
  | finite significand (.ofNat shift) => Text.ofInt (significand * Nat.pow 2 shift) ++ ".0"
  | finite significand (.negSucc shift) =>
    let places := shift + 1
    let digits := Text.ofNat (significand.natAbs * Nat.pow 5 places)
    let digits := List.replicate (places + 1 - digits.length) '0' ++ digits
    let whole := digits.take (digits.length - places)
    let fraction := ((digits.drop whole.length).reverse.dropWhile (· = '0')).reverse
    (if significand < 0 then ['-'] else []) ++ whole ++ ['.']
      ++ (if fraction = [] then ['0'] else fraction)
  | infinite negative => if negative then "-inf" else "inf"
  | nan => "nan"

end Binary64
end LegibleTrace
