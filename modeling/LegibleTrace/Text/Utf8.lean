import LegibleTrace.Text

/-! Bytes read as UTF-8. Where they are not, the longest beginning of a character gives one mark
of replacement, and so does a byte that begins none. -/
namespace LegibleTrace.Text

def replacement : Char := '\uFFFD'

/-- A character whose first bytes are read, with the ranges of those that have to follow. -/
structure Begun where
  code : Nat
  next : Nat × Nat
  rest : List (Nat × Nat)

def following : Nat × Nat := (0x80, 0xBF)

/-- What a byte writes, and what it begins. -/
def begin (byte : Nat) : Text × Option Begun :=
  if byte < 0x80 then ([Char.ofNat byte], none)
  else if 0xC2 ≤ byte ∧ byte ≤ 0xDF then ([], some ⟨byte - 0xC0, following, []⟩)
  else if 0xE0 ≤ byte ∧ byte ≤ 0xEF then
    let second := if byte = 0xE0 then (0xA0, 0xBF)
      else if byte = 0xED then (0x80, 0x9F) else following
    ([], some ⟨byte - 0xE0, second, [following]⟩)
  else if 0xF0 ≤ byte ∧ byte ≤ 0xF4 then
    let second := if byte = 0xF0 then (0x90, 0xBF)
      else if byte = 0xF4 then (0x80, 0x8F) else following
    ([], some ⟨byte - 0xF0, second, [following, following]⟩)
  else ([replacement], none)

def Begun.advance (begun : Begun) (byte : Nat) : Text × Option Begun :=
  if begun.next.1 ≤ byte ∧ byte ≤ begun.next.2 then
    let code := 64 * begun.code + (byte - 0x80)
    match begun.rest with
    | [] => ([Char.ofNat code], none)
    | next :: rest => ([], some ⟨code, next, rest⟩)
  else
    let (text, again) := begin byte
    (replacement :: text, again)

def ofUtf8From : Option Begun → List UInt8 → Text
  | begun, [] => if begun.isSome then [replacement] else []
  | begun, byte :: bytes =>
    let (text, next) := match begun with
      | none => begin byte.toNat
      | some begun => begun.advance byte.toNat
    text ++ ofUtf8From next bytes

def ofUtf8 (bytes : List UInt8) : Text :=
  ofUtf8From none bytes

end LegibleTrace.Text
