import LegibleTrace.Text.Numeral
import LegibleTrace.Text.Printable

/-! Quoted texts for error messages and log lines. Apostrophes enclose a text unless it holds
one and no quotation mark; what cannot be printed is written by its code. -/
namespace LegibleTrace.Text

def enclosing (text : Text) : Char :=
  if '\'' ∈ text ∧ '"' ∉ text then '"' else '\''

def escape (enclosing c : Char) : Text :=
  if c = enclosing ∨ c = '\\' then ['\\', c]
  else if c = '\t' then "\\t"
  else if c = '\n' then "\\n"
  else if c = '\r' then "\\r"
  else if isPrintable c then [c]
  else if c.toNat < 0x100 then "\\x" ++ hexadecimal 2 c.toNat
  else if c.toNat < 0x10000 then "\\u" ++ hexadecimal 4 c.toNat
  else "\\U" ++ hexadecimal 8 c.toNat

def quoted (text : Text) : Text :=
  let mark := enclosing text
  mark :: text.flatMap (escape mark) ++ [mark]

/-- Bytes as a text between apostrophes; those that are not in ASCII are written by their code. -/
def quotedBytes (content : List UInt8) : Text :=
  let text : Text := content.map fun byte => Char.ofNat byte.toNat
  let mark := enclosing text
  'b' :: mark :: text.flatMap (fun c =>
    if c.toNat < 0x7F then escape mark c else "\\x" ++ hexadecimal 2 c.toNat) ++ [mark]

end LegibleTrace.Text
