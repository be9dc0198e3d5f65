import LegibleTrace.Text

/-! Blank characters in all scripts, and trimming. Four controls separate blocks of text: they
count as blank for the eye but are no white space of a numeral. -/
namespace LegibleTrace.Text

def isWhiteSpace (c : Char) : Bool :=
  let code := c.toNat
  (0x9 ≤ code && code ≤ 0xD) || (0x2000 ≤ code && code ≤ 0x200A)
    || [0x20, 0x85, 0xA0, 0x1680, 0x2028, 0x2029, 0x202F, 0x205F, 0x3000].contains code

def isBlank (c : Char) : Bool :=
  isWhiteSpace c || (0x1C ≤ c.toNat && c.toNat ≤ 0x1F)

def trimBy (isOuter : Char → Bool) (text : Text) : Text :=
  ((text.dropWhile isOuter).reverse.dropWhile isOuter).reverse

def trim : Text → Text := trimBy isWhiteSpace

def strip : Text → Text := trimBy isBlank

end LegibleTrace.Text
