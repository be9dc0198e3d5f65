import LegibleTrace.Text

/-! The words that a compiler puts into identifiers, and the glyph that stands for each. A
token that announces an anonymous number sends the digits behind it below the line. -/
namespace LegibleTrace.Mangled

structure Token where
  text : Text
  glyph : Text
  digits : Bool
deriving DecidableEq

namespace Token

def plain (text glyph : Text) : Token := ⟨text, glyph, false⟩
def numbered (text glyph : Text) : Token := ⟨text, glyph, true⟩

def table : List Token :=
  [plain "<init>" "ⲛ",
   plain "initial$" "ι",
   numbered "lzyINIT" "ℓ",
   plain "super$" "ς",
   plain "$_avoid_name_clash_$" "′",
   plain "$amp$" "&",
   numbered "$anonfun$" "λ",
   numbered "$anon$" "α",
   plain "$at$" "@",
   plain "$bang$" "!",
   plain "$bar$" "|",
   plain "$bslash$" "\\",
   plain "$colon$" ":",
   plain "$default$" "δ",
   plain "$direct$" "⋮ϕ",
   plain "$div$" "/",
   plain "$eq$" "=",
   plain "$extension$" "⋮ε",
   plain "$greater$" ">",
   plain "$hash$" "#",
   plain "$less$" "<",
   plain "$minus$" "-",
   plain "$package$" "⋮π",
   plain "$percent$" "%",
   plain "$plus$" "+",
   plain "$qmark$" "?",
   plain "$tilde$" "~",
   plain "$times$" "*",
   plain "$up$" "^"]

def startsAt (name : Text) (token : Token) : Bool :=
  token.text.isPrefixOf name

end Token
end LegibleTrace.Mangled
