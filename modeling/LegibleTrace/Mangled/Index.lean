import LegibleTrace.Mangled.Token

/-! Tokens filed by their first character, the longest first. Looking a name up inspects one
group only, and the first token of it that fits is the longest of the whole table. -/
namespace LegibleTrace.Mangled

structure Index where
  groups : List (Char × List Token)

namespace Index

/-- The tokens that begin with a character, the longest first and ties in table order. -/
def group (tokens : List Token) (first : Char) : List Token :=
  (tokens.filter (·.text.head? == some first)).mergeSort
    fun a b => b.text.length ≤ a.text.length

def ofTokens (tokens : List Token) : Index where
  groups := (tokens.filterMap (·.text.head?)).eraseDups.map fun first =>
    (first, group tokens first)

/-- The longest token with which `name` begins. -/
def find? (index : Index) : Text → Option Token
  | [] => none
  | c :: rest => ((index.groups.lookup c).getD []).find? (Token.startsAt (c :: rest))

def standard : Index := ofTokens Token.table

end Index
end LegibleTrace.Mangled
