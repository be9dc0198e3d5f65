import LegibleTrace.Text

/-! File paths as they are shown: repeated separators, single dots and a trailing separator
are left out and double dots stay. Exactly two separators at the beginning are a root of
their own. -/
namespace LegibleTrace

structure Path where
  root : Text
  parts : List Text
deriving DecidableEq

namespace Path

def ofText (text : Text) : Path :=
  let lead := (text.takeWhile (· = '/')).length
  { root := if lead = 0 then [] else if lead = 2 then "//" else "/"
    parts := (Text.split '/' text).filter fun part => part ≠ [] ∧ part ≠ ['.'] }

def text (path : Path) : Text :=
  if path.root = [] ∧ path.parts = [] then "." else path.root ++ Text.join "/" path.parts

end Path
end LegibleTrace
