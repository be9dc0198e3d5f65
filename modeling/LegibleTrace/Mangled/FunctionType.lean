import LegibleTrace.Text.Numeral

/-! Wrapper classes that stand for function types. A specialized function carries a tag per
argument and one for its result; a procedure carries its number of arguments. -/
namespace LegibleTrace.Mangled

structure FunctionType where
  domain : List Text
  result : Text
deriving DecidableEq

namespace FunctionType

def render (type : FunctionType) : Text :=
  match type.domain with
  | [] => "(" ++ type.result ++ ")"
  | [argument] => "(" ++ argument ++ " => " ++ type.result ++ ")"
  | domain => "((" ++ Text.join ", " domain ++ ") => " ++ type.result ++ ")"

def primitives : List (Text × Text) :=
  [("Z", "Boolean"), ("I", "Int"), ("J", "Long"), ("V", "Unit"), ("S", "Short"),
   ("F", "Float"), ("C", "Char"), ("D", "Double"), ("L", "Any")]

def primitive (tag : Text) : Text :=
  (primitives.lookup tag).getD "?"

/-- The last tag is the result and those before it are the arguments. -/
def ofTags? (tags : Text) : Option FunctionType :=
  tags.getLast?.map fun result =>
    ⟨tags.dropLast.map fun tag => primitive [tag], primitive [result]⟩

def specializedStart : Text := "scala.runtime.java8.JFunction"
def specializedMark : Text := "#mc"
def specializedEnd : Text := "#sp"
def procedureStart : Text := "scala.runtime.function.JProcedure"
def maxArity : Nat := 22

/-- A specialized function has something before the first mark and a tag after it. -/
def specialized? (name : Text) : Option FunctionType := do
  let body ← Text.before? specializedEnd (← Text.after? specializedStart name)
  let (stem, tags) ← Text.breakOn? specializedMark body
  if stem = [] then none else ofTags? tags

/-- At most two digits that stand for a known arity; all else counts as none. -/
def arity (suffix : Text) : Nat :=
  if suffix.all Char.isDigit ∧ suffix.length ≤ 2 ∧ Text.valueOf 10 suffix ≤ maxArity
  then Text.valueOf 10 suffix
  else 0

def procedure? (name : Text) : Option FunctionType :=
  (Text.after? procedureStart name).map fun suffix =>
    ⟨List.replicate (max (arity suffix) 1) "Any", "Unit"⟩

def ofName? (name : Text) : Option FunctionType :=
  specialized? name <|> procedure? name

end FunctionType
end LegibleTrace.Mangled
