import LegibleTrace.Proofs.Mangled.Shown

/-! One name in both contexts. Only a separator is shown differently as a class and as a method,
so the two forms of a name differ just there, unless a mark of the name itself could be taken for
one. A method is then never a specialized function, whose form has such marks, and is a procedure
where the class is: the marks of either context end the number behind its start. -/
namespace LegibleTrace.Mangled

theorem Token.text_of_mark : ∀ token ∈ table, '#' ∈ token.glyph →
    token.text = ("$hash$" : Text) := by
  decide

theorem lowered_ne_mark {digit : Char} (isDigit : digit.isDigit) : lowered digit ≠ '#' := by
  revert digit
  apply forall_digit
  decide

namespace FunctionType

variable {type : FunctionType} {shown : Text}

theorem arity_of_not_isDigit {suffix : Text} {c : Char} (inside : c ∈ suffix)
    (plain : c.isDigit = false) : arity suffix = 0 := by
  have mixed : ¬ suffix.all Char.isDigit := by
    rw [List.all_eq_true]
    intro digits
    exact Text.not_mem_of_digits digits plain inside
  rw [arity, if_neg]
  exact fun numeral => mixed numeral.1

theorem arity_replace (suffix : Text) : arity (Text.replace '#' "()." suffix) = arity suffix := by
  by_cases marked : '#' ∈ suffix
  · -- The mark is no digit, and neither is the bracket in its place.
    have opening : '(' ∈ Text.replace '#' "()." suffix :=
      List.mem_flatMap.mpr ⟨'#', marked, by decide⟩
    rw [arity_of_not_isDigit marked rfl, arity_of_not_isDigit opening rfl]
  · rw [Text.replace_of_not_mem marked]

theorem procedure?_replace (shown : Text) :
    procedure? (Text.replace '#' "()." shown) = procedure? shown := by
  have unmarked : '#' ∉ procedureStart := by decide
  have unopened : '(' ∉ procedureStart := by decide
  have start : Text.after? procedureStart (Text.replace '#' "()." shown) =
      (Text.after? procedureStart shown).map (Text.replace '#' "().") :=
    Text.after?_replace unmarked unopened
  rw [procedure?, procedure?, start, Option.map_map]
  apply congrArg (fun read => (Text.after? procedureStart shown).map read)
  funext suffix
  simp only [Function.comp_apply, arity_replace]

theorem replace_render (made : ofName? shown = some type) :
    Text.replace '#' "()." type.render = type.render := by
  have absent : '#' ∉ alphabet := by decide
  apply Text.replace_of_not_mem
  exact fun inside => absent (render_subset_of_ofName? made inside)

end FunctionType

section

variable {name : Text} (unmarked : '#' ∉ name) (unhashed : ¬ ("$hash$" : Text) <:+: name)

include unmarked unhashed

theorem Piece.replace_render {piece : Piece} (origin : piece.From name) :
    Text.replace '#' "()." (piece.render .className) = piece.render .methodName := by
  cases piece with
  | token t =>
    have absent : '#' ∉ t.glyph := by
      intro marked
      have hash := Token.text_of_mark t origin.1 marked
      exact unhashed (hash ▸ origin.2)
    exact Text.replace_of_not_mem absent
  | subscript digit =>
    have other : '#' ∉ [lowered digit] := by
      rw [List.mem_singleton]
      exact (lowered_ne_mark origin).symm
    exact Text.replace_of_not_mem other
  | marker => rfl
  | separator => rfl
  | copied c =>
    have other : '#' ∉ [c] := by
      rw [List.mem_singleton]
      rintro rfl
      exact unmarked origin.2
    exact Text.replace_of_not_mem other

theorem scan_methodName :
    scan .methodName name = Text.replace '#' "()." (scan .className name) := by
  rw [scan, scan, Text.replace, List.flatMap_assoc]
  apply List.flatMap_congr
  intro piece member
  have origin := (lawful_cut name).forall_from piece member
  exact (Piece.replace_render unmarked unhashed origin).symm

theorem specialized?_methodName : FunctionType.specialized? (scan .methodName name) = none := by
  apply FunctionType.specialized?_of_unmarked
  rw [scan_methodName unmarked unhashed]
  exact Text.not_mem_replace (by decide)

theorem ofName?_methodName : FunctionType.ofName? (scan .methodName name) =
    FunctionType.procedure? (scan .className name) := by
  have special := specialized?_methodName unmarked unhashed
  rw [FunctionType.ofName?_of_unspecialized special, scan_methodName unmarked unhashed,
    FunctionType.procedure?_replace]

theorem display_methodName
    (unspecialized : FunctionType.specialized? (scan .className name) = none) :
    display .methodName name =
      Text.replace '#' "()." (display .className name) ++ ("()" : Text) := by
  have inClass := FunctionType.ofName?_of_unspecialized unspecialized
  have inMethod := ofName?_methodName unmarked unhashed
  -- Both forms are made from the procedure that the class stands for, if there is one.
  cases made : FunctionType.procedure? (scan .className name) with
  | none =>
    rw [made] at inClass inMethod
    rw [display_of_none inClass, display_of_none inMethod, scan_methodName unmarked unhashed]
    simp [Context.ending]
  | some type =>
    rw [made] at inClass inMethod
    have same := FunctionType.replace_render inClass
    rw [display_of_some inClass, display_of_some inMethod]
    simp only [Context.ending, List.append_nil, same]

end

/-- A name without a mark, and without the token that is shown as one, is shown as a method as it
is shown as a class with calls for its separators and a call at its end, unless the class stands
for a specialized function. No such method does. -/
theorem contexts_differ_in_separators (name : Text) (unmarked : '#' ∉ name)
    (unhashed : ¬ ("$hash$" : Text) <:+: name) :
    scan .methodName name = Text.replace '#' "()." (scan .className name) ∧
      (FunctionType.specialized? (scan .className name) = none →
        display .methodName name =
          Text.replace '#' "()." (display .className name) ++ ("()" : Text)) ∧
      FunctionType.specialized? (scan .methodName name) = none := by
  refine ⟨scan_methodName unmarked unhashed, ?_, specialized?_methodName unmarked unhashed⟩
  intro unspecialized
  exact display_methodName unmarked unhashed unspecialized

theorem separators_of_anonymous_class :
    let name : Text := "Foo$Bar$anon$1$x"
    ('#' ∉ name ∧ ¬ ("$hash$" : Text) <:+: name ∧
        FunctionType.specialized? (scan .className name) = none) ∧
      display .methodName name = "Foo().Barα₁().x()".toList := by
  intro name
  have unmarked : '#' ∉ name := by decide
  have unhashed : ¬ ("$hash$" : Text) <:+: name := by decide +kernel
  have unspecialized : FunctionType.specialized? (scan .className "Foo$Bar$anon$1$x") = none := by
    cbv
  have method := (contexts_differ_in_separators name unmarked unhashed).2.1 unspecialized
  have shown : display .className "Foo$Bar$anon$1$x" = "Foo#Barα₁#x".toList := by cbv
  refine ⟨⟨unmarked, unhashed, unspecialized⟩, ?_⟩
  rw [method, shown]
  decide

-- The same wrapper is a function type as a class and three calls as a method.
example : display .className "scala.runtime.java8.JFunction1$mcII$sp" = "(Int => Int)".toList ∧
    display .methodName "scala.runtime.java8.JFunction1$mcII$sp" =
      "scala.runtime.java8.JFunction1().mcII().sp()".toList := by
  constructor <;> cbv

end LegibleTrace.Mangled
