import LegibleTrace.Proofs.Mangled.Shown
import Mathlib.Data.Nat.Digits.Defs

/-! Procedures and their numbers of arguments. A number is read where it has at most two digits;
zeros in front of it make it longer and not larger, so a longer numeral can have a value that is
never read. -/
namespace LegibleTrace.Mangled

/-- The number that a row of decimal digits stands for, the last digit having the least weight. -/
def decimal (digits : Text) : Nat :=
  Nat.ofDigits 10 (digits.reverse.map fun digit => digit.toNat - '0'.toNat)

theorem decimal_concat (digits : Text) (digit : Char) :
    decimal (digits ++ [digit]) = digit.toNat - '0'.toNat + 10 * decimal digits := by
  simp [decimal, Nat.ofDigits_cons]

theorem valueOf_eq_decimal {digits : Text} (numeral : ∀ digit ∈ digits, digit.isDigit) :
    Text.valueOf 10 digits = decimal digits := by
  induction digits using List.reverseRecOn with
  | nil => rfl
  | append_singleton digits digit ih =>
    rw [List.forall_mem_append] at numeral
    have value : Text.digitValue? digit = some (digit.toNat - '0'.toNat) := by
      simp [Text.digitValue?, numeral.2 digit]
    rw [decimal_concat, ← ih numeral.1, Text.valueOf, List.foldl_append, List.foldl_cons, value]
    simp [Text.valueOf, Nat.add_comm]

namespace FunctionType

/-- The number of arguments that a suffix stands for by its value: that of a numeral up to the
largest known number, and none for any other suffix. -/
def namedArity (suffix : Text) : Nat :=
  if suffix ≠ [] ∧ suffix.all Char.isDigit ∧ decimal suffix ≤ 22 then decimal suffix else 0

/-- How a procedure of so many arguments is written. -/
def procedureText (arguments : Nat) : Text :=
  if arguments < 2 then "(Any => Unit)"
  else "((" ++ Text.join ", " (List.replicate arguments "Any") ++ ") => Unit)"

theorem arity_of_short {suffix : Text} (short : suffix.length ≤ 2) :
    arity suffix = namedArity suffix := by
  by_cases numeral : suffix.all Char.isDigit
  · have value := valueOf_eq_decimal (List.all_eq_true.mp numeral)
    cases suffix with
    | nil => rfl
    | cons digit digits =>
      rw [arity, namedArity, value]
      simp only [numeral, short, maxArity, ne_eq, reduceCtorEq, not_false_eq_true, true_and]
  · simp [arity, namedArity, numeral]

theorem arity_eq (suffix : Text) :
    arity suffix = if suffix.length ≤ 2 then namedArity suffix else 0 := by
  split_ifs with short
  · exact arity_of_short short
  · rw [arity, if_neg]
    exact fun numeral => short numeral.2.1

theorem render_procedure (arguments : Nat) :
    render ⟨List.replicate (max arguments 1) "Any", "Unit"⟩ = procedureText arguments := by
  match arguments with
  | 0 | 1 => rfl
  | arguments + 2 =>
    have more : ¬ arguments + 2 < 2 := by omega
    rw [procedureText, if_neg more, Nat.max_eq_left (by omega)]
    simp [render, List.replicate_succ]

-- The second character is a bracket only where there are several arguments.
theorem procedureText_eq_iff (arguments : Nat) :
    procedureText 0 = procedureText arguments ↔ arguments < 2 := by
  constructor
  · intro same
    by_contra several
    have second := congrArg (fun text => text[1]?) same
    simp [procedureText, several] at second
  · intro few
    simp [procedureText, few]

theorem specialized?_procedure (suffix : Text) :
    specialized? (procedureStart ++ suffix) = none := by
  rw [specialized?_eq_none_iff]
  rintro ⟨body, stem, tags, whole, -⟩
  have procedure : procedureStart <+: procedureStart ++ suffix := List.prefix_append _ _
  have special : specializedStart <+: procedureStart ++ suffix := by
    rw [whole, List.append_assoc]
    exact List.prefix_append _ _
  rcases List.prefix_or_prefix_of_prefix procedure special with begins | begins
  · exact absurd begins (by decide)
  · exact absurd begins (by decide)

theorem ofName?_procedure (suffix : Text) :
    ofName? (procedureStart ++ suffix) =
      some ⟨List.replicate (max (arity suffix) 1) "Any", "Unit"⟩ := by
  rw [ofName?_of_unspecialized (specialized?_procedure suffix), procedure?_eq_some_iff]
  exact ⟨suffix, rfl, rfl⟩

end FunctionType

open FunctionType

/-- A procedure is shown with as many arguments as its suffix stands for by its value, or with one
if that is none, as long as the suffix has no more than two characters; with a longer one it is
shown with a single argument, whatever the value. A method is shown with a call behind it. -/
theorem display_procedure (context : Context) (name suffix : Text)
    (scanned : scan context name = "scala.runtime.function.JProcedure" ++ suffix) :
    ∃ text, display context name = text ++ (if context = .methodName then "()" else "") ∧
      text = procedureText (if suffix.length ≤ 2 then namedArity suffix else 0) ∧
      (text = procedureText (namedArity suffix) ↔ suffix.length ≤ 2 ∨ namedArity suffix < 2) := by
  have made := ofName?_procedure suffix
  have start : ("scala.runtime.function.JProcedure" : Text) = procedureStart := rfl
  rw [← start, ← scanned] at made
  refine ⟨procedureText (arity suffix), ?_, ?_, ?_⟩
  · rw [display_of_some made, render_procedure]
    cases context <;> rfl
  · rw [arity_eq]
  · rw [arity_eq]
    split_ifs with short
    · simp [short]
    · simpa [short] using procedureText_eq_iff (namedArity suffix)

theorem procedure_of_two_digits :
    scan .methodName "scala.runtime.function.JProcedure03" =
        "scala.runtime.function.JProcedure" ++ "03" ∧
      display .methodName "scala.runtime.function.JProcedure03" =
        "((Any, Any, Any) => Unit)()".toList := by
  have scanned : scan .methodName "scala.runtime.function.JProcedure03" =
      "scala.runtime.function.JProcedure" ++ "03" := by cbv
  obtain ⟨text, shown, written, -⟩ := display_procedure .methodName _ _ scanned
  refine ⟨scanned, ?_⟩
  rw [shown, written]
  decide

/-- The value of a numeral is not read behind more than one zero. -/
theorem zeros_before_arity :
    scan .className "scala.runtime.function.JProcedure002" =
        "scala.runtime.function.JProcedure" ++ "002" ∧
      decimal "002" = 2 ∧
      display .className "scala.runtime.function.JProcedure002" ≠
        "((Any, Any) => Unit)".toList := by
  refine ⟨by cbv, by decide, ?_⟩
  have shown : display .className "scala.runtime.function.JProcedure002" =
      "(Any => Unit)".toList := by cbv
  rw [shown]
  decide

end LegibleTrace.Mangled
