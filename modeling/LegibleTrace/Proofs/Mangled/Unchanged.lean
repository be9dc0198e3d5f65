import LegibleTrace.Proofs.Mangled.Residue

/-! The names that are shown as they stand. Where no token and no dollar sign stands in a name,
every character is copied; where one does, it is missing from what is shown. A copied name is
then changed only if it spells a function type itself. -/
namespace LegibleTrace.Mangled

theorem Lawful.map_copied {name : Text}
    (untokened : ∀ token ∈ Token.table, ¬ token.text <:+: name) (ordinary : '$' ∉ name) :
    Lawful .plain name (name.map .copied) := by
  induction name with
  | nil => exact .nil .plain
  | cons c name ih =>
    have behind := ih
      (fun token member inside => untokened token member (List.infix_cons inside))
      (fun inside => ordinary (List.mem_cons_of_mem c inside))
    refine .copied .plain c name _ ?_ ?_ nofun behind
    · exact fun token member begins => untokened token member begins.isInfix
    · rintro rfl
      exact ordinary List.mem_cons_self

theorem scan_of_untokened (context : Context) {name : Text}
    (untokened : ∀ token ∈ Token.table, ¬ token.text <:+: name) (ordinary : '$' ∉ name) :
    scan context name = name := by
  have copied := (Lawful.map_copied untokened ordinary).eq_cut
  rw [scan, ← copied, flatMap_render_copied]

theorem scan_eq_self_iff (context : Context) (name : Text) :
    scan context name = name ↔
      '$' ∉ name ∧ ¬ ("<init>" : Text) <:+: name ∧ ¬ ("lzyINIT" : Text) <:+: name := by
  constructor
  · intro same
    have ordinary := dollar_not_mem_scan context name
    rw [same] at ordinary
    refine ⟨ordinary, ?_, ?_⟩
    · intro inside
      have shown : (Token.plain "<init>" "ⲛ").text <:+: scan context name := same.symm ▸ inside
      rcases bracket_of_init_within_scan (by decide) rfl shown with less | greater
      · exact ordinary (less.subset (by decide))
      · exact ordinary (greater.subset (by decide))
    · intro inside
      have shown : (Token.numbered "lzyINIT" "ℓ").text <:+: scan context name :=
        same.symm ▸ inside
      exact lzy_not_within_scan (by decide) rfl shown
  · rintro ⟨ordinary, init, lzy⟩
    refine scan_of_untokened context ?_ ordinary
    intro token member inside
    rcases Token.text_cases token member with dollar | text | text
    · exact ordinary (inside.subset dollar)
    · exact init (text ▸ inside)
    · exact lzy (text ▸ inside)

-- A name shown as itself and as a function type would have the characters of such types alone,
-- and so be copied; but the class name that stands for a type begins unlike the type.
theorem display_ne_self_of_some {name : Text} {type : FunctionType}
    (made : FunctionType.ofName? (scan .className name) = some type) :
    display .className name ≠ name := by
  intro same
  have letters := display_subset_of_some made
  have typed := display_of_some made
  rw [same] at letters typed
  have copied : scan .className name = name := by
    refine scan_of_untokened .className ?_ ?_
    · intro token member inside
      exact Token.not_text_subset token member (List.Subset.trans inside.subset letters)
    · exact fun inside => absurd (letters inside) (by decide)
  rw [copied] at made
  exact FunctionType.ne_render_of_ofName? made (typed.trans (List.append_nil _))

theorem display_eq_self_iff_scan (name : Text) :
    display .className name = name ↔
      scan .className name = name ∧ FunctionType.ofName? name = none := by
  cases made : FunctionType.ofName? (scan .className name) with
  | none =>
    have shown : display .className name = scan .className name :=
      (display_of_none made).trans (List.append_nil _)
    rw [shown, iff_self_and]
    exact fun copied => copied ▸ made
  | some type =>
    refine iff_of_false (display_ne_self_of_some made) ?_
    rintro ⟨copied, unmade⟩
    rw [copied, unmade] at made
    contradiction

theorem display_methodName_of_unchanged {name : Text}
    (unchanged : display .className name = name) :
    display .methodName name = name ++ "()" := by
  obtain ⟨copied, unmade⟩ := (display_eq_self_iff_scan name).mp unchanged
  have call : scan .methodName name = name :=
    (scan_eq_self_iff .methodName name).mpr ((scan_eq_self_iff .className name).mp copied)
  rw [← call] at unmade
  rw [display_of_none unmade, call]
  rfl

/-- A class name is shown as it stands unless it has a dollar sign, one of the two tokens
without one, or the form of a procedure or of a specialized function, whose first mark has
something before it and behind it. -/
theorem display_eq_self_iff (name : Text) :
    display .className name = name ↔
      '$' ∉ name ∧ ¬ ("<init>" : Text) <:+: name ∧ ¬ ("lzyINIT" : Text) <:+: name ∧
      ¬ ("scala.runtime.function.JProcedure" : Text) <+: name ∧
      ¬ ∃ body stem tags : Text,
        name = ("scala.runtime.java8.JFunction" : Text) ++ body ++ ("#sp" : Text) ∧
          Text.FirstAt "#mc" body stem tags ∧ stem ≠ [] ∧ tags ≠ [] := by
  rw [display_eq_self_iff_scan, scan_eq_self_iff, FunctionType.ofName?_eq_none_iff,
    FunctionType.specialized?_eq_none_iff, FunctionType.procedure?_eq_none_iff, and_assoc,
    and_assoc]
  exact and_congr_right' (and_congr_right' (and_congr_right' and_comm))

-- Nothing stands before the first mark, and the one behind it does not count.
example : display .className "scala.runtime.java8.JFunction#mcII#mcI#sp" =
    "scala.runtime.java8.JFunction#mcII#mcI#sp".toList := by
  cbv

end LegibleTrace.Mangled
