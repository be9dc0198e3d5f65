import LegibleTrace.Proofs.Mangled.Unchanged

/-! Names that are shown again. What is shown of a class name has no dollar sign and spells no
function type, so a second pass changes it only where glyphs for brackets have spelled a
constructor. Without dollar signs there are no such glyphs, and a third pass changes nothing. -/
namespace LegibleTrace.Mangled

section

variable {context : Context} {name : Text}

theorem lzy_not_within_display : ¬ ("lzyINIT" : Text) <:+: display context name := by
  have member : Token.numbered "lzyINIT" "ℓ" ∈ Token.table := by decide
  intro shown
  have scanned := within_scan_of_within_display member shown
  exact lzy_not_within_scan member rfl scanned

theorem bracket_of_init_within_display (shown : ("<init>" : Text) <:+: display context name) :
    ("$less$" : Text) <:+: name ∨ ("$greater$" : Text) <:+: name := by
  have member : Token.plain "<init>" "ⲛ" ∈ Token.table := by decide
  have scanned := within_scan_of_within_display member shown
  exact bracket_of_init_within_scan member rfl scanned

theorem init_not_within_display (ordinary : '$' ∉ name) :
    ¬ ("<init>" : Text) <:+: display context name := by
  intro shown
  rcases bracket_of_init_within_display shown with less | greater
  · exact ordinary (less.subset (by decide))
  · exact ordinary (greater.subset (by decide))

end

theorem ofName?_display (name : Text) :
    FunctionType.ofName? (display .className name) = none := by
  cases made : FunctionType.ofName? (scan .className name) with
  | none =>
    rw [display_of_none made]
    simpa [Context.ending] using made
  | some type =>
    rw [display_of_some made]
    simpa [Context.ending] using FunctionType.ofName?_render type

theorem display_display_eq_iff (name : Text) :
    display .className (display .className name) = display .className name ↔
      ¬ ("<init>" : Text) <:+: display .className name := by
  rw [display_eq_self_iff_scan, scan_eq_self_iff]
  have ordinary := dollar_not_mem_display .className name
  have lzy : ¬ ("lzyINIT" : Text) <:+: display .className name := lzy_not_within_display
  simp only [ordinary, lzy, ofName?_display, not_false_eq_true, true_and, and_true]

/-- Showing a class name settles after two passes, and after one unless the shown name spells a
constructor, for which the name must have had a glyph for one of the brackets. -/
theorem display_settles (name : Text) :
    let once := display .className name
    let twice := display .className once
    display .className twice = twice ∧
      (twice = once ↔ ¬ ("<init>" : Text) <:+: once) ∧
      (¬ ("$less$" : Text) <:+: name → ¬ ("$greater$" : Text) <:+: name →
        ¬ ("<init>" : Text) <:+: once) := by
  intro once twice
  refine ⟨?_, display_display_eq_iff name, ?_⟩
  · -- The second pass reads no dollar sign, so none of its glyphs is a bracket.
    have init : ¬ ("<init>" : Text) <:+: twice :=
      init_not_within_display (dollar_not_mem_display .className name)
    exact (display_display_eq_iff once).mpr init
  · intro less greater init
    rcases bracket_of_init_within_display init with inside | inside
    · exact less inside
    · exact greater inside

theorem settles_without_brackets :
    ¬ ("$less$" : Text) <:+: "Foo<init>$1".toList ∧
      ¬ ("$greater$" : Text) <:+: "Foo<init>$1".toList ∧
      display .className (display .className "Foo<init>$1") = "Fooⲛ₁".toList := by
  have less : ¬ ("$less$" : Text) <:+: "Foo<init>$1".toList := by decide +kernel
  have greater : ¬ ("$greater$" : Text) <:+: "Foo<init>$1".toList := by decide +kernel
  obtain ⟨-, stable, guarantee⟩ := display_settles "Foo<init>$1"
  have same := stable.mpr (guarantee less greater)
  have shown : display .className "Foo<init>$1" = "Fooⲛ₁".toList := by cbv
  exact ⟨less, greater, same.trans shown⟩

-- Two passes can be needed: the first spells a constructor, which the second shows as one.
example : display .className "$less$init$greater$" = "<init>".toList ∧
    display .className "<init>" = "ⲛ".toList := by
  constructor <;> cbv

end LegibleTrace.Mangled
