import LegibleTrace.Proofs.Cause.Assembly
import LegibleTrace.Proofs.Mangled.Boundary

/-! The names of an assembled trace. Showing a type name and then splitting it at its last dot
is splitting it first and showing the parts, unless the whole name stands for a function type. -/
namespace LegibleTrace

open Mangled

namespace Assembler

variable {assembler : Assembler} {throwable : Throwable}

theorem entry_names (assembler : Assembler) (throwable : Throwable) :
    ((assembler.entry throwable).component, (assembler.entry throwable).className) =
      Text.splitLast '.' (display .className throwable.typeName) :=
  (assembler.shows_entry throwable).name

theorem entry_names_of_dot {package simple : Text}
    (split : throwable.typeName = package ++ '.' :: simple) (absent : '.' ∉ simple)
    (plain : display .className throwable.typeName = scan .className throwable.typeName) :
    (assembler.entry throwable).component = scan .className package ∧
      (assembler.entry throwable).className = scan .className simple := by
  have names := assembler.entry_names throwable
  rw [plain, split, scan_append_dot, Text.splitLast_append _ (dot_not_mem_scan absent)] at names
  exact Prod.mk.inj names

theorem entry_names_of_not_mem (absent : '.' ∉ throwable.typeName)
    (plain : display .className throwable.typeName = scan .className throwable.typeName) :
    (assembler.entry throwable).component = [] ∧
      (assembler.entry throwable).className = scan .className throwable.typeName := by
  have names := assembler.entry_names throwable
  rw [plain, Text.splitLast_of_not_mem (dot_not_mem_scan absent)] at names
  exact Prod.mk.inj names

theorem entry_names_of_functionType {type : FunctionType}
    (made : FunctionType.ofName? (scan .className throwable.typeName) = some type) :
    (assembler.entry throwable).component = [] ∧
      (assembler.entry throwable).className = type.render := by
  have names := assembler.entry_names throwable
  have shown : display .className throwable.typeName = type.render := by
    rw [display, made]
    exact List.append_nil _
  rw [shown, Text.splitLast_of_not_mem (FunctionType.dot_not_mem_of_ofName? made)] at names
  exact Prod.mk.inj names

theorem dot_not_mem_className (assembler : Assembler) (throwable : Throwable) :
    '.' ∉ (assembler.entry throwable).className := by
  have behind := Text.not_mem_splitLast '.' (display .className throwable.typeName)
  rw [← assembler.entry_names throwable] at behind
  exact behind

end Assembler

namespace CauseGraph

variable {ν : Type} [DecidableEq ν]

/-- A type name whose pieces spell no function type is split as it stands: what precedes its
last dot is shown as the component and what follows as the class, each by its own pieces. One
that stands for a function type is shown whole as the class. No class name has a dot. -/
theorem assemble_names (assembler : Assembler) (graph : CauseGraph ν) (start : ν) :
    let typeName := (graph.throwable start).typeName
    let top := (graph.assemble assembler start).1.top
    (display .className typeName = scan .className typeName ↔
      FunctionType.ofName? (scan .className typeName) = none) ∧
    (display .className typeName = scan .className typeName →
      (∀ package simple, typeName = package ++ '.' :: simple → '.' ∉ simple →
        top.component = scan .className package ∧ top.className = scan .className simple) ∧
      ('.' ∉ typeName → top.component = [] ∧ top.className = scan .className typeName)) ∧
    (∀ type, FunctionType.ofName? (scan .className typeName) = some type →
      top.component = [] ∧ top.className = type.render) ∧
    '.' ∉ top.className := by
  intro typeName top
  refine ⟨display_eq_scan_iff typeName, ?_, ?_, assembler.dot_not_mem_className _⟩
  · intro plain
    refine ⟨?_, ?_⟩
    · intro package simple split absent
      exact Assembler.entry_names_of_dot split absent plain
    · intro absent
      exact Assembler.entry_names_of_not_mem absent plain
  · intro type made
    exact Assembler.entry_names_of_functionType made

theorem names_of_numbered_class :
    let graph : CauseGraph Unit :=
      ⟨fun _ => ⟨"app.util.Foo$anonfun$1", none, none, []⟩, fun _ => none⟩
    let top := (graph.assemble .standard ()).1.top
    top.component = "app.util".toList ∧ top.className = "Fooλ₁".toList := by
  intro graph top
  have plain : display .className (graph.throwable ()).typeName =
      scan .className (graph.throwable ()).typeName := by cbv
  have names := ((assemble_names .standard graph ()).2.1 plain).1 "app.util" "Foo$anonfun$1"
    (by decide) (by decide)
  have component : scan .className "app.util" = "app.util".toList := by cbv
  have className : scan .className "Foo$anonfun$1" = "Fooλ₁".toList := by cbv
  rwa [component, className] at names

end CauseGraph
end LegibleTrace
