import LegibleTrace.Proofs.Cause.Names
import LegibleTrace.Proofs.Mangled.Digits

/-! Full names of displayed exceptions. A displayed type name is put together again from its
component and its class, with a dot between them unless there is no component. A name that begins
with its only dot has an empty component and loses that dot; no other name loses anything. -/
namespace LegibleTrace

open Mangled

namespace Mangled

-- A marker shows nothing, but then a lowered digit follows it.
theorem Lawful.eq_nil_of_hidden {context : Context} {mode : Mode} {name : Text}
    {pieces : List Piece} (lawful : Lawful mode name pieces)
    (hidden : pieces.flatMap (Piece.render context) = []) : name = [] := by
  cases lawful with
  | nil => rfl
  | subscript digit rest pieces isDigit further => simp [Piece.render] at hidden
  | token mode token rest pieces member further =>
    rw [List.flatMap_cons, List.append_eq_nil_iff] at hidden
    exact absurd hidden.1 (Token.glyph_ne_nil token member)
  | marker mode rest pieces untokened numbered further =>
    obtain ⟨digit, head, isDigit⟩ := numbered
    obtain ⟨behind, rfl⟩ := List.head?_eq_some_iff.mp head
    obtain ⟨others, rfl, -⟩ := further.of_digit isDigit
    simp [Piece.ofDigit, Piece.render] at hidden
  | separator mode rest pieces untokened unnumbered further =>
    cases context <;> simp [Piece.render, Context.separator] at hidden
  | copied mode c rest pieces untokened ordinary unlowered further =>
    simp [Piece.render] at hidden

theorem scan_eq_nil_iff (context : Context) (name : Text) :
    scan context name = [] ↔ name = [] := by
  constructor
  · exact (lawful_cut name).eq_nil_of_hidden
  · rintro rfl
    rw [scan, cut, cutFrom_nil, List.flatMap_nil]

theorem ofName?_of_dot (simple : Text) :
    FunctionType.ofName? (scan .className ('.' :: simple)) = none := by
  rw [Option.eq_none_iff_forall_ne_some]
  intro type made
  have start := FunctionType.head?_of_ofName? made
  rw [scan_dot] at start
  simp at start

end Mangled

namespace Assembler

variable {assembler : Assembler} {throwable : Throwable}

theorem fullClassName_of_component_nil (none : (assembler.entry throwable).component = []) :
    (assembler.entry throwable).fullClassName = (assembler.entry throwable).className := by
  rw [Entry.fullClassName, if_pos none]

/-- A name that begins with its only dot is displayed with it and has a full name without. -/
theorem fullClassName_of_first_dot {simple : Text} (named : throwable.typeName = '.' :: simple)
    (absent : '.' ∉ simple) :
    display .className throwable.typeName = '.' :: (assembler.entry throwable).fullClassName := by
  have plain := (display_eq_scan_iff ('.' :: simple)).mpr (ofName?_of_dot simple)
  have split : throwable.typeName = [] ++ '.' :: simple := named
  rw [← named] at plain
  have names := @entry_names_of_dot assembler _ _ _ split absent plain
  have none := names.1.trans ((scan_eq_nil_iff _ _).mpr rfl)
  rw [fullClassName_of_component_nil none, names.2, plain, named, scan_dot]

theorem fullClassName_of_dot {package simple : Text}
    (split : throwable.typeName = package ++ '.' :: simple) (absent : '.' ∉ simple)
    (nonempty : package ≠ [])
    (plain : display .className throwable.typeName = scan .className throwable.typeName) :
    (assembler.entry throwable).fullClassName = display .className throwable.typeName := by
  obtain ⟨component, className⟩ := @entry_names_of_dot assembler _ _ _ split absent plain
  have visible : (assembler.entry throwable).component ≠ [] := by
    rw [component, ne_eq, scan_eq_nil_iff]
    exact nonempty
  rw [Entry.fullClassName, if_neg visible, component, className, plain, split, scan_append_dot]
  simp

theorem fullClassName_of_others
    (others : ¬ ∃ simple, throwable.typeName = '.' :: simple ∧ '.' ∉ simple) :
    (assembler.entry throwable).fullClassName = display .className throwable.typeName := by
  cases made : FunctionType.ofName? (scan .className throwable.typeName) with
  | some type =>
    obtain ⟨component, className⟩ := @entry_names_of_functionType assembler _ _ made
    rw [fullClassName_of_component_nil component, className, display_of_some made]
    exact (List.append_nil _).symm
  | none =>
    have plain := (display_eq_scan_iff throwable.typeName).mpr made
    by_cases dotted : '.' ∈ throwable.typeName
    · obtain ⟨package, simple, split, absent⟩ := Text.exists_last dotted
      apply fullClassName_of_dot split absent _ plain
      rintro rfl
      exact others ⟨simple, split, absent⟩
    · obtain ⟨component, className⟩ := @entry_names_of_not_mem assembler _ dotted plain
      rw [fullClassName_of_component_nil component, className, plain]

theorem fullClassName_eq_iff :
    (assembler.entry throwable).fullClassName = display .className throwable.typeName ↔
      ¬ ∃ simple, throwable.typeName = '.' :: simple ∧ '.' ∉ simple := by
  constructor
  · rintro same ⟨simple, named, absent⟩
    rw [fullClassName_of_first_dot named absent] at same
    exact absurd same.symm (List.cons_ne_self _ _)
  · exact fullClassName_of_others

end Assembler

namespace CauseGraph

variable {ν : Type} [DecidableEq ν]

/-- The full name of every exception in a chain is its displayed type name, unless the type name
begins with its only dot; then just that dot is missing. -/
theorem assemble_fullClassName (assembler : Assembler) (graph : CauseGraph ν) (start : ν) :
    ∃ nodes : List ν, graph.Takes assembler.limit start nodes ∧
      List.Forall₂ (fun node entry =>
          let typeName := (graph.throwable node).typeName
          (entry.fullClassName = display .className typeName ↔
            ¬ ∃ simple, typeName = '.' :: simple ∧ '.' ∉ simple) ∧
          ∀ simple, typeName = '.' :: simple → '.' ∉ simple →
            display .className typeName = '.' :: entry.fullClassName)
        nodes (graph.assemble assembler start).1.chain := by
  refine ⟨(graph.walk assembler.limit start).nodes, graph.takes_walk _ _, ?_⟩
  rw [graph.chain_assemble, List.forall₂_map_right_iff, List.forall₂_same]
  intro node _
  refine ⟨Assembler.fullClassName_eq_iff, ?_⟩
  intro simple named absent
  exact Assembler.fullClassName_of_first_dot named absent

theorem first_dot_lost :
    let graph : CauseGraph Unit := ⟨fun _ => ⟨".Boom", none, none, []⟩, fun _ => none⟩
    (graph.assemble .standard ()).1.top.fullClassName ≠
      display .className (graph.throwable ()).typeName := by
  intro graph
  have full : (graph.assemble .standard ()).1.top.fullClassName = "Boom".toList := by cbv
  have shown : display .className (graph.throwable ()).typeName = ".Boom".toList := by cbv
  rw [full, shown]
  decide

end CauseGraph
end LegibleTrace
