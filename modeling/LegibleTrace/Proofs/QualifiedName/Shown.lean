import LegibleTrace.Proofs.Cause.Names
import LegibleTrace.Proofs.Mangled.Unchanged
import LegibleTrace.Proofs.QualifiedName.RoundTrip

/-! Qualified names as type names and as names of methods. Of the marks that change a shown name
only two are made of the characters of segments. A name without them is shown as it stands, so
the displayed name is split where the qualified name is. -/
namespace LegibleTrace

open Mangled

namespace QualifiedName

variable (valid : QualifiedName)

theorem not_mem_text {c : Char} (foreign : ¬ IsPart c) (undotted : c ≠ '.') :
    c ∉ valid.text := by
  intro inside
  rcases Text.mem_of_mem_join inside with dot | ⟨segment, member, here⟩
  · exact undotted (List.mem_singleton.mp dot)
  · exact foreign ((valid.isSegment_of_mem segment member).isPart c here)

theorem specialized?_text : FunctionType.specialized? valid.text = none :=
  FunctionType.specialized?_of_unmarked (valid.not_mem_text (by decide) (by decide))

theorem display_text_iff : display .className valid.text = valid.text ↔
    ¬ ("lzyINIT" : Text) <:+: valid.text ∧
      ¬ FunctionType.procedureStart <+: valid.text := by
  have ordinary : '$' ∉ valid.text := valid.not_mem_text (by decide) (by decide)
  have unbracketed : '<' ∉ valid.text := valid.not_mem_text (by decide) (by decide)
  have init : ¬ ("<init>" : Text) <:+: valid.text :=
    fun inside => unbracketed (inside.subset (by decide))
  rw [display_eq_self_iff_scan, scan_eq_self_iff, FunctionType.ofName?_eq_none_iff,
    FunctionType.procedure?_eq_none_iff]
  simp only [ordinary, init, valid.specialized?_text, not_false_eq_true, true_and]

theorem className_mem : valid.className ∈ valid.segments :=
  List.getLast_mem valid.nonempty

theorem splitLast_text :
    Text.splitLast '.' valid.text = (valid.packageName, valid.className) := by
  have absent := (valid.isSegment_of_mem _ valid.className_mem).dot_not_mem
  rw [valid.text_eq]
  split
  · next empty => rw [Text.splitLast_of_not_mem absent, empty]
  · rw [List.append_assoc]
    exact Text.splitLast_append _ absent

theorem entry_of_unchanged (assembler : Assembler) {throwable : Throwable}
    (named : throwable.typeName = valid.text)
    (unchanged : display .className valid.text = valid.text) :
    (assembler.entry throwable).component = valid.packageName ∧
      (assembler.entry throwable).className = valid.className ∧
      (assembler.entry throwable).fullClassName = valid.text := by
  have names := assembler.entry_names throwable
  rw [named, unchanged, valid.splitLast_text] at names
  obtain ⟨component, className⟩ := Prod.mk.inj names
  refine ⟨component, className, ?_⟩
  rw [Entry.fullClassName, component, className, valid.text_eq]

/-- A qualified name is shown as it stands unless it has the one token, or begins like the one
wrapper, whose characters are those of segments. It is then called as a method under that name,
and every exception of a chain that has it as its type name is displayed by the package and the
class of the qualified name. -/
theorem shown_of_validate {name : Text} {valid : QualifiedName}
    (accepted : (validate name).1 = .ok valid) :
    (display .className name = name ↔
      ¬ ("lzyINIT" : Text) <:+: name ∧
        ¬ ("scala.runtime.function.JProcedure" : Text) <+: name) ∧
    (display .className name = name →
      display .methodName name = name ++ "()" ∧
      ∀ (ν : Type) [DecidableEq ν] (assembler : Assembler) (graph : CauseGraph ν) (start : ν),
        ∃ nodes : List ν, graph.Takes assembler.limit start nodes ∧
          List.Forall₂ (fun node entry => (graph.throwable node).typeName = name →
              entry.component = valid.packageName ∧ entry.className = valid.className ∧
                entry.fullClassName = name)
            nodes (graph.assemble assembler start).1.chain) := by
  obtain rfl := text_of_validate accepted
  refine ⟨valid.display_text_iff, fun unchanged => ?_⟩
  refine ⟨display_methodName_of_unchanged unchanged, ?_⟩
  intro ν _ assembler graph start
  refine ⟨(graph.walk assembler.limit start).nodes, graph.takes_walk _ _, ?_⟩
  rw [graph.chain_assemble, List.forall₂_map_right_iff, List.forall₂_same]
  exact fun node _ named => valid.entry_of_unchanged assembler named unchanged

theorem shown_of_two_segments :
    let valid : QualifiedName := ⟨["app", "Foo"], by decide, by decide +kernel⟩
    let graph : CauseGraph Unit := ⟨fun _ => ⟨"app.Foo", none, none, []⟩, fun _ => none⟩
    (validate "app.Foo").1 = .ok valid ∧
      display .className "app.Foo" = "app.Foo".toList ∧
      display .methodName "app.Foo" = "app.Foo()".toList ∧
      ∃ entry, (graph.assemble .standard ()).1.chain = [entry] ∧
        entry.component = "app".toList ∧ entry.className = "Foo".toList ∧
        entry.fullClassName = "app.Foo".toList := by
  intro valid graph
  have accepted : (validate "app.Foo").1 = .ok valid := validate_eq_ok_iff.mpr (by decide)
  obtain ⟨unchanged, named⟩ := shown_of_validate accepted
  have copied := unchanged.mpr (by decide +kernel)
  obtain ⟨called, assembled⟩ := named copied
  have chain : (graph.assemble .standard ()).1.chain =
      [Assembler.standard.entry (graph.throwable ())] := by cbv
  obtain ⟨nodes, _, related⟩ := assembled Unit .standard graph ()
  rw [chain] at related
  obtain _ | ⟨names, _⟩ := related
  exact ⟨accepted, copied, called, _, chain, names rfl⟩

end QualifiedName
end LegibleTrace
