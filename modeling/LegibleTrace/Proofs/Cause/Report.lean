import LegibleTrace.Proofs.Cause.Assembly

/-! What assembly reports. The last event tells of the trace that is given back. One warning
stands before it when the last exception kept still has a cause, and only then. It tells of a
cycle if that cause was kept itself, also at the limit, and of the limit otherwise. -/
namespace LegibleTrace.CauseGraph
open Log

variable {ν : Type}

/-- The warnings when `behind` is the cause of the last node kept. -/
structure Warns (graph : CauseGraph ν) (limit : Nat) (kept : List ν) (behind : Option ν)
    (warnings : List Event) : Prop where
  single : warnings.length ≤ 1
  named : ∀ warning ∈ warnings,
    warning.name = "cause_chain_truncated" ∧ warning.level = .warning
  given : warnings ≠ [] ↔ ∃ next, behind = some next
  reason : ∀ warning ∈ warnings,
    warning.fields.lookup ("reason" : Text) = some (.text "cycle") ↔
      ∃ next ∈ kept, behind = some next
  cycle (next) (cause : behind = some next) (old : next ∈ kept) :
    warnings.map Event.fields =
      [([("reason", .text "cycle"), ("depth", .int kept.length),
        ("type_name", .text (graph.throwable next).typeName)] : Fields)]
  tooDeep (next) (cause : behind = some next) (new : next ∉ kept) :
    warnings.map Event.fields =
      [([("reason", .text "max_depth"), ("depth", .int (limit + 1)),
        ("max_cause_depth", .int limit)] : Fields)]

section

variable (graph : CauseGraph ν) (limit : Nat) {kept : List ν} {next : ν}

theorem warns_nothing : graph.Warns limit kept none [] where
  single := Nat.zero_le 1
  named := List.forall_mem_nil _
  given := by simp
  reason := List.forall_mem_nil _
  cycle := nofun
  tooDeep := nofun

theorem warns_cycle (old : next ∈ kept) :
    graph.Warns limit kept (some next)
      [.causeCycle kept.length (graph.throwable next).typeName] where
  single := Nat.le_refl 1
  named := List.forall_mem_singleton.mpr ⟨rfl, rfl⟩
  given := by simp
  reason := List.forall_mem_singleton.mpr (iff_of_true List.lookup_cons_self ⟨next, old, rfl⟩)
  cycle other same _ := by
    cases same
    rfl
  tooDeep other same new := by
    cases same
    exact absurd old new

theorem warns_tooDeep (new : next ∉ kept) :
    graph.Warns limit kept (some next) [.causesTooDeep (limit + 1) limit] where
  single := Nat.le_refl 1
  named := List.forall_mem_singleton.mpr ⟨rfl, rfl⟩
  given := by simp
  reason := by
    refine List.forall_mem_singleton.mpr (iff_of_false ?_ ?_)
    · have reason : (Event.causesTooDeep (limit + 1) limit).fields.lookup ("reason" : Text) =
          some (.text "max_depth") := List.lookup_cons_self
      rw [reason, Option.some_inj, Value.text.injEq]
      decide
    · rintro ⟨other, old, same⟩
      cases same
      exact new old
  cycle other same old := by
    cases same
    exact absurd old new
  tooDeep _ _ _ := rfl

end

variable [DecidableEq ν]

theorem warns_truncation (assembler : Assembler) (graph : CauseGraph ν) (start : ν) :
    let walk := graph.walk assembler.limit start
    graph.Warns assembler.limit walk.nodes (graph.cause (walk.nodes.getLastD start))
      (assembler.truncation (fun node => (graph.throwable node).typeName) walk.nodes.length
        walk.stop) := by
  intro walk
  have stopped : graph.Stopped walk.nodes.reverse _ _ walk.stop :=
    graph.walk_stopped assembler.limit start
  cases reason : walk.stop with
  | ended =>
    rw [reason] at stopped
    have cause : graph.cause (walk.nodes.getLastD start) = none := stopped
    rw [cause]
    exact graph.warns_nothing _
  | revisited node =>
    rw [reason] at stopped
    rw [stopped.1]
    exact graph.warns_cycle _ (List.mem_reverse.mp stopped.2)
  | full =>
    rw [reason] at stopped
    obtain ⟨full, next, cause, new⟩ := stopped
    rw [Assembler.truncation, full, cause]
    exact graph.warns_tooDeep _ fun old => new (List.mem_reverse.mpr old)

/-- The events of one assembly: at most one warning, which tells where and why the causes were
cut, and then the numbers of the trace given back. -/
theorem assemble_reports (assembler : Assembler) (graph : CauseGraph ν) (start : ν) :
    let (trace, events) := graph.assemble assembler start
    ∃ (kept : List ν) (last : ν) (warnings : List Event) (final : Event),
      graph.Takes assembler.limit start kept ∧ kept.getLast? = some last ∧
      trace.chain = kept.map (fun node => assembler.entry (graph.throwable node)) ∧
      events = warnings ++ [final] ∧
      final.name = "trace_assembled" ∧
      final.fields = ([("class_name", .text trace.top.className),
        ("frames", .int trace.top.frames.length),
        ("causes", .int (trace.chain.length - 1))] : Fields) ∧
      graph.Warns assembler.limit kept (graph.cause last) warnings := by
  have causes (trace : Trace) : (trace.causes.length : Int) = trace.chain.length - 1 := by
    simp [Trace.chain]
  refine ⟨(graph.walk assembler.limit start).nodes,
    (graph.walk assembler.limit start).nodes.getLastD start, _, _, graph.takes_walk _ _, ?_,
    graph.chain_assemble assembler start, rfl, rfl, ?_, graph.warns_truncation assembler start⟩
  · obtain ⟨rest, _, walk⟩ := graph.exists_follows assembler.limit start
    rw [walk, List.getLastD_cons, List.getLast?_cons, List.getLastD_eq_getLast?]
  · rw [← causes]
    rfl

-- The causes end at the limit and in a cycle at once.
example : (assemble ⟨1, "-"⟩ ⟨fun _ : Bool => ⟨"E", none, none, []⟩, fun node => some !node⟩
    true).2 = [.causeCycle 2 "E", .traceAssembled "E" 0 1] := by
  cbv

end LegibleTrace.CauseGraph
