import LegibleTrace.Proofs.Cause.Walk

/-! Walks whose looks for a cause have an effect. When every look answers as a graph does, up
to an image of the nodes, the whole walk is the walk of the graph, and a condition that one
look keeps holds after all of them. -/
namespace LegibleTrace.Cause

variable {ν μ σ : Type}

def Stop.map (image : ν → μ) : Stop ν → Stop μ
  | .ended => .ended
  | .revisited node => .revisited (image node)
  | .full => .full

def Walk.map (image : ν → μ) (walk : Walk ν) : Walk μ :=
  ⟨walk.nodes.map image, walk.stop.map image⟩

/-- Looks through `cause` answer as `graph` does on the images of the nodes. `Before` holds
ahead of a look and `After` behind it, each of the state and the nodes taken, newest first. -/
structure Simulates (graph : CauseGraph μ) (image : ν → μ) (cause : ν → StateM σ (Option ν))
    (Before After : σ → List ν → Prop) : Prop where
  answer {state node older} (before : Before state (node :: older)) :
    ((cause node).run state).1.map image = graph.cause (image node)
  after {state node older} (before : Before state (node :: older)) :
    After ((cause node).run state).2 (node :: older)
  known {state node older next} (before : Before state (node :: older))
    (found : ((cause node).run state).1 = some next)
    (old : image next ∈ (node :: older).map image) : next ∈ node :: older
  next {state node older next} (before : Before state (node :: older))
    (found : ((cause node).run state).1 = some next) (new : next ∉ node :: older) :
    Before ((cause node).run state).2 (next :: node :: older)

section Turns

variable [DecidableEq ν] {cause : ν → StateM σ (Option ν)} {room : Nat} {seen : List ν}
  {node next : ν} {before after : σ}

theorem follow_ended (look : (cause node).run before = (none, after)) :
    (follow cause room seen node).run before = (⟨[], .ended⟩, after) := by
  rw [follow.eq_def, StateT.run_bind, look]
  rfl

theorem follow_found (look : (cause node).run before = (some next, after)) :
    (follow cause room seen node).run before =
      if next ∈ seen then (⟨[], .revisited next⟩, after)
      else match room with
        | 0 => (⟨[], .full⟩, after)
        | room + 1 =>
          let rest := (follow cause room (next :: seen) next).run after
          (⟨next :: rest.1.nodes, rest.1.stop⟩, rest.2) := by
  rw [follow.eq_def, StateT.run_bind, look]
  change StateT.run (if next ∈ seen then _ else _) after = _
  by_cases old : next ∈ seen
  · rw [if_pos old, if_pos old]
    rfl
  · rw [if_neg old, if_neg old]
    cases room <;> rfl

theorem follow_revisited (look : (cause node).run before = (some next, after))
    (old : next ∈ seen) :
    (follow cause room seen node).run before = (⟨[], .revisited next⟩, after) := by
  rw [follow_found look, if_pos old]

theorem follow_full (look : (cause node).run before = (some next, after))
    (new : next ∉ seen) :
    (follow cause 0 seen node).run before = (⟨[], .full⟩, after) := by
  rw [follow_found look, if_neg new]

theorem follow_taken (look : (cause node).run before = (some next, after))
    (new : next ∉ seen) :
    (follow cause (room + 1) seen node).run before =
      let rest := (follow cause room (next :: seen) next).run after
      (⟨next :: rest.1.nodes, rest.1.stop⟩, rest.2) := by
  rw [follow_found look, if_neg new]

theorem assembleWith_run {walk : Walk ν} {assembler : Assembler} (throwable : ν → Throwable)
    (run : (Cause.walk cause assembler.limit node).run before = (walk, after)) :
    (assembler.assembleWith throwable cause node).run before =
      let trace := assembler.trace (throwable node) (walk.nodes.tail.map throwable)
      ((trace, assembler.truncation (fun node => (throwable node).typeName) walk.nodes.length
        walk.stop ++ [Assembler.assembled trace]), after) := by
  rw [Assembler.assembleWith, StateT.run_bind, run]
  rfl

theorem follow_project {τ : Type} (project : τ → σ) {wide : ν → StateM τ (Option ν)}
    (same : ∀ node state, (cause node).run (project state) =
      Prod.map id project ((wide node).run state))
    (room : Nat) (seen : List ν) (node : ν) (state : τ) :
    (follow cause room seen node).run (project state) =
      Prod.map id project ((follow wide room seen node).run state) := by
  have narrow := same node state
  rcases look : (wide node).run state with ⟨_ | next, after⟩
  · rw [look] at narrow
    rw [follow_ended look, follow_ended narrow]
    rfl
  · rw [look] at narrow
    by_cases old : next ∈ seen
    · rw [follow_revisited look old, follow_revisited narrow old]
      rfl
    · cases room with
      | zero =>
        rw [follow_full look old, follow_full narrow old]
        rfl
      | succ room =>
        have rest := follow_project project same room (next :: seen) next after
        rw [follow_taken look old, follow_taken narrow old]
        simp only [rest]
        rfl

theorem assembleWith_project {τ : Type} (project : τ → σ) {wide : ν → StateM τ (Option ν)}
    (same : ∀ node state, (cause node).run (project state) =
      Prod.map id project ((wide node).run state))
    (assembler : Assembler) (throwable : ν → Throwable) (start : ν) (state : τ) :
    (assembler.assembleWith throwable cause start).run (project state) =
      Prod.map id project ((assembler.assembleWith throwable wide start).run state) := by
  have walked : (walk cause assembler.limit start).run (project state) =
      Prod.map id project ((walk wide assembler.limit start).run state) := by
    rw [walk, walk, StateT.run_bind, StateT.run_bind,
      follow_project project same assembler.limit [start] start state]
    rfl
  rw [assembleWith_run throwable walked, assembleWith_run throwable rfl]
  rfl

end Turns

namespace Simulates

variable [DecidableEq ν] {graph : CauseGraph μ} {image : ν → μ}
  {cause : ν → StateM σ (Option ν)} {Before After : σ → List ν → Prop}

theorem follow (simulates : Simulates graph image cause Before After) (room : Nat)
    {state : σ} {node : ν} {older : List ν} (before : Before state (node :: older)) :
    ∃ walk last, (Cause.follow cause room (node :: older) node).run state = (walk, last) ∧
      graph.Follows room ((node :: older).map image) (image node) (walk.map image) ∧
      After last (walk.nodes.reverse ++ node :: older) := by
  have answer := simulates.answer before
  have ended := simulates.after before
  rcases look : (cause node).run state with ⟨_ | next, after⟩
  · rw [look] at answer ended
    exact ⟨_, _, follow_ended look, .ended _ _ _ answer.symm, ended⟩
  · rw [look] at answer ended
    by_cases old : next ∈ node :: older
    · have oldImage := List.mem_map_of_mem (f := image) old
      exact ⟨_, _, follow_revisited look old, .revisited _ _ _ _ answer.symm oldImage, ended⟩
    · have newImage : image next ∉ (node :: older).map image := fun member =>
        old (simulates.known before (by rw [look]) member)
      cases room with
      | zero => exact ⟨_, _, follow_full look old, .full _ _ _ answer.symm newImage, ended⟩
      | succ room =>
        have further : Before after (next :: node :: older) := by
          simpa only [look] using simulates.next before (by rw [look]) old
        obtain ⟨rest, last, run, follows, kept⟩ := simulates.follow room further
        refine ⟨⟨next :: rest.nodes, rest.stop⟩, last, ?_, ?_, ?_⟩
        · rw [follow_taken look old, run]
        · exact .taken _ _ _ _ _ answer.symm newImage follows
        · simpa using kept

variable [DecidableEq μ]

theorem walk (simulates : Simulates graph image cause Before After) (limit : Nat)
    {state : σ} {start : ν} (before : Before state [start]) :
    ∃ walk last, (Cause.walk cause limit start).run state = (walk, last) ∧
      walk.map image = graph.walk limit (image start) ∧ After last walk.nodes.reverse := by
  obtain ⟨rest, last, run, follows, kept⟩ := simulates.follow limit before
  refine ⟨⟨start :: rest.nodes, rest.stop⟩, last, ?_, ?_, ?_⟩
  · rw [Cause.walk, StateT.run_bind, run]
    rfl
  · rw [CauseGraph.walk_of_follows follows]
    rfl
  · simpa using kept

theorem assemble (simulates : Simulates graph image cause Before After)
    (assembler : Assembler) {state : σ} {start : ν} (before : Before state [start]) :
    ∃ (nodes : List ν) (last : σ),
      (assembler.assembleWith (fun node => graph.throwable (image node)) cause start).run state =
        (graph.assemble assembler (image start), last) ∧
      nodes.map image = (graph.walk assembler.limit (image start)).nodes ∧
      After last nodes.reverse := by
  obtain ⟨walk, last, run, same, kept⟩ := simulates.walk assembler.limit before
  refine ⟨walk.nodes, last, ?_, congrArg Walk.nodes same, kept⟩
  rw [assembleWith_run (fun node => graph.throwable (image node)) run, graph.assemble_eq, ← same]
  cases reason : walk.stop <;>
    simp [Walk.map, Stop.map, reason, Assembler.truncation, List.map_tail, Function.comp_def]

end Simulates

end LegibleTrace.Cause
