import LegibleTrace.Host.View
import LegibleTrace.Proofs.Cause.Assembly

/-! Assembly through views is assembly of the exceptions themselves. Views are made while the
walk goes on, and cycles are seen by the identity of views; the registry has at most one view
for each exception at every moment of the walk, so both identities say the same. -/
namespace LegibleTrace.Host

variable {ε : Type}

structure Registry.Sound (registry : Registry ε) : Prop where
  exceptions : (registry.views.map View.exception).Nodup
  numbers : registry.views.map View.number = (List.range registry.views.length).reverse

/-- The registry finds this view for its exception, and no other registered view has its
exception or its number. -/
def Registry.Identifies [DecidableEq ε] (registry : Registry ε) (view : View ε) : Prop :=
  registry.find? view.exception = some view ∧
    ∀ other ∈ registry.views,
      other.exception = view.exception ∨ other.number = view.number → other = view

/-- The registry and the views asked for so far, at one moment of a walk. -/
structure Moment (ε : Type) where
  registry : Registry ε
  visited : List (View ε)

structure History (ε : Type) where
  now : Moment ε
  earlier : List (Moment ε)

def History.moments (history : History ε) : List (Moment ε) :=
  history.now :: history.earlier

structure Moment.Sound (moment : Moment ε) : Prop where
  registry : moment.registry.Sound
  visited : moment.visited ⊆ moment.registry.views

theorem Heap.cause_eq_some_iff (heap : Heap ε) (followContext : Bool) (exception cause : ε) :
    (heap.graph followContext).cause exception = some cause ↔
      (heap exception).cause = some cause ∨
        (heap exception).cause = none ∧ followContext = true ∧
          (heap exception).hidesContext = false ∧ (heap exception).context = some cause := by
  rw [Heap.graph]
  dsimp only
  rw [Exception.causeOf]
  cases (heap exception).cause <;> cases followContext <;>
    cases (heap exception).hidesContext <;> simp

namespace Registry

theorem Sound.empty : (Registry.empty : Registry ε).Sound :=
  ⟨List.nodup_nil, rfl⟩

namespace Sound

variable {registry : Registry ε} (sound : registry.Sound) {first second : View ε}
include sound

theorem eq_of_exception (one : first ∈ registry.views) (other : second ∈ registry.views)
    (same : first.exception = second.exception) : first = second :=
  List.inj_on_of_nodup_map sound.exceptions one other same

theorem eq_of_number (one : first ∈ registry.views) (other : second ∈ registry.views)
    (same : first.number = second.number) : first = second := by
  have distinct : (registry.views.map View.number).Nodup := by
    rw [sound.numbers]
    exact List.nodup_reverse.mpr List.nodup_range
  exact List.inj_on_of_nodup_map distinct one other same

theorem cons {exception : ε} (new : ∀ view ∈ registry.views, view.exception ≠ exception) :
    (Registry.mk (⟨registry.views.length, exception⟩ :: registry.views)).Sound where
  exceptions := by
    rw [List.map_cons, List.nodup_cons]
    refine ⟨?_, sound.exceptions⟩
    intro member
    obtain ⟨view, inside, same⟩ := List.mem_map.mp member
    exact new view inside same
  numbers := by
    rw [List.map_cons, List.length_cons, List.range_succ, List.reverse_append, sound.numbers]
    rfl

end Sound

variable [DecidableEq ε]

theorem Sound.identifies {registry : Registry ε} (sound : registry.Sound) {view : View ε}
    (member : view ∈ registry.views) : registry.Identifies view := by
  constructor
  · cases found : registry.find? view.exception with
    | none =>
      have absent := List.find?_eq_none.mp found view member
      simp at absent
    | some other =>
      have same : other.exception = view.exception := by simpa using List.find?_some found
      rw [sound.eq_of_exception (List.mem_of_find?_eq_some found) member same]
  · rintro other inside (wraps | numbered)
    · exact sound.eq_of_exception inside member wraps
    · exact sound.eq_of_number inside member numbered

theorem view_run (registry : Registry ε) (exception : ε) :
    (Registry.view exception).run registry =
      match registry.find? exception with
      | some view => (view, registry)
      | none =>
        let view : View ε := ⟨registry.views.length, exception⟩
        (view, ⟨view :: registry.views⟩) := by
  rw [Registry.view, StateT.run_bind]
  change StateT.run (match registry.find? exception with | some _ => _ | none => _) registry = _
  cases registry.find? exception <;> rfl

theorem Sound.view {registry : Registry ε} (sound : registry.Sound) (exception : ε) :
    let answer := (Registry.view exception).run registry
    answer.2.Sound ∧ registry.views ⊆ answer.2.views ∧ answer.1 ∈ answer.2.views ∧
      answer.1.exception = exception := by
  rw [view_run]
  cases found : registry.find? exception with
  | some view =>
    have wraps : view.exception = exception := by simpa using List.find?_some found
    exact ⟨sound, List.Subset.refl _, List.mem_of_find?_eq_some found, wraps⟩
  | none =>
    have new : ∀ view ∈ registry.views, view.exception ≠ exception := by
      simpa using List.find?_eq_none.mp found
    exact ⟨sound.cons new, List.subset_cons_self _ _, List.mem_cons_self, rfl⟩

end Registry

variable [DecidableEq ε]

theorem View.cause_run (heap : Heap ε) (followContext : Bool) (view : View ε)
    (registry : Registry ε) :
    (View.cause heap followContext view).run registry =
      match (heap.graph followContext).cause view.exception with
      | none => (none, registry)
      | some exception => Prod.map some id ((Registry.view exception).run registry) := by
  rw [View.cause, Heap.graph]
  dsimp only
  cases (heap view.exception).causeOf followContext <;> rfl

theorem View.cause_sound (heap : Heap ε) (followContext : Bool) (view : View ε)
    {moment : Moment ε} (sound : moment.Sound) :
    let answer := (View.cause heap followContext view).run moment.registry
    answer.1.map View.exception = (heap.graph followContext).cause view.exception ∧
      (Moment.mk answer.2 (answer.1.toList ++ moment.visited)).Sound := by
  rw [View.cause_run]
  cases (heap.graph followContext).cause view.exception with
  | none => exact ⟨rfl, sound⟩
  | some exception =>
    obtain ⟨kept, grows, registered, wraps⟩ := sound.registry.view exception
    refine ⟨congrArg some wraps, kept, ?_⟩
    exact List.cons_subset.mpr ⟨registered, List.Subset.trans sound.visited grows⟩

def View.recordedCause (heap : Heap ε) (followContext : Bool) (view : View ε) :
    StateM (History ε) (Option (View ε)) := fun history =>
  let (found, registry) := (View.cause heap followContext view).run history.now.registry
  (found, ⟨⟨registry, found.toList ++ history.now.visited⟩, history.moments⟩)

/-- Assembly through views, with the registry after the first view and after every look. -/
def recordedAssembly (assembler : Assembler) (heap : Heap ε) (followContext : Bool)
    (start : ε) : (Trace × List Log.Event) × History ε :=
  let (view, registry) := (Registry.view start).run Registry.empty
  (assembler.assembleWith (fun view : View ε => (heap view.exception).throwable)
    (View.recordedCause heap followContext) view).run ⟨⟨registry, [view]⟩, []⟩

theorem assembleViews_eq_recorded (assembler : Assembler) (heap : Heap ε)
    (followContext : Bool) (start : ε) :
    (assembleViews assembler heap followContext start).run Registry.empty =
      Prod.map id (fun history => history.now.registry)
        (recordedAssembly assembler heap followContext start) := by
  rw [assembleViews, StateT.run_bind, recordedAssembly]
  rcases (Registry.view start).run Registry.empty with ⟨view, registry⟩
  have same (view : View ε) (history : History ε) :
      (View.cause heap followContext view).run history.now.registry =
        Prod.map id (fun history => history.now.registry)
          ((View.recordedCause heap followContext view).run history) := rfl
  exact Cause.assembleWith_project (fun history : History ε => history.now.registry) same
    assembler _ view ⟨⟨registry, [view]⟩, []⟩

def History.Sound (history : History ε) : Prop :=
  ∀ moment ∈ history.moments, moment.Sound

theorem View.recordedCause_sound (heap : Heap ε) (followContext : Bool) (view : View ε)
    {history : History ε} (sound : history.Sound) :
    let answer := (View.recordedCause heap followContext view).run history
    answer.1.map View.exception = (heap.graph followContext).cause view.exception ∧
      answer.2.now.visited = answer.1.toList ++ history.now.visited ∧ answer.2.Sound := by
  have look := View.cause_sound heap followContext view (sound _ List.mem_cons_self)
  refine ⟨look.1, rfl, ?_⟩
  intro moment member
  rcases List.mem_cons.mp member with rfl | member
  · exact look.2
  · exact sound moment member

theorem View.simulates_recordedCause (heap : Heap ε) (followContext : Bool) :
    Cause.Simulates (heap.graph followContext) View.exception
      (View.recordedCause heap followContext)
      (fun history taken => history.Sound ∧ history.now.visited = taken)
      (fun history taken => history.Sound ∧ taken ⊆ history.now.visited) where
  answer before := (View.recordedCause_sound heap followContext _ before.1).1
  after before := by
    obtain ⟨_, visited, sound⟩ := View.recordedCause_sound heap followContext _ before.1
    refine ⟨sound, ?_⟩
    rw [visited, before.2]
    exact List.subset_append_right _ _
  -- The new view and the old ones are registered, and one exception has one view.
  known {history view older next} before found old := by
    obtain ⟨_, visited, sound⟩ := View.recordedCause_sound heap followContext view before.1
    have registered := (sound _ List.mem_cons_self).visited
    rw [visited, found, before.2] at registered
    obtain ⟨same, inside, wraps⟩ := List.mem_map.mp old
    have equal := (sound _ List.mem_cons_self).registry.eq_of_exception
      (registered (List.mem_cons_of_mem next inside)) (registered List.mem_cons_self) wraps
    exact equal ▸ inside
  next {history view older next} before found new := by
    obtain ⟨_, visited, sound⟩ := View.recordedCause_sound heap followContext view before.1
    refine ⟨sound, ?_⟩
    rw [visited, found, before.2]
    rfl

theorem recordedAssembly_eq (assembler : Assembler) (heap : Heap ε) (followContext : Bool)
    (start : ε) :
    ∃ (views : List (View ε)) (history : History ε),
      recordedAssembly assembler heap followContext start =
        ((heap.graph followContext).assemble assembler start, history) ∧
      views.map View.exception =
        ((heap.graph followContext).walk assembler.limit start).nodes ∧
      history.Sound ∧ views ⊆ history.now.visited := by
  obtain ⟨kept, _, registered, wraps⟩ := Registry.Sound.empty.view start
  rw [recordedAssembly]
  rcases begun : (Registry.view start).run Registry.empty with ⟨view, registry⟩
  rw [begun] at kept registered wraps
  have sound : History.Sound ⟨⟨registry, [view]⟩, []⟩ := by
    intro moment member
    obtain rfl := List.mem_singleton.mp member
    exact ⟨kept, List.cons_subset.mpr ⟨registered, List.nil_subset _⟩⟩
  obtain ⟨views, history, run, walked, done, visited⟩ :=
    (View.simulates_recordedCause heap followContext).assemble assembler ⟨sound, rfl⟩
  rw [wraps] at run walked
  exact ⟨views, history, run, walked, done, fun other inside =>
    visited (List.mem_reverse.mpr inside)⟩

/-- Assembly through views gives the trace and the events of the graph whose nodes are the
exceptions and whose edges lead to their causes. At every moment of the walk the registry has
one view for each exception visited, so the chain shows each exception once and ends at the
first that was taken before. -/
theorem assemble_eq_graph (assembler : Assembler) (heap : Heap ε) (followContext : Bool)
    (start : ε) :
    (∀ exception cause, (heap.graph followContext).cause exception = some cause ↔
      (heap exception).cause = some cause ∨
        (heap exception).cause = none ∧ followContext = true ∧
          (heap exception).hidesContext = false ∧ (heap exception).context = some cause) ∧
    assemble assembler heap followContext start =
      (heap.graph followContext).assemble assembler start ∧
    ∃ (exceptions : List ε) (history : History ε),
      recordedAssembly assembler heap followContext start =
        (assemble assembler heap followContext start, history) ∧
      (assembleViews assembler heap followContext start).run Registry.empty =
        (assemble assembler heap followContext start, history.now.registry) ∧
      (∀ moment ∈ history.moments, ∀ view ∈ moment.visited, moment.registry.Identifies view) ∧
      (∀ exception ∈ exceptions, ∃ view ∈ history.now.visited, view.exception = exception) ∧
      (heap.graph followContext).Takes assembler.limit start exceptions ∧
      (assemble assembler heap followContext start).1.chain =
        exceptions.map fun exception => assembler.entry (heap exception).throwable := by
  obtain ⟨views, history, recorded, walked, sound, visited⟩ :=
    recordedAssembly_eq assembler heap followContext start
  have same : assemble assembler heap followContext start =
      (heap.graph followContext).assemble assembler start := by
    rw [assemble, assembleViews_eq_recorded, recorded]
    rfl
  refine ⟨heap.cause_eq_some_iff followContext, same,
    ((heap.graph followContext).walk assembler.limit start).nodes, history, ?_, ?_, ?_, ?_,
    CauseGraph.takes_walk _ _ _, ?_⟩
  · rw [same, recorded]
  · rw [assembleViews_eq_recorded, same, recorded]
    rfl
  · intro moment inside view asked
    exact (sound moment inside).registry.identifies ((sound moment inside).visited asked)
  · intro exception inside
    rw [← walked] at inside
    obtain ⟨view, taken, wraps⟩ := List.mem_map.mp inside
    exact ⟨view, visited taken, wraps⟩
  · rw [same]
    exact CauseGraph.chain_assemble _ _ _

end LegibleTrace.Host
