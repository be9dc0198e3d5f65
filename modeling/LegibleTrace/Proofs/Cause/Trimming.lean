import LegibleTrace.Proofs.Cause.Assembly
import LegibleTrace.Trace.Trim
import Mathlib

/-! Trimming ahead of assembly. A frame keeps its place in assembly and is displayed from its own
names alone, so the frames of a trace may as well be trimmed while their names are still mangled.
A crop then has to look at the display of the names, since that does not tell all names apart. -/
namespace LegibleTrace

/-- The method that a frame with mangled names is displayed for. -/
def RawFrame.shown (raw : RawFrame) : Method :=
  ⟨Mangled.display .className raw.className, Mangled.display .methodName raw.methodName⟩

/-- The step on frames with mangled names. A crop cuts before the first frame that is displayed
for the target, and there are no causes to go to. -/
def Throwable.trim (throwable : Throwable) : Trace.Trim → Throwable
  | .crop target =>
    { throwable with
      frames := throwable.frames.take (throwable.frames.findIdx fun raw => raw.shown = target) }
  | .drop n => { throwable with frames := throwable.frames.drop n.toNat }
  | .dropFromEnd n =>
    { throwable with frames := throwable.frames.take (throwable.frames.length - n.toNat) }
  | .toCause => throwable

/-- The graph in which the frames of one node are trimmed. -/
def CauseGraph.trimAt {ν : Type} [DecidableEq ν] (graph : CauseGraph ν) (node : ν)
    (trim : Trace.Trim) : CauseGraph ν where
  throwable := Function.update graph.throwable node ((graph.throwable node).trim trim)
  cause := graph.cause

theorem findIdx_le {α : Type} {p : α → Bool} {items : List α} {item : α} {i : Nat}
    (inside : items[i]? = some item) (passed : p item = true) : items.findIdx p ≤ i := by
  by_contra late
  obtain ⟨_, rfl⟩ := List.getElem?_eq_some_iff.mp inside
  rw [List.not_of_lt_findIdx (Nat.lt_of_not_le late)] at passed
  contradiction

namespace Assembler

variable (assembler : Assembler) (throwable : Throwable) (rest : List Throwable)

theorem takeWhile_frames (target : Method) :
    (assembler.entry throwable).frames.takeWhile (·.method != target) =
      (throwable.frames.take (throwable.frames.findIdx fun raw => raw.shown = target)).map
        (Frame.ofRaw assembler.placeholder) := by
  have display (raw : RawFrame) : (!((Frame.ofRaw assembler.placeholder raw).method != target)) =
      decide (raw.shown = target) := by
    rw [bne, Bool.not_not]
    rfl
  rw [entry, List.takeWhile_map, List.takeWhile_eq_take_findIdx_not]
  simp only [Function.comp_apply, display]

theorem trace_withFrames (frames : List RawFrame) :
    assembler.trace { throwable with frames } rest =
      (assembler.trace throwable rest).withFrames
        (frames.map (Frame.ofRaw assembler.placeholder)) :=
  rfl

/-- A step on the frames may be taken before or after they are displayed. -/
theorem trace_trim {trim : Trace.Trim} (stays : trim ≠ .toCause) :
    assembler.trace (throwable.trim trim) rest = (assembler.trace throwable rest).step trim := by
  cases trim with
  | crop target =>
    rw [Throwable.trim, trace_withFrames, ← takeWhile_frames]
    rfl
  | drop n =>
    rw [Throwable.trim, trace_withFrames, List.map_drop]
    rfl
  | dropFromEnd n =>
    rw [Throwable.trim, trace_withFrames, List.map_take, ← List.length_map]
    rfl
  | toCause => contradiction

end Assembler

namespace CauseGraph

variable {ν : Type} [DecidableEq ν] (assembler : Assembler) (graph : CauseGraph ν) (start : ν)

-- The walk takes the start once, so the other entries do not show its frames.
theorem assemble_trimAt {trim : Trace.Trim} (stays : trim ≠ .toCause) :
    ((graph.trimAt start trim).assemble assembler start).1 =
      (graph.assemble assembler start).1.step trim := by
  obtain ⟨rest, _, walk⟩ := graph.exists_follows assembler.limit start
  have distinct := graph.walk_nodup assembler.limit start
  rw [walk, List.nodup_cons] at distinct
  have same : (graph.trimAt start trim).walk assembler.limit start =
      graph.walk assembler.limit start := rfl
  rw [assemble_eq, assemble_eq, same, walk]
  have others : rest.nodes.map (graph.trimAt start trim).throwable =
      rest.nodes.map graph.throwable := by
    apply List.map_congr_left
    intro node member
    exact Function.update_of_ne (ne_of_mem_of_not_mem member distinct.1) _ _
  have top : (graph.trimAt start trim).throwable start = (graph.throwable start).trim trim :=
    Function.update_self _ _ _
  dsimp only [List.tail_cons]
  rw [others, top, assembler.trace_trim _ _ stays]

theorem run_assemble {trims : List Trace.Trim} (stay : Trace.Trim.toCause ∉ trims) :
    (graph.assemble assembler start).1.run trims =
      ((trims.foldl (·.trimAt start ·) graph).assemble assembler start).1 := by
  induction trims generalizing graph with
  | nil => rfl
  | cons trim trims ih =>
    rw [List.mem_cons, not_or] at stay
    obtain ⟨stays, stay⟩ := stay
    rw [List.foldl_cons, ← ih _ stay, assemble_trimAt _ _ _ (Ne.symm stays)]
    rfl

theorem frames_crop (target : Method) :
    let frames := (graph.throwable start).frames
    ((graph.assemble assembler start).1.crop target).top.frames =
      (frames.take (frames.findIdx fun raw => raw.shown = target)).map
        (Frame.ofRaw assembler.placeholder) :=
  assembler.takeWhile_frames _ target

theorem crop_shown {i : Nat} {raw : RawFrame}
    (inside : (graph.throwable start).frames[i]? = some raw) :
    let trace := (graph.assemble assembler start).1
    let cropped := trace.crop raw.shown
    trace.top.frames[i]? = some (Frame.ofRaw assembler.placeholder raw) ∧
      cropped.top.frames <+: trace.top.frames.take i ∧ cropped.top.frames.length ≤ i ∧
      Frame.ofRaw assembler.placeholder raw ∉ cropped.top.frames := by
  intro trace cropped
  have first : (graph.throwable start).frames.findIdx (fun other => other.shown = raw.shown) ≤ i :=
    findIdx_le inside (decide_eq_true rfl)
  have all : trace.top.frames =
      (graph.throwable start).frames.map (Frame.ofRaw assembler.placeholder) := rfl
  have kept := graph.frames_crop assembler start raw.shown
  refine ⟨?_, ?_, ?_, ?_⟩
  · rw [all, List.getElem?_map, inside]
    rfl
  · rw [kept, all, ← List.map_take]
    exact (List.take_prefix_take_left first).map _
  · rw [kept, List.length_map]
    exact (List.length_take_le _ _).trans first
  · intro member
    have unlike := List.mem_takeWhile_imp member
    exact bne_iff_ne.mp unlike rfl

/-- Assembly and trimming may change places, for one step and for any sequence of steps that do
not go to a cause. So a crop at the display of a frame takes this frame away, with all behind it,
although it may stop at an earlier frame: names that differ can be displayed alike. -/
theorem assemble_trims :
    (∀ trim : Trace.Trim, trim ≠ .toCause →
      (graph.assemble assembler start).1.step trim =
        ((graph.trimAt start trim).assemble assembler start).1) ∧
    (∀ trims, Trace.Trim.toCause ∉ trims →
      (graph.assemble assembler start).1.run trims =
        ((trims.foldl (·.trimAt start ·) graph).assemble assembler start).1) ∧
    (∀ i raw, (graph.throwable start).frames[i]? = some raw →
      let trace := (graph.assemble assembler start).1
      let cropped := trace.crop raw.shown
      trace.top.frames[i]? = some (Frame.ofRaw assembler.placeholder raw) ∧
        cropped.top.frames <+: trace.top.frames.take i ∧ cropped.top.frames.length ≤ i ∧
        Frame.ofRaw assembler.placeholder raw ∉ cropped.top.frames) ∧
    ∃ first second : RawFrame, first.className ≠ second.className ∧
      first.methodName ≠ second.methodName ∧ first.shown = second.shown := by
  refine ⟨?_, ?_, ?_, ?_⟩
  · intro trim stays
    exact (graph.assemble_trimAt assembler start stays).symm
  · intro trims stay
    exact graph.run_assemble assembler start stay
  · intro i raw inside
    exact graph.crop_shown assembler start inside
  · refine ⟨⟨"Foo$1", "bar$1", none, 1, false⟩, ⟨"Foo₁", "bar₁", none, 2, false⟩, ?_, ?_, ?_⟩
    · decide
    · decide
    · cbv

-- The exception is its own cause, and a crop at its second frame stops at the first.
theorem trims_of_shared_display :
    let first : RawFrame := ⟨"Foo$1", "bar$1", none, 1, false⟩
    let second : RawFrame := ⟨"Foo₁", "bar₁", none, 2, false⟩
    let graph : CauseGraph Unit := ⟨fun _ => ⟨"E", none, none, [first, second]⟩, some⟩
    let trace := (graph.assemble .standard ()).1
    (Trace.Trim.crop second.shown ≠ .toCause ∧ (graph.throwable ()).frames[1]? = some second) ∧
      trace.step (.crop second.shown) =
        ((graph.trimAt () (.crop second.shown)).assemble .standard ()).1 ∧
      trace.top.frames[1]? = some (Frame.ofRaw Frame.noFile second) ∧
      (trace.crop second.shown).top.frames.length ≤ 1 ∧
      (trace.crop second.shown).top.frames = [] := by
  intro first second graph trace
  have stays : Trace.Trim.crop second.shown ≠ .toCause := nofun
  have inside : (graph.throwable ()).frames[1]? = some second := rfl
  obtain ⟨step, -, crop, -⟩ := graph.assemble_trims .standard ()
  obtain ⟨place, -, fewer, -⟩ := crop 1 second inside
  exact ⟨⟨stays, inside⟩, step _ stays, place, fewer, by cbv⟩

end CauseGraph
end LegibleTrace
