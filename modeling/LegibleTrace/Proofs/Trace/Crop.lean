import LegibleTrace.Trace.Trim
import Mathlib.Data.List.TakeWhile

/-! Cropping. A crop keeps the longest beginning of the frames without its target, and a second
crop adds its own target to those that end the beginning, so crops may change places. A crop and a
removal at the outer end keep two beginnings of the frames, and together the shorter one. With a
removal ahead a crop may change places as long as its target is not removed; if it is, nothing is
left to remove behind the crop. -/
namespace LegibleTrace

section

variable {α : Type} {p : α → Bool} {n : Nat} {items : List α}

theorem takeWhile_drop (passed : ∀ item ∈ items.take n, p item = true) :
    (items.drop n).takeWhile p = (items.takeWhile p).drop n := by
  induction items generalizing n with
  | nil => rw [List.drop_nil, List.takeWhile_nil, List.drop_nil]
  | cons item items ih =>
    cases n with
    | zero => rfl
    | succ n =>
      rw [List.take_succ_cons, List.forall_mem_cons] at passed
      rw [List.drop_succ_cons, List.takeWhile_cons_of_pos passed.1, List.drop_succ_cons,
        ih passed.2]

theorem drop_takeWhile_eq_nil {item : α} (inside : item ∈ items.take n) (failed : p item = false) :
    (items.takeWhile p).drop n = [] := by
  rw [List.drop_eq_nil_iff]
  by_contra longer
  have kept : items.take n <+: items.takeWhile p := by
    refine List.prefix_of_prefix_length_le (List.take_prefix _ _) (List.takeWhile_prefix _) ?_
    rw [List.length_take]
    omega
  have passed := List.mem_takeWhile_imp (kept.subset inside)
  rw [failed] at passed
  contradiction

theorem takeWhile_take (p : α → Bool) (n : Nat) (items : List α) :
    (items.take n).takeWhile p =
      if (items.take n).length ≤ (items.takeWhile p).length then items.take n
      else items.takeWhile p := by
  have taken : items.take n <+: items := List.take_prefix n items
  have passing : items.takeWhile p <+: items := List.takeWhile_prefix p
  split
  · next shorter =>
    have within := List.prefix_of_prefix_length_le taken passing shorter
    rw [List.takeWhile_eq_self_iff]
    intro item member
    exact List.mem_takeWhile_imp (within.subset member)
  · next longer =>
    have within := List.prefix_of_prefix_length_le passing taken (Nat.le_of_not_ge longer)
    rw [← List.take_takeWhile]
    exact List.take_of_length_le (within.length_le.trans (List.length_take_le n items))

theorem getElem?_length_takeWhile (p : α → Bool) (items : List α) :
    items[(items.takeWhile p).length]? = (items.dropWhile p).head? := by
  have behind : (items.takeWhile p ++ items.dropWhile p)[(items.takeWhile p).length]? =
      (items.dropWhile p)[(items.takeWhile p).length - (items.takeWhile p).length]? :=
    List.getElem?_append_right (Nat.le_refl _)
  rwa [List.takeWhile_append_dropWhile, Nat.sub_self, ← List.head?_eq_getElem?] at behind

end

/-- The longest beginning of the frames without a frame of one kind. The frame behind it, if
there is one, is of that kind. -/
structure LongestWithout (kind : Frame → Prop) (frames kept : List Frame) : Prop where
  begins : kept <+: frames
  free : ∀ frame ∈ kept, ¬ kind frame
  longest : ∀ other, other <+: frames → (∀ frame ∈ other, ¬ kind frame) →
    other.length ≤ kept.length
  next : ∀ frame, frames[kept.length]? = some frame → kind frame

theorem longestWithout_takeWhile (kind : Frame → Prop) [DecidablePred kind]
    (frames : List Frame) :
    LongestWithout kind frames (frames.takeWhile fun frame => ¬ kind frame) where
  begins := List.takeWhile_prefix _
  free frame member := by simpa using List.mem_takeWhile_imp member
  longest other begins free := by
    obtain ⟨rest, rfl⟩ := begins
    rw [List.takeWhile_append_of_pos (by simpa using free), List.length_append]
    exact Nat.le_add_right _ _
  next frame behind := by
    rw [getElem?_length_takeWhile] at behind
    have failed := List.head?_dropWhile_not (fun frame => decide ¬ kind frame) frames
    rw [behind] at failed
    simpa using failed

namespace Trace

/-- Keeps the frames before the first one of a kind. -/
def cropBefore (kind : Frame → Prop) [DecidablePred kind] (trace : Trace) : Trace :=
  trace.withFrames (trace.top.frames.takeWhile fun frame => ¬ kind frame)

section

variable (trace : Trace)

theorem crop_eq_cropBefore (target : Method) :
    trace.crop target = trace.cropBefore (·.method = target) := by
  simp only [crop, cropBefore, bne, BEq.beq, decide_not]

theorem cropBefore_cropBefore (first second : Frame → Prop) [DecidablePred first]
    [DecidablePred second] :
    (trace.cropBefore first).cropBefore second =
      trace.cropBefore fun frame => first frame ∨ second frame := by
  simp only [cropBefore, withFrames, List.takeWhile_takeWhile, decide_eq_true_eq, not_or,
    and_comm]

theorem crop_crop (first second : Method) :
    (trace.crop first).crop second =
      trace.cropBefore fun frame => frame.method = first ∨ frame.method = second := by
  rw [crop_eq_cropBefore, crop_eq_cropBefore, cropBefore_cropBefore]

theorem crop_comm (first second : Method) :
    (trace.crop first).crop second = (trace.crop second).crop first := by
  simp only [crop_crop, or_comm]

theorem crop_self (target : Method) : (trace.crop target).crop target = trace.crop target := by
  rw [crop_crop, crop_eq_cropBefore]
  simp only [or_self]

theorem crop_dropFromEnd (target : Method) (n : Int) :
    (trace.dropFromEnd n).crop target =
      if (trace.dropFromEnd n).top.frames.length ≤ (trace.crop target).top.frames.length then
        trace.dropFromEnd n
      else trace.crop target := by
  have kept := takeWhile_take (·.method != target) (trace.top.frames.length - n.toNat)
    trace.top.frames
  refine (congrArg trace.withFrames kept).trans ?_
  rw [apply_ite trace.withFrames]
  rfl

theorem crop_drop {target : Method} {n : Int}
    (absent : ∀ frame ∈ trace.top.frames.take n.toNat, frame.method ≠ target) :
    (trace.drop n).crop target = (trace.crop target).drop n := by
  have passed : ∀ frame ∈ trace.top.frames.take n.toNat, (frame.method != target) = true := by
    simpa using absent
  simp only [crop, drop, withFrames, takeWhile_drop passed]

theorem drop_crop_eq_nil {target : Method} {n : Int} {frame : Frame}
    (inside : frame ∈ trace.top.frames.take n.toNat) (called : frame.method = target) :
    ((trace.crop target).drop n).top.frames = [] := by
  have failed : (frame.method != target) = false := by simpa using called
  exact drop_takeWhile_eq_nil (p := (·.method != target)) inside failed

end

/-- A crop keeps the longest beginning without its target; a second crop at the target changes
nothing, and crops at two targets, in either order, keep the longest beginning without both. Of a
trace shortened at the outer end, a crop keeps the shorter of what the crop and the shortening
keep. Frames removed ahead may be removed before or after a crop unless the target is among them,
and then the crop leaves no frame to the later removal. -/
theorem crop_laws (trace : Trace) (first second : Method) (n : Int) :
    (∃ kept, trace.crop first = trace.withFrames kept ∧
      LongestWithout (·.method = first) trace.top.frames kept) ∧
    (trace.crop first).crop first = trace.crop first ∧
    (trace.crop first).crop second = (trace.crop second).crop first ∧
    (∃ kept, (trace.crop first).crop second = trace.withFrames kept ∧
      LongestWithout (fun frame => frame.method = first ∨ frame.method = second)
        trace.top.frames kept) ∧
    ((trace.dropFromEnd n).crop first =
      if (trace.dropFromEnd n).top.frames.length ≤ (trace.crop first).top.frames.length then
        trace.dropFromEnd n
      else trace.crop first) ∧
    ((∀ frame ∈ trace.top.frames.take (max n 0).toNat, frame.method ≠ first) →
      (trace.drop n).crop first = (trace.crop first).drop n) ∧
    ((∃ frame ∈ trace.top.frames.take (max n 0).toNat, frame.method = first) →
      ((trace.crop first).drop n).top.frames = []) := by
  have count : (max n 0).toNat = n.toNat := by omega
  rw [count]
  refine ⟨?_, trace.crop_self first, trace.crop_comm first second, ?_,
    trace.crop_dropFromEnd first n, trace.crop_drop, ?_⟩
  · exact ⟨_, trace.crop_eq_cropBefore first, longestWithout_takeWhile _ _⟩
  · exact ⟨_, trace.crop_crop first second, longestWithout_takeWhile _ _⟩
  · rintro ⟨frame, inside, called⟩
    exact trace.drop_crop_eq_nil inside called

theorem laws_of_repeated_call :
    let call (name : String) : Frame := ⟨⟨"Parser", name⟩, "Parser.scala", none, false⟩
    let trace : Trace := ⟨⟨[], "E", .of [], [call "read()", call "next()", call "read()"]⟩, []⟩
    ((∀ frame ∈ trace.top.frames.take (max 1 0), frame.method ≠ ⟨"Parser", "next()"⟩) ∧
        (trace.drop 1).crop ⟨"Parser", "next()"⟩ = (trace.crop ⟨"Parser", "next()"⟩).drop 1) ∧
      ((∃ frame ∈ trace.top.frames.take (max 1 0), frame.method = ⟨"Parser", "read()"⟩) ∧
        ((trace.crop ⟨"Parser", "read()"⟩).drop 1).top.frames = [] ∧
        ((trace.drop 1).crop ⟨"Parser", "read()"⟩).top.frames = [call "next()"]) := by
  intro call trace
  have absent : ∀ frame ∈ trace.top.frames.take (max 1 0),
      frame.method ≠ ⟨"Parser", "next()"⟩ := by decide
  have inside : ∃ frame ∈ trace.top.frames.take (max 1 0),
      frame.method = ⟨"Parser", "read()"⟩ := by decide
  obtain ⟨-, -, -, -, -, exchanged, -⟩ := crop_laws trace ⟨"Parser", "next()"⟩ ⟨[], []⟩ 1
  obtain ⟨-, -, -, -, -, -, emptied⟩ := crop_laws trace ⟨"Parser", "read()"⟩ ⟨[], []⟩ 1
  exact ⟨⟨absent, exchanged absent⟩, inside, emptied inside, by decide⟩

end Trace
end LegibleTrace
