import LegibleTrace.Trace.Trim
import Mathlib

/-! Frames removed at both ends. Steps of this kind leave a block of the frames that is known by
how many are missing at either end. A further step adds to one of the two numbers, whatever is
left of the frames, so the order of the steps does not matter. -/
namespace LegibleTrace

-- Positions are counted from `start` on, so that the induction can go on behind the first item.
theorem filter_zipIdx {α : Type} (items : List α) (start low high : Nat) :
    ((items.zipIdx start).filter fun item => low ≤ item.2 ∧ item.2 < high).map Prod.fst =
      (items.take (high - start)).drop (low - start) := by
  induction items generalizing start with
  | nil => simp
  | cons item items ih =>
    rw [List.zipIdx_cons, List.filter_cons]
    by_cases below : start < high
    · have taken : high - start = high - (start + 1) + 1 := by omega
      rw [taken, List.take_succ_cons]
      by_cases dropped : start < low
      · have skipped : low - start = low - (start + 1) + 1 := by omega
        rw [if_neg (by simp; omega), ih, skipped, List.drop_succ_cons]
      · have first : low - start = 0 := by omega
        have further : low - (start + 1) = 0 := by omega
        rw [if_pos (by simp; omega), List.map_cons, ih, first, further, List.drop_zero,
          List.drop_zero]
    · have passed : high - start = 0 := by omega
      have further : high - (start + 1) = 0 := by omega
      rw [if_neg (by simp; omega), ih, passed, further, List.take_zero, List.take_zero,
        List.drop_nil, List.drop_nil]

namespace Trace

/-- The trace without the first `front` and the last `back` of its frames. -/
def inner (front back : Nat) (trace : Trace) : Trace :=
  trace.withFrames
    ((trace.top.frames.drop front).take (trace.top.frames.length - front - back))

section

variable (trace : Trace)

theorem inner_zero : trace.inner 0 0 = trace := by
  rw [inner, List.drop_zero, Nat.sub_zero, Nat.sub_zero, List.take_length]
  rfl

theorem length_inner (front back : Nat) :
    (trace.inner front back).top.frames.length = trace.top.frames.length - front - back := by
  have fits : trace.top.frames.length - front - back ≤ trace.top.frames.length - front :=
    Nat.sub_le _ _
  rw [inner, withFrames, List.length_take, List.length_drop, Nat.min_eq_left fits]

theorem inner_inner (front back front' back' : Nat) :
    (trace.inner front back).inner front' back' =
      trace.inner (front + front') (back + back') := by
  have fewer : trace.top.frames.length - front - back - front' - back' =
      trace.top.frames.length - (front + front') - (back + back') := by omega
  have fits : trace.top.frames.length - front - back - front' - back' ≤
      trace.top.frames.length - front - back - front' := Nat.sub_le _ _
  rw [inner, length_inner]
  simp only [inner, withFrames]
  rw [List.drop_take, List.drop_drop, List.take_take, Nat.min_eq_left fits, fewer]

theorem drop_eq_inner (n : Int) : trace.drop n = trace.inner n.toNat 0 := by
  rw [inner, Nat.sub_zero, ← List.length_drop, List.take_length]
  rfl

theorem dropFromEnd_eq_inner (n : Int) : trace.dropFromEnd n = trace.inner 0 n.toNat := by
  rw [inner, Nat.sub_zero, List.drop_zero]
  rfl

end

/-- A step that removes frames at one end. -/
inductive Drop
  | front (n : Int)
  | back (n : Int)

namespace Drop

def trim : Drop → Trim
  | front n => .drop n
  | back n => .dropFromEnd n

/-- How many frames the step asks to remove ahead of the others. -/
def ahead : Drop → Int
  | front n => max n 0
  | back _ => 0

/-- How many frames the step asks to remove behind the others. -/
def behind : Drop → Int
  | front _ => 0
  | back n => max n 0

theorem ahead_nonneg (drop : Drop) : 0 ≤ drop.ahead := by
  cases drop with
  | front n => exact le_max_right n 0
  | back n => exact le_refl 0

theorem behind_nonneg (drop : Drop) : 0 ≤ drop.behind := by
  cases drop with
  | front n => exact le_refl 0
  | back n => exact le_max_right n 0

theorem step_trim (drop : Drop) (trace : Trace) :
    trace.step drop.trim = trace.inner drop.ahead.toNat drop.behind.toNat := by
  cases drop with
  | front n =>
    have count : (max n 0).toNat = n.toNat := by omega
    rw [ahead, behind, count]
    exact trace.drop_eq_inner n
  | back n =>
    have count : (max n 0).toNat = n.toNat := by omega
    rw [ahead, behind, count]
    exact trace.dropFromEnd_eq_inner n

variable {count : Drop → Int}

theorem sum_nonneg (nonneg : ∀ drop, 0 ≤ count drop) (drops : List Drop) :
    0 ≤ (drops.map count).sum := by
  apply List.sum_nonneg
  rw [List.forall_mem_map]
  exact fun drop _ => nonneg drop

theorem toNat_sum_cons (nonneg : ∀ drop, 0 ≤ count drop) (drop : Drop) (drops : List Drop) :
    ((drop :: drops).map count).sum.toNat = (count drop).toNat + (drops.map count).sum.toNat := by
  rw [List.map_cons, List.sum_cons, Int.toNat_add (nonneg drop) (sum_nonneg nonneg drops)]

end Drop

theorem run_drops_eq_inner (drops : List Drop) (trace : Trace) :
    trace.run (drops.map Drop.trim) =
      trace.inner (drops.map Drop.ahead).sum.toNat (drops.map Drop.behind).sum.toNat := by
  induction drops generalizing trace with
  | nil => exact trace.inner_zero.symm
  | cons drop drops ih =>
    change (trace.step drop.trim).run (drops.map Drop.trim) = _
    rw [ih, drop.step_trim, inner_inner, Drop.toNat_sum_cons Drop.ahead_nonneg,
      Drop.toNat_sum_cons Drop.behind_nonneg]

theorem drop_dropFromEnd (trace : Trace) (m n : Int) :
    (trace.drop m).dropFromEnd n = trace.inner m.toNat n.toNat := by
  rw [drop_eq_inner, dropFromEnd_eq_inner, inner_inner, Nat.add_zero, Nat.zero_add]

theorem dropFromEnd_drop (trace : Trace) (m n : Int) :
    (trace.dropFromEnd n).drop m = trace.inner m.toNat n.toNat := by
  rw [dropFromEnd_eq_inner, drop_eq_inner, inner_inner, Nat.add_zero, Nat.zero_add]

/-- Steps that remove frames at the ends, in any order and with any numbers, leave what one step
at each end leaves that removes the sum of the numbers, where a negative number counts as zero:
the frames at the positions between the two sums. -/
theorem run_drops (drops : List Drop) (trace : Trace) :
    let ahead := (drops.map Drop.ahead).sum
    let behind := (drops.map Drop.behind).sum
    let left := trace.run (drops.map Drop.trim)
    left = (trace.drop ahead).dropFromEnd behind ∧
    left.top.frames = (trace.top.frames.zipIdx.filter fun frame =>
        ahead ≤ (frame.2 : Int) ∧ (frame.2 : Int) < trace.top.frames.length - behind).map
      Prod.fst ∧
    (∀ m n : Int, (trace.drop m).dropFromEnd n = (trace.dropFromEnd n).drop m) ∧
    ∀ n : Nat, trace.drop (-n) = trace ∧ trace.dropFromEnd (-n) = trace := by
  intro ahead behind left
  have normal : left = trace.inner ahead.toNat behind.toNat := run_drops_eq_inner drops trace
  refine ⟨?_, ?_, ?_, ?_⟩
  · rw [normal, drop_dropFromEnd]
  · have between (frame : Frame × Nat) :
        (ahead ≤ (frame.2 : Int) ∧ (frame.2 : Int) < trace.top.frames.length - behind) ↔
          ahead.toNat ≤ frame.2 ∧ frame.2 < trace.top.frames.length - behind.toNat := by
      have nonneg : 0 ≤ behind := Drop.sum_nonneg Drop.behind_nonneg drops
      omega
    simp only [between]
    rw [filter_zipIdx, normal, Nat.sub_zero, Nat.sub_zero, List.drop_take, Nat.sub_right_comm]
    rfl
  · intro m n
    rw [drop_dropFromEnd, dropFromEnd_drop]
  · intro n
    have none : (-n : Int).toNat = 0 := Int.toNat_neg_natCast n
    rw [drop_eq_inner, dropFromEnd_eq_inner, none, inner_zero]
    exact ⟨rfl, rfl⟩

end Trace
end LegibleTrace
