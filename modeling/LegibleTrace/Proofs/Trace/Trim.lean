import LegibleTrace.Trace.Trim

/-! Sessions of trimming. A step leaves the causes as they are or goes to the first of them, so
after every session the current trace stands at one entry of the chain that it began with: all
behind that entry is untouched, and of its frames a block in their order is left. -/
namespace LegibleTrace

/-- The entry is the other one with a block of its frames, in their order. -/
structure Entry.TrimmedFrom (entry origin : Entry) : Prop where
  component : entry.component = origin.component
  className : entry.className = origin.className
  message : entry.message = origin.message
  frames : entry.frames <:+: origin.frames

namespace Entry.TrimmedFrom

theorem refl (entry : Entry) : entry.TrimmedFrom entry :=
  ⟨rfl, rfl, rfl, List.infix_rfl⟩

theorem trans {entry between origin : Entry} (outer : entry.TrimmedFrom between)
    (inner : between.TrimmedFrom origin) : entry.TrimmedFrom origin where
  component := outer.component.trans inner.component
  className := outer.className.trans inner.className
  message := outer.message.trans inner.message
  frames := outer.frames.trans inner.frames

end Entry.TrimmedFrom

namespace Trace

/-- Whether a step leads to a cause. -/
def moves (trace : Trace) : Trim → Bool
  | .crop _ | .drop _ | .dropFromEnd _ => false
  | .toCause => trace.cause?.isSome

/-- The number of steps of a session that lead to a cause. -/
def effectiveMoves : List Trim → Trace → Nat
  | [], _ => 0
  | trim :: trims, trace => (trace.moves trim).toNat + effectiveMoves trims (trace.step trim)

/-- The current trace is what `start` has from its entry `n` on, with frames of that entry
left out at either end. -/
structure StandsAt (start : Trace) (n : Nat) (current : Trace) : Prop where
  top : ∃ origin, start.chain[n]? = some origin ∧ current.top.TrimmedFrom origin
  causes : current.causes = start.chain.drop (n + 1)

section

variable {trace cause : Trace} {trim : Trim}

theorem trimmedFrom_withFrames {frames : List Frame} (block : frames <:+: trace.top.frames) :
    (trace.withFrames frames).top.TrimmedFrom trace.top :=
  ⟨rfl, rfl, rfl, block⟩

theorem top_step (stays : trim ≠ .toCause) :
    (trace.step trim).top.TrimmedFrom trace.top := by
  cases trim with
  | crop target => exact trimmedFrom_withFrames (List.takeWhile_prefix _).isInfix
  | drop n => exact trimmedFrom_withFrames (List.drop_suffix _ _).isInfix
  | dropFromEnd n => exact trimmedFrom_withFrames (List.take_prefix _ _).isInfix
  | toCause => contradiction

theorem causes_step (stays : trim ≠ .toCause) : (trace.step trim).causes = trace.causes := by
  cases trim with
  | crop | drop | dropFromEnd => rfl
  | toCause => contradiction

theorem moves_eq_false (stays : trim ≠ .toCause) : trace.moves trim = false := by
  cases trim with
  | crop | drop | dropFromEnd => rfl
  | toCause => contradiction

theorem step_toCause_of_some (found : trace.cause? = some cause) :
    trace.step .toCause = cause := by
  rw [step, found, Option.getD_some]

theorem step_toCause_of_none (ended : trace.cause? = none) : trace.step .toCause = trace := by
  rw [step, ended, Option.getD_none]

theorem chain_of_cause (found : trace.cause? = some cause) : trace.causes = cause.chain :=
  cause?_eq_some_iff.mp found

theorem causes_of_none (ended : trace.cause? = none) : trace.causes = [] := by
  cases causes : trace.causes with
  | nil => rfl
  | cons top causes' => simp [cause?, causes] at ended

end

namespace StandsAt

variable {start current : Trace} {n : Nat}

theorem refl (start : Trace) : StandsAt start 0 start where
  top := ⟨start.top, rfl, .refl _⟩
  causes := rfl

theorem ofChain {cause : Trace} (suffix : cause.chain = start.chain.drop n) :
    StandsAt start n cause where
  top := by
    have first := congrArg (·[0]?) suffix
    rw [List.getElem?_drop] at first
    exact ⟨cause.top, first.symm, .refl _⟩
  causes := by
    have rest := congrArg List.tail suffix
    rwa [List.tail_drop] at rest

theorem step (stands : StandsAt start n current) (trim : Trim) :
    StandsAt start (n + (current.moves trim).toNat) (current.step trim) := by
  by_cases move : trim = .toCause
  · subst move
    cases found : current.cause? with
    | none =>
      have stays : current.moves .toCause = false := by rw [moves, found, Option.isSome_none]
      rw [stays, step_toCause_of_none found]
      exact stands
    | some cause =>
      have leaves : current.moves .toCause = true := by rw [moves, found, Option.isSome_some]
      rw [leaves, step_toCause_of_some found]
      exact ofChain ((chain_of_cause found).symm.trans stands.causes)
  · rw [moves_eq_false move]
    obtain ⟨origin, here, trimmed⟩ := stands.top
    refine ⟨⟨origin, here, (top_step move).trans trimmed⟩, ?_⟩
    rw [causes_step move]
    exact stands.causes

theorem run (stands : StandsAt start n current) (trims : List Trim) :
    StandsAt start (n + effectiveMoves trims current) (current.run trims) := by
  induction trims generalizing n current with
  | nil => exact stands
  | cons trim trims ih =>
    rw [effectiveMoves, ← Nat.add_assoc]
    exact ih (stands.step trim)

end StandsAt

theorem standsAt_run (start : Trace) (trims : List Trim) :
    StandsAt start (effectiveMoves trims start) (start.run trims) := by
  have stands := (StandsAt.refl start).run trims
  rwa [Nat.zero_add] at stands

theorem effectiveMoves_eq (trims : List Trim) (trace : Trace) :
    effectiveMoves trims trace = min (trims.count .toCause) trace.causes.length := by
  induction trims generalizing trace with
  | nil => exact (Nat.zero_min _).symm
  | cons trim trims ih =>
    rw [effectiveMoves, ih]
    by_cases move : trim = .toCause
    · subst move
      rw [List.count_cons_self]
      cases found : trace.cause? with
      | none =>
        rw [step_toCause_of_none found, causes_of_none found, moves, found]
        simp
      | some cause =>
        rw [step_toCause_of_some found, chain_of_cause found, moves, found]
        simp only [Option.isSome_some, Bool.toNat_true, chain, List.length_cons]
        omega
    · rw [moves_eq_false move, causes_step move, List.count_cons_of_ne move]
      exact Nat.zero_add _

theorem run_append (before after : List Trim) (trace : Trace) :
    trace.run (before ++ after) = (trace.run before).run after :=
  List.foldl_append

/-- After any session the top is the entry that the effective moves lead to, with a block of its
frames, and the causes are those that the entry had at the start. Trimming changes no other
entry of the chain, so an effective move reaches its entry as it was at the start, whatever was
trimmed before. -/
theorem run_stands (start : Trace) (trims : List Trim) :
    let current := start.run trims
    let n := effectiveMoves trims start
    n = min (trims.count .toCause) start.causes.length ∧
    (∃ origin, start.chain[n]? = some origin ∧ current.top.TrimmedFrom origin) ∧
    current.causes = start.chain.drop (n + 1) ∧
    (∀ trim, trim ≠ .toCause → ∀ other,
      (current.step trim).chain[other + 1]? = current.chain[other + 1]?) ∧
    ∀ before after, trims = before ++ .toCause :: after → (start.run before).moves .toCause →
      ∃ reached : Trace, reached.chain = start.chain.drop (effectiveMoves before start + 1) ∧
        current = reached.run after := by
  intro current n
  have stands : StandsAt start n current := standsAt_run start trims
  refine ⟨effectiveMoves_eq trims start, stands.top, stands.causes, ?_, ?_⟩
  · intro trim stays other
    rw [chain, chain, List.getElem?_cons_succ, List.getElem?_cons_succ, causes_step stays]
  · intro before after split leaves
    obtain ⟨reached, found⟩ := Option.isSome_iff_exists.mp leaves
    refine ⟨reached, ?_, ?_⟩
    · rw [← chain_of_cause found]
      exact (standsAt_run start before).causes
    · change start.run trims = reached.run after
      rw [split, run_append]
      change ((start.run before).step .toCause).run after = reached.run after
      rw [step_toCause_of_some found]

end Trace
end LegibleTrace
