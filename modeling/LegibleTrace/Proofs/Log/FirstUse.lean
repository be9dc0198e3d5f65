import LegibleTrace.Proofs.Log.History
import Mathlib.Data.List.Induction

/-! The processors that a lazy logger keeps. As the program asks for it, they are those of the
setup that was in force when the logger was first used under one; later setups do not reach it. -/
namespace LegibleTrace.Log

/-- Nothing was in force whenever the keeper used its logger. -/
def Unused (keeper : Keeper) (calls : List Call) : Prop :=
  ∀ before call after, calls = before ++ call :: after → call.keeper? = some keeper →
    latest? before = none

/-- A keeper first uses its logger under a setup after the calls `before`, when a format is in
force. -/
structure FirstUse (keeper : Keeper) (calls before : List Call) (format : Format) : Prop where
  uses : ∃ call after, calls = before ++ call :: after ∧ call.keeper? = some keeper
  inForce : ∃ level, latest? before = some (level, format)
  unused : Unused keeper before

/-- What is kept: nothing until the logger is used, then the processors of its first use. -/
inductive Keeps (keeper : Keeper) (calls : List Call) : Option (List Processor) → Prop
  | unused (never : Unused keeper calls) : Keeps keeper calls none
  | used (before format) (first : FirstUse keeper calls before format) :
      Keeps keeper calls (some (chain format))

variable {keeper : Keeper} {calls before other : List Call} {format otherFormat : Format}
  {level : Level} {call : Call}

theorem Unused.nil : Unused keeper [] := by
  intro before call after split
  cases before <;> cases split

theorem Unused.concat (unused : Unused keeper calls)
    (idle : call.keeper? = some keeper → latest? calls = none) :
    Unused keeper (calls ++ [call]) := by
  intro before last after split uses
  obtain rfl | ⟨between, final, rfl⟩ := after.eq_nil_or_concat
  · obtain ⟨rfl, same⟩ := List.append_inj' split rfl
    obtain rfl := List.singleton_inj.mp same
    exact idle uses
  · rw [List.concat_eq_append, ← List.cons_append, ← List.append_assoc] at split
    exact unused before last between (List.append_inj' split rfl).1 uses

theorem Unused.firstUse (unused : Unused keeper calls)
    (latest : latest? calls = some (level, format)) (uses : call.keeper? = some keeper) :
    FirstUse keeper (calls ++ [call]) calls format :=
  ⟨⟨call, [], rfl, uses⟩, ⟨level, latest⟩, unused⟩

namespace FirstUse

theorem append (first : FirstUse keeper calls before format) (more : List Call) :
    FirstUse keeper (calls ++ more) before format := by
  obtain ⟨⟨call, after, rfl, uses⟩, inForce, unused⟩ := first
  exact ⟨⟨call, after ++ more, List.append_assoc _ _ _, uses⟩, inForce, unused⟩

theorem not_ahead (first : FirstUse keeper calls before format)
    (second : FirstUse keeper calls other otherFormat) {between : List Call}
    (ahead : other = before ++ between) : between = [] := by
  obtain ⟨call, after, split, uses⟩ := first.uses
  obtain ⟨later, rest, same, -⟩ := second.uses
  obtain ⟨level, latest⟩ := first.inForce
  cases between with
  | nil => rfl
  | cons middle between =>
    rw [split, ahead, List.append_assoc, List.append_cancel_left_eq] at same
    obtain ⟨rfl, -⟩ := List.cons.inj same
    -- The earlier use lies ahead of the later one, so nothing was in force when it was made.
    have unset := second.unused before call between ahead uses
    rw [unset] at latest
    cases latest

theorem unique (first : FirstUse keeper calls before format)
    (second : FirstUse keeper calls other otherFormat) : format = otherFormat := by
  have same : before = other := by
    obtain ⟨call, after, split, -⟩ := first.uses
    obtain ⟨later, rest, joined, -⟩ := second.uses
    rw [split, List.append_eq_append_iff] at joined
    obtain ⟨between, ahead, -⟩ | ⟨between, ahead, -⟩ := joined
    · rw [ahead, first.not_ahead second ahead, List.append_nil]
    · rw [ahead, second.not_ahead first ahead, List.append_nil]
  subst same
  obtain ⟨level, latest⟩ := first.inForce
  obtain ⟨otherLevel, again⟩ := second.inForce
  rw [latest] at again
  exact (Prod.mk.inj (Option.some.inj again)).2

end FirstUse

namespace Keeps

variable {kept : Option (List Processor)}

theorem skip (keeps : Keeps keeper calls kept) (silent : call.keeper? ≠ some keeper) :
    Keeps keeper (calls ++ [call]) kept := by
  cases keeps with
  | unused never => exact .unused (never.concat fun uses => absurd uses silent)
  | used before format first => exact .used before format (first.append [call])

theorem use (keeps : Keeps keeper calls kept) (uses : call.keeper? = some keeper) :
    Keeps keeper (calls ++ [call])
      (kept.or ((latest? calls).map fun setting => chain setting.2)) := by
  cases keeps with
  | unused never =>
    cases latest : latest? calls with
    | none => exact .unused (never.concat fun _ => latest)
    | some setting => exact .used calls setting.2 (never.firstUse latest uses)
  | used before format first => exact .used before format (first.append _)

end Keeps

namespace Session

variable {σ : Type} {library : Library σ} {session next : Session σ}
  (documented : library.Documented)
include documented

theorem kept_use {state : σ} (caches : ∀ config, (library.view state).config = some config →
      config.cachesFirstUse = true) (keeper other : Keeper) :
    (library.view (library.use keeper state).1).kept other =
      ((library.view state).kept other).or
        (if other = keeper then (library.view state).config.map Config.processors else none) := by
  cases configured : (library.view state).config with
  | none =>
    have idle : library.view (library.use keeper state).1 = library.view state := by
      refine documented.passes keeper state ?_
      rw [configured]
      nofun
    rw [idle, Option.map_none, ite_self, Option.or_none]
  | some config =>
    rw [documented.keeps keeper state config configured (caches config configured),
      documented.used, documented.processors config state configured]
    dsimp only
    by_cases same : other = keeper
    · rw [if_pos same, same, Function.update_self]
      cases (library.view state).kept keeper <;> rfl
    · rw [if_neg same, Function.update_of_ne same, Option.or_none]

theorem Next.kept_eq (moves : Next library session call next)
    (caches : ∀ config, (library.view session.state).config = some config →
      config.cachesFirstUse = true) (keeper : Keeper) :
    (library.view next.state).kept keeper =
      ((library.view session.state).kept keeper).or (if call.keeper? = some keeper
        then (library.view session.state).config.map Config.processors else none) := by
  cases moves with
  | configured _ level format file directory sets =>
    rw [documented.configure, Call.keeper?, Call.logged?_of_setting? sets]
    exact Option.or_none.symm
  | bind fields => rw [documented.bind]; exact Option.or_none.symm
  | unbind names => rw [documented.unbind]; exact Option.or_none.symm
  | clear => rw [documented.clear]; exact Option.or_none.symm
  | used _ user uses =>
    rw [uses, kept_use documented caches]
    simp only [Option.some.injEq, eq_comm]
  | refused | log | proceed => exact Option.or_none.symm

theorem kept_run (directory : Directory) (host : Host) (keeper : Keeper) (calls : List Call) :
    Keeps keeper calls
      ((library.view ((start library directory host).run library calls).state).kept keeper) := by
  induction calls using List.reverseRecOn with
  | nil =>
    change Keeps keeper [] ((library.view library.initial).kept keeper)
    rw [documented.initial]
    exact .unused .nil
  | append_singleton calls call ih =>
    have configured := config_run documented directory host calls
    rw [run_append]
    generalize (start library directory host).run library calls = session at configured ih
    have caches (config : Config) (held : (library.view session.state).config = some config) :
        config.cachesFirstUse = true := by
      obtain ⟨setting, -, rfl⟩ := Option.map_eq_some_iff.mp (configured.symm.trans held)
      rfl
    change Keeps keeper _ ((library.view (session.step library call).1.state).kept keeper)
    rw [(session.next_step library call).kept_eq documented caches, configured, Option.map_map]
    by_cases uses : call.keeper? = some keeper
    · rw [if_pos uses]
      exact ih.use uses
    · rw [if_neg uses, Option.or_none]
      exact ih.skip uses

theorem processors_run (directory : Directory) (host : Host)
    (latest : latest? calls = some (level, format)) :
    library.processors ((start library directory host).run library calls).state =
      chain format := by
  have configured := config_run documented directory host calls
  rw [latest] at configured
  exact documented.processors (config format) _ configured

theorem used_run (directory : Directory) (host : Host)
    (latest : latest? calls = some (level, format)) (uses : call.keeper? = some keeper) :
    ∃ before first, FirstUse keeper (calls ++ [call]) before first ∧
      (library.use keeper ((start library directory host).run library calls).state).2 =
        chain first := by
  have current := processors_run documented directory host latest
  have keeps := kept_run documented directory host keeper calls
  rw [documented.used, current]
  generalize (library.view ((start library directory host).run library calls).state).kept
    keeper = kept at keeps
  cases keeps with
  | unused never => exact ⟨calls, format, never.firstUse latest uses, rfl⟩
  | used before first used => exact ⟨before, first, used.append _, rfl⟩

end Session
end LegibleTrace.Log
