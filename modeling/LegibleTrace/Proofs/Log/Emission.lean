import LegibleTrace.Proofs.Log.Chain
import LegibleTrace.Proofs.Log.FirstUse
import LegibleTrace.Proofs.Log.Standard

/-! What comes of an event that is logged after any sequence of calls. The latest setup decides
whether its level is reached, and its line carries what its own fields and the bound ones give.
Calls that were refused have left no trace in either. -/
namespace LegibleTrace.Log

namespace Level

variable {name : Text}

end Level

namespace Format

variable {name : Text}

end Format

variable {σ : Type} {library : Library σ}

/-- What is given to a record under a name: by its call, or else by what is bound. -/
def givenAfter (calls : List Call) (record : Record) (arguments : List Value) (name : Text) :
    Option Value :=
  (record.own arguments name).or (bound? calls name)

/-- What comes of a record: nothing below the level in force, its lines from there on, and a
refusal if something breaks off on the way or the fields cannot be written. Fields that fit can
be. -/
structure Emission (library : Library σ) (host : Host) (write : Line → List Effect)
    (level : Level) (format : Format) (given : Text → Option Value) (record : Record)
    (outcome : Except Refusal (List Effect)) : Prop where
  silent : record.level.rank < level.rank → outcome = .ok []
  emitted : level.rank ≤ record.level.rank →
    ∀ event, Ready library host given record.event event →
      ∃ fields, Carries library host given record event fields ∧
        (∀ lines, library.render? format fields = some lines →
          lines ≠ [] ∧ (format = .json → lines = [.fields fields]) ∧
            outcome = .ok (lines.flatMap write)) ∧
        (library.render? format fields = none →
          ¬Fits fields format ∧ outcome = .error .unwritable)
  misfit : level.rank ≤ record.level.rank →
    (∀ event, ¬Ready library host given record.event event) → outcome = .error .unwritable

namespace Session

variable {session : Session σ} {calls : List Call} {call : Call} {record : Record}
  {arguments : List Value} {level : Level} {format : Format} {processors : List Processor}

section

variable {outcome : Outcome}
  (dispatched : library.dispatch (session.scene record) processors
    (library.prepare record arguments) = outcome)
include dispatched

theorem emit_of_dropped (dropped : outcome = .dropped) :
    session.emit library processors record arguments = some [] := by
  rw [emit, dispatched, dropped]

theorem emit_of_broken (broken : outcome = .broken) :
    session.emit library processors record arguments = none := by
  rw [emit, dispatched, broken]

theorem emit_of_written {lines : List Line} (written : outcome = .written lines)
    (reached : session.lets record.level) :
    session.emit library processors record arguments = some (lines.flatMap session.write) := by
  rw [emit, dispatched, written]
  exact congrArg some (if_pos reached)

end

theorem level_of_setup (inForce : session.setup.map Setup.level = some level) :
    session.level = level := by
  obtain ⟨setup, found, rfl⟩ := Option.map_eq_some_iff.mp inForce
  rw [Session.level, found]
  rfl

theorem emission_emit (documented : library.Documented)
    (inForce : session.setup.map Setup.level = some level)
    (bound : ∀ name, (library.view session.state).bound name = bound? calls name)
    (format : Format) (record : Record) (arguments : List Value) :
    Emission library session.host session.write level format (givenAfter calls record arguments)
      record (answer (session.emit library (chain format) record arguments)) := by
  obtain ⟨distinct, own⟩ := documented.prepares record arguments
  obtain ⟨entry, apart, holds, goes⟩ := Library.dispatch_chain documented.toProcesses distinct
    (session.scene record) format
  have given : entry.held =
      identified (session.scene record).host (givenAfter calls record arguments) := by
    rw [holds, own]
    congr 1
    funext name
    exact congrArg _ (bound name)
  have spoken : givenAfter calls record arguments "event" = some (.text record.event) := by
    rw [givenAfter, Record.own, if_pos rfl, Option.some_or]
  change library.dispatch _ _ _ = if session.level.rank ≤ record.level.rank then _ else _ at goes
  rw [level_of_setup inForce] at goes
  constructor
  case silent =>
    intro below
    rw [if_neg (Nat.not_le.mpr below)] at goes
    rw [emit_of_dropped goes rfl]
    rfl
  case emitted =>
    intro reached event ready
    obtain ⟨fields, carries, written⟩ := Library.dispatch_of_ready documented.toProcesses apart
      given spoken rfl rfl ready format
    rw [if_pos reached, written] at goes
    refine ⟨fields, carries, ?_, ?_⟩
    · intro lines rendered
      rw [rendered] at goes
      have lets : session.lets record.level := by
        rw [lets, level_of_setup inForce]
        exact decide_eq_true reached
      refine ⟨documented.leavesLine format fields lines rendered, ?_, ?_⟩
      · rintro rfl
        exact documented.namesFields fields lines rendered
      · rw [emit_of_written goes rfl lets]
        rfl
    · intro unrendered
      rw [unrendered] at goes
      refine ⟨fun fits => ?_, ?_⟩
      · have rendered := documented.writes format fields fits
        rw [unrendered] at rendered
        cases rendered
      · rw [emit_of_broken goes rfl]
        rfl
  case misfit =>
    intro reached unready
    rw [if_pos reached, Library.dispatch_of_not_ready documented.toProcesses apart given spoken
      unready format] at goes
    rw [emit_of_broken goes rfl]
    rfl

theorem not_isNone_of_setup (inForce : session.setup.map Setup.level = some level) :
    ¬session.setup.isNone := by
  obtain ⟨setup, found, -⟩ := Option.map_eq_some_iff.mp inForce
  rw [found]
  exact Bool.false_ne_true

section

variable (documented : library.Documented)
  (inForce : session.setup.map Setup.level = some level)
  (bound : ∀ name, (library.view session.state).bound name = bound? calls name)
include documented inForce bound

theorem emission_kept {keeper : Keeper}
    (used : (library.use keeper session.state).2 = chain format) (record : Record)
    (arguments : List Value) :
    Emission library session.host session.write level format (givenAfter calls record arguments)
      record (answer (session.logBy library (some keeper) record arguments).2) := by
  let next : Session σ := { session with state := (library.use keeper session.state).1 }
  have levelled : next.setup.map Setup.level = some level := inForce
  have same (name : Text) : (library.view next.state).bound name = bound? calls name := by
    obtain ⟨kept, seen⟩ := view_use documented keeper session.state
    change (library.view (library.use keeper session.state).1).bound name = _
    rw [seen]
    exact bound name
  change Emission library session.host session.write level format _ record
    (answer (if session.setup.isNone then some []
      else next.emit library (library.use keeper session.state).2 record arguments))
  rw [if_neg (not_isNone_of_setup inForce), used]
  exact emission_emit documented levelled same format record arguments

end

end Session
end LegibleTrace.Log
