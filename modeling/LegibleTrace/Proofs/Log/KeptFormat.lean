import LegibleTrace.Proofs.Log.Emission

/-! The format that a part of the library reports in. It is the one that was in force when the
part first reported under a setup, for the program asks that the processors of a first use are
kept. -/
namespace LegibleTrace.Log

variable {σ : Type} {library : Library σ}

/-- Only where it is asked for does a library keep processors: otherwise a lazy logger uses those
of the current configuration and leaves the state as it was. -/
theorem Library.Documented.uses_current (documented : library.Documented) {state : σ}
    {current : Config} (configured : (library.view state).config = some current)
    (unasked : current.cachesFirstUse = false) {keeper : Keeper}
    (unkept : (library.view state).kept keeper = none) :
    (library.use keeper state).2 = current.processors ∧
      library.view (library.use keeper state).1 = library.view state := by
  refine ⟨?_, documented.passes keeper state ?_⟩
  · rw [documented.used, unkept, documented.processors current state configured]
    rfl
  · intro other inForce
    rw [configured] at inForce
    obtain rfl := Option.some.inj inForce
    exact unasked

namespace Session

/-- An event that a part of the library reports is written in the format that was in force when
this part first reported one under a setup, whatever has been set up since. -/
theorem run_report_keeps_format (documented : library.Documented) (directory : Directory)
    (host : Host) (calls : List Call) {level : Level} {format : Format}
    (latest : latest? calls = some (level, format)) (reporter : Reporter) (event : Event) :
    let session := (start library directory host).run library calls
    let call := Call.report reporter event
    let record := Record.ofEvent reporter.logger event
    (∃ before first, FirstUse (.reporter reporter) (calls ++ [call]) before first) ∧
      ∀ before first, FirstUse (.reporter reporter) (calls ++ [call]) before first →
        Emission library session.host session.write level first (givenAfter calls record [])
          record (session.step library call).2 := by
  intro session call record
  have inForce := level_run documented directory host calls
  rw [latest] at inForce
  have uses : call.keeper? = some (.reporter reporter) := rfl
  obtain ⟨before, first, firstly, used⟩ := used_run documented directory host latest uses
  refine ⟨⟨before, first, firstly⟩, ?_⟩
  intro other otherFormat again
  rw [← firstly.unique again]
  exact emission_kept documented inForce (bound_run documented directory host calls) used record []

/-- Reports ahead of any setup keep nothing, so that this one is written for the eye, though a
setup for named fields came first. -/
theorem run_report_keeps_console :
    let host : Host := ⟨[], [], none, ⟨none, some "0.1.0"⟩, fun _ => []⟩
    let event : Event := .causeCycle 2 "A"
    let calls : List Call := [.report .assembly event, .configure "INFO" "json" none false,
      .configure "INFO" "console" none false]
    let session := (start .standard ⟨[], []⟩ host).run .standard calls
    latest? calls = some (.info, .console) ∧
      ∃ lines : List Line, lines ≠ [] ∧ (∀ fields, .fields fields ∉ lines) ∧
        (session.step .standard (.report .assembly event)).2 = .ok (lines.map .stream) := by
  intro host event calls session
  have latest : latest? calls = some (.info, .console) := rfl
  let keeper : Keeper := .reporter .assembly
  have idle : Unused keeper [.report .assembly event] := Unused.nil.concat fun _ => rfl
  have silent (level format : Text) :
      (Call.configure level format none false).keeper? ≠ some keeper := by
    rintro ⟨⟩
  have unused : Unused keeper calls :=
    (idle.concat fun uses => absurd uses (silent "INFO" "json")).concat
      fun uses => absurd uses (silent "INFO" "console")
  have emission := (run_report_keeps_format Library.documented_standard ⟨[], []⟩ host calls latest
    .assembly event).2 calls .console (unused.firstUse latest rfl)
  have ready : Ready .standard host
      (givenAfter calls (.ofEvent Reporter.assembly.logger event) []) "cause_chain_truncated"
      "cause_chain_truncated" := ⟨by decide +kernel, by decide +kernel, by decide +kernel⟩
  obtain ⟨fields, -, written, unwritten⟩ := emission.emitted (by decide) _ ready
  have accepted : (session.step .standard (.report .assembly event)).2.isOk := by
    decide +kernel
  cases shown : Library.standard.render? .console fields with
  | none =>
    rw [(unwritten shown).2] at accepted
    cases accepted
  | some lines =>
    obtain ⟨nonempty, -, outcome⟩ := written lines shown
    have write : session.write = fun line => [.stream line] := rfl
    rw [write, ← List.map_eq_flatMap] at outcome
    refine ⟨latest, lines, nonempty, ?_, outcome⟩
    obtain ⟨text, -, rfl⟩ := Option.map_eq_some_iff.mp shown
    intro fields inside
    obtain ⟨_, -, same⟩ := List.mem_map.mp inside
    cases same

/-- The latest setup is for the eye, but this event is written as named fields, for it follows one
that was. -/
theorem latest_format_not_used :
    let host : Host := ⟨[], [], none, ⟨none, some "0.1.0"⟩, fun _ => []⟩
    let event : Event := .nameRejected "if" "if" "a package name cannot be the Java keyword, if"
    let calls : List Call := [.configure "DEBUG" "json" none false, .report .validation event,
      .configure "DEBUG" "console" none false]
    let session := (start .standard ⟨[], []⟩ host).run .standard calls
    latest? calls = some (.debug, .console) ∧
      ∃ fields, (session.step .standard (.report .validation event)).2 =
        .ok [.stream (.fields fields)] := by
  exact ⟨rfl, _, rfl⟩

end Session
end LegibleTrace.Log
