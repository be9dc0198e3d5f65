import LegibleTrace.Log.Chain
import LegibleTrace.Proofs.Log.Library

/-! What becomes of an entry on its way through the processors, over any library that does what is
documented. The program says over every caller who it is; questions are answered and taken out;
every other field is the one that was given. -/
namespace LegibleTrace.Log

variable {σ : Type} {library : Library σ}

/-- Names under which an entry holds something else than what was given. -/
def reserved : List Text :=
  List.map String.toList ["service", "version", "event", "logger", "level", "timestamp"] ++
    [argumentsName, stackQuestion, stackName, exceptionQuestion, exceptionName]

/-- The fields that a line carries, if `given` tells what was given under each name and `event`
is the event with the arguments put in. -/
structure Carries (library : Library σ) (host : Host) (given : Text → Option Value)
    (record : Record) (event : Text) (fields : Fields) : Prop where
  distinct : fields.Distinct
  service : fields.held "service" = some (.text "stackglyph")
  version : fields.held "version" =
    (host.package.version?.map .text).or ((given "version").map library.decoded)
  event : fields.held "event" = some (.text event)
  logger : fields.held "logger" = some (.text record.logger)
  level : fields.held "level" = some (.text record.level.label)
  timestamp : ∃ time, fields.held "timestamp" = some (.text time)
  arguments : fields.held argumentsName = (given argumentsName).filter Value.isNull
  asksNoStack : fields.held stackQuestion = none
  stack : fields.held stackName =
    ((stackTold host (given stackQuestion)).map .text).or ((given stackName).map library.decoded)
  asksNoException : fields.held exceptionQuestion = none
  exception : ∃ told, library.told? host (given exceptionQuestion) = some told ∧
    fields.held exceptionName =
      (told.map .text).or ((given exceptionName).map library.decoded)
  others : ∀ name ∉ reserved, fields.held name = (given name).map library.decoded

/-- Nothing breaks off on the way: no origin is given that a processor would ask for its name, the
arguments fit the event, and the exception can be told if it is asked for. -/
structure Ready (library : Library σ) (host : Host) (given : Text → Option Value)
    (text event : Text) : Prop where
  own : (given originName).all Value.isNull
  filled : library.filled? text (given argumentsName) = some event
  told : (library.told? host (given exceptionQuestion)).isSome

-- What an entry holds behind each part of the chain, told from what it held ahead of it.
def identified (host : Host) (held : Text → Option Value) : Text → Option Value :=
  Function.update (Function.update held "service" (some (.text service))) "version"
    ((host.package.version?.map .text).or (held "version"))

def labelled (scene : Scene σ) (held : Text → Option Value) : Text → Option Value :=
  Function.update (Function.update held "logger" (some (.text scene.logger))) "level"
    (some (.text scene.level.label))

def filledIn (event : Text) (held : Text → Option Value) : Text → Option Value :=
  Function.update (Function.update held "event" (some (.text event))) argumentsName
    ((held argumentsName).filter Value.isNull)

def traced (host : Host) (time : Text) (held : Text → Option Value) : Text → Option Value :=
  answering stackQuestion stackName (stackTold host (held stackQuestion))
    (Function.update held "timestamp" (some (.text time)))

def told (library : Library σ) (host : Host) (time : Text) (exception : Option Text)
    (held : Text → Option Value) : Text → Option Value :=
  fun name => (answering exceptionQuestion exceptionName exception (traced host time held)
    name).map library.decoded

namespace Library

section

variable {scene : Scene σ} {processor : Processor} {entry : Fields} {held : Text → Option Value}

theorem held_addContext (host : Host) (entry : Fields) :
    (addContext host entry).held = identified host entry.held := by
  rw [addContext, identified]
  cases host.package.version? with
  | some version => rw [Fields.held_set, Fields.held_set]; rfl
  | none =>
    rw [Fields.held_set, Option.map_none, Option.none_or]
    funext key
    by_cases same : key = "version"
    · rw [same, Function.update_self, Function.update_of_ne (by decide)]
    · rw [Function.update_of_ne same]

theorem distinct_addContext (distinct : entry.Distinct) (host : Host) :
    (addContext host entry).Distinct := by
  rw [addContext]
  cases host.package.version? with
  | some version => exact (distinct.set _ _).set _ _
  | none => exact distinct.set _ _

variable (processes : library.Processes)
include processes

theorem dispatch_of_goesOn (goes : GoesOn held (library.process scene processor entry)) :
    ∃ next : Fields, next.Distinct ∧ next.held = held ∧ ∀ rest,
      library.dispatch scene (processor :: rest) entry = library.dispatch scene rest next := by
  obtain ⟨next, outcome, distinct, holds⟩ := goes
  exact ⟨next, distinct, holds, fun rest =>
    processes.handsOn scene processor rest entry next outcome⟩

/-- The processors behind the filter by levels. -/
def labelling (format : Format) : List Processor :=
  (chain format).drop 3

theorem dispatch_chain (distinct : entry.Distinct) (scene : Scene σ) (format : Format) :
    ∃ next : Fields, next.Distinct ∧
      next.held = identified scene.host
        (fun name => (entry.held name).or ((library.view scene.state).bound name)) ∧
      library.dispatch scene (chain format) entry =
        if scene.threshold.rank ≤ scene.level.rank
          then library.dispatch scene (labelling format) next else .dropped := by
  obtain ⟨merged, apart, holds, goes⟩ :=
    dispatch_of_goesOn processes (processes.merges scene entry distinct)
  refine ⟨addContext scene.host merged, distinct_addContext apart _, ?_, ?_⟩
  · rw [held_addContext, holds]
  · change library.dispatch scene
      (.mergeContext :: .call addContext :: .filterByLevel :: labelling format) entry = _
    rw [goes, processes.handsOn _ _ _ _ _ (processes.calls scene addContext merged)]
    have filters := processes.filters scene (addContext scene.host merged)
    by_cases reached : scene.threshold.rank ≤ scene.level.rank
    · rw [if_pos reached] at filters ⊢
      exact processes.handsOn _ _ _ _ _ filters
    · rw [if_neg reached] at filters ⊢
      exact processes.drops _ _ _ _ filters

end

section

variable {host : Host} {given held : Text → Option Value} {record : Record} {scene : Scene σ}
  {event time name : Text} {exception : Option Text} {fields : Fields}

theorem identified_of_ne (service : name ≠ "service") (version : name ≠ "version") (host : Host)
    (held : Text → Option Value) : identified host held name = held name := by
  rw [identified, Function.update_of_ne version, Function.update_of_ne service]

theorem labelled_of_ne (logger : name ≠ "logger") (level : name ≠ "level") (scene : Scene σ)
    (held : Text → Option Value) : labelled scene held name = held name := by
  rw [labelled, Function.update_of_ne level, Function.update_of_ne logger]

/-- Names under which the program and the library say where an entry is from. -/
def origins : List Text :=
  List.map String.toList ["service", "version", "logger", "level"]

theorem labelled_identified (free : name ∉ origins) :
    labelled scene (identified host given) name = given name := by
  simp only [origins, List.map_cons, List.map_nil, List.mem_cons, List.not_mem_nil, or_false,
    not_or] at free
  obtain ⟨service, version, logger, level⟩ := free
  rw [labelled_of_ne logger level, identified_of_ne service version]

theorem filledIn_of_ne (spoken : name ≠ "event") (unused : name ≠ argumentsName) (event : Text)
    (held : Text → Option Value) : filledIn event held name = held name := by
  rw [filledIn, Function.update_of_ne unused, Function.update_of_ne spoken]

def answers : List Text :=
  [exceptionQuestion, exceptionName, stackQuestion, stackName, "timestamp"]

theorem told_of_not_mem (plain : name ∉ answers) :
    told library host time exception held name = (held name).map library.decoded := by
  simp only [answers, List.mem_cons, List.not_mem_nil, or_false, not_or] at plain
  obtain ⟨asked, answer, stackAsked, stack, timed⟩ := plain
  rw [told, traced, answering_of_ne asked answer, answering_of_ne stackAsked stack,
    Function.update_of_ne timed]

theorem filledIn_of_not_mem (free : name ∉ argumentsName :: "event" :: origins) :
    filledIn event (labelled scene (identified host given)) name = given name := by
  simp only [List.mem_cons, not_or] at free
  obtain ⟨unused, spoken, free⟩ := free
  rw [filledIn_of_ne spoken unused, labelled_identified free]

theorem traced_exceptionQuestion (host : Host) (time : Text) (held : Text → Option Value) :
    traced host time held exceptionQuestion = held exceptionQuestion := by
  rw [traced, answering_of_ne (by decide) (by decide), Function.update_of_ne (by decide)]

theorem map_decoded_filter_isNull (field : Option Value) :
    (field.filter Value.isNull).map library.decoded = field.filter Value.isNull := by
  cases field with
  | none => rfl
  | some value => cases value <;> rfl

theorem map_decoded_or (text : Option Text) (field : Option Value) :
    ((text.map Value.text).or field).map library.decoded =
      (text.map .text).or (field.map library.decoded) := by
  cases text <;> rfl

theorem carries_told (logger : scene.logger = record.logger) (level : scene.level = record.level)
    (distinct : fields.Distinct)
    (tells : library.told? host (given exceptionQuestion) = some exception)
    (holds : fields.held = told library host time exception
      (filledIn event (labelled scene (identified host given)))) :
    Carries library host given record event fields where
  distinct := distinct
  service := by
    rw [holds, told_of_not_mem (by decide), filledIn_of_ne (by decide) (by decide),
      labelled_of_ne (by decide) (by decide), identified, Function.update_of_ne (by decide),
      Function.update_self]
    rfl
  version := by
    rw [holds, told_of_not_mem (by decide), filledIn_of_ne (by decide) (by decide),
      labelled_of_ne (by decide) (by decide), identified, Function.update_self,
      map_decoded_or]
  event := by
    rw [holds, told_of_not_mem (by decide), filledIn, Function.update_of_ne (by decide),
      Function.update_self]
    rfl
  logger := by
    rw [holds, told_of_not_mem (by decide), filledIn_of_ne (by decide) (by decide), labelled,
      Function.update_of_ne (by decide), Function.update_self, logger]
    rfl
  level := by
    rw [holds, told_of_not_mem (by decide), filledIn_of_ne (by decide) (by decide), labelled,
      Function.update_self, level]
    rfl
  timestamp := by
    refine ⟨time, ?_⟩
    rw [holds, told, traced, answering_of_ne (by decide) (by decide),
      answering_of_ne (by decide) (by decide), Function.update_self]
    rfl
  arguments := by
    rw [holds, told_of_not_mem (by decide), filledIn, Function.update_self,
      labelled_of_ne (by decide) (by decide), identified_of_ne (by decide) (by decide),
      map_decoded_filter_isNull]
  asksNoStack := by
    rw [holds, told, traced, answering_of_ne (by decide) (by decide),
      answering_question (by decide), Option.map_none]
  stack := by
    rw [holds, told, traced, answering_of_ne (by decide) (by decide), answering_name,
      Function.update_of_ne (by decide), map_decoded_or, filledIn_of_not_mem (by decide),
      filledIn_of_not_mem (by decide)]
  asksNoException := by
    rw [holds, told, answering_question (by decide), Option.map_none]
  exception := by
    refine ⟨exception, tells, ?_⟩
    rw [holds, told, answering_name, traced, answering_of_ne (by decide) (by decide),
      Function.update_of_ne (by decide), map_decoded_or, filledIn_of_not_mem (by decide)]
  others := by
    intro name free
    have apart {names : List Text} (inside : names ⊆ reserved) : name ∉ names :=
      fun member => free (inside member)
    rw [holds, told_of_not_mem (apart (by decide)), filledIn_of_not_mem (apart (by decide))]

end

section

variable {given held : Text → Option Value} {scene : Scene σ} {entry : Fields} {text event : Text}
  (processes : library.Processes) (distinct : entry.Distinct)
include processes distinct

theorem exists_labelled (holds : entry.held = identified scene.host given)
    (own : (given originName).all Value.isNull) (format : Format) :
    ∃ next : Fields, next.Distinct ∧ next.held = labelled scene (identified scene.host given) ∧
      library.dispatch scene (labelling format) entry =
        library.dispatch scene (.positionalArguments :: (chain format).drop 6) next := by
  have unnamed : (entry.held originName).all Value.isNull := by
    rw [holds, identified_of_ne (by decide) (by decide), own]
  obtain ⟨named, apart, names, goes⟩ :=
    dispatch_of_goesOn processes (processes.names scene entry distinct unnamed)
  obtain ⟨next, distinct, labels, goes'⟩ :=
    dispatch_of_goesOn processes (processes.labels scene named apart)
  refine ⟨next, distinct, ?_, (goes _).trans (goes' _)⟩
  rw [labels, names, holds, labelled]

theorem exists_traced (holds : entry.held = labelled scene (identified scene.host given))
    (spoken : given "event" = some (.text text))
    (filled : library.filled? text (given argumentsName) = some event) (format : Format) :
    ∃ (next : Fields) (time : Text), next.Distinct ∧
      next.held = traced scene.host time
        (filledIn event (labelled scene (identified scene.host given))) ∧
      next.held exceptionQuestion = given exceptionQuestion ∧
      library.dispatch scene (.positionalArguments :: (chain format).drop 6) entry =
        library.dispatch scene (.exceptionInfo :: (chain format).drop 9) next := by
  have fits : library.filled? text (entry.held argumentsName) = some event := by
    rw [holds, labelled_identified (by decide), filled]
  have written : entry.held "event" = some (.text text) := by
    rw [holds, labelled_identified (by decide), spoken]
  obtain ⟨full, apart₁, fill, goes₁⟩ :=
    dispatch_of_goesOn processes (processes.fills scene entry text event distinct written fits)
  obtain ⟨time, stamps⟩ := processes.stamps scene full apart₁
  obtain ⟨stamped, apart₂, stamp, goes₂⟩ := dispatch_of_goesOn processes stamps
  obtain ⟨next, apart₃, answer, goes₃⟩ :=
    dispatch_of_goesOn processes (processes.tellsStack scene stamped apart₂)
  have through : next.held = traced scene.host time
      (filledIn event (labelled scene (identified scene.host given))) := by
    rw [answer, stamp, Function.update_of_ne (by decide), fill, holds]
    rfl
  refine ⟨next, time, apart₃, through, ?_, (goes₁ _).trans ((goes₂ _).trans (goes₃ _))⟩
  rw [through, traced_exceptionQuestion, filledIn_of_not_mem (by decide)]

theorem exists_told {exception : Option Text} (tells : library.told? scene.host
      (entry.held exceptionQuestion) = some exception) (format : Format) :
    ∃ next : Fields, next.Distinct ∧
      (next.held = fun name => (answering exceptionQuestion exceptionName exception entry.held
        name).map library.decoded) ∧
      library.dispatch scene (.exceptionInfo :: (chain format).drop 9) entry =
        (library.render? format next).elim .broken .written := by
  obtain ⟨answered, apart, answer, goes⟩ :=
    dispatch_of_goesOn processes (processes.tellsException scene entry _ distinct tells)
  obtain ⟨next, distinct, decodes, goes'⟩ :=
    dispatch_of_goesOn processes (processes.decodes scene answered apart)
  refine ⟨next, distinct, ?_, ?_⟩
  · rw [decodes, answer]
  · change library.dispatch scene
      (.exceptionInfo :: .unicodeDecoder :: [.renderer format]) entry = _
    rw [goes, goes']
    have renders := processes.renders scene format next
    cases rendered : library.render? format next with
    | none => exact processes.breaksOff _ _ _ _ (renders.trans (by rw [rendered]; rfl))
    | some lines => exact processes.ends _ _ _ lines (renders.trans (by rw [rendered]; rfl))

end

section

variable {given : Text → Option Value} {record : Record} {scene : Scene σ} {entry : Fields}
  {text : Text} (processes : library.Processes) (distinct : entry.Distinct)
  (holds : entry.held = identified scene.host given) (spoken : given "event" = some (.text text))
include processes distinct holds spoken

theorem dispatch_of_ready (logger : scene.logger = record.logger)
    (level : scene.level = record.level) {event : Text}
    (ready : Ready library scene.host given text event) (format : Format) :
    ∃ fields, Carries library scene.host given record event fields ∧
      library.dispatch scene (labelling format) entry =
        (library.render? format fields).elim .broken .written := by
  obtain ⟨labels, apart₁, holds₁, goes₁⟩ :=
    exists_labelled processes distinct holds ready.own format
  obtain ⟨traces, time, apart₂, holds₂, asked, goes₂⟩ :=
    exists_traced processes apart₁ holds₁ spoken ready.filled format
  obtain ⟨exception, tells⟩ := Option.isSome_iff_exists.mp ready.told
  obtain ⟨fields, apart₃, holds₃, goes₃⟩ :=
    exists_told processes apart₂ (asked ▸ tells) format
  have through : fields.held = told library scene.host time exception
      (filledIn event (labelled scene (identified scene.host given))) := by
    rw [holds₃, holds₂]
    rfl
  refine ⟨fields, carries_told logger level apart₃ tells through, ?_⟩
  rw [goes₁, goes₂, goes₃]

theorem dispatch_of_not_ready (unready : ∀ event, ¬ Ready library scene.host given text event)
    (format : Format) : library.dispatch scene (labelling format) entry = .broken := by
  cases own : (given originName).all Value.isNull with
  | false =>
    have foreign : (entry.held originName).all Value.isNull = false := by
      rw [holds, identified_of_ne (by decide) (by decide), own]
    exact processes.breaksOff _ _ _ _ (processes.foreign scene entry foreign)
  | true =>
    obtain ⟨labels, apart₁, holds₁, goes₁⟩ := exists_labelled processes distinct holds own format
    rw [goes₁]
    cases filled : library.filled? text (given argumentsName) with
    | none =>
      refine processes.breaksOff _ _ _ _ (processes.misfits scene labels text ?_ ?_)
      · rw [holds₁, labelled_identified (by decide), spoken]
      · rw [holds₁, labelled_identified (by decide), filled]
    | some event =>
      obtain ⟨traces, time, apart₂, holds₂, asked, goes₂⟩ :=
        exists_traced processes apart₁ holds₁ spoken filled format
      have untold : library.told? scene.host (given exceptionQuestion) = none := by
        cases tells : library.told? scene.host (given exceptionQuestion) with
        | none => rfl
        | some exception =>
          exact absurd ⟨own, filled, Option.isSome_of_eq_some tells⟩ (unready event)
      rw [goes₂]
      exact processes.breaksOff _ _ _ _ (processes.untold scene traces (asked ▸ untold))

end
end Library
end LegibleTrace.Log
