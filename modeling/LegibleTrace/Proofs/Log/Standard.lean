import LegibleTrace.Log.Standard
import LegibleTrace.Proofs.Log.Library
import LegibleTrace.Proofs.Text

/-! The logging library that runs does what is documented. -/
namespace LegibleTrace.Log

variable {entry : Fields} {question name : Text} {told : Option Text}

theorem goesOn_set (distinct : entry.Distinct) (name : Text) (value : Value) :
    GoesOn (Function.update entry.held name (some value)) (.next (entry.set name value)) :=
  ⟨_, rfl, distinct.set name value, Fields.held_set entry name value⟩

theorem held_completed (entry context : Fields) :
    (completed entry context).held = fun name => (entry.held name).or (context.lookup name) := by
  induction context generalizing entry with
  | nil =>
    funext name
    exact Option.or_none.symm
  | cons field context ih =>
    obtain ⟨other, value⟩ := field
    change (completed (if (entry.lookup other).isSome then entry else entry ++ [(other, value)])
      context).held = _
    rw [ih]
    funext name
    by_cases found : (entry.lookup other).isSome
    · rw [if_pos found]
      by_cases same : name = other
      · obtain ⟨held, found⟩ := Option.isSome_iff_exists.mp found
        rw [same, Fields.held, found, Option.some_or, Option.some_or]
      · rw [List.lookup_cons, beq_false_of_ne same]
    · rw [if_neg found, Fields.held, List.lookup_append, Option.or_assoc, List.lookup_cons,
        List.lookup_nil, List.lookup_cons]
      by_cases same : name = other
      · rw [same, beq_self_eq_true]
        rfl
      · rw [beq_false_of_ne same]
        rfl

theorem distinct_completed (distinct : entry.Distinct) (context : Fields) :
    (completed entry context).Distinct := by
  induction context generalizing entry with
  | nil => exact distinct
  | cons field context ih =>
    obtain ⟨other, value⟩ := field
    change (completed (if (entry.lookup other).isSome then entry else entry ++ [(other, value)])
      context).Distinct
    by_cases found : (entry.lookup other).isSome
    · rw [if_pos found]
      exact ih distinct
    · rw [if_neg found]
      refine ih ?_
      have fresh : other ∉ entry.map Prod.fst := mt Fields.mem_keys_iff.mp found
      rw [Fields.Distinct, List.map_append, List.nodup_append]
      refine ⟨distinct, List.pairwise_singleton _ other, ?_⟩
      rintro key inside _ added rfl
      obtain rfl : key = other := List.mem_singleton.mp added
      exact fresh inside

theorem goesOn_answered (distinct : entry.Distinct) (apart : name ≠ question) :
    GoesOn (answering question name (if asks (entry.held question) then told else none) entry.held)
      (.next (answered question name told entry)) := by
  have others : (entry.erase question).Distinct := distinct.filter _
  have unanswered : answering question name none entry.held = (entry.erase question).held := by
    rw [Fields.held_erase, answering, Option.map_none, Option.none_or,
      ← Function.update_of_ne apart none entry.held, Function.update_eq_self]
  cases told with
  | none =>
    rw [ite_self, unanswered]
    exact ⟨_, rfl, others, rfl⟩
  | some text =>
    by_cases asked : asks (entry.held question)
    · refine ⟨(entry.erase question).set name (.text text), ?_, others.set _ _, ?_⟩
      · exact congrArg Outcome.next (if_pos asked)
      · rw [if_pos asked, Fields.held_set, Fields.held_erase]
        rfl
    · refine ⟨entry.erase question, ?_, others, ?_⟩
      · exact congrArg Outcome.next (if_neg asked)
      · rw [if_neg asked, unanswered]

theorem goesOn_decoded (distinct : entry.Distinct) :
    GoesOn (fun name => (entry.held name).map Library.standard.decoded)
      (.next (entry.map fun (name, value) => (name, decodedBy Text.ofUtf8 value))) := by
  refine ⟨_, rfl, ?_, ?_⟩
  · rw [Fields.Distinct, List.map_map]
    exact distinct
  · funext name
    exact Fields.lookup_map_value fun _ => decodedBy Text.ofUtf8

theorem held_recordEntry (record : Record) (arguments : List Value) :
    (record.entry arguments).held = record.own arguments := by
  have fields (name : Text) :
      Fields.held (Fields.override [] record.fields) name = record.fields.given? name := by
    rw [Fields.held, Fields.lookup_override, List.lookup_nil, Option.or_none]
  funext name
  rw [Record.entry, Fields.held_set, Record.own]
  by_cases spoken : name = "event"
  · rw [if_pos spoken, spoken, Function.update_self]
  · rw [if_neg spoken, Function.update_of_ne spoken]
    cases arguments with
    | nil => exact (fields name).trans (if_neg fun used => used.2 rfl).symm
    | cons argument arguments =>
      rw [if_neg (by simp), Fields.held_set]
      by_cases used : name = argumentsName
      · rw [if_pos ⟨used, List.cons_ne_nil _ _⟩, used, Function.update_self]
      · rw [if_neg fun both => used both.1, Function.update_of_ne used, fields]

theorem distinct_recordEntry (record : Record) (arguments : List Value) :
    (record.entry arguments).Distinct := by
  have own : Fields.Distinct (Fields.override [] record.fields) :=
    Fields.Distinct.nil.override record.fields
  cases arguments with
  | nil => exact own.set _ _
  | cons argument arguments => exact (own.set _ _).set _ _

theorem filled?_of_asks {σ : Type} (library : Library σ) {text : Text} {given : Option Value}
    (asked : asks given) : library.filled? text given = given.bind (library.fill? text) := by
  cases given with
  | none => cases asked
  | some value =>
    have present : value.isVacant = false := Bool.not_eq_true' _ |>.mp asked
    rw [Library.filled?, present]
    rfl

theorem filled?_of_not_asks {σ : Type} (library : Library σ) {text : Text} {given : Option Value}
    (vacant : ¬asks given) : library.filled? text given = some text := by
  cases given with
  | none => rfl
  | some value =>
    have vacant : value.isVacant := by simpa [asks] using vacant
    exact if_pos vacant

section

variable {given : Option Value}

theorem not_asks_of_null (null : given.all Value.isNull) : ¬asks given := by
  cases given with
  | none => exact Bool.false_ne_true
  | some value =>
    cases value
    case null => exact Bool.false_ne_true
    all_goals cases null

theorem filter_isNull_of_null (null : given.all Value.isNull) :
    given.filter Value.isNull = given := by
  cases given with
  | none => rfl
  | some value => exact if_pos null

theorem filter_isNull_of_not (present : ¬given.all Value.isNull) :
    given.filter Value.isNull = none := by
  cases given with
  | none => rfl
  | some value => exact if_neg present

end

section

variable {text event : Text} (spoken : entry.held "event" = some (.text text))
include spoken

theorem filledEvent?_eq : filledEvent? entry =
    (entry.held argumentsName).bind (Library.standard.fill? text) := by
  change (entry.lookup ("event" : Text)) = some (.text text) at spoken
  rw [filledEvent?, spoken]
  rfl

theorem filledEntry_of_asks (asked : asks (entry.held argumentsName)) :
    filledEntry entry =
      (Library.standard.filled? text (entry.held argumentsName)).elim .broken fun event =>
        .next ((entry.set "event" (.text event)).erase argumentsName) := by
  rw [filled?_of_asks _ asked, ← filledEvent?_eq spoken]
  have present : ¬(entry.held argumentsName).all Value.isNull :=
    fun null => not_asks_of_null null asked
  exact (if_neg present).trans (if_pos asked)

theorem goesOn_filledEntry (distinct : entry.Distinct)
    (filled : Library.standard.filled? text (entry.held argumentsName) = some event) :
    GoesOn (Function.update (Function.update entry.held "event" (some (.text event)))
        argumentsName ((entry.held argumentsName).filter Value.isNull)) (filledEntry entry) := by
  by_cases asked : asks (entry.held argumentsName)
  · rw [filledEntry_of_asks spoken asked, filled, filter_isNull_of_not fun null =>
      not_asks_of_null null asked]
    refine ⟨_, rfl, (distinct.set _ _).filter _, ?_⟩
    rw [Fields.held_erase, Fields.held_set]
  · -- The event stays as it is.
    rw [filled?_of_not_asks _ asked] at filled
    obtain rfl := Option.some.inj filled
    rw [← spoken, Function.update_eq_self]
    by_cases null : (entry.held argumentsName).all Value.isNull
    · rw [filter_isNull_of_null null, Function.update_eq_self]
      exact ⟨entry, if_pos null, distinct, rfl⟩
    · rw [filter_isNull_of_not null]
      exact ⟨entry.erase argumentsName, (if_neg null).trans (if_neg asked), distinct.filter _,
        Fields.held_erase entry argumentsName⟩

theorem filledEntry_of_misfit
    (misfit : Library.standard.filled? text (entry.held argumentsName) = none) :
    filledEntry entry = .broken := by
  have asked : asks (entry.held argumentsName) := by
    by_contra vacant
    rw [filled?_of_not_asks _ vacant] at misfit
    cases misfit
  rw [filledEntry_of_asks spoken asked, misfit]
  rfl

end

theorem isNamed_of_simple {value : Value} (simple : Simple value) : isNamed value := by
  cases simple <;> rfl

theorem exists_below? {field : Option Value} (below : Below field) :
    ∃ text, below? field = some text := by
  cases field with
  | none => exact ⟨none, rfl⟩
  | some value =>
    obtain rfl | ⟨text, rfl⟩ := below value rfl
    · exact ⟨none, rfl⟩
    · exact ⟨some text, rfl⟩

theorem isSome_lines?_of_fits {fields : Fields} {format : Format} (fits : Fits fields format) :
    (lines? format fields).isSome := by
  cases format with
  | json =>
    have named : fields.all fun field => isNamed field.2 :=
      List.all_eq_true.mpr fun field inside => isNamed_of_simple (fits.simple field inside)
    rw [lines?, if_pos named]
    rfl
  | console =>
    obtain ⟨stackFits, exceptionFits⟩ := fits.below rfl
    obtain ⟨stack, stackBelow⟩ := exists_below? stackFits
    obtain ⟨exception, exceptionBelow⟩ := exists_below? exceptionFits
    change below? (fields.lookup stackName) = _ at stackBelow
    change below? (fields.lookup exceptionName) = _ at exceptionBelow
    rw [lines?, consoleText?, stackBelow, exceptionBelow]
    rfl

theorem lines?_json {fields : Fields} {lines : List Line}
    (written : lines? .json fields = some lines) : lines = [.fields fields] :=
  (Option.some.inj (Option.ite_none_right_eq_some.mp written).2).symm

theorem ne_nil_of_lines? {format : Format} {fields : Fields} {lines : List Line}
    (written : lines? format fields = some lines) : lines ≠ [] := by
  cases format with
  | json =>
    rw [lines?_json written]
    exact List.cons_ne_nil _ _
  | console =>
    obtain ⟨text, -, rfl⟩ := Option.map_eq_some_iff.mp written
    rw [Text.split_eq_splitOn]
    simp [List.splitOn_ne_nil]

namespace Library

theorem remembers_standard : Remembers standard where
  initial := rfl
  configure _ _ := rfl
  bind fields memory := by
    have lookup : (fun name => (memory.bound.override fields).lookup name) =
        fun name => (fields.given? name).or (memory.bound.lookup name) :=
      funext fun name => Fields.lookup_override memory.bound fields name
    exact congrArg (View.mk memory.config · fun keeper => memory.kept.lookup keeper) lookup
  unbind names memory := by
    have lookup : (fun name => List.lookup name
          (memory.bound.filter fun field => decide (field.1 ∉ names))) =
        fun name => if name ∈ names then none else memory.bound.lookup name := by
      funext name
      let kept (other : Text) : Bool := decide (other ∉ names)
      by_cases inside : name ∈ names
      · have dropped : kept name = false := decide_eq_false (not_not.mpr inside)
        rw [if_pos inside]
        exact Fields.lookup_filter_of_not dropped
      · have stays : kept name = true := decide_eq_true inside
        rw [if_neg inside]
        exact Fields.lookup_filter stays
    exact congrArg (View.mk memory.config · fun keeper => memory.kept.lookup keeper) lookup
  clear _ := rfl
  processors config memory configured := by
    change memory.config = some config at configured
    change memory.processors = config.processors
    rw [Memory.processors, configured]
    rfl

theorem caches_standard : Caches standard where
  used _ _ := rfl
  keeps keeper memory config configured asked := by
    change memory.config = some config at configured
    have caches : memory.caches = true := by
      rw [Memory.caches, configured]
      exact asked
    change standard.view (memory.use keeper).1 = _
    rw [Memory.use, if_pos caches]
    have lookup (used : List Processor) :
        (fun other => ((keeper, used) :: memory.kept).lookup other) =
          Function.update (fun other => memory.kept.lookup other) keeper (some used) := by
      funext other
      by_cases same : other = keeper
      · rw [same, List.lookup_cons_self, Function.update_self]
      · rw [List.lookup_cons, beq_false_of_ne same, Function.update_of_ne same]
    exact congrArg (View.mk memory.config fun name => memory.bound.lookup name) (lookup _)
  passes keeper memory unasked := by
    have plain : ¬memory.caches := by
      rw [Memory.caches, Option.any_eq_true]
      rintro ⟨config, configured, asked⟩
      rw [unasked config configured] at asked
      cases asked
    change standard.view (memory.use keeper).1 = _
    rw [Memory.use, if_neg plain]

theorem dispatch_standard (scene : Scene Memory) (processor : Processor)
    (rest : List Processor) (entry : Fields) :
    standard.dispatch scene (processor :: rest) entry =
      match standard.process scene processor entry with
      | .next next => standard.dispatch scene rest next
      | outcome => outcome :=
  rfl

theorem told?_standard (host : Host) (question : Option Value) :
    standard.told? host question = some (if asks question then host.exception else none) := by
  cases question with
  | none => rfl
  | some value =>
    change (if value.isVacant then _ else _) = some (if !value.isVacant then _ else _)
    cases value.isVacant <;> rfl

theorem processes_standard : Processes standard where
  prepares record arguments :=
    ⟨distinct_recordEntry record arguments, held_recordEntry record arguments⟩
  handsOn _ _ _ _ _ goes := by rw [dispatch_standard, goes]
  drops _ _ _ _ drops := by rw [dispatch_standard, drops]
  breaksOff _ _ _ _ breaks := by rw [dispatch_standard, breaks]
  ends _ _ _ _ written := by rw [dispatch_standard, written]
  merges scene entry distinct :=
    ⟨_, rfl, distinct_completed distinct _, held_completed entry scene.state.bound⟩
  calls _ _ _ := rfl
  filters _ _ := rfl
  names scene entry distinct own := by
    have named : Memory.process scene .addLoggerName entry =
        .next (entry.set "logger" (.text scene.logger)) := if_pos own
    change GoesOn _ (Memory.process scene .addLoggerName entry)
    rw [named]
    exact goesOn_set distinct _ _
  foreign _ _ foreign := if_neg (Bool.eq_false_iff.mp foreign)
  labels _ _ distinct := goesOn_set distinct _ _
  fills _ _ _ _ distinct spoken filled := goesOn_filledEntry spoken distinct filled
  misfits _ _ _ spoken misfit := filledEntry_of_misfit spoken misfit
  stamps scene _ distinct := ⟨scene.host.time, goesOn_set distinct _ _⟩
  tellsStack _ _ distinct := goesOn_answered distinct (by decide)
  tellsException scene entry told distinct tells := by
    rw [told?_standard] at tells
    obtain rfl := Option.some.inj tells
    exact goesOn_answered distinct (by decide)
  untold scene entry untold := by
    rw [told?_standard] at untold
    cases untold
  decodes _ _ distinct := goesOn_decoded distinct
  renders _ _ _ := rfl
  writes _ _ := isSome_lines?_of_fits
  leavesLine _ _ _ := ne_nil_of_lines?
  namesFields _ _ := lines?_json

theorem documented_standard : Documented standard :=
  { remembers_standard, caches_standard, processes_standard with }

end Library
end LegibleTrace.Log
