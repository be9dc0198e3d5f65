import LegibleTrace.Proofs.Settings.Validation

/-! Where every setting comes from. Each one is read from the first place that has a value for it:
the given mapping, the variables named for it, the section in JSON, or its standard. What is wrong
with the value so chosen is reported, of all settings and together with the keys that name no
section; values that are not chosen are never read. -/
namespace LegibleTrace.Settings

/-- The value that is chosen for a place, in the order of preference. -/
def chosen (given : Fields) (named : Environment) (location : List Text) : Option Value :=
  (given.reach? location).or ((variablesAt? named location).or (jsonAt? named location))

/-- The given sections are mappings. -/
def Shaped (given : Fields) : Prop :=
  ∀ location ∈ sections, (given.reach? location).all Value.isMapping

instance (given : Fields) : Decidable (Shaped given) :=
  inferInstanceAs (Decidable (∀ location ∈ sections, _))

/-- No variable is named for a place below this one or for the section inside a section that
holds it. -/
def Undisturbed (named : Environment) (location : List Text) : Prop :=
  (¬ ∃ entry ∈ named, variableName location ++ "__".toList <+: entry.1) ∧
    (location.dropLast = fileSection → named.value? (variableName fileSection) = none)

/-- What is reported: given keys that name no section, the section of the log file if the JSON
around it holds no mapping for it and nothing else gives the section, and every chosen value that
cannot be read. -/
inductive Library.Reported (library : Library ε) (given : Fields) (named : Environment) :
    Fault → Prop
  | unknown (key) (held : key ∈ given.map Prod.fst) (other : key ∉ areas) :
      Reported library given named ⟨[key], .unknownKey⟩
  | solid (value) (ungiven : given.reach? fileSection = none)
      (unnamed : afterVariables named (variableName fileSection) none = none)
      (held : jsonAt? named fileSection = some value) (shape : value.isMapping = false) :
      Reported library given named ⟨fileSection, .notSection⟩
  | unread (setting : Setting) (kind)
      (failed : library.outcome setting (chosen given named setting.location) = .error kind) :
      Reported library given named ⟨setting.location, kind⟩

section

variable {ε : Type} {library : Library ε} {given fields : Fields} {named : Environment}

theorem Shaped.isMapping (shaped : Shaped given) {location : List Text}
    (member : location ∈ sections) {value : Value} (found : given.reach? location = some value) :
    value.isMapping := by
  simpa [found] using shaped location member

theorem Shaped.passable_pair (shaped : Shaped given) {area : Text} (member : [area] ∈ sections)
    (key : Text) : Passable [area, key] given := by
  intro value found
  rw [← Fields.reach?_singleton] at found
  exact ⟨shaped.isMapping member found, trivial⟩

theorem Shaped.passable_triple (shaped : Shaped given) {area inner : Text}
    (outer : [area] ∈ sections) (member : [area, inner] ∈ sections) (key : Text) :
    Passable [area, inner, key] given := by
  intro value found
  refine ⟨(shaped.passable_pair outer inner value found).1, ?_⟩
  intro held inside
  refine ⟨shaped.isMapping member ?_, trivial⟩
  rw [Fields.reach?, found, Option.bind_some, Value.reach?, inside]
  rfl

theorem Shaped.passable (shaped : Shaped given) (setting : Setting) :
    Passable setting.location given := by
  have trace : [("trace" : Text)] ∈ sections := by simp [sections]
  have logging : [("logging" : Text)] ∈ sections := by simp [sections]
  have file : [("logging" : Text), "file"] ∈ sections := by simp [sections, fileSection]
  cases setting
  case maxCauseDepth | noFilePlaceholder => exact shaped.passable_pair trace _
  case level | format => exact shaped.passable_pair logging _
  case fileEnabled | filePath => exact shaped.passable_triple logging file _

section

variable (documented : library.Documented)

include documented

/-- A setting is read alike from all values that differ within mappings only. -/
theorem Library.Documented.outcome_congr (setting : Setting) {held other : Option Value}
    (same : held.map Value.outline = other.map Value.outline) :
    library.outcome setting held = library.outcome setting other := by
  have outlined (held : Option Value) :
      library.outcome setting (held.map Value.outline) = library.outcome setting held := by
    cases held with
    | none => rfl
    | some value =>
      cases value
      case mapping entries =>
        obtain ⟨kind, refuses⟩ := documented.reads setting
        exact (refuses []).trans (refuses entries).symm
      all_goals rfl
  rw [← outlined held, ← outlined other, same]

variable (offers : Offers named fields)

include offers

theorem isSome_lookup_merged_iff {key : Text} (other : key ∉ areas) :
    ((library.merge given fields).lookup key).isSome ↔ key ∈ given.map Prod.fst := by
  have nothing : fields.lookup key = none := by
    rw [← Option.not_isSome_iff_eq_none]
    exact mt (offers.areas key) other
  rw [Fields.mem_keys_iff, ← Option.isSome_map (f := Value.outline),
    documented.merges.outline_lookup, nothing, Option.or_none, Option.isSome_map]

variable (shaped : Shaped given)

include shaped

theorem outline_merged (setting : Setting) :
    ((library.merge given fields).reach? setting.location).map Value.outline =
      (chosen given named setting.location).map Value.outline := by
  rw [documented.merges.outline_reach? (shaped.passable setting), Option.map_or,
    offers.settings, ← Option.map_or]
  rfl

theorem isMapping_lookup_merged {area : Text} (member : [area] ∈ sections) {value : Value}
    (held : (library.merge given fields).lookup area = some value) : value.isMapping := by
  have same := documented.merges.outline_lookup given fields area
  rw [held] at same
  have shape := @Value.map_isMapping_of_outline (some value) _ same
  cases first : given.lookup area with
  | some own =>
    have mapping := shaped.isMapping member ((Fields.reach?_singleton given area).trans first)
    rw [first] at shape
    exact (Option.some.inj shape).trans mapping
  | none =>
    rw [first, Option.none_or] at shape
    obtain ⟨own, second, kind⟩ := Option.map_eq_some_iff.mp shape.symm
    exact kind.symm.trans (offers.shaped area own second)

theorem isMapping_merged_file :
    ((library.merge given fields).reach? fileSection).map Value.isMapping =
      ((given.reach? fileSection).map Value.isMapping).or
        (((afterVariables named (variableName fileSection) none).map fun _ => true).or
          ((jsonAt? named fileSection).map Value.isMapping)) := by
  have passable : Passable fileSection given :=
    shaped.passable_pair (by simp [sections]) _
  rw [Value.map_isMapping_of_outline (documented.merges.outline_reach? passable fields),
    Option.map_or, offers.file]

theorem faultIn_iff (fault : Fault) :
    library.FaultIn (library.merge given fields) fault ↔ library.Reported given named fault := by
  have file := isMapping_merged_file documented offers shaped
  constructor
  · intro faulty
    cases faulty with
    | unknown key held other =>
      exact .unknown key ((isSome_lookup_merged_iff documented offers other).mp held) other
    | solid location value listed held shape =>
      have unshaped (area : Text) (member : [area] ∈ sections)
          (found : (library.merge given fields).reach? [area] = some value) : False := by
        rw [Fields.reach?_singleton] at found
        rw [isMapping_lookup_merged documented offers shaped member found] at shape
        cases shape
      simp only [sections, List.mem_cons, List.not_mem_nil, or_false] at listed
      obtain rfl | rfl | rfl := listed
      · exact (unshaped _ (by simp [sections]) held).elim
      · exact (unshaped _ (by simp [sections]) held).elim
      · rw [held, Option.map_some, shape] at file
        cases own : given.reach? fileSection with
        | some other =>
          rw [own, Option.map_some, shaped.isMapping (by simp [sections]) own] at file
          cases file
        | none =>
          rw [own, Option.map_none, Option.none_or] at file
          cases unnamed : afterVariables named (variableName fileSection) none with
          | some other =>
            rw [unnamed] at file
            cases file
          | none =>
            rw [unnamed, Option.map_none, Option.none_or] at file
            obtain ⟨other, json, solid⟩ := Option.map_eq_some_iff.mp file.symm
            exact .solid other own unnamed json solid
    | unread setting kind failed =>
      refine .unread setting kind ?_
      rw [← failed]
      exact (documented.outcome_congr setting (outline_merged documented offers shaped _)).symm
  · intro reported
    cases reported with
    | unknown key held other =>
      exact .unknown key ((isSome_lookup_merged_iff documented offers other).mpr held) other
    | solid value ungiven unnamed held shape =>
      rw [ungiven, unnamed, held, Option.map_some, shape] at file
      obtain ⟨other, found, solid⟩ := Option.map_eq_some_iff.mp file
      exact .solid fileSection other (by simp [sections]) found solid
    | unread setting kind failed =>
      refine .unread setting kind ?_
      rw [← failed]
      exact documented.outcome_congr setting (outline_merged documented offers shaped _)

end

theorem variablesAt?_of_unset {area inner key : Text} (isKey : IsKey key)
    (unset : named.value? (variableName [area, inner]) = none) :
    variablesAt? named [area, inner, key] =
      afterVariables named (variableName [area, inner, key]) none := by
  rw [variablesAt?, opening_of_absent (value?_eq_none_iff.mp unset)]
  exact valueUnder?_settle_nil isKey.small _

theorem chosen_of_undisturbed {setting : Setting}
    (undisturbed : Undisturbed named setting.location) :
    chosen given named setting.location =
      (given.reach? setting.location).or
        (((named.value? (variableName setting.location)).map .text).or
          (jsonAt? named setting.location)) := by
  obtain ⟨none_below, unset⟩ := undisturbed
  have alone := afterVariables_of_none_below none none_below
  rw [Option.or_none] at alone
  rw [chosen, ← alone]
  cases setting
  case fileEnabled =>
    rw [Setting.location, variablesAt?_of_unset (isKey_of_mem _ (by simp [keyWords])) (unset rfl)]
  case filePath =>
    rw [Setting.location, variablesAt?_of_unset (isKey_of_mem _ (by simp [keyWords])) (unset rfl)]
  all_goals rfl

/-- At the place of a setting nothing is reported but its own value. -/
theorem reported_setting_iff {setting : Setting} {kind : FaultKind} :
    library.Reported given named ⟨setting.location, kind⟩ ↔
      library.outcome setting (chosen given named setting.location) = .error kind := by
  constructor
  · generalize located : (⟨setting.location, kind⟩ : Fault) = fault
    intro reported
    cases reported with
    | unknown key => exact absurd (Fault.mk.inj located).1 (setting.location_ne_singleton key)
    | solid =>
      have listed : fileSection ∈ sections := by simp [sections]
      exact absurd ((Fault.mk.inj located).1 ▸ listed) setting.location_not_mem_sections
    | unread other found failed =>
      obtain ⟨place, rfl⟩ := Fault.mk.inj located
      obtain rfl := Setting.location_injective place
      exact failed
  · exact .unread setting kind

/-- With a library as documented, each setting is read from the value that is chosen for it, and
the faults are those of the chosen values, one for each key that names no section, and one for a
section of the log file that is chosen from the JSON around it and is no mapping. Chosen is the
given value, else that of the variable named for the setting, else its entry in the JSON of the
section, unless variables are named for places below the setting or for the section inside the
section. -/
theorem check_by_preference (documented : library.Documented) {environment : Environment}
    (single : given.Distinct) (plain : ∀ key ∈ given.map Prod.fst, key ∉ library.options)
    (shaped : Shaped given) (distinct : ((caseless environment).map (·.1)).Nodup)
    (objects : HoldsObjects (caseless environment)) :
    let named := caseless environment
    Judged (library.Reported given named)
        (fun settings => ∀ setting : Setting,
          library.outcome setting (chosen given named setting.location) =
            .ok (setting.ofSettings settings))
        (library.check given.entries environment) ∧
      ∀ setting : Setting, Undisturbed named setting.location →
        chosen given named setting.location =
          (given.reach? setting.location).or
            (((named.value? (variableName setting.location)).map .text).or
              (jsonAt? named setting.location)) := by
  intro named
  obtain ⟨fields, read, offers⟩ := documented.offers environment distinct objects
  have judged := documented.collects given environment fields single plain read
  refine ⟨judged.congr (faultIn_iff documented offers shaped) ?_,
    fun _ => chosen_of_undisturbed⟩
  intro settings made setting
  rw [← made setting]
  exact (documented.outcome_congr setting (outline_merged documented offers shaped _)).symm

end

-- The given depth wins over a variable that could not be read. The variable of the level wins
-- over the JSON, although only the JSON could be read.
theorem preference_of_three_sources :
    let given : Fields := [("trace", .mapping [(.text "max_cause_depth", .int 7)])]
    let environment : Environment :=
      [("STACKGLYPH_TRACE__MAX_CAUSE_DEPTH", "deep"), ("stackglyph_logging__level", "loud"),
        ("STACKGLYPH_LOGGING", "\x7b\"level\": \"DEBUG\"\x7d")]
    library.Documented ∧ given.Distinct ∧ (∀ key ∈ given.map Prod.fst, key ∉ library.options) ∧
      Shaped given ∧ ((caseless environment).map (·.1)).Nodup ∧
      HoldsObjects (caseless environment) ∧
      ∃ refusal, library.check given.entries environment = .error (.refused refusal) ∧
        ⟨["logging", "level"], .notListed⟩ ∈ refusal.faults ∧
        ∀ kind, ⟨["trace", "max_cause_depth"], kind⟩ ∉ refusal.faults := by
  intro given environment
  have single : given.Distinct := List.nodup_singleton _
  have plain : ∀ key ∈ given.map Prod.fst, key ∉ library.options := by decide +kernel
  have shaped : Shaped given := by decide +kernel
  have distinct : ((caseless environment).map (·.1)).Nodup := by decide +kernel
  have objects : HoldsObjects (caseless environment) := by decide +kernel
  refine ⟨documented_library, single, plain, shaped, distinct, objects, ?_⟩
  have judged :=
    (check_by_preference documented_library single plain shaped distinct objects).1
  have level : library.Reported given (caseless environment) ⟨["logging", "level"], .notListed⟩ :=
    .unread .level .notListed (by decide +kernel)
  have depth : library.outcome .maxCauseDepth
      (chosen given (caseless environment) Setting.maxCauseDepth.location) = .ok (7 : Int) := by
    decide +kernel
  generalize library.check given.entries environment = verdict at judged
  cases judged with
  | accepted settings sound made => exact absurd level (sound _)
  | refused refusal unsound once listed =>
    refine ⟨refusal, rfl, (listed _).mpr level, ?_⟩
    intro kind member
    have failed := reported_setting_iff.mp
      ((listed ⟨Setting.maxCauseDepth.location, kind⟩).mp member)
    rw [depth] at failed
    cases failed

-- A variable whose name goes on below a setting makes a mapping of it, although no other source
-- has a value for the setting.
theorem longer_name_counts :
    let environment : Environment := [("STACKGLYPH_TRACE__MAX_CAUSE_DEPTH__X", "5")]
    let named := caseless environment
    Shaped [] ∧ (named.map (·.1)).Nodup ∧ HoldsObjects named ∧
      (∀ location ∈ sections, named.value? (variableName location) = none) ∧
      (∀ setting ∈ Setting.all, named.value? (variableName setting.location) = none) ∧
      library.check [] environment =
        .error (.refused (.ofFaults [⟨["trace", "max_cause_depth"], .notInteger⟩])) ∧
      library.check [] environment ≠ .ok .standard := by
  intro environment named
  have read : validate [] environment = .error [⟨["trace", "max_cause_depth"], .notInteger⟩] := by
    decide +kernel
  have failed : library.check [] environment =
      .error (.refused (.ofFaults [⟨["trace", "max_cause_depth"], .notInteger⟩])) := by
    have plain : ∀ key ∈ ([] : Fields).map Prod.fst, key ∉ options := nofun
    have passed := check_entries plain environment
    rw [read] at passed
    exact passed
  refine ⟨by decide +kernel, by decide +kernel, by decide +kernel, by decide +kernel,
    by decide +kernel, failed, ?_⟩
  rw [failed]
  nofun

end LegibleTrace.Settings
