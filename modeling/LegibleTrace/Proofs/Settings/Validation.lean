import LegibleTrace.Proofs.Settings.Library
import LegibleTrace.Settings.Load
import Mathlib.Data.List.Nodup

/-! The check that is built in. It behaves as is documented of a library: what the environment
offers are the sections that its variables and its JSON give, all faults of the fields are found,
and what it accepts has passed the bounds and the validator. -/
namespace LegibleTrace.Settings

section

variable {named : Environment} {area key inner : Text}

theorem outline_jsonFields (named : Environment) (area key : Text) :
    ((jsonFields named area).lookup key).map Value.outline =
      (jsonAt? named [area, key]).map Value.outline := by
  rw [jsonFields, jsonAt?]
  cases jsonOf? named area with
  | none => rfl
  | some value => exact outline_lookup_lowerKeys key value

theorem jsonFields_inner (named : Environment) (area inner key : Text) :
    (jsonFields named area).reach? [inner, key] = jsonAt? named [area, inner, key] := by
  rw [jsonFields, jsonAt?]
  cases jsonOf? named area with
  | none => rfl
  | some value =>
    rw [Option.bind_some, ← lookup_lowerKeys_inner, Option.map_some, Option.getD_some,
      Fields.reach?_pair]

variable (wellNamed : WellNamed named)

include wellNamed

theorem outline_section {nested : List Text} (isKey : IsKey key) (outer : key ∉ nested) :
    ((merge (layer nested named area).fields (jsonFields named area)).reach? [key]).map
        Value.outline =
      ((variablesAt? named [area, key]).or (jsonAt? named [area, key])).map Value.outline := by
  rw [Fields.reach?_singleton, mergesDeeply_merge.outline_lookup, Option.map_or,
    outline_layer wellNamed isKey outer, outline_jsonFields, ← variableName_pair, ← Option.map_or]
  rfl

variable (isInner : IsKey inner)
  (object : ∀ content, named.value? (variableName [area, inner]) = some content →
    ∃ entries, Json.read? content = some (.mapping entries))

include isInner object

theorem found_section : Found named (variableName [area, inner])
    ((layer [inner] named area).fields.lookup inner) := by
  rw [variableName_pair] at object ⊢
  exact found_layer wellNamed isInner object

theorem outline_inner (isKey : IsKey key) :
    ((merge (layer [inner] named area).fields (jsonFields named area)).reach? [inner, key]).map
        Value.outline =
      ((variablesAt? named [area, inner, key]).or (jsonAt? named [area, inner, key])).map
        Value.outline := by
  have passable : Passable [inner, key] (layer [inner] named area).fields := by
    have found := found_section wellNamed isInner object
    intro value held
    rw [held] at found
    cases found
    exact ⟨rfl, trivial⟩
  have put : (Fields.reach? [inner, key] (layer [inner] named area).fields).map Value.outline =
      (variablesAt? named [area, inner, key]).map Value.outline := by
    rw [variableName_pair] at object
    have same := outline_layer_inner wellNamed isInner object isKey
    rw [variablesAt?, variableName_triple, variableName_pair, ← same, Fields.reach?_pair]
  rw [mergesDeeply_merge.outline_reach? passable, Option.map_or, put, jsonFields_inner,
    ← Option.map_or]

theorem isMapping_inner :
    ((merge (layer [inner] named area).fields (jsonFields named area)).reach? [inner]).map
        Value.isMapping =
      ((afterVariables named (variableName [area, inner]) none).map fun _ => true).or
        ((jsonAt? named [area, inner]).map Value.isMapping) := by
  have found := found_section wellNamed isInner object
  rw [Fields.reach?_singleton,
    Value.map_isMapping_of_outline (mergesDeeply_merge.outline_lookup _ _ _), Option.map_or,
    Value.map_isMapping_of_outline (outline_jsonFields named area inner)]
  generalize (layer [inner] named area).fields.lookup inner = held at found ⊢
  cases found with
  | missing unnamed empty alone => rw [unnamed]; rfl
  | present entries reached holds =>
    obtain ⟨value, after⟩ := Option.ne_none_iff_exists'.mp reached
    rw [after]
    rfl

end

theorem lookup_sectionFields (area key : Text) (held : Option Value) :
    (sectionFields area held).lookup key = if key = area then held else none := by
  cases held with
  | none => simp [sectionFields]
  | some value =>
    by_cases same : key = area
    · simp [sectionFields, same]
    · simp [sectionFields, List.lookup_cons, beq_false_of_ne same, same]

theorem HoldsObjects.area {named : Environment} (objects : HoldsObjects named) {area : Text}
    (member : [area] ∈ sections) {content : Text}
    (set : named.value? (sectionName area) = some content) :
    ∃ entries, Json.read? content = some (.mapping entries) := by
  rw [← variableName_singleton] at set
  exact objects.object member set

theorem offers_variables {environment : Environment}
    (distinct : ((caseless environment).map (·.1)).Nodup)
    (objects : HoldsObjects (caseless environment)) :
    ∃ fields, variables? environment = some fields ∧ Offers (caseless environment) fields := by
  have wellNamed := wellNamed_caseless distinct
  have lowered := lowerNames_of_nodup distinct
  generalize caseless environment = named at *
  have file {content : Text} (set : named.value? (variableName fileSection) = some content) :=
    objects.object (by simp [sections]) set
  have inner : ∀ name ∈ [("file" : Text)], ∀ content,
      named.value? (sectionName "logging" ++ "__" ++ name) = some content →
      ∃ entries, Json.read? content = some (.mapping entries) := by
    intro name same content set
    rw [List.mem_singleton.mp same, ← variableName_pair] at set
    exact file set
  obtain ⟨trace, traceRead, traceShaped, traceHolds⟩ :
      ∃ held, sectionVariables? [] named "trace" = some held ∧ _ ∧ _ :=
    exists_section (readable_of_objects distinct (by simp))
      fun _ => objects.area (by simp [sections])
  obtain ⟨logging, loggingRead, loggingShaped, loggingHolds⟩ :
      ∃ held, sectionVariables? ["file"] named "logging" = some held ∧ _ ∧ _ :=
    exists_section (readable_of_objects distinct inner) fun _ => objects.area (by simp [sections])
  have read : variables? environment =
      some (sectionFields "trace" trace ++ sectionFields "logging" logging) := by
    rw [variables?, lowered, traceRead, loggingRead]
    rfl
  have found (key : Text) : (sectionFields "trace" trace ++ sectionFields "logging" logging).lookup
      key = if key = "trace" then trace else if key = "logging" then logging else none := by
    rw [List.lookup_append, lookup_sectionFields, lookup_sectionFields]
    split
    · next same =>
      rw [same, if_neg (by decide), Option.or_none]
    · exact Option.none_or
  generalize sectionFields "trace" trace ++ sectionFields "logging" logging = fields at read found
  have inTrace (key : Text) : fields.reach? ["trace", key] =
      (merge (layer [] named "trace").fields (jsonFields named "trace")).reach? [key] := by
    rw [Fields.reach?, found, if_pos rfl]
    exact traceHolds key []
  have inLogging (key : Text) (keys : List Text) : fields.reach? ("logging" :: key :: keys) =
      (merge (layer ["file"] named "logging").fields (jsonFields named "logging")).reach?
        (key :: keys) := by
    rw [Fields.reach?, found, if_neg (by decide), if_pos rfl]
    exact loggingHolds key keys
  have isFile : IsKey "file" := isKey_of_mem _ (by simp [keyWords])
  refine ⟨fields, read, ?_, ?_, ?_, ?_⟩
  · intro key held
    rw [found] at held
    split at held
    · next same => simp [areas, same]
    · split at held
      · next same => simp [areas, same]
      · cases held
  · intro key value held
    rw [found] at held
    split at held
    · exact traceShaped value held
    · split at held
      · exact loggingShaped value held
      · cases held
  · intro setting
    cases setting
    case maxCauseDepth | noFilePlaceholder =>
      rw [Setting.location, inTrace]
      exact outline_section wellNamed (isKey_of_mem _ (by simp [keyWords])) (by simp)
    case level | format =>
      rw [Setting.location, inLogging]
      exact outline_section wellNamed (isKey_of_mem _ (by simp [keyWords])) (by simp)
    case fileEnabled | filePath =>
      rw [Setting.location, inLogging]
      exact outline_inner wellNamed isFile (fun _ => file) (isKey_of_mem _ (by simp [keyWords]))
  · rw [fileSection, inLogging]
    exact isMapping_inner wellNamed isFile fun _ => file

section

variable {fields : Fields} {fault : Fault}

theorem mem_unknownKeys_iff : fault ∈ unknownKeys fields ↔
    ∃ key, (fields.lookup key).isSome ∧ key ∉ areas ∧ ⟨[key], .unknownKey⟩ = fault := by
  simp only [unknownKeys, List.mem_map, List.mem_filter, decide_eq_true_eq, and_assoc,
    ← Fields.mem_keys_iff]

theorem mem_solidSections_iff : fault ∈ solidSections fields ↔
    ∃ location ∈ sections, ∃ value, fields.reach? location = some value ∧
      value.isMapping = false ∧ ⟨location, .notSection⟩ = fault := by
  rw [solidSections, List.mem_map]
  refine exists_congr fun location => ?_
  rw [List.mem_filter, and_assoc]
  refine and_congr_right fun _ => ?_
  cases fields.reach? location <;> simp

theorem settingFault?_eq_some_iff {setting : Setting} : settingFault? fields setting = some fault ↔
    ∃ kind, settingIn fields setting = .error kind ∧ ⟨setting.location, kind⟩ = fault := by
  rw [settingFault?]
  cases settingIn fields setting <;> simp

theorem mem_settingFaults_iff : fault ∈ Setting.all.filterMap (settingFault? fields) ↔
    ∃ setting kind, settingIn fields setting = .error kind ∧ ⟨setting.location, kind⟩ = fault := by
  simp only [List.mem_filterMap, settingFault?_eq_some_iff, Setting.mem_all, true_and]

theorem mem_faultsIn_iff : fault ∈ faultsIn fields ↔ library.FaultIn fields fault := by
  rw [faultsIn, List.mem_append, List.mem_append, mem_unknownKeys_iff, mem_solidSections_iff,
    mem_settingFaults_iff]
  constructor
  · rintro ((⟨key, held, other, rfl⟩ | ⟨location, listed, value, held, shape, rfl⟩) |
      ⟨setting, kind, failed, rfl⟩)
    · exact .unknown key held other
    · exact .solid location value listed held shape
    · exact .unread setting kind failed
  · intro faulty
    cases faulty with
    | unknown key held other => exact .inl (.inl ⟨key, held, other, rfl⟩)
    | solid location value listed held shape =>
      exact .inl (.inr ⟨location, listed, value, held, shape, rfl⟩)
    | unread setting kind failed => exact .inr ⟨setting, kind, failed, rfl⟩

theorem nodup_faultsIn (distinct : fields.Distinct) : (faultsIn fields).Nodup := by
  have keys : (unknownKeys fields).Nodup :=
    (List.Nodup.filter _ distinct).map fun _ _ same => List.singleton_inj.mp (Fault.mk.inj same).1
  have solids : (solidSections fields).Nodup :=
    (List.Nodup.filter _ (by decide)).map fun _ _ same => (Fault.mk.inj same).1
  have unread : (Setting.all.filterMap (settingFault? fields)).Nodup := by
    refine List.Nodup.filterMap ?_ (by decide)
    intro setting other fault first second
    obtain ⟨_, -, rfl⟩ := settingFault?_eq_some_iff.mp first
    obtain ⟨_, -, same⟩ := settingFault?_eq_some_iff.mp second
    exact (Setting.location_injective (Fault.mk.inj same).1).symm
  refine List.nodup_append.mpr ⟨List.nodup_append.mpr ⟨keys, solids, ?_⟩, unread, ?_⟩
  · intro fault first other second
    obtain ⟨key, _, _, rfl⟩ := mem_unknownKeys_iff.mp first
    obtain ⟨location, _, _, _, _, rfl⟩ := mem_solidSections_iff.mp second
    intro same
    cases (Fault.mk.inj same).2
  · intro fault first other second
    obtain ⟨setting, kind, _, rfl⟩ := mem_settingFaults_iff.mp second
    rintro rfl
    rcases List.mem_append.mp first with inside | inside
    · obtain ⟨key, _, _, same⟩ := mem_unknownKeys_iff.mp inside
      exact setting.location_ne_singleton key (Fault.mk.inj same).1.symm
    · obtain ⟨location, listed, _, _, _, same⟩ := mem_solidSections_iff.mp inside
      exact setting.location_not_mem_sections ((Fault.mk.inj same).1 ▸ listed)

end

theorem exists_of_bind {φ α β : Type} {result : Except φ α} {next : α → Except φ β} {b : β}
    (made : result >>= next = .ok b) : ∃ a, result = .ok a ∧ next a = .ok b := by
  cases result with
  | error fault => cases made
  | ok a => exact ⟨a, rfl, made⟩

theorem settingsIn_eq_ok_iff {fields : Fields} {settings : Settings} :
    settingsIn fields = .ok settings ↔
      ∀ setting : Setting, settingIn fields setting = .ok (setting.ofSettings settings) := by
  constructor
  · intro made
    obtain ⟨depth, depthRead, made⟩ := exists_of_bind made
    obtain ⟨placeholder, placeholderRead, made⟩ := exists_of_bind made
    obtain ⟨level, levelRead, made⟩ := exists_of_bind made
    obtain ⟨format, formatRead, made⟩ := exists_of_bind made
    obtain ⟨enabled, enabledRead, made⟩ := exists_of_bind made
    obtain ⟨path, pathRead, made⟩ := exists_of_bind made
    obtain rfl := Except.ok.inj made
    intro setting
    cases setting <;> assumption
  · intro made
    rw [settingsIn, made .maxCauseDepth, made .noFilePlaceholder, made .level, made .format,
      made .fileEnabled, made .filePath]
    rfl

theorem exists_settingsIn {fields : Fields} (sound : faultsIn fields = []) :
    ∃ settings, settingsIn fields = .ok settings := by
  have read (setting : Setting) : ∃ value, settingIn fields setting = .ok value := by
    cases verdict : settingIn fields setting with
    | ok value => exact ⟨value, rfl⟩
    | error kind =>
      have faulty : ⟨setting.location, kind⟩ ∈ faultsIn fields :=
        List.mem_append_right _ (mem_settingFaults_iff.mpr ⟨setting, kind, verdict, rfl⟩)
      rw [sound] at faulty
      cases faulty
  obtain ⟨maxCauseDepth, depthRead⟩ := read .maxCauseDepth
  obtain ⟨noFilePlaceholder, placeholderRead⟩ := read .noFilePlaceholder
  obtain ⟨level, levelRead⟩ := read .level
  obtain ⟨format, formatRead⟩ := read .format
  obtain ⟨enabled, enabledRead⟩ := read .fileEnabled
  obtain ⟨path, pathRead⟩ := read .filePath
  refine ⟨⟨⟨maxCauseDepth, noFilePlaceholder⟩, ⟨level, format, ⟨enabled, path⟩⟩⟩, ?_⟩
  rw [settingsIn_eq_ok_iff]
  intro setting
  cases setting <;> assumption

theorem judged_readFields {fields : Fields} (distinct : fields.Distinct) :
    Judged (library.FaultIn fields)
      (fun settings => ∀ setting : Setting,
        library.outcome setting (fields.reach? setting.location) =
          .ok (setting.ofSettings settings))
      ((readFields fields).mapError fun faults =>
        (.refused (.ofFaults faults) : StageFault Refusal Breakdown)) := by
  cases faults : faultsIn fields with
  | nil =>
    obtain ⟨settings, made⟩ := exists_settingsIn faults
    rw [readFields, faults, made]
    refine .accepted settings ?_ (settingsIn_eq_ok_iff.mp made)
    intro fault faulty
    rw [← mem_faultsIn_iff, faults] at faulty
    cases faulty
  | cons fault rest =>
    rw [readFields, faults]
    refine .refused _ (List.cons_ne_nil fault rest) ?_ ?_
    · exact faults ▸ nodup_faultsIn distinct
    · intro other
      rw [← mem_faultsIn_iff, faults]
      rfl

theorem distinct_merge {fields below : Fields} (first : fields.Distinct)
    (second : below.Distinct) : (merge fields below).Distinct := by
  have same : (Value.mapping fields.entries).fields = fields := fields_asMapping fields
  have keys : (overEntries below fields.entries).map Prod.fst = fields.map Prod.fst := by
    rw [overEntries_eq, same, List.map_map]
    rfl
  rw [Fields.Distinct, merge, List.map_append, keys]
  refine List.nodup_append.mpr ⟨first, second.filter _, ?_⟩
  rintro key held _ others rfl
  obtain ⟨field, member, rfl⟩ := List.mem_map.mp others
  have missing := (List.mem_filter.mp member).2
  rw [Fields.mem_keys_iff] at held
  rw [Option.isNone_iff_eq_none] at missing
  rw [missing] at held
  cases held

theorem distinct_variables {environment : Environment} {fields : Fields}
    (read : variables? environment = some fields) : fields.Distinct := by
  rw [variables?] at read
  obtain ⟨trace, -, read⟩ := Option.bind_eq_some_iff.mp read
  obtain ⟨logging, -, read⟩ := Option.bind_eq_some_iff.mp read
  obtain rfl := Option.some.inj read
  cases trace <;> cases logging <;> simp [Fields.Distinct, sectionFields]

/-- Fields with names that are no options are passed on as they are. -/
theorem check_entries {given : Fields} (plain : ∀ key ∈ given.map Prod.fst, key ∉ options)
    (environment : Environment) :
    check given.entries environment =
      (validate given environment).mapError fun faults => .refused (.ofFaults faults) := by
  have texts : (given.entries.any fun entry => entry.1.text?.isNone) = false := by
    simp [Fields.entries, Value.text?]
  have same : (Value.mapping given.entries).fields = given := fields_asMapping given
  have idle : (given.any fun field => field.1 ∈ options && !isIdle field) = false := by
    rw [List.any_eq_false]
    intro field member
    simp [plain _ (List.mem_map_of_mem member)]
  have kept : given.filter (fun field => field.1 ∉ options) = given := by
    rw [List.filter_eq_self]
    intro field member
    exact decide_eq_true (plain _ (List.mem_map_of_mem member))
  rw [check]
  simp only [texts, same, idle, kept]
  rfl

/-- The library that is built in behaves as is documented. -/
theorem documented_library : library.Documented where
  merges := mergesDeeply_merge
  reads setting := by
    cases setting <;> exact ⟨_, fun _ => rfl⟩
  offers _ distinct objects := offers_variables distinct objects
  collects given environment fields single plain read := by
    have judged := judged_readFields (distinct_merge single (distinct_variables read))
    have verdict : validate given environment = readFields (merge given fields) := by
      have found : variables? environment = some fields := read
      rw [validate, found]
    rw [← verdict, ← check_entries plain] at judged
    exact judged

theorem limit_within {value : Value} {n : Int} (accepted : limit value = .ok n) :
    minLimit ≤ n ∧ n ≤ maxLimit := by
  obtain ⟨m, -, accepted⟩ := exists_of_bind accepted
  split at accepted
  · cases accepted
  · next small =>
    split at accepted
    · cases accepted
    · next large =>
      obtain rfl := Except.ok.inj accepted
      exact ⟨Int.not_lt.mp small, Int.not_lt.mp large⟩

theorem exists_validatePlaceholder {value : Value} {text : Text}
    (accepted : placeholder value = .ok text) :
    ∃ given, validatePlaceholder given = .ok text := by
  obtain ⟨given, -, accepted⟩ := exists_of_bind accepted
  refine ⟨given, ?_⟩
  cases verdict : validatePlaceholder given with
  | error reason =>
    rw [verdict] at accepted
    cases accepted
  | ok same =>
    rw [verdict] at accepted
    exact congrArg Except.ok (Except.ok.inj accepted)

/-- What the check accepts was read from some fields. -/
theorem exists_fields_of_check {entries : List (Value × Value)} {environment : Environment}
    {settings : Settings} (accepted : check entries environment = .ok settings) :
    ∃ fields, ∀ setting : Setting,
      settingIn fields setting = .ok (setting.ofSettings settings) := by
  rw [check] at accepted
  split at accepted
  · cases accepted
  · split at accepted
    · cases accepted
    · generalize (Value.mapping entries).fields.filter _ = given at accepted
      rw [validate] at accepted
      cases found : variables? environment with
      | none =>
        rw [found] at accepted
        cases accepted
      | some sections =>
        rw [found] at accepted
        dsimp only at accepted
        refine ⟨merge given sections, settingsIn_eq_ok_iff.mp ?_⟩
        generalize merge given sections = fields at accepted ⊢
        rw [readFields] at accepted
        split at accepted
        · next made =>
          obtain rfl := Except.ok.inj accepted
          exact made
        · cases accepted

/-- The check that is built in enforces the bounds and runs the validator. -/
theorem enforces_check : Enforces check where
  bounds entries environment settings accepted := by
    obtain ⟨fields, made⟩ := exists_fields_of_check accepted
    have depth := made .maxCauseDepth
    rw [settingIn] at depth
    cases held : fields.reach? Setting.maxCauseDepth.location with
    | none =>
      rw [held] at depth
      exact .inl (Except.ok.inj depth).symm
    | some value =>
      rw [held] at depth
      exact .inr (limit_within depth)
  validated entries environment settings accepted := by
    obtain ⟨fields, made⟩ := exists_fields_of_check accepted
    have shown := made .noFilePlaceholder
    rw [settingIn] at shown
    cases held : fields.reach? Setting.noFilePlaceholder.location with
    | none =>
      rw [held] at shown
      exact .inl (Except.ok.inj shown).symm
    | some value =>
      rw [held] at shown
      exact .inr (exists_validatePlaceholder shown)

end LegibleTrace.Settings
