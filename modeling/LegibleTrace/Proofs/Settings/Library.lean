import LegibleTrace.Proofs.Settings.Section
import LegibleTrace.Settings.Library

/-! What is documented of a library that checks settings. It puts given fields deeply over the
sections that the environment holds, reads names of variables without regard to case, and gives
either settings or every fault of the fields so made. -/
namespace LegibleTrace.Settings

variable {ε : Type}

/-- What the JSON of a section holds at a place. -/
def jsonAt? (named : Environment) : List Text → Option Value
  | [] => none
  | area :: keys => (jsonOf? named area).bind (entryAt? keys)

def variableName (location : List Text) : Text :=
  "stackglyph_" ++ Text.join "__" location

/-- What the variables hold at a place. A section inside a section may have a variable of its own:
the variables behind it are put into what it holds, and those before it do not count. -/
def variablesAt? (named : Environment) : List Text → Option Value
  | [area, inner, key] =>
    let (fields, behind) := opening named (variableName [area, inner])
    valueUnder? key (settle key
      (afterVariables behind (variableName [area, inner, key]) (fields.lookup key)) fields)
  | location => afterVariables named (variableName location) none

/-- The variables that are named for sections hold objects. -/
def HoldsObjects (named : Environment) : Prop :=
  ∀ location ∈ sections, (named.value? (variableName location)).all fun content =>
    (Json.read? content).any Value.isMapping

instance (named : Environment) : Decidable (HoldsObjects named) :=
  inferInstanceAs (Decidable (∀ location ∈ sections, _))

/-- The sections that are given for variables: at the place of a setting they hold what the
variables do, or else what the JSON of the section does, up to the entries of mappings. -/
structure Offers (named : Environment) (fields : Fields) : Prop where
  areas : ∀ key, (fields.lookup key).isSome → key ∈ Settings.areas
  shaped : ∀ key value, fields.lookup key = some value → value.isMapping
  settings : ∀ setting : Setting, (fields.reach? setting.location).map Value.outline =
    ((variablesAt? named setting.location).or (jsonAt? named setting.location)).map Value.outline
  file : (fields.reach? fileSection).map Value.isMapping =
    ((afterVariables named (variableName fileSection) none).map fun _ => true).or
      ((jsonAt? named fileSection).map Value.isMapping)

/-- What can be wrong with fields: a key that names no section, a section that is no mapping, and a
value that cannot be read. -/
inductive Library.FaultIn (library : Library ε) (fields : Fields) : Fault → Prop
  | unknown (key) (held : (fields.lookup key).isSome) (other : key ∉ areas) :
      FaultIn library fields ⟨[key], .unknownKey⟩
  | solid (location value) (listed : location ∈ sections)
      (held : fields.reach? location = some value) (shape : value.isMapping = false) :
      FaultIn library fields ⟨location, .notSection⟩
  | unread (setting : Setting) (kind)
      (failed : library.outcome setting (fields.reach? setting.location) = .error kind) :
      FaultIn library fields ⟨setting.location, kind⟩

/-- A check gives settings as described if there is no fault, and else it refuses, with every
fault once. -/
inductive Judged (IsFault : Fault → Prop) (Made : Settings → Prop) :
    Except (StageFault Refusal ε) Settings → Prop
  | accepted (settings) (sound : ∀ fault, ¬ IsFault fault) (made : Made settings) :
      Judged IsFault Made (.ok settings)
  | refused (refusal : Refusal) (unsound : refusal.faults ≠ []) (once : refusal.faults.Nodup)
      (listed : ∀ fault, fault ∈ refusal.faults ↔ IsFault fault) :
      Judged IsFault Made (.error (.refused refusal))

theorem Judged.congr {IsFault IsOther : Fault → Prop} {Made Other : Settings → Prop}
    {verdict : Except (StageFault Refusal ε) Settings} (judged : Judged IsFault Made verdict)
    (faults : ∀ fault, IsFault fault ↔ IsOther fault)
    (made : ∀ settings, Made settings → Other settings) : Judged IsOther Other verdict := by
  cases judged with
  | accepted settings sound fits =>
    exact .accepted settings (fun fault => mt (faults fault).mpr (sound fault)) (made _ fits)
  | refused refusal unsound once listed =>
    exact .refused refusal unsound once fun fault => (listed fault).trans (faults fault)

/-- The documented behaviour of a library. Names of variables are read in lower case, and options
of the library itself are not given. -/
structure Library.Documented (library : Library ε) : Prop where
  merges : MergesDeeply library.merge
  reads : ∀ setting : Setting, ∃ kind, ∀ entries,
    library.read setting (.mapping entries) = .error kind
  offers : ∀ environment, ((caseless environment).map (·.1)).Nodup →
    HoldsObjects (caseless environment) →
    ∃ fields, library.variables? environment = some fields ∧ Offers (caseless environment) fields
  collects : ∀ (given : Fields) environment fields, given.Distinct →
    (∀ key ∈ given.map Prod.fst, key ∉ library.options) →
    library.variables? environment = some fields →
    Judged (library.FaultIn (library.merge given fields))
      (fun settings => ∀ setting : Setting,
        library.outcome setting ((library.merge given fields).reach? setting.location) =
          .ok (setting.ofSettings settings))
      (library.check given.entries environment)

/-- The declared bounds and the declared validator: what a check accepts is the standard value, or
it has passed them. -/
structure Enforces (check : Checker ε) : Prop where
  bounds : ∀ entries environment settings, check entries environment = .ok settings →
    settings.trace.maxCauseDepth = Settings.standard.trace.maxCauseDepth ∨
      minLimit ≤ settings.trace.maxCauseDepth ∧ settings.trace.maxCauseDepth ≤ maxLimit
  validated : ∀ entries environment settings, check entries environment = .ok settings →
    settings.trace.noFilePlaceholder = Settings.standard.trace.noFilePlaceholder ∨
      ∃ text, validatePlaceholder text = .ok settings.trace.noFilePlaceholder

theorem Setting.mem_all (setting : Setting) : setting ∈ all := by
  cases setting <;> simp [all]

theorem Setting.location_injective {setting other : Setting}
    (same : setting.location = other.location) : setting = other := by
  cases setting <;> cases other <;> first | rfl | exact absurd same (by decide)

theorem Setting.location_not_mem_sections (setting : Setting) : setting.location ∉ sections := by
  cases setting <;> decide

theorem Setting.location_ne_singleton (setting : Setting) (key : Text) :
    setting.location ≠ [key] := by
  intro same
  have short := congrArg List.length same
  cases setting <;> simp [Setting.location] at short

theorem variableName_singleton (area : Text) : variableName [area] = sectionName area := by
  unfold variableName sectionName Text.join
  generalize "stackglyph_".toList = start
  simp

theorem variableName_pair (area key : Text) :
    variableName [area, key] = sectionName area ++ "__" ++ key := by
  unfold variableName sectionName Text.join
  -- The start is left closed, for it is no concern of this proof how its letters are spelled.
  generalize "stackglyph_".toList = start
  simp

theorem variableName_triple (area inner key : Text) :
    variableName [area, inner, key] = sectionName area ++ "__" ++ inner ++ "__" ++ key := by
  unfold variableName sectionName Text.join
  generalize "stackglyph_".toList = start
  simp

/-- The keys on the way to the settings. -/
def keyWords : List Text :=
  List.map String.toList
    ["max_cause_depth", "no_file_placeholder", "level", "format", "file", "enabled", "path"]

theorem isKey_of_mem : ∀ key ∈ keyWords, IsKey key := by
  have apart : ∀ key ∈ keyWords, ¬ ['_', '_'] <:+: key ++ ['_'] := by decide +kernel
  have plain : ∀ key ∈ keyWords, key.all Text.isPlain = true := by decide +kernel
  have small : ∀ key ∈ keyWords, Text.lower key = key := by decide +kernel
  intro key member
  exact ⟨apart key member, List.all_eq_true.mp (plain key member), small key member⟩

theorem HoldsObjects.object {named : Environment} (objects : HoldsObjects named)
    {location : List Text} (member : location ∈ sections) {content : Text}
    (set : named.value? (variableName location) = some content) :
    ∃ entries, Json.read? content = some (.mapping entries) := by
  have holds := objects location member
  rw [set, Option.all_some, Option.any_eq_true] at holds
  obtain ⟨value, read, shaped⟩ := holds
  obtain ⟨entries, rfl⟩ := Value.isMapping_iff.mp shaped
  exact ⟨entries, read⟩

end LegibleTrace.Settings
