import LegibleTrace.Settings.Field
import LegibleTrace.Settings.Variable

/-! Settings put together from given values and the environment. Given values are put over those
of the environment, and then every setting is read at its place; all faults are collected. -/
namespace LegibleTrace.Settings

def unknownKeys (fields : Fields) : List Fault :=
  ((fields.map (·.1)).filter (· ∉ areas)).map fun key => ⟨[key], .unknownKey⟩

def solidSections (fields : Fields) : List Fault :=
  (sections.filter fun location => (fields.reach? location).any (!·.isMapping)).map
    fun location => ⟨location, .notSection⟩

/-- What a setting is at its place; where nothing is, it is the standard. -/
def settingIn (fields : Fields) (setting : Setting) : Except FaultKind setting.Kind :=
  (fields.reach? setting.location).elim (.ok (setting.ofSettings .standard)) (readSetting setting)

def settingFault? (fields : Fields) (setting : Setting) : Option Fault :=
  match settingIn fields setting with
  | .ok _ => none
  | .error kind => some ⟨setting.location, kind⟩

def faultsIn (fields : Fields) : List Fault :=
  unknownKeys fields ++ solidSections fields ++ Setting.all.filterMap (settingFault? fields)

def settingsIn (fields : Fields) : Except FaultKind Settings := do
  let maxCauseDepth ← settingIn fields .maxCauseDepth
  let noFilePlaceholder ← settingIn fields .noFilePlaceholder
  let level ← settingIn fields .level
  let format ← settingIn fields .format
  let enabled ← settingIn fields .fileEnabled
  let path ← settingIn fields .filePath
  return { trace := { maxCauseDepth, noFilePlaceholder }
           logging := { level, format, file := { enabled, path } } }

def readFields (fields : Fields) : Except (List Fault) Settings :=
  match faultsIn fields, settingsIn fields with
  | [], .ok settings => .ok settings
  | faults, _ => .error faults

/-- If a variable cannot be read that is the only fault. -/
def validate (given : Fields) (environment : Environment) : Except (List Fault) Settings :=
  match variables? environment with
  | some held => readFields (merge given held)
  | none => .error [⟨[], .unusable⟩]

end LegibleTrace.Settings
