import LegibleTrace.Settings
import LegibleTrace.Text.Blank

/-! What is declared of the settings: where each of them stands, of what kind it is, and what
holds of its value. The keys that lead to a setting are sections. -/
namespace LegibleTrace.Settings

inductive Setting
  | maxCauseDepth
  | noFilePlaceholder
  | level
  | format
  | fileEnabled
  | filePath
deriving DecidableEq

namespace Setting

def all : List Setting :=
  [maxCauseDepth, noFilePlaceholder, level, format, fileEnabled, filePath]

def location : Setting → List Text
  | maxCauseDepth => ["trace", "max_cause_depth"]
  | noFilePlaceholder => ["trace", "no_file_placeholder"]
  | level => ["logging", "level"]
  | format => ["logging", "format"]
  | fileEnabled => ["logging", "file", "enabled"]
  | filePath => ["logging", "file", "path"]

abbrev Kind : Setting → Type
  | maxCauseDepth => Int
  | noFilePlaceholder => Text
  | level => Log.Level
  | format => Log.Format
  | fileEnabled => Bool
  | filePath => Path

def ofSettings : (setting : Setting) → Settings → setting.Kind
  | maxCauseDepth, settings => settings.trace.maxCauseDepth
  | noFilePlaceholder, settings => settings.trace.noFilePlaceholder
  | level, settings => settings.logging.level
  | format, settings => settings.logging.format
  | fileEnabled, settings => settings.logging.file.enabled
  | filePath, settings => settings.logging.file.path

end Setting

def areas : List Text := ["trace", "logging"]

def fileSection : List Text := ["logging", "file"]

def sections : List (List Text) := [["trace"], ["logging"], fileSection]

def minLimit : Int := 0
def maxLimit : Int := 10000

/-- A placeholder is taken as it is, unless it would be shown as nothing. -/
def validatePlaceholder (text : Text) : Except Text Text :=
  if Text.strip text = [] then .error "no_file_placeholder must not be blank" else .ok text

end LegibleTrace.Settings
