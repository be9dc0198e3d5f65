import LegibleTrace.Settings.Library
import LegibleTrace.Settings.Validation
import LegibleTrace.Yaml.Document

/-! Settings loaded from a file. References to variables are put in first, then the document is
read, and then its entries are checked. Each stage decides by itself whether it reports its
failure; how a document is read and how its entries are checked is left open until the end. -/
namespace LegibleTrace.Settings

/-- A way to read documents. A text that is none is refused in words. -/
abbrev Reader (ε : Type) := Text → Except (StageFault Text ε) Value

/-- Why nothing is loaded. The error with which a stage breaks off is passed on. -/
inductive LoadError (ε : Type)
  | noFile (path : Text)
  | unset (fault : Environment.Unset)
  | notYaml (path error : Text)
  | notMapping (path : Text)
  | invalid (path : Text) (refusal : Refusal)
  | brokenOff (error : ε)

/-- The failure a load error is reported as, if it is one of this library's own. -/
def LoadError.failure? : LoadError ε → Option Failure
  | noFile _ | brokenOff _ => none
  | unset fault => some fault.failure
  | notYaml path error => some (.config (Message.of ("Invalid YAML in " ++ path ++ ": " ++ error)))
  | notMapping path =>
    some (.config (Message.of ("Expected a mapping at the top of " ++ path)))
  | invalid path refusal =>
    some (.config (Message.of ("Invalid configuration in " ++ path ++ ": " ++ refusal.text)))

def noFileMessage (path : Text) : Text :=
  "Configuration file not found: " ++ path

/-- A file is read with one kind of line break. -/
def unifyLines : Text → Text
  | '\r' :: '\n' :: rest => '\n' :: unifyLines rest
  | c :: rest => (if c = '\r' then '\n' else c) :: unifyLines rest
  | [] => []

/-- The entries of a document that can hold settings; an empty or zero one has none. -/
def entries? (document : Value) : Option (List (Value × Value)) :=
  if document.isVacant then some []
  else match document with
    | .mapping entries => some entries
    | _ => none

/-- Loading reports events on its way, also when it fails. -/
abbrev Loading (ε : Type) := ExceptT (LoadError ε) (StateM (List Log.Event))

def report (event : Log.Event) : Loading ε Unit :=
  modify (· ++ [event])

/-- Loads the settings from the content of a file, which may not be there. -/
def loadWith (read : Reader ε) (check : Checker ε) (path : Text) (content : Option Text)
    (environment : Environment) : Loading ε Settings := do
  let some raw := content | throw (.noFile path)
  match environment.substitute (unifyLines raw) with
  | .error fault => throw (.unset fault)
  | .ok text =>
    match read text with
    | .error (.brokenOff error) => throw (.brokenOff error)
    | .error (.refused error) =>
      report (.configError path error)
      throw (.notYaml path error)
    | .ok document =>
      let some entries := entries? document | throw (.notMapping path)
      match check entries environment with
      | .error (.brokenOff error) => throw (.brokenOff error)
      | .error (.refused refusal) =>
        report (.configError path refusal.text)
        throw (.invalid path refusal)
      | .ok settings =>
        report (.configLoaded path)
        return settings

/-- What makes reading and checking break off. Keys are passed on as names of settings, so one
that is no text does. -/
inductive Breakdown
  | noSuchValue
  | keyNotText
  | option
deriving DecidableEq

def readDocument : Reader Breakdown := fun text =>
  match Yaml.read text with
  | .ok document => .ok document
  | .error .refused => .error (.refused "the text is not a document")
  | .error .noSuchValue => .error (.brokenOff .noSuchValue)

/-- The number of faults, and each of them in two lines. -/
def Refusal.ofFaults (faults : List Fault) : Refusal where
  faults
  text := Text.join "\n" ((Text.ofNat faults.length ++ " validation errors for StackGlyphConfig") ::
    faults.map fun fault => Text.join "." fault.location ++ "\n  " ++ fault.kind.name)

/-- The names under which the check takes its own options. -/
def options : List Text := List.map String.toList
  ["_case_sensitive", "_nested_model_default_partial_update", "_env_prefix", "_env_file",
    "_env_file_encoding", "_env_ignore_empty", "_env_nested_delimiter", "_env_nested_max_split",
    "_env_parse_none_str", "_env_parse_enums", "_cli_prog_name", "_cli_parse_args",
    "_cli_settings_source", "_cli_parse_none_str", "_cli_hide_none_type", "_cli_avoid_json",
    "_cli_enforce_required", "_cli_use_class_docs_for_groups", "_cli_exit_on_error",
    "_cli_prefix", "_cli_flag_prefix_char", "_cli_implicit_flags", "_cli_ignore_unknown_args",
    "_cli_kebab_case", "_cli_shortcuts", "_secrets_dir"]

/-- An option that is null changes nothing, and there is no file of variables to be named. -/
def isIdle (option : Text × Value) : Bool :=
  option.2.isNull || (option.1 = "_env_file" && option.2.text?.isSome)

def check : Checker Breakdown := fun entries environment =>
  let given := (Value.mapping entries).fields
  if entries.any fun entry => entry.1.text?.isNone then .error (.brokenOff .keyNotText)
  else if given.any fun field => field.1 ∈ options && !isIdle field then
    .error (.brokenOff .option)
  else (validate (given.filter fun field => field.1 ∉ options) environment).mapError fun faults =>
    .refused (.ofFaults faults)

def library : Library Breakdown := ⟨check, variables?, merge, readSetting, options⟩

def load (path : Text) (content : Option Text) (environment : Environment) :
    Except (LoadError Breakdown) Settings × List Log.Event :=
  (loadWith readDocument check path content environment).run.run []

end LegibleTrace.Settings
