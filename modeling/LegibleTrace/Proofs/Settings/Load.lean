import LegibleTrace.Proofs.Environment
import LegibleTrace.Settings.Load
import Mathlib

/-! What loading gives and what it reports. The judgment `Loads` has one rule for each stage at
which loading can end, for every way to read documents and to check entries. Exactly one rule
applies to a file, so a fact about a load is read off the rules that can give it. -/
namespace LegibleTrace.Settings
open Log

variable {ε : Type}

/-- The text of the file with every reference replaced. -/
def Filled (content : Option Text) (environment : Environment) (text : Text) : Prop :=
  ∃ raw, content = some raw ∧ environment.substitute (unifyLines raw) = .ok text

/-- The fault of the references in the file. -/
def Unfilled (content : Option Text) (environment : Environment) (fault : Environment.Unset) :
    Prop :=
  ∃ raw, content = some raw ∧ environment.substitute (unifyLines raw) = .error fault

/-- Somewhere the file refers to a variable that is not set. -/
def RefersToUnset (content : Option Text) (environment : Environment) : Prop :=
  ∃ raw name, content = some raw ∧ Environment.Refers (unifyLines raw) name ∧
    environment.value? name = none

theorem refersToUnset_iff {content : Option Text} {environment : Environment} :
    RefersToUnset content environment ↔ ∃ fault, Unfilled content environment fault := by
  constructor
  · rintro ⟨raw, name, there, refers, missed⟩
    obtain ⟨fault, unfilled⟩ :=
      Environment.exists_substitute_error_iff.mpr ⟨name, refers, missed⟩
    exact ⟨fault, raw, there, unfilled⟩
  · rintro ⟨fault, raw, there, unfilled⟩
    obtain ⟨name, refers, missed⟩ :=
      Environment.exists_substitute_error_iff.mp ⟨fault, unfilled⟩
    exact ⟨raw, name, there, refers, missed⟩

/-- The entries that the document of the file has. -/
def HoldsEntries (read : Reader ε) (content : Option Text) (environment : Environment)
    (entries : List (Value × Value)) : Prop :=
  ∃ text document, Filled content environment text ∧ read text = .ok document ∧
    entries? document = some entries

section

variable (read : Reader ε) (check : Checker ε) (path : Text) (content : Option Text)
  (environment : Environment)

inductive Loads : Except (LoadError ε) Settings → List Event → Prop
  | noFile (missing : content = none) : Loads (.error (.noFile path)) []
  | unset (fault) (unfilled : Unfilled content environment fault) :
      Loads (.error (.unset fault)) []
  | notYaml (text error) (filled : Filled content environment text)
      (unread : read text = .error (.refused error)) :
      Loads (.error (.notYaml path error)) [.configError path error]
  | unreadable (text error) (filled : Filled content environment text)
      (broken : read text = .error (.brokenOff error)) : Loads (.error (.brokenOff error)) []
  | notMapping (text document) (filled : Filled content environment text)
      (found : read text = .ok document) (shapeless : entries? document = none) :
      Loads (.error (.notMapping path)) []
  | brokenOff (entries error) (holds : HoldsEntries read content environment entries)
      (broken : check entries environment = .error (.brokenOff error)) :
      Loads (.error (.brokenOff error)) []
  | invalid (entries refusal) (holds : HoldsEntries read content environment entries)
      (refused : check entries environment = .error (.refused refusal)) :
      Loads (.error (.invalid path refusal)) [.configError path refusal.text]
  | loaded (entries settings) (holds : HoldsEntries read content environment entries)
      (accepted : check entries environment = .ok settings) :
      Loads (.ok settings) [.configLoaded path]

/-- One of the rules applies to every file. -/
theorem exists_loads :
    ∃ outcome events, Loads read check path content environment outcome events := by
  cases content with
  | none => exact ⟨_, _, .noFile rfl⟩
  | some raw =>
    cases filled : environment.substitute (unifyLines raw) with
    | error fault => exact ⟨_, _, .unset fault ⟨raw, rfl, filled⟩⟩
    | ok text =>
      have filled : Filled (some raw) environment text := ⟨raw, rfl, filled⟩
      cases found : read text with
      | error fault =>
        cases fault with
        | refused error => exact ⟨_, _, .notYaml text error filled found⟩
        | brokenOff error => exact ⟨_, _, .unreadable text error filled found⟩
      | ok document =>
        cases shape : entries? document with
        | none => exact ⟨_, _, .notMapping text document filled found shape⟩
        | some entries =>
          have holds : HoldsEntries read (some raw) environment entries :=
            ⟨text, document, filled, found, shape⟩
          cases verdict : check entries environment with
          | error fault =>
            cases fault with
            | refused refusal => exact ⟨_, _, .invalid entries refusal holds verdict⟩
            | brokenOff error => exact ⟨_, _, .brokenOff entries error holds verdict⟩
          | ok settings => exact ⟨_, _, .loaded entries settings holds verdict⟩

end

namespace Loads

variable {read : Reader ε} {check : Checker ε} {path : Text} {content : Option Text}
  {environment : Environment} {outcome other : Except (LoadError ε) Settings}
  {events others : List Event}

/-- What a rule says is what loading does; its events come after those reported before. -/
theorem run (loads : Loads read check path content environment outcome events)
    (before : List Event) :
    (loadWith read check path content environment).run.run before =
      (outcome, before ++ events) := by
  cases loads with
  | noFile missing =>
    rw [missing, List.append_nil]
    rfl
  | unset fault unfilled =>
    obtain ⟨raw, rfl, unfilled⟩ := unfilled
    rw [loadWith, unfilled, List.append_nil]
    rfl
  | notYaml text error filled unread =>
    obtain ⟨raw, rfl, filled⟩ := filled
    simp only [loadWith, filled, unread]
    rfl
  | unreadable text error filled broken =>
    obtain ⟨raw, rfl, filled⟩ := filled
    simp only [loadWith, filled, broken]
    rw [List.append_nil]
    rfl
  | notMapping text document filled found shapeless =>
    obtain ⟨raw, rfl, filled⟩ := filled
    simp only [loadWith, filled, found, shapeless]
    rw [List.append_nil]
    rfl
  | brokenOff entries error holds broken =>
    obtain ⟨text, document, ⟨raw, rfl, filled⟩, found, shape⟩ := holds
    simp only [loadWith, filled, found, shape, broken]
    rw [List.append_nil]
    rfl
  | invalid entries refusal holds refused =>
    obtain ⟨text, document, ⟨raw, rfl, filled⟩, found, shape⟩ := holds
    simp only [loadWith, filled, found, shape, refused]
    rfl
  | loaded entries settings holds accepted =>
    obtain ⟨text, document, ⟨raw, rfl, filled⟩, found, shape⟩ := holds
    simp only [loadWith, filled, found, shape, accepted]
    rfl

/-- A file is loaded by one rule at most, since loading does what each of them says. -/
theorem unique (loads : Loads read check path content environment outcome events)
    (further : Loads read check path content environment other others) :
    outcome = other ∧ events = others := by
  have same := (loads.run []).symm.trans (further.run [])
  rwa [List.nil_append, List.nil_append, Prod.mk.injEq] at same

theorem length_le (loads : Loads read check path content environment outcome events) :
    events.length ≤ 1 := by
  cases loads <;> simp

theorem loaded_iff (loads : Loads read check path content environment outcome events) :
    events = [.configLoaded path] ↔ ∃ settings, outcome = .ok settings := by
  cases loads <;> simp

theorem error_iff (loads : Loads read check path content environment outcome events)
    {error : Text} : events = [.configError path error] ↔
      (∃ text, Filled content environment text ∧ read text = .error (.refused error)) ∨
        ∃ entries refusal, HoldsEntries read content environment entries ∧
          check entries environment = .error (.refused refusal) ∧ refusal.text = error := by
  constructor
  · intro reported
    cases loads with
    | notYaml text error filled unread =>
      obtain ⟨⟩ := reported
      exact .inl ⟨text, filled, unread⟩
    | invalid entries refusal holds refused =>
      obtain ⟨⟩ := reported
      exact .inr ⟨entries, refusal, holds, refused, rfl⟩
    | noFile | unset | unreadable | notMapping | brokenOff | loaded => simp at reported
  · rintro (⟨text, filled, unread⟩ | ⟨entries, refusal, holds, refused, rfl⟩)
    · exact (loads.unique (.notYaml text error filled unread)).2
    · exact (loads.unique (.invalid entries refusal holds refused)).2

/-- What is reported as an error is also told to the caller, as a failure of the configuration. -/
theorem tells (loads : Loads read check path content environment outcome events)
    {error : Text} (reported : events = [.configError path error]) :
    ∃ failed message, outcome = .error failed ∧ failed.failure? = some (.config message) ∧
      (path ++ ": " ++ error : Text) <:+ message.text := by
  cases loads with
  | notYaml text error filled unread =>
    obtain ⟨⟩ := reported
    refine ⟨_, _, rfl, rfl, "Invalid YAML in ", ?_⟩
    simp [Message.of, Message.text]
  | invalid entries refusal holds refused =>
    obtain ⟨⟩ := reported
    refine ⟨_, _, rfl, rfl, "Invalid configuration in ", ?_⟩
    simp [Message.of, Message.text]
  | noFile | unset | unreadable | notMapping | brokenOff | loaded => simp at reported

theorem nothing_iff (loads : Loads read check path content environment outcome events) :
    events = [] ↔ content = none ∨ RefersToUnset content environment ∨
      (∃ text error, Filled content environment text ∧
        read text = .error (.brokenOff error)) ∨
      (∃ text document, Filled content environment text ∧ read text = .ok document ∧
        entries? document = none) ∨
      ∃ entries error, HoldsEntries read content environment entries ∧
        check entries environment = .error (.brokenOff error) := by
  rw [refersToUnset_iff]
  constructor
  · intro silent
    cases loads with
    | noFile missing => exact .inl missing
    | unset fault unfilled => exact .inr (.inl ⟨fault, unfilled⟩)
    | unreadable text error filled broken =>
      exact .inr (.inr (.inl ⟨text, error, filled, broken⟩))
    | notMapping text document filled found shapeless =>
      exact .inr (.inr (.inr (.inl ⟨text, document, filled, found, shapeless⟩)))
    | brokenOff entries error holds broken =>
      exact .inr (.inr (.inr (.inr ⟨entries, error, holds, broken⟩)))
    | notYaml | invalid | loaded => simp at silent
  · rintro (missing | ⟨fault, unfilled⟩ | ⟨text, error, filled, broken⟩ |
      ⟨text, document, filled, found, shapeless⟩ | ⟨entries, error, holds, broken⟩)
    · exact (loads.unique (.noFile missing)).2
    · exact (loads.unique (.unset fault unfilled)).2
    · exact (loads.unique (.unreadable text error filled broken)).2
    · exact (loads.unique (.notMapping text document filled found shapeless)).2
    · exact (loads.unique (.brokenOff entries error holds broken)).2

theorem noFile_iff (loads : Loads read check path content environment outcome events)
    {missing : Text} : outcome = .error (.noFile missing) ↔ content = none ∧ missing = path := by
  constructor
  · rintro rfl
    cases loads with
    | noFile nothing => exact ⟨nothing, rfl⟩
  · rintro ⟨nothing, rfl⟩
    exact (loads.unique (.noFile nothing)).1

theorem unset_iff (loads : Loads read check path content environment outcome events) :
    (∃ fault, outcome = .error (.unset fault)) ↔ RefersToUnset content environment := by
  rw [refersToUnset_iff]
  constructor
  · rintro ⟨fault, rfl⟩
    cases loads with
    | unset fault unfilled => exact ⟨fault, unfilled⟩
  · rintro ⟨fault, unfilled⟩
    exact ⟨fault, (loads.unique (.unset fault unfilled)).1⟩

theorem notYaml_iff (loads : Loads read check path content environment outcome events)
    {text error : Text} (given : Filled content environment text) :
    outcome = .error (.notYaml path error) ↔ read text = .error (.refused error) := by
  constructor
  · rintro rfl
    cases loads with
    | notYaml further _ filled unread =>
      obtain ⟨raw, rfl, shown⟩ := given
      obtain ⟨again, same, filled⟩ := filled
      obtain rfl := Option.some.inj same
      rw [shown] at filled
      rwa [Except.ok.inj filled]
  · intro unread
    exact (loads.unique (.notYaml text error given unread)).1

theorem brokenOff_iff (loads : Loads read check path content environment outcome events)
    {error : ε} : outcome = .error (.brokenOff error) ↔
      (∃ text, Filled content environment text ∧ read text = .error (.brokenOff error)) ∨
        ∃ entries, HoldsEntries read content environment entries ∧
          check entries environment = .error (.brokenOff error) := by
  constructor
  · rintro rfl
    cases loads with
    | unreadable text error filled broken => exact .inl ⟨text, filled, broken⟩
    | brokenOff entries error holds broken => exact .inr ⟨entries, holds, broken⟩
  · rintro (⟨text, filled, broken⟩ | ⟨entries, holds, broken⟩)
    · exact (loads.unique (.unreadable text error filled broken)).1
    · exact (loads.unique (.brokenOff entries error holds broken)).1

end Loads

/-- The error is reported as a failure of the configuration. -/
def LoadError.IsConfig (error : LoadError ε) : Prop :=
  ∃ message, error.failure? = some (.config message)

theorem LoadError.isConfig_or (error : LoadError ε) :
    error.IsConfig ∨ (∃ path, error = .noFile path) ∨ ∃ other, error = .brokenOff other := by
  cases error with
  | noFile path => exact .inr (.inl ⟨path, rfl⟩)
  | brokenOff other => exact .inr (.inr ⟨other, rfl⟩)
  | unset | notYaml | notMapping | invalid => exact .inl ⟨_, rfl⟩

theorem entries?_eq_none_iff {document : Value} :
    entries? document = none ↔
      document.isVacant = false ∧ ∀ entries, document ≠ .mapping entries := by
  unfold entries?
  split
  · next vacant => simp [vacant]
  · next present =>
    have present : document.isVacant = false := Bool.eq_false_iff.mpr present
    cases document <;> simp [present]

/-- The check breaks off at keys that are no texts. -/
def PassesKeys (check : Checker ε) : Prop :=
  ∀ entries environment, (∃ entry ∈ entries, entry.1.text? = none) →
    ∃ error, check entries environment = .error (.brokenOff error)

theorem passesKeys_check : PassesKeys check := by
  rintro entries environment ⟨entry, member, other⟩
  have broken : (entries.any fun entry => entry.1.text?.isNone) = true :=
    List.any_eq_true.mpr ⟨entry, member, by rw [other]; rfl⟩
  exact ⟨.keyNotText, if_pos broken⟩

section

variable (read : Reader ε) (check : Checker ε) (path : Text) (content : Option Text)
  (environment : Environment) (before : List Event)

/-- A load reports at most one event: that settings were loaded, exactly if they were, or an
error, exactly if the text is no document or the values of its entries have faults, with what was
said of it. A reference to a variable that is not set comes before all that is wrong with the
document, and a text that is no document before all that is wrong with its entries. -/
theorem load_reports :
    let (outcome, log) := (loadWith read check path content environment).run.run before
    ∃ events, log = before ++ events ∧ events.length ≤ 1 ∧
      (events = [.configLoaded path] ↔ ∃ settings, outcome = .ok settings) ∧
      (∀ error, events = [.configError path error] ↔
        (∃ text, Filled content environment text ∧ read text = .error (.refused error)) ∨
          ∃ entries refusal, HoldsEntries read content environment entries ∧
            check entries environment = .error (.refused refusal) ∧ refusal.text = error) ∧
      (∀ error, events = [.configError path error] → ∃ failed message,
        outcome = .error failed ∧ failed.failure? = some (.config message) ∧
          (path ++ ": " ++ error : Text) <:+ message.text) ∧
      (events = [] ↔ content = none ∨ RefersToUnset content environment ∨
        (∃ text error, Filled content environment text ∧
          read text = .error (.brokenOff error)) ∨
        (∃ text document, Filled content environment text ∧ read text = .ok document ∧
          document.isVacant = false ∧ ∀ entries, document ≠ .mapping entries) ∨
        ∃ entries error, HoldsEntries read content environment entries ∧
          check entries environment = .error (.brokenOff error)) ∧
      ((∃ fault, outcome = .error (.unset fault)) ↔ RefersToUnset content environment) ∧
      ∀ text error, Filled content environment text →
        (outcome = .error (.notYaml path error) ↔ read text = .error (.refused error)) := by
  obtain ⟨outcome, events, loads⟩ := exists_loads read check path content environment
  rw [loads.run]
  simp only [← entries?_eq_none_iff]
  exact ⟨events, rfl, loads.length_le, loads.loaded_iff, fun _ => loads.error_iff,
    fun _ => loads.tells, loads.nothing_iff, loads.unset_iff,
    fun text error filled => loads.notYaml_iff filled⟩

-- The reference stands in a comment, and what follows is no document.
example : load "app.yaml" (some "# ${X}\n[") [] = (.error (.unset ⟨"X"⟩), []) := by
  cbv

/-- A file that is there gives settings or a failure of the configuration, unless the reader or
the check breaks off by itself: the error of either passes through. A document that has a key at
the top that is no text is one at which the check breaks off. -/
theorem load_fails (passes : PassesKeys check) :
    let outcome := ((loadWith read check path content environment).run.run before).1
    let isUnreadable := ∃ text error, Filled content environment text ∧
      read text = .error (.brokenOff error)
    let isUnchecked := ∃ entries error, HoldsEntries read content environment entries ∧
      check entries environment = .error (.brokenOff error)
    let hasOtherKey := ∃ entries, HoldsEntries read content environment entries ∧
      ∃ entry ∈ entries, entry.1.text? = none
    (∀ other, outcome = .error (.noFile other) ↔ content = none ∧ other = path) ∧
    ((∃ error, outcome = .error (.brokenOff error)) ↔ isUnreadable ∨ isUnchecked) ∧
    (hasOtherKey → ∃ error, outcome = .error (.brokenOff error)) ∧
    (content ≠ none → ¬ isUnreadable → ¬ isUnchecked → (∃ settings, outcome = .ok settings) ∨
      ∃ error, outcome = .error error ∧ error.IsConfig) := by
  obtain ⟨outcome, events, loads⟩ := exists_loads read check path content environment
  rw [loads.run]
  intro outcome isUnreadable isUnchecked hasOtherKey
  have broken : (∃ error, outcome = .error (.brokenOff error)) ↔ isUnreadable ∨ isUnchecked := by
    constructor
    · rintro ⟨error, failed⟩
      rcases loads.brokenOff_iff.mp failed with ⟨text, filled, broken⟩ | ⟨entries, holds, broken⟩
      · exact .inl ⟨text, error, filled, broken⟩
      · exact .inr ⟨entries, error, holds, broken⟩
    · rintro (⟨text, error, filled, broken⟩ | ⟨entries, error, holds, broken⟩)
      · exact ⟨error, loads.brokenOff_iff.mpr (.inl ⟨text, filled, broken⟩)⟩
      · exact ⟨error, loads.brokenOff_iff.mpr (.inr ⟨entries, holds, broken⟩)⟩
  refine ⟨fun other => loads.noFile_iff, broken, ?_, ?_⟩
  · rintro ⟨entries, holds, other⟩
    obtain ⟨error, stopped⟩ := passes entries environment other
    exact broken.mpr (.inr ⟨entries, error, holds, stopped⟩)
  · intro there readable checked
    cases result : outcome with
    | ok settings => exact .inl ⟨settings, rfl⟩
    | error error =>
      rcases error.isConfig_or with config | ⟨other, rfl⟩ | ⟨other, rfl⟩
      · exact .inr ⟨error, rfl, config⟩
      · exact absurd (loads.noFile_iff.mp result).1 there
      · exact absurd (broken.mp ⟨other, result⟩) (not_or.mpr ⟨readable, checked⟩)

end

theorem holdsEntries_number_key :
    HoldsEntries readDocument (some "1: 2") [] [(.int 1, .int 2)] := by
  have filled : Filled (some "1: 2") [] "1: 2" := ⟨"1: 2", rfl, by cbv⟩
  have found : Yaml.read "1: 2" = .ok (.mapping [(.int 1, .int 2)]) := by cbv
  refine ⟨"1: 2", .mapping [(.int 1, .int 2)], filled, ?_, rfl⟩
  rw [readDocument, found]

theorem load_fails_at_number_key :
    PassesKeys check ∧ HoldsEntries readDocument (some "1: 2") [] [(.int 1, .int 2)] ∧
      ∃ error, (load "config.yaml" (some "1: 2") []).1 = .error (.brokenOff error) := by
  refine ⟨passesKeys_check, holdsEntries_number_key, ?_⟩
  have fails := load_fails readDocument check "config.yaml" (some "1: 2") [] [] passesKeys_check
  exact fails.2.2.1 ⟨_, holdsEntries_number_key, (.int 1, .int 2), List.mem_cons_self, rfl⟩

theorem number_key_not_wrapped :
    let outcome := (load "config.yaml" (some "1: 2") []).1
    outcome = .error (.brokenOff .keyNotText) ∧
      ¬ ((∃ settings, outcome = .ok settings) ∨
        ∃ error, outcome = .error error ∧ error.IsConfig) := by
  intro outcome
  have loads : Loads readDocument check "config.yaml" (some "1: 2") []
      (.error (.brokenOff .keyNotText)) [] := .brokenOff _ _ holdsEntries_number_key rfl
  have broken : outcome = .error (.brokenOff .keyNotText) := congrArg Prod.fst (loads.run [])
  refine ⟨broken, ?_⟩
  rw [broken]
  rintro (⟨settings, loaded⟩ | ⟨error, failed, message, reported⟩)
  · contradiction
  · obtain rfl := Except.error.inj failed
    contradiction

end LegibleTrace.Settings
