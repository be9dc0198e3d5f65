import LegibleTrace.Proofs.Environment

/-! Replacing the references of a text. Where a reference opens can be read off the text: behind
the dollar sign and the brace stands a character that does not close it, and later one that does.
The parts of a text are references exactly there. A reference gives way to the value of its
variable, which is not looked at again, and of the references without a value the leftmost is
reported. -/
namespace LegibleTrace.Environment

/-- A reference begins where this text begins. -/
def Opens (text : Text) : Prop :=
  ∃ c rest, text = '$' :: '\x7b' :: c :: rest ∧ c ≠ '\x7d' ∧ '\x7d' ∈ rest

/-- The text that has these parts. -/
def sources (parts : List Part) : Text :=
  parts.flatMap Part.source

/-- A character stands for itself and a reference for the value of its variable. -/
inductive Replaces (environment : Environment) : List Part → Text → Prop
  | nil : Replaces environment [] []
  | literal (c parts result) (further : Replaces environment parts result) :
      Replaces environment (.literal c :: parts) (c :: result)
  | reference (name value parts result) (found : environment.value? name = some value)
      (further : Replaces environment parts result) :
      Replaces environment (.reference name :: parts) (value ++ result)

/-- The variable of the leftmost reference that has no value. -/
def FirstUnset (environment : Environment) (parts : List Part) (name : Text) : Prop :=
  ∃ before behind, parts = before ++ .reference name :: behind ∧
    environment.value? name = none ∧
    ∀ other, .reference other ∈ before → environment.value? other ≠ none

theorem opens_iff {text : Text} :
    Opens text ↔ ∃ name, IsName name ∧ (Part.reference name).source <+: text := by
  constructor
  · rintro ⟨c, rest, rfl, other, closed⟩
    obtain ⟨more, behind, rfl, unclosed⟩ := List.eq_append_cons_of_mem closed
    refine ⟨c :: more, ⟨List.cons_ne_nil _ _, ?_⟩, behind, by simp [Part.source]⟩
    simpa using ⟨other.symm, unclosed⟩
  · rintro ⟨name, ⟨nonempty, unclosed⟩, behind, rfl⟩
    obtain ⟨c, more, rfl⟩ := List.exists_cons_of_ne_nil nonempty
    refine ⟨c, more ++ '\x7d' :: behind, by simp [Part.source], ?_, by simp⟩
    rintro rfl
    simp at unclosed

namespace Splits

variable {text : Text} {parts before behind : List Part}

theorem sources_eq (splits : Splits text parts) : sources parts = text := by
  induction splits with
  | nil => rfl
  | reference name rest parts named further ih =>
    simp only [sources, List.flatMap_cons] at ih ⊢
    rw [ih]
  | literal c rest parts plain further ih =>
    simp only [sources, List.flatMap_cons] at ih ⊢
    rw [ih]
    rfl

/-- What stands behind some of the parts has the parts behind them. -/
theorem suffix (splits : Splits text (before ++ behind)) : Splits (sources behind) behind := by
  induction before generalizing text with
  | nil =>
    have whole := splits.sources_eq
    rw [List.nil_append] at whole
    rw [whole]
    exact splits
  | cons part before ih =>
    cases splits with
    | reference name rest parts named further => exact ih further
    | literal c rest parts plain further => exact ih further

/-- A part is a reference exactly if one opens where the part stands. -/
theorem reference_iff {part : Part} (splits : Splits text (before ++ part :: behind)) :
    (∃ name, part = .reference name) ↔ Opens (sources (part :: behind)) := by
  have here := splits.suffix
  rw [opens_iff]
  generalize sources (part :: behind) = rest at here
  cases here with
  | reference name rest parts named further =>
    exact iff_of_true ⟨name, rfl⟩ ⟨name, named, List.prefix_append _ _⟩
  | literal c rest parts plain further =>
    refine iff_of_false (by simp) ?_
    rintro ⟨name, named, begins⟩
    exact plain name named begins

theorem isName {name : Text} (splits : Splits text parts) (member : .reference name ∈ parts) :
    IsName name := by
  obtain ⟨before, behind, rfl⟩ := List.append_of_mem member
  have here := splits.suffix
  generalize sources (.reference name :: behind) = rest at here
  cases here with
  | reference name rest parts named further => exact named

end Splits

section

variable {environment other : Environment} {parts : List Part}

/-- Replacing part by part. -/
def replace (environment : Environment) (parts : List Part) : Except Unset Text :=
  (parts.mapM environment.fill).map List.flatten

theorem replace_literal (c : Char) (parts : List Part) :
    replace environment (.literal c :: parts) = (replace environment parts).map (c :: ·) := by
  rw [replace, replace, List.mapM_cons]
  cases parts.mapM environment.fill <;> rfl

theorem replace_set {name value : Text} (found : environment.value? name = some value)
    (parts : List Part) :
    replace environment (.reference name :: parts) =
      (replace environment parts).map (value ++ ·) := by
  have filled : environment.fill (.reference name) = .ok value := by simp [fill, found]
  rw [replace, replace, List.mapM_cons, filled]
  cases parts.mapM environment.fill <;> rfl

theorem replace_unset {name : Text} (missed : environment.value? name = none)
    (parts : List Part) :
    replace environment (.reference name :: parts) = .error ⟨name⟩ := by
  have failed : environment.fill (.reference name) = .error ⟨name⟩ := by simp [fill, missed]
  rw [replace, List.mapM_cons, failed]
  rfl

theorem Replaces.replace_eq {result : Text} (replaces : Replaces environment parts result) :
    replace environment parts = .ok result := by
  induction replaces with
  | nil => rfl
  | literal c parts result further ih => rw [replace_literal, ih, Except.map]
  | reference name value parts result found further ih =>
    rw [replace_set found, ih, Except.map]

theorem FirstUnset.replace_eq {name : Text} (unset : FirstUnset environment parts name) :
    replace environment parts = .error ⟨name⟩ := by
  obtain ⟨before, behind, rfl, missed, set⟩ := unset
  induction before with
  | nil => exact replace_unset missed behind
  | cons part before ih =>
    have later := ih fun other member => set other (List.mem_cons_of_mem _ member)
    rw [List.cons_append]
    cases part with
    | literal c => rw [replace_literal, later, Except.map]
    | reference other =>
      obtain ⟨value, found⟩ := Option.ne_none_iff_exists'.mp (set other List.mem_cons_self)
      rw [replace_set found, later, Except.map]

theorem replaces_or_firstUnset (environment : Environment) (parts : List Part) :
    (∃ result, Replaces environment parts result) ∨ ∃ name, FirstUnset environment parts name := by
  induction parts with
  | nil => exact .inl ⟨[], .nil⟩
  | cons part parts ih =>
    cases part with
    | literal c =>
      rcases ih with ⟨result, further⟩ | ⟨name, before, behind, rfl, missed, set⟩
      · exact .inl ⟨_, .literal c _ _ further⟩
      · refine .inr ⟨name, .literal c :: before, behind, rfl, missed, ?_⟩
        simpa using set
    | reference other =>
      cases found : environment.value? other with
      | none => exact .inr ⟨other, [], parts, rfl, found, by simp⟩
      | some value =>
        rcases ih with ⟨result, further⟩ | ⟨name, before, behind, rfl, missed, set⟩
        · exact .inl ⟨_, .reference _ _ _ _ found further⟩
        · refine .inr ⟨name, .reference other :: before, behind, rfl, missed, ?_⟩
          simpa [found] using set

theorem replace_eq_ok_iff {result : Text} :
    replace environment parts = .ok result ↔ Replaces environment parts result := by
  constructor
  · intro replaced
    rcases replaces_or_firstUnset environment parts with ⟨other, replaces⟩ | ⟨name, unset⟩
    · rw [replaces.replace_eq] at replaced
      rwa [← Except.ok.inj replaced]
    · rw [unset.replace_eq] at replaced
      contradiction
  · exact Replaces.replace_eq

theorem replace_eq_error_iff {name : Text} :
    replace environment parts = .error ⟨name⟩ ↔ FirstUnset environment parts name := by
  constructor
  · intro failed
    rcases replaces_or_firstUnset environment parts with ⟨result, replaces⟩ | ⟨other, unset⟩
    · rw [replaces.replace_eq] at failed
      contradiction
    · rw [unset.replace_eq, Except.error.injEq, Unset.mk.injEq] at failed
      rwa [← failed]
  · exact FirstUnset.replace_eq

/-- A failure names the variable of the leftmost reference without a value. -/
theorem mapError_replace_iff {failure : Failure} :
    (replace environment parts).mapError Unset.failure = .error failure ↔
      ∃ name, FirstUnset environment parts name ∧
        failure = .config (.of ("Environment variable " ++ name ++ " not found")) := by
  simp only [← replace_eq_error_iff]
  cases replace environment parts with
  | ok result => simp [Except.mapError]
  | error fault =>
    simp only [Except.mapError, Except.error.injEq]
    constructor
    · rintro rfl
      exact ⟨fault.name, rfl, rfl⟩
    · rintro ⟨name, rfl, rfl⟩
      rfl

/-- Only the variables that are referred to matter. -/
theorem replace_congr
    (agree : ∀ name, .reference name ∈ parts → other.value? name = environment.value? name) :
    replace other parts = replace environment parts := by
  induction parts with
  | nil => rfl
  | cons part parts ih =>
    have later := ih fun name member => agree name (List.mem_cons_of_mem _ member)
    cases part with
    | literal c => rw [replace_literal, replace_literal, later]
    | reference name =>
      have same := agree name List.mem_cons_self
      cases found : environment.value? name with
      | none => rw [replace_unset found, replace_unset (same.trans found)]
      | some value => rw [replace_set found, replace_set (same.trans found), later]

theorem replaces_sources (plain : ∀ name, .reference name ∉ parts) :
    Replaces environment parts (sources parts) := by
  induction parts with
  | nil => exact .nil
  | cons part parts ih =>
    have later := ih fun name member => plain name (List.mem_cons_of_mem _ member)
    cases part with
    | literal c => exact .literal c _ _ later
    | reference name => exact absurd List.mem_cons_self (plain name)

end

/-- A text has references exactly where they open, each up to the first brace that closes it, and
this splits it in one way. Replacing puts the value of its variable in the place of each and
leaves the rest as it is. It fails exactly if a variable is not set, and the failure names the
leftmost reference of those. Only the variables that are referred to matter. -/
theorem substitute_references (environment : Environment) (text : Text) :
    ∃ parts, Splits text parts ∧ (∀ other, Splits text other → other = parts) ∧
      sources parts = text ∧ (∀ name, .reference name ∈ parts → IsName name) ∧
      (∀ before part behind, parts = before ++ part :: behind →
        ((∃ name, part = .reference name) ↔ Opens (sources (part :: behind)))) ∧
      (∀ result, environment.substitute text = .ok result ↔
        Replaces environment parts result) ∧
      ((∃ fault, environment.substitute text = .error fault) ↔
        ∃ name, .reference name ∈ parts ∧ environment.value? name = none) ∧
      (∀ failure, (environment.substitute text).mapError Unset.failure = .error failure ↔
        ∃ name, FirstUnset environment parts name ∧
          failure = .config (.of ("Environment variable " ++ name ++ " not found"))) ∧
      (∀ other : Environment,
        (∀ name, .reference name ∈ parts → other.value? name = environment.value? name) →
          other.substitute text = environment.substitute text) ∧
      ((∀ name, .reference name ∉ parts) → environment.substitute text = .ok text) := by
  have splits := splits_parts text
  refine ⟨parts text, splits, fun other split => split.eq_parts, splits.sources_eq,
    fun name => splits.isName, ?_, fun result => replace_eq_ok_iff, ?_,
    fun failure => mapError_replace_iff, fun other => replace_congr, ?_⟩
  · intro before part behind whole
    rw [whole] at splits
    exact splits.reference_iff
  · have failed : (∃ fault, environment.substitute text = .error fault) ↔ _ :=
      exists_substitute_error_iff
    simpa only [refers_iff] using failed
  · intro plain
    have kept : Replaces environment (parts text) _ := replaces_sources plain
    rw [splits.sources_eq] at kept
    exact kept.replace_eq

-- The first reference goes on to the first brace that closes, and its value is put in as it is
-- although it looks like a reference; a dollar sign and two braces are none.
theorem references_of_nested_braces :
    let text : Text := "$\x7ba$\x7bb\x7d$\x7b\x7d$\x7bc\x7d$\x7b"
    let environment : Environment := [("a$\x7bb", "$\x7bd\x7d"), ("c", "1")]
    let plain : Text := "$a $\x7b\x7d $\x7bb"
    environment.substitute text = .ok "$\x7bd\x7d$\x7b\x7d1$\x7b" ∧
      Environment.substitute (("d", "2") :: environment) text = environment.substitute text ∧
      (Environment.substitute [("c", "1")] text).mapError Unset.failure =
        .error (.config (.of "Environment variable a$\x7bb not found")) ∧
      environment.substitute plain = .ok plain := by
  intro text environment plain
  obtain ⟨parts, _, unique, _, _, _, replaced, _, _, agree, _⟩ :=
    substitute_references environment text
  obtain ⟨others, _, same, _, _, _, _, _, failed, _⟩ := substitute_references [("c", "1")] text
  obtain ⟨letters, _, literal, _, _, _, _, _, _, _, kept⟩ :=
    substitute_references environment plain
  have shape : Environment.parts text = [.reference "a$\x7bb", .literal '$', .literal '\x7b',
      .literal '\x7d', .reference "c", .literal '$', .literal '\x7b'] := by decide +kernel
  have letterwise : Environment.parts plain = plain.map .literal := by decide +kernel
  obtain rfl := (unique _ (splits_parts text)).symm.trans shape
  obtain rfl := (same _ (splits_parts text)).symm.trans shape
  obtain rfl := (literal _ (splits_parts plain)).symm.trans letterwise
  refine ⟨(replaced _).mpr ?_, agree _ ?_, ?_, kept ?_⟩
  · exact replace_eq_ok_iff.mp rfl
  · intro name member
    obtain rfl | rfl : name = "a$\x7bb".toList ∨ name = "c".toList := by simpa using member
    · rfl
    · rfl
  · exact (failed _).mpr ⟨"a$\x7bb", ⟨[], _, rfl, rfl, by simp⟩, rfl⟩
  · simp

end LegibleTrace.Environment
