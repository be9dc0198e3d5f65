import LegibleTrace.Proofs.Settings.Load

/-! The shape of a document. A document that is no mapping is refused, whatever it is, unless it
is empty or zero: such a document is loaded as one without entries. -/
namespace LegibleTrace.Settings
open Log

variable {ε : Type}

/-- What loading makes of a checked document, and what it reports. -/
def concluded (path : Text) :
    Except (StageFault Refusal ε) Settings → Except (LoadError ε) Settings × List Event
  | .ok settings => (.ok settings, [.configLoaded path])
  | .error (.refused refusal) =>
    (.error (.invalid path refusal), [.configError path refusal.text])
  | .error (.brokenOff error) => (.error (.brokenOff error), [])

theorem isVacant_iff {document : Value} :
    document.isVacant ↔ document = .null ∨ document = .mapping [] ∨ document = .bool false ∨
      document = .int 0 ∨ document = .text [] ∨ document = .bytes [] ∨ document = .list [] ∨
      document = .tuple [] ∨ document = .set [] ∨ ∃ x, document = .number x ∧ x.isZero := by
  cases document <;> simp [Value.isVacant]

theorem concluded_ne_notMapping {path : Text}
    (verdict : Except (StageFault Refusal ε) Settings) :
    (concluded path verdict).1 ≠ .error (.notMapping path) := by
  cases verdict with
  | ok settings => simp [concluded]
  | error fault => cases fault <;> simp [concluded]

section

variable {read : Reader ε} {check : Checker ε} {path : Text} {content : Option Text}
  {environment : Environment} {text : Text} {document : Value}

theorem Loads.of_entries {entries : List (Value × Value)}
    (holds : HoldsEntries read content environment entries) :
    Loads read check path content environment
      (concluded path (check entries environment)).1
      (concluded path (check entries environment)).2 := by
  cases verdict : check entries environment with
  | ok settings => exact .loaded entries settings holds verdict
  | error fault =>
    cases fault with
    | refused refusal => exact .invalid entries refusal holds verdict
    | brokenOff error => exact .brokenOff entries error holds verdict

theorem run_of_entries {entries : List (Value × Value)}
    (holds : HoldsEntries read content environment entries) (before : List Event) :
    (loadWith read check path content environment).run.run before =
      (concluded path (check entries environment)).map id (before ++ ·) :=
  (Loads.of_entries holds).run before

theorem run_of_shapeless (filled : Filled content environment text)
    (found : read text = .ok document) (shapeless : entries? document = none)
    (before : List Event) :
    (loadWith read check path content environment).run.run before =
      (.error (.notMapping path), before) := by
  have refused : Loads read check path content environment (.error (.notMapping path)) [] :=
    .notMapping text document filled found shapeless
  simpa using refused.run before

theorem notMapping_iff (filled : Filled content environment text)
    (found : read text = .ok document) (before : List Event) :
    ((loadWith read check path content environment).run.run before).1 =
        .error (.notMapping path) ↔
      document.isVacant = false ∧ ¬ ∃ entries, document = .mapping entries := by
  rw [not_exists, ← entries?_eq_none_iff]
  cases shape : entries? document with
  | none => simp [run_of_shapeless filled found shape]
  | some entries =>
    rw [run_of_entries ⟨text, document, filled, found, shape⟩]
    exact iff_of_false (concluded_ne_notMapping _) nofun

/-- A document that is neither a mapping nor empty or zero is refused without a report. Of all
others the entries are checked, of which an empty or zero document has none. So a document that
is neither a mapping nor null passes exactly if it is false, a zero, or an empty text, row of bytes
or collection. -/
theorem load_of_document (filled : Filled content environment text)
    (found : read text = .ok document) (before : List Event) :
    let loaded := (loadWith read check path content environment).run.run before
    let isMapping := ∃ entries, document = .mapping entries
    (loaded.1 = .error (.notMapping path) ↔ document.isVacant = false ∧ ¬ isMapping) ∧
    (loaded.1 = .error (.notMapping path) → loaded.2 = before) ∧
    (LoadError.notMapping path : LoadError ε).failure? =
      some (.config (.of ("Expected a mapping at the top of " ++ path))) ∧
    (∀ entries, document = .mapping entries →
      loaded = (concluded path (check entries environment)).map id (before ++ ·)) ∧
    (document.isVacant →
      loaded = (concluded path (check [] environment)).map id (before ++ ·)) ∧
    (¬ isMapping → document ≠ .null → (loaded.1 ≠ .error (.notMapping path) ↔
      document = .bool false ∨ document = .int 0 ∨ document = .text [] ∨ document = .bytes [] ∨
        document = .list [] ∨ document = .tuple [] ∨ document = .set [] ∨
        ∃ x, document = .number x ∧ x.isZero)) := by
  intro loaded isMapping
  have refused : loaded.1 = .error (.notMapping path) ↔ _ := notMapping_iff filled found before
  refine ⟨refused, ?_, rfl, ?_, ?_, ?_⟩
  · intro failed
    have shapeless := entries?_eq_none_iff.mpr ((refused.mp failed).imp_right not_exists.mp)
    exact congrArg Prod.snd (run_of_shapeless filled found shapeless before)
  · rintro entries rfl
    refine run_of_entries ⟨text, _, filled, found, ?_⟩ before
    cases entries <;> rfl
  · intro vacant
    exact run_of_entries ⟨text, _, filled, found, if_pos vacant⟩ before
  · intro shapeless present
    have passed : loaded.1 ≠ .error (.notMapping path) ↔ document.isVacant := by
      rw [ne_eq, refused, and_iff_left shapeless, Bool.not_eq_false]
    have other : document ≠ .mapping [] := fun empty => shapeless ⟨[], empty⟩
    rw [passed, isVacant_iff, or_iff_right present, or_iff_right other]

end

theorem readDocument_eq {text : Text} {document : Value} (found : Yaml.read text = .ok document) :
    readDocument text = .ok document := by
  rw [readDocument, found]

theorem shape_of_text_list :
    Filled (some "- a") [] "- a" ∧ readDocument "- a" = .ok (.list [.text "a"]) ∧
      load "config.yaml" (some "- a") [] = (.error (.notMapping "config.yaml"), []) := by
  have filled : Filled (some "- a") [] "- a" := ⟨"- a", rfl, by cbv⟩
  have found : readDocument "- a" = .ok (.list [.text "a"]) := readDocument_eq (by cbv)
  obtain ⟨refused, silent, _⟩ :
      let loaded := load "config.yaml" (some "- a") []
      (loaded.1 = .error (.notMapping "config.yaml") ↔ _) ∧ _ :=
    load_of_document filled found []
  have failed := refused.mpr ⟨rfl, by rintro ⟨entries, shape⟩; contradiction⟩
  exact ⟨filled, found, Prod.ext failed (silent failed)⟩

-- The list without items counts as a document without entries.
theorem empty_list_passes :
    let document : Value := .list []
    readDocument "[]" = .ok document ∧ document ≠ .null ∧
      (∀ entries, document ≠ .mapping entries) ∧
      (load "config.yaml" (some "[]") []).1 = .ok Settings.standard ∧
      (load "config.yaml" (some "[]") []).1 ≠ .error (.notMapping "config.yaml") := by
  intro document
  have filled : Filled (some "[]") [] "[]" := ⟨"[]", rfl, by cbv⟩
  have found : readDocument "[]" = .ok document := readDocument_eq (by cbv)
  have loaded : load "config.yaml" (some "[]") [] = _ :=
    run_of_entries ⟨"[]", document, filled, found, rfl⟩ []
  have accepted : check [] [] = .ok Settings.standard := rfl
  rw [accepted] at loaded
  have settings : (load "config.yaml" (some "[]") []).1 = .ok Settings.standard :=
    congrArg Prod.fst loaded
  refine ⟨found, ?_, ?_, settings, ?_⟩
  · intro same
    contradiction
  · intro entries same
    contradiction
  · rw [settings]
    intro same
    contradiction

end LegibleTrace.Settings
