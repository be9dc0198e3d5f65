import LegibleTrace.Proofs.QualifiedName.RoundTrip

/-! Three ways to check a name. Reading it, asking whether it is valid and building a name of its
segments pass the same texts. Where they refuse, reading and building blame the same segment, the
first that breaks a rule, for the same rule; and reading passes nothing that building would
refuse. -/
namespace LegibleTrace.QualifiedName

/-- Why a name is not built of the segments of a text after these were checked. -/
inductive ReadError
  | rejected (failure : Failure)
  | unbuilt (error : BuildError)

/-- Reading that leaves it to building to check the segments again. -/
def checkAndBuild (name : Text) : Except ReadError QualifiedName × List Log.Event :=
  match firstFault? (Text.split '.' name) with
  | some (segment, fault) =>
    (.error (.rejected (.invalidName name fault)), [.nameRejected name segment fault.describe])
  | none => ((ofSegments (Text.split '.' name)).mapError .unbuilt, [])

variable {name : Text}

theorem isValid_iff : isValid name = true ↔ firstFault? (Text.split '.' name) = none := by
  simp only [isValid, List.all_eq_true, Option.isNone_iff_eq_none, firstFault?_eq_none_iff]

theorem exists_validate_iff_isValid :
    (∃ valid, (validate name).1 = .ok valid) ↔ isValid name = true := by
  simp only [validate_eq_ok_iff, isValid_iff]
  constructor
  · rintro ⟨valid, same⟩
    rw [← same, valid.firstFault?_segments]
  · intro sound
    exact ⟨⟨_, Text.split_ne_nil '.' name, firstFault?_eq_none_iff.mp sound⟩, rfl⟩

theorem exists_ofSegments_iff :
    (∃ valid, ofSegments (Text.split '.' name) = .ok valid) ↔
      ∃ valid, (validate name).1 = .ok valid := by
  simp only [ofSegments_eq_ok_iff, validate_eq_ok_iff]

theorem checkAndBuild_eq (name : Text) :
    checkAndBuild name = ((validate name).1.mapError .rejected, (validate name).2) := by
  rw [checkAndBuild]
  rcases segments_or_fault (Text.split_ne_nil '.' name) with ⟨valid, same⟩ | ⟨_, _, first⟩
  · rw [validate_of_segments same, ← same, valid.firstFault?_segments, valid.ofSegments_segments]
    rfl
  · rw [first, validate_of_fault first]
    rfl

theorem checkAndBuild_ne_unbuilt (error : BuildError) :
    (checkAndBuild name).1 ≠ .error (.unbuilt error) := by
  rw [checkAndBuild_eq]
  cases (validate name).1 <;> exact nofun

/-- Reading a name succeeds exactly if it is valid, and exactly if a name can be built of its
segments; then nothing is reported. Otherwise the first of the segments that breaks a rule is
told by the failure, by the one event and by the message of building, each with that rule. -/
theorem checks_agree (name : Text) :
    ((∃ valid, (validate name).1 = .ok valid) ↔ isValid name = true) ∧
    (isValid name = true ↔ ∃ valid, ofSegments (Text.split '.' name) = .ok valid) ∧
    (isValid name = true → (validate name).2 = []) ∧
    (isValid name = false → ∃ before segment behind fault event,
      Text.split '.' name = before ++ segment :: behind ∧
      (∀ other ∈ before, IsSegment other) ∧ Breaks segment fault ∧
      validate name = (.error (.invalidName name fault), [event]) ∧
      event.name = "name_rejected" ∧
      event.fields = ([("name", .text name), ("segment", .text segment),
        ("reason", .text fault.describe)] : Fields) ∧
      ofSegments (Text.split '.' name) = .error (.invalid segment fault) ∧
      BuildError.message (.invalid segment fault) =
        "Invalid segment " ++ Text.quoted segment ++ ": " ++ fault.describe) ∧
    checkAndBuild name = ((validate name).1.mapError .rejected, (validate name).2) ∧
    ∀ error, (checkAndBuild name).1 ≠ .error (.unbuilt error) := by
  refine ⟨exists_validate_iff_isValid, ?_, ?_, ?_, checkAndBuild_eq name, checkAndBuild_ne_unbuilt⟩
  · rw [exists_ofSegments_iff, exists_validate_iff_isValid]
  · intro good
    obtain ⟨valid, accepted⟩ := exists_validate_iff_isValid.mpr good
    rw [validate_of_segments (validate_eq_ok_iff.mp accepted)]
  · intro bad
    rcases segments_or_fault (Text.split_ne_nil '.' name) with
      ⟨valid, same⟩ | ⟨segment, fault, first⟩
    · have sound := valid.firstFault?_segments
      rw [same, ← isValid_iff, bad] at sound
      contradiction
    · obtain ⟨before, behind, shape, good, breaks⟩ := firstFault?_eq_some_iff.mp first
      exact ⟨before, segment, behind, fault, _, shape, good, breaks, validate_of_fault first, rfl,
        rfl, ofSegments_of_fault first, rfl⟩

end LegibleTrace.QualifiedName
