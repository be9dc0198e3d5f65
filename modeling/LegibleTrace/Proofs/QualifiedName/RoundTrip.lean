import LegibleTrace.Proofs.QualifiedName.Segment
import LegibleTrace.QualifiedName
import Mathlib.Data.Set.Function

/-! Names as texts and as lists of segments. Reading accepts the texts that the grammar spells
and building the lists of segments; as no segment has a dot, what is read from a text spells
that text again, and reading the text of a name gives the name back. -/
namespace LegibleTrace.QualifiedName

theorem eq_of_segments {first second : QualifiedName}
    (same : first.segments = second.segments) : first = second := by
  cases first
  cases second
  cases same
  rfl

section

variable (valid : QualifiedName)

theorem isSegment_of_mem : ∀ segment ∈ valid.segments, IsSegment segment :=
  fun segment member => fault?_eq_none_iff.mp (valid.sound segment member)

theorem firstFault?_segments : firstFault? valid.segments = none :=
  firstFault?_eq_none_iff.mpr valid.sound

theorem split_text : Text.split '.' valid.text = valid.segments :=
  Text.split_join valid.nonempty fun segment member =>
    (valid.isSegment_of_mem segment member).dot_not_mem

theorem dropLast_concat_className : valid.segments.dropLast ++ [valid.className] = valid.segments :=
  List.dropLast_concat_getLast valid.nonempty

theorem packageName_eq_nil_iff : valid.packageName = [] ↔ valid.segments.dropLast = [] := by
  refine Text.join_eq_nil_iff fun segment member => ?_
  exact (valid.isSegment_of_mem segment (List.dropLast_subset _ member)).ne_nil

theorem text_eq : valid.text =
    if valid.packageName = [] then valid.className
    else valid.packageName ++ "." ++ valid.className := by
  rw [text, ← valid.dropLast_concat_className]
  split
  · next empty =>
    rw [valid.packageName_eq_nil_iff.mp empty]
    exact List.intercalate_singleton
  · next nonempty =>
    exact Text.join_concat "." (mt valid.packageName_eq_nil_iff.mpr nonempty) valid.className

theorem ofSegments_segments : ofSegments valid.segments = .ok valid := by
  rw [ofSegments, dif_neg valid.nonempty]
  split
  · next first =>
    rw [valid.firstFault?_segments] at first
    contradiction
  · rfl

end

section

variable {name segment : Text} {segments : List Text} {fault : Fault} {valid : QualifiedName}

theorem exists_segments (nonempty : segments ≠ [])
    (good : ∀ segment ∈ segments, IsSegment segment) :
    ∃ valid : QualifiedName, valid.segments = segments :=
  ⟨⟨segments, nonempty, fun segment member => (good segment member).fault?_eq_none⟩, rfl⟩

theorem segments_or_fault (nonempty : segments ≠ []) :
    (∃ valid : QualifiedName, valid.segments = segments) ∨
      ∃ segment fault, firstFault? segments = some (segment, fault) := by
  cases first : firstFault? segments with
  | none => exact .inl ⟨⟨segments, nonempty, firstFault?_eq_none_iff.mp first⟩, rfl⟩
  | some broken => exact .inr ⟨broken.1, broken.2, rfl⟩

theorem validate_of_segments (same : valid.segments = Text.split '.' name) :
    validate name = (.ok valid, []) := by
  unfold validate
  split
  · next first =>
    rw [← same, valid.firstFault?_segments] at first
    contradiction
  · exact congrArg (fun built => (Except.ok built, [])) (eq_of_segments same.symm)

theorem validate_of_fault (first : firstFault? (Text.split '.' name) = some (segment, fault)) :
    validate name =
      (.error (.invalidName name fault), [.nameRejected name segment fault.describe]) := by
  unfold validate
  split
  · next found =>
    rw [first, Option.some_inj] at found
    cases found
    rfl
  · next found =>
    rw [first] at found
    contradiction

theorem ofSegments_of_fault (first : firstFault? segments = some (segment, fault)) :
    ofSegments segments = .error (.invalid segment fault) := by
  have nonempty : segments ≠ [] := by
    rintro rfl
    contradiction
  rw [ofSegments, dif_neg nonempty]
  split
  · next found =>
    rw [first, Option.some_inj] at found
    cases found
    rfl
  · next found =>
    rw [first] at found
    contradiction

theorem validate_eq_ok_iff :
    (validate name).1 = .ok valid ↔ valid.segments = Text.split '.' name := by
  constructor
  · intro accepted
    rcases segments_or_fault (Text.split_ne_nil '.' name) with ⟨other, same⟩ | ⟨_, _, first⟩
    · rw [validate_of_segments same] at accepted
      cases accepted
      exact same
    · rw [validate_of_fault first] at accepted
      contradiction
  · intro same
    rw [validate_of_segments same]

theorem ofSegments_eq_ok_iff : ofSegments segments = .ok valid ↔ valid.segments = segments := by
  constructor
  · intro built
    by_cases nonempty : segments = []
    · rw [ofSegments, dif_pos nonempty] at built
      contradiction
    · rcases segments_or_fault nonempty with ⟨other, rfl⟩ | ⟨_, _, first⟩
      · rw [other.ofSegments_segments] at built
        cases built
        rfl
      · rw [ofSegments_of_fault first] at built
        contradiction
  · rintro rfl
    exact valid.ofSegments_segments

theorem validate_text (valid : QualifiedName) : validate valid.text = (.ok valid, []) :=
  validate_of_segments valid.split_text.symm

theorem text_of_validate (accepted : (validate name).1 = .ok valid) : valid.text = name := by
  rw [text, validate_eq_ok_iff.mp accepted]
  exact Text.join_split '.' name

theorem text_of_ofSegments (built : ofSegments segments = .ok valid) :
    valid.text = Text.join "." segments := by
  rw [text, ofSegments_eq_ok_iff.mp built]

theorem exists_validate_iff :
    (∃ valid, (validate name).1 = .ok valid) ↔
      ∃ segments, segments ≠ [] ∧ (∀ segment ∈ segments, IsSegment segment) ∧
        name = Text.join "." segments := by
  constructor
  · rintro ⟨valid, accepted⟩
    exact ⟨valid.segments, valid.nonempty, valid.isSegment_of_mem,
      (text_of_validate accepted).symm⟩
  · rintro ⟨segments, nonempty, good, rfl⟩
    obtain ⟨valid, rfl⟩ := exists_segments nonempty good
    exact ⟨valid, congrArg Prod.fst (validate_text valid)⟩

theorem bijOn_join : Set.BijOn (Text.join ".")
    {segments | ∃ valid, ofSegments segments = .ok valid}
    {name | ∃ valid, (validate name).1 = .ok valid} := by
  refine ⟨?_, ?_, ?_⟩
  · rintro segments ⟨valid, built⟩
    rw [← text_of_ofSegments built]
    exact ⟨valid, congrArg Prod.fst (validate_text valid)⟩
  · rintro first ⟨one, built⟩ second ⟨other, made⟩ same
    rw [← text_of_ofSegments built, ← text_of_ofSegments made] at same
    rw [← ofSegments_eq_ok_iff.mp built, ← ofSegments_eq_ok_iff.mp made, ← one.split_text, same,
      other.split_text]
  · rintro name ⟨valid, accepted⟩
    exact ⟨valid.segments, ⟨valid, valid.ofSegments_segments⟩, text_of_validate accepted⟩

end

/-- Reading accepts exactly the texts that the grammar spells and loses nothing: what is read
from a text has that text, and the text of a name that was built from segments is read as that
name. So the texts accepted are in bijection with the lists of segments. The text of a name is
that of its package and its class. -/
theorem validate_grammar :
    (∀ name, (∃ valid, (validate name).1 = .ok valid) ↔
      ∃ segments, segments ≠ [] ∧ (∀ segment ∈ segments, IsSegment segment) ∧
        name = Text.join "." segments) ∧
    (∀ name valid, (validate name).1 = .ok valid → valid.text = name) ∧
    (∀ segments valid, ofSegments segments = .ok valid →
      valid.segments = segments ∧ (validate valid.text).1 = .ok valid) ∧
    Set.BijOn (Text.join ".") {segments | ∃ valid, ofSegments segments = .ok valid}
      {name | ∃ valid, (validate name).1 = .ok valid} ∧
    ∀ valid : QualifiedName, valid.text =
      if valid.packageName = [] then valid.className
      else valid.packageName ++ "." ++ valid.className := by
  refine ⟨fun _ => exists_validate_iff, fun _ _ => text_of_validate, ?_, bijOn_join, text_eq⟩
  intro segments valid built
  exact ⟨ofSegments_eq_ok_iff.mp built, congrArg Prod.fst (validate_text valid)⟩

end LegibleTrace.QualifiedName
