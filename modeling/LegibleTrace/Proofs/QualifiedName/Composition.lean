import LegibleTrace.Proofs.QualifiedName.Agreement

/-! Names put together with a dot. The segments of the whole are those of the first text and then
those of the second. So the whole is read where both are, and otherwise it is refused for the
first fault of the first text or, where that has none, of the second. -/
namespace LegibleTrace.QualifiedName

/-- The name is refused for this fault of this segment, and that is what is reported. -/
def Rejects (name segment : Text) (fault : Fault) : Prop :=
  validate name =
    (.error (.invalidName name fault), [.nameRejected name segment fault.describe])

theorem split_dotted (first second : Text) :
    Text.split '.' (first ++ "." ++ second) = Text.split '.' first ++ Text.split '.' second := by
  rw [List.append_assoc]
  exact Text.split_append '.' first second

theorem firstFault?_append (before behind : List Text) :
    firstFault? (before ++ behind) = (firstFault? before).or (firstFault? behind) :=
  List.findSome?_append

section

variable {name first second segment : Text} {fault : Fault} {valid : QualifiedName}

theorem accepts_iff :
    (∃ valid, (validate name).1 = .ok valid) ↔ firstFault? (Text.split '.' name) = none :=
  exists_validate_iff_isValid.trans isValid_iff

theorem rejects_iff :
    Rejects name segment fault ↔ firstFault? (Text.split '.' name) = some (segment, fault) := by
  refine ⟨?_, validate_of_fault⟩
  intro rejected
  rcases segments_or_fault (Text.split_ne_nil '.' name) with ⟨valid, same⟩ | ⟨_, _, broken⟩
  · rw [Rejects, validate_of_segments same] at rejected
    cases rejected
  · rw [Rejects, validate_of_fault broken] at rejected
    cases rejected
    exact broken

theorem exists_rejects {failure : Failure} (refused : (validate name).1 = .error failure) :
    ∃ segment fault, failure = .invalidName name fault ∧ Rejects name segment fault := by
  rcases segments_or_fault (Text.split_ne_nil '.' name) with ⟨valid, same⟩ | ⟨_, _, broken⟩
  · rw [validate_of_segments same] at refused
    contradiction
  · rw [validate_of_fault broken] at refused
    cases refused
    exact ⟨_, _, rfl, validate_of_fault broken⟩

theorem accepts_dotted_iff :
    (∃ valid, (validate (first ++ "." ++ second)).1 = .ok valid) ↔
      (∃ one, (validate first).1 = .ok one) ∧ ∃ other, (validate second).1 = .ok other := by
  rw [accepts_iff, accepts_iff, accepts_iff, split_dotted, firstFault?_append,
    Option.or_eq_none_iff]

theorem rejects_dotted_iff :
    Rejects (first ++ "." ++ second) segment fault ↔
      Rejects first segment fault ∨
        (∃ one, (validate first).1 = .ok one) ∧ Rejects second segment fault := by
  rw [rejects_iff, rejects_iff, rejects_iff, accepts_iff, split_dotted, firstFault?_append,
    Option.or_eq_some_iff]

theorem parts_of_dotted (accepted : (validate (first ++ "." ++ second)).1 = .ok valid) :
    ∃ one other, (validate first).1 = .ok one ∧ (validate second).1 = .ok other ∧
      valid.segments = one.segments ++ other.segments := by
  obtain ⟨⟨one, firstRead⟩, other, secondRead⟩ := accepts_dotted_iff.mp ⟨valid, accepted⟩
  refine ⟨one, other, firstRead, secondRead, ?_⟩
  rw [validate_eq_ok_iff] at accepted firstRead secondRead
  rw [accepted, split_dotted, firstRead, secondRead]

end

theorem validate_join {segments : List Text} (nonempty : segments ≠ [])
    (good : ∀ segment ∈ segments, IsSegment segment) :
    ∃ valid, (validate (Text.join "." segments)).1 = .ok valid ∧ valid.segments = segments := by
  obtain ⟨valid, rfl⟩ := exists_segments nonempty good
  exact ⟨valid, congrArg Prod.fst (validate_text valid), rfl⟩

theorem validate_packageName (valid : QualifiedName) (packaged : valid.packageName ≠ []) :
    ∃ package, (validate valid.packageName).1 = .ok package ∧
      package.segments = valid.segments.dropLast := by
  apply validate_join (mt valid.packageName_eq_nil_iff.mpr packaged)
  intro segment member
  exact valid.isSegment_of_mem segment (List.dropLast_subset _ member)

theorem validate_className (valid : QualifiedName) :
    ∃ simple, (validate valid.className).1 = .ok simple ∧
      simple.segments = [valid.className] := by
  have good : ∀ segment ∈ [valid.className], IsSegment segment := by
    rw [List.forall_mem_singleton]
    exact valid.isSegment_of_mem _ (List.getLast_mem valid.nonempty)
  have read := validate_join (List.cons_ne_nil valid.className []) good
  rwa [Text.join, List.intercalate_singleton] at read

/-- Reading goes part by part. Two texts with a dot between them are read exactly if both are,
and then into the segments of both; otherwise the whole is refused for the segment and the fault
for which the first text is or, where that is read, the second. So the package of a name that was
read, unless it is empty, and its class are read as well. -/
theorem validate_compositional :
    (∀ first second : Text,
      let whole := first ++ "." ++ second
      ((∃ valid, (validate whole).1 = .ok valid) ↔
        (∃ one, (validate first).1 = .ok one) ∧ ∃ other, (validate second).1 = .ok other) ∧
      (∀ valid, (validate whole).1 = .ok valid →
        ∃ one other, (validate first).1 = .ok one ∧ (validate second).1 = .ok other ∧
          valid.segments = one.segments ++ other.segments) ∧
      ∀ segment fault, Rejects whole segment fault ↔
        Rejects first segment fault ∨
          (∃ one, (validate first).1 = .ok one) ∧ Rejects second segment fault) ∧
    (∀ name failure, (validate name).1 = .error failure →
      ∃ segment fault, failure = .invalidName name fault ∧ Rejects name segment fault) ∧
    ∀ name valid, (validate name).1 = .ok valid →
      (valid.packageName ≠ [] → ∃ package, (validate valid.packageName).1 = .ok package ∧
        package.segments = valid.segments.dropLast) ∧
      ∃ simple, (validate valid.className).1 = .ok simple ∧
        simple.segments = [valid.className] := by
  refine ⟨?_, fun _ _ => exists_rejects, ?_⟩
  · intro first second
    exact ⟨accepts_dotted_iff, fun _ => parts_of_dotted, fun _ _ => rejects_dotted_iff⟩
  · intro name valid _
    exact ⟨valid.validate_packageName, valid.validate_className⟩

-- The second text begins with an empty segment, which hides its reserved word.
example : Rejects ("a" ++ "." ++ ".int") [] .empty :=
  rejects_iff.mpr (by decide)

theorem parts_of_three_segments :
    let valid : QualifiedName := ⟨["com", "app", "Foo"], by decide, by decide +kernel⟩
    ((validate "com.app.Foo").1 = .ok valid ∧ valid.packageName ≠ []) ∧
      (∃ package, (validate "com.app").1 = .ok package ∧
        package.segments = ["com".toList, "app".toList]) ∧
      ∃ simple, (validate "Foo").1 = .ok simple ∧ simple.segments = ["Foo".toList] := by
  intro valid
  have accepted : (validate "com.app.Foo").1 = .ok valid := validate_eq_ok_iff.mpr (by decide)
  have packaged : valid.packageName ≠ [] := by decide
  obtain ⟨-, -, parts⟩ := validate_compositional
  obtain ⟨package, simple⟩ := parts _ _ accepted
  exact ⟨⟨accepted, packaged⟩, package packaged, simple⟩

end LegibleTrace.QualifiedName
