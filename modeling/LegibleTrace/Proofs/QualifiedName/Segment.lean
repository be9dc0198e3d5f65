import LegibleTrace.Proofs.Text
import LegibleTrace.QualifiedName.Segment

/-! The grammar of a segment and the rule that any other text breaks first. Every text is a
segment or breaks a rule, so the two judgments decide what is found of a text, and of a list
of texts the first one that is no segment. -/
namespace LegibleTrace.QualifiedName

/-- The characters of a segment: the letters and digits of ASCII and the underscore. -/
def IsPart (c : Char) : Prop := c.isAlphanum ∨ c = '_'

/-- The characters with which a segment begins. -/
def IsStart (c : Char) : Prop := c.isAlpha ∨ c = '_'

instance : DecidablePred IsPart := fun _ => inferInstanceAs (Decidable (_ ∨ _))

instance : DecidablePred IsStart := fun _ => inferInstanceAs (Decidable (_ ∨ _))

inductive IsSegment : Text → Prop
  | mk (first rest) (start : IsStart first) (parts : ∀ c ∈ rest, IsPart c)
      (free : first :: rest ∉ reservedWords) : IsSegment (first :: rest)

/-- The first rule that a text breaks. -/
inductive Breaks : Text → Fault → Prop
  | empty : Breaks [] .empty
  | reserved (word) (member : word ∈ reservedWords) : Breaks word (.reserved word)
  | badChar (before c behind) (free : before ++ c :: behind ∉ reservedWords)
      (parts : ∀ d ∈ before, IsPart d) (bad : ¬ IsPart c) :
      Breaks (before ++ c :: behind) (.badChar [c])
  | badStart (digit rest) (free : digit :: rest ∉ reservedWords)
      (parts : ∀ c ∈ digit :: rest, IsPart c) (isDigit : digit.isDigit) :
      Breaks (digit :: rest) (.badStart [digit])

section

variable {c : Char}

theorem isPart_of_isStart (start : IsStart c) : IsPart c := by
  refine start.imp_left fun letter => ?_
  rw [Char.isAlphanum, letter, Bool.true_or]

theorem toNat_lt_of_isPart (part : IsPart c) : c.toNat < 128 := by
  rw [← Char.toNat_val]
  rcases part with word | rfl
  · delta Char.isAlphanum Char.isAlpha Char.isUpper Char.isLower Char.isDigit at word
    simp only [Bool.or_eq_true, Bool.and_eq_true, decide_eq_true_eq, ge_iff_le,
      UInt32.le_iff_toNat_le] at word
    have lower : 'z'.val.toNat = 122 := rfl
    have upper : 'Z'.val.toNat = 90 := rfl
    have digit : '9'.val.toNat = 57 := rfl
    omega
  · decide

theorem mem_nameChars_iff : c ∈ nameChars ↔ IsPart c := by
  constructor
  · exact Text.forall_mem_of_all (P := IsPart) (by decide) c
  · intro part
    have listed : ∀ n < 128, IsPart (Char.ofNat n) → Char.ofNat n ∈ nameChars := by
      decide
    have inside := listed c.toNat (toNat_lt_of_isPart part)
    rw [Char.ofNat_toNat] at inside
    exact inside part

theorem isStart_iff : IsStart c ↔ IsPart c ∧ ¬ c.isDigit := by
  have checked : ∀ c ∈ nameChars, IsStart c ↔ ¬ c.isDigit :=
    Text.forall_mem_of_all (by decide)
  constructor
  · intro start
    have part := isPart_of_isStart start
    exact ⟨part, (checked c (mem_nameChars_iff.mpr part)).mp start⟩
  · rintro ⟨part, undigited⟩
    exact (checked c (mem_nameChars_iff.mpr part)).mpr undigited

end

theorem ne_nil_of_mem_reservedWords : ∀ word ∈ reservedWords, word ≠ [] := by
  decide

section

variable {segment : Text} {fault : Fault}

theorem fault?_of_reserved (member : segment ∈ reservedWords) :
    fault? segment = some (.reserved segment) := by
  cases segment with
  | nil => exact absurd rfl (ne_nil_of_mem_reservedWords [] member)
  | cons first rest => rw [fault?, if_pos member]

theorem fault?_of_badChar {before behind : Text} {c : Char}
    (free : before ++ c :: behind ∉ reservedWords) (parts : ∀ d ∈ before, IsPart d)
    (bad : ¬ IsPart c) : fault? (before ++ c :: behind) = some (.badChar [c]) := by
  have found : (before ++ c :: behind).find? (· ∉ nameChars) = some c := by
    rw [List.find?_eq_some_iff_append]
    refine ⟨by simpa [mem_nameChars_iff] using bad, before, behind, rfl, ?_⟩
    simpa [mem_nameChars_iff] using parts
  obtain ⟨first, rest, shape⟩ := List.exists_cons_of_ne_nil
    (List.append_ne_nil_of_right_ne_nil before (List.cons_ne_nil c behind))
  rw [shape] at free found ⊢
  rw [fault?, if_neg free, found]

theorem fault?_of_parts {first : Char} {rest : Text} (free : first :: rest ∉ reservedWords)
    (parts : ∀ c ∈ first :: rest, IsPart c) :
    fault? (first :: rest) = if first.isDigit then some (.badStart [first]) else none := by
  have clean : (first :: rest).find? (· ∉ nameChars) = none := by
    rw [List.find?_eq_none]
    intro c inside
    simpa [mem_nameChars_iff] using parts c inside
  rw [fault?, if_neg free, clean]

theorem IsSegment.fault?_eq_none (good : IsSegment segment) : fault? segment = none := by
  obtain ⟨first, rest, start, parts, free⟩ := good
  obtain ⟨part, undigited⟩ := isStart_iff.mp start
  rw [fault?_of_parts free (List.forall_mem_cons.mpr ⟨part, parts⟩), if_neg undigited]

theorem Breaks.fault?_eq_some (breaks : Breaks segment fault) :
    fault? segment = some fault := by
  cases breaks with
  | empty => rfl
  | reserved word member => exact fault?_of_reserved member
  | badChar before c behind free parts bad => exact fault?_of_badChar free parts bad
  | badStart digit rest free parts isDigit => rw [fault?_of_parts free parts, if_pos isDigit]

theorem isSegment_or_breaks (segment : Text) :
    IsSegment segment ∨ ∃ fault, Breaks segment fault := by
  cases segment with
  | nil => exact .inr ⟨_, .empty⟩
  | cons first rest =>
    by_cases member : first :: rest ∈ reservedWords
    · exact .inr ⟨_, .reserved _ member⟩
    · cases found : (first :: rest).find? (¬ IsPart ·) with
      | some c =>
        obtain ⟨bad, before, behind, shape, parts⟩ := List.find?_eq_some_iff_append.mp found
        simp only [decide_not, Bool.not_eq_true', decide_eq_false_iff_not] at bad
        simp only [decide_not, Bool.not_not, decide_eq_true_eq] at parts
        rw [shape] at member ⊢
        exact .inr ⟨_, .badChar before c behind member parts bad⟩
      | none =>
        have parts : ∀ c ∈ first :: rest, IsPart c := by simpa using found
        by_cases isDigit : first.isDigit
        · exact .inr ⟨_, .badStart first rest member parts isDigit⟩
        · obtain ⟨part, others⟩ := List.forall_mem_cons.mp parts
          exact .inl ⟨first, rest, isStart_iff.mpr ⟨part, isDigit⟩, others, member⟩

theorem fault?_eq_none_iff : fault? segment = none ↔ IsSegment segment := by
  refine ⟨?_, IsSegment.fault?_eq_none⟩
  intro kept
  rcases isSegment_or_breaks segment with good | ⟨fault, breaks⟩
  · exact good
  · rw [breaks.fault?_eq_some] at kept
    contradiction

theorem fault?_eq_some_iff : fault? segment = some fault ↔ Breaks segment fault := by
  refine ⟨?_, Breaks.fault?_eq_some⟩
  intro found
  rcases isSegment_or_breaks segment with good | ⟨other, breaks⟩
  · rw [good.fault?_eq_none] at found
    contradiction
  · rw [breaks.fault?_eq_some, Option.some_inj] at found
    exact found ▸ breaks

theorem IsSegment.ne_nil (good : IsSegment segment) : segment ≠ [] := by
  cases good
  exact List.cons_ne_nil _ _

theorem IsSegment.isPart (good : IsSegment segment) : ∀ c ∈ segment, IsPart c := by
  obtain ⟨first, rest, start, parts, _⟩ := good
  exact List.forall_mem_cons.mpr ⟨isPart_of_isStart start, parts⟩

theorem IsSegment.dot_not_mem (good : IsSegment segment) : '.' ∉ segment :=
  fun inside => absurd (good.isPart '.' inside) (by decide)

theorem firstFault?_eq_some_iff {segments : List Text} :
    firstFault? segments = some (segment, fault) ↔
      ∃ before behind, segments = before ++ segment :: behind ∧
        (∀ other ∈ before, IsSegment other) ∧ Breaks segment fault := by
  simp only [firstFault?, List.findSome?_eq_some_iff, Option.map_eq_some_iff,
    Option.map_eq_none_iff, Prod.mk.injEq, fault?_eq_some_iff, fault?_eq_none_iff]
  constructor
  · rintro ⟨before, other, behind, shape, ⟨_, breaks, rfl, rfl⟩, good⟩
    exact ⟨before, behind, shape, good, breaks⟩
  · rintro ⟨before, behind, shape, good, breaks⟩
    exact ⟨before, segment, behind, shape, ⟨fault, breaks, rfl, rfl⟩, good⟩

end

-- Neither the digit ahead of the character nor the reserved word behind the segment is blamed.
example : firstFault? ["com", "2-a", "int"] = some (("2-a" : Text), .badChar "-") := by
  decide

end LegibleTrace.QualifiedName
