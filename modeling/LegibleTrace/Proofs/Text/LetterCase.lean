import LegibleTrace.Text.LetterCase
import Mathlib.Data.Char
import Mathlib.Data.List.Basic

/-! Lower case of plain words. A text in lower case has no capital of a plain letter, and among
the texts without such capitals a plain word is the only one with its lower case. -/
namespace LegibleTrace.Text

/-- The letters of plain words, and the low line that joins words. -/
def isPlain (c : Char) : Bool :=
  c.toNat == 95 || (97 ≤ c.toNat && c.toNat ≤ 122)

/-- The other characters whose lower case is a plain letter: capitals and the sign for kelvin. -/
def isCapital (c : Char) : Bool :=
  (65 ≤ c.toNat && c.toNat ≤ 90) || c.toNat == 8490

theorem runs_avoid_capitals : ∀ run ∈ lowerMap.runs,
    (run.last + run.shift < 65 ∨ 90 < run.first + run.shift) ∧
      (run.last + run.shift < 8490 ∨ 8490 < run.first + run.shift) := by
  decide +kernel

theorem runs_to_plain : ∀ run ∈ lowerMap.runs,
    (65 ≤ run.first ∧ run.last ≤ 90) ∨ (run.first = 8490 ∧ run.last = 8490) ∨
      ((run.last + run.shift < 95 ∨ 95 < run.first + run.shift) ∧
        (run.last + run.shift < 97 ∨ 122 < run.first + run.shift)) := by
  decide +kernel

theorem capitals_covered :
    ∀ code ∈ 8490 :: List.range' 65 26, lowerMap.runs.any (·.covers code) = true := by
  decide +kernel

theorem range_of_covers {run : CaseRun} {code : Nat} (covered : run.covers code = true) :
    run.first ≤ code ∧ code ≤ run.last := by
  simp only [CaseRun.covers, Bool.and_eq_true, decide_eq_true_eq] at covered
  exact covered.1

/-- Where a character gets its lower case from. -/
theorem apply_cases (c : Char) :
    lowerMap.apply c = ['i', '\u0307'] ∨
      (∃ run ∈ lowerMap.runs, run.covers c.toNat = true ∧
        lowerMap.apply c = [Char.ofNat (c.toNat + run.shift).toNat]) ∨
      ((∀ run ∈ lowerMap.runs, run.covers c.toNat = false) ∧ lowerMap.apply c = [c]) := by
  unfold CaseMap.apply
  split
  · next codes expanded =>
    have table : lowerMap.expansions = [(304, [105, 775])] := rfl
    rw [table, List.lookup_cons] at expanded
    split at expanded
    · obtain rfl := Option.some.inj expanded
      exact .inl rfl
    · contradiction
  · split
    · next run found =>
      have covered := List.find?_some found
      exact .inr (.inl ⟨run, List.mem_of_find?_eq_some found, covered, rfl⟩)
    · next missed =>
      have uncovered := List.find?_eq_none.mp missed
      exact .inr (.inr ⟨fun run member => Bool.eq_false_iff.mpr (uncovered run member), rfl⟩)

theorem toNat_ofNat_cases (code : Nat) :
    (Char.ofNat code).toNat = code ∨ (Char.ofNat code).toNat = 0 := by
  by_cases valid : code.isValidChar
  · left
    rw [Char.ofNat, dif_pos valid]
    rfl
  · right
    rw [Char.ofNat, dif_neg valid]
    rfl

theorem not_isCapital_of_mem_apply {c d : Char} (member : d ∈ lowerMap.apply c) :
    isCapital d = false := by
  rcases apply_cases c with expanded | ⟨run, inside, covered, moved⟩ | ⟨uncovered, kept⟩
  · rw [expanded, List.mem_cons, List.mem_singleton] at member
    rcases member with rfl | rfl
    · rfl
    · rfl
  · rw [moved, List.mem_singleton] at member
    have avoids := runs_avoid_capitals run inside
    have range := range_of_covers covered
    have code := toNat_ofNat_cases (c.toNat + run.shift).toNat
    rw [← member] at code
    simp only [isCapital, Bool.or_eq_false_iff, Bool.and_eq_false_iff, decide_eq_false_iff_not,
      beq_eq_false_iff_ne]
    omega
  · rw [kept, List.mem_singleton] at member
    subst member
    rw [Bool.eq_false_iff]
    intro capital
    have listed : d.toNat ∈ 8490 :: List.range' 65 26 := by
      simp only [isCapital, Bool.or_eq_true, Bool.and_eq_true, decide_eq_true_eq,
        beq_iff_eq] at capital
      simp only [List.mem_cons, List.mem_range'_1]
      omega
    obtain ⟨run, inside, covered⟩ := List.any_eq_true.mp (capitals_covered _ listed)
    rw [uncovered run inside] at covered
    contradiction

theorem apply_of_plain {c : Char} (small : isCapital c = false)
    (plain : ∀ d ∈ lowerMap.apply c, isPlain d = true) : lowerMap.apply c = [c] := by
  rcases apply_cases c with expanded | ⟨run, inside, covered, moved⟩ | ⟨uncovered, kept⟩
  · rw [expanded] at plain
    have dotless : isPlain '\u0307' = false := rfl
    have dotted := plain '\u0307' (List.mem_cons_of_mem _ List.mem_cons_self)
    rw [dotless] at dotted
    exact absurd dotted Bool.false_ne_true
  · rw [moved] at plain
    have letter := plain _ List.mem_cons_self
    have leads := runs_to_plain run inside
    have range := range_of_covers covered
    have code := toNat_ofNat_cases (c.toNat + run.shift).toNat
    simp only [isCapital, Bool.or_eq_false_iff, Bool.and_eq_false_iff, decide_eq_false_iff_not,
      beq_eq_false_iff_ne] at small
    simp only [isPlain, Bool.or_eq_true, Bool.and_eq_true, decide_eq_true_eq, beq_iff_eq] at letter
    omega
  · exact kept

/-- A text in lower case has no capitals. -/
theorem not_isCapital_of_mem_lower {text : Text} {c : Char} (member : c ∈ lower text) :
    isCapital c = false := by
  obtain ⟨d, _, moved⟩ := List.mem_flatMap.mp member
  exact not_isCapital_of_mem_apply moved

/-- Without capitals a text whose lower case is plain is in lower case. -/
theorem lower_of_plain {text : Text} (small : ∀ c ∈ text, isCapital c = false)
    (plain : ∀ c ∈ lower text, isPlain c = true) : lower text = text := by
  induction text with
  | nil => rfl
  | cons c text ih =>
    have whole : lower (c :: text) = lowerMap.apply c ++ lower text := rfl
    rw [whole] at plain ⊢
    have first := apply_of_plain (small c List.mem_cons_self)
      fun d member => plain d (List.mem_append_left _ member)
    have rest := ih (fun d member => small d (List.mem_cons_of_mem _ member))
      fun d member => plain d (List.mem_append_right _ member)
    rw [first, rest]
    rfl

end LegibleTrace.Text
