import LegibleTrace.Environment
import Mathlib.Data.List.TakeWhile

/-! The references of a text. The rules `Splits` say which parts a text has from the left without
saying how a reference is found, and every text splits in one way. Replacing the references fails
at the leftmost one whose variable is not set, wherever it stands. -/
namespace LegibleTrace.Environment

/-- What may stand between the braces of a reference. -/
def IsName (name : Text) : Prop :=
  name ≠ [] ∧ '\x7d' ∉ name

/-- The rules for the parts of a text, from the left. -/
inductive Splits : Text → List Part → Prop
  | nil : Splits [] []
  | reference (name rest parts) (named : IsName name) (further : Splits rest parts) :
      Splits ((Part.reference name).source ++ rest) (.reference name :: parts)
  | literal (c rest parts)
      (plain : ∀ name, IsName name → ¬ (Part.reference name).source <+: c :: rest)
      (further : Splits rest parts) : Splits (c :: rest) (.literal c :: parts)

def Refers (text name : Text) : Prop :=
  ∃ parts, Splits text parts ∧ .reference name ∈ parts

section

variable {name : Text}

theorem takeWhile_closed (named : IsName name) (rest : Text) :
    (name ++ '\x7d' :: rest).takeWhile (· != '\x7d') = name ∧
      (name ++ '\x7d' :: rest).dropWhile (· != '\x7d') = '\x7d' :: rest := by
  have others : ∀ c ∈ name, (c != '\x7d') = true := by
    intro c member
    rw [bne_iff_ne]
    rintro rfl
    exact named.2 member
  rw [List.takeWhile_append_of_pos others, List.dropWhile_append_of_pos others]
  simp

theorem reference?_source (named : IsName name) (rest : Text) :
    reference? ((Part.reference name).source ++ rest) = some name := by
  obtain ⟨c, more, shape⟩ := List.exists_cons_of_ne_nil named.1
  obtain ⟨taken, left⟩ := takeWhile_closed named rest
  have whole : (Part.reference name).source ++ rest =
      '$' :: '\x7b' :: (name ++ '\x7d' :: rest) := by simp [Part.source]
  rw [whole, reference?, taken, left, shape]

theorem source_of_reference? {text : Text} (found : reference? text = some name) :
    IsName name ∧ (Part.reference name).source <+: text := by
  unfold reference? at found
  split at found
  · next rest =>
    split at found
    · next c more d behind taken left =>
      obtain rfl := Option.some.inj found
      have whole : c :: more ++ d :: behind = rest := by
        rw [← taken, ← left, List.takeWhile_append_dropWhile]
      have closed : ∀ e ∈ c :: more, (e != '\x7d') = true := by
        intro e member
        rw [← taken] at member
        exact List.all_eq_true.mp List.all_takeWhile e member
      have closing : d = '\x7d' := by
        have unclosed : rest.dropWhile (· != '\x7d') ≠ [] := by simp [left]
        simpa [left] using List.head_dropWhile_not _ unclosed
      refine ⟨⟨List.cons_ne_nil _ _, ?_⟩, behind, ?_⟩
      · intro member
        simpa using closed _ member
      · rw [← whole, closing]
        simp [Part.source]
    · contradiction
  · contradiction

theorem reference?_eq_none {text : Text}
    (plain : ∀ name, IsName name → ¬ (Part.reference name).source <+: text) :
    reference? text = none := by
  cases found : reference? text with
  | none => rfl
  | some name =>
    obtain ⟨named, begins⟩ := source_of_reference? found
    exact absurd begins (plain name named)

end

theorem parts_nil : parts [] = [] := by
  rw [parts]

theorem parts_reference {name : Text} (named : IsName name) (rest : Text) :
    parts ((Part.reference name).source ++ rest) = .reference name :: parts rest := by
  have found := reference?_source named rest
  cases shape : (Part.reference name).source ++ rest with
  | nil => simp [Part.source] at shape
  | cons c more =>
    rw [shape] at found
    rw [parts, Part.next, found]
    have behind : more.drop ((Part.reference name).source.length - 1) = rest := by
      calc more.drop ((Part.reference name).source.length - 1)
          = (c :: more).drop (Part.reference name).source.length := by simp [Part.source]
        _ = rest := by rw [← shape, List.drop_left]
    rw [behind]

theorem parts_literal {c : Char} {rest : Text} (missed : reference? (c :: rest) = none) :
    parts (c :: rest) = .literal c :: parts rest := by
  rw [parts, Part.next, missed]
  rfl

theorem Splits.eq_parts {text : Text} {split : List Part} (splits : Splits text split) :
    split = parts text := by
  induction splits with
  | nil => exact parts_nil.symm
  | reference name rest split named further ih => rw [parts_reference named, ih]
  | literal c rest split plain further ih => rw [parts_literal (reference?_eq_none plain), ih]

theorem splits_parts (text : Text) : Splits text (parts text) := by
  match text with
  | [] =>
    rw [parts_nil]
    exact .nil
  | c :: rest =>
    cases found : reference? (c :: rest) with
    | none =>
      rw [parts_literal found]
      refine .literal _ _ _ ?_ (splits_parts rest)
      rintro name named ⟨behind, whole⟩
      rw [← whole, reference?_source named] at found
      contradiction
    | some name =>
      obtain ⟨named, behind, whole⟩ := source_of_reference? found
      have shorter : behind.length < (c :: rest).length := by
        rw [← whole, List.length_append]
        simp [Part.source]
      rw [← whole, parts_reference named]
      exact .reference _ _ _ named (splits_parts behind)
termination_by text.length
decreasing_by
  · exact Nat.lt_add_one _
  · exact shorter

theorem refers_iff {text name : Text} : Refers text name ↔ .reference name ∈ parts text := by
  constructor
  · rintro ⟨split, splits, member⟩
    rwa [← splits.eq_parts]
  · intro member
    exact ⟨_, splits_parts text, member⟩

/-- A traversal fails if one of its members does, and not otherwise. -/
theorem exists_mapM_error_iff {α β ε : Type} {f : α → Except ε β} {members : List α} :
    (∃ error, members.mapM f = .error error) ↔
      ∃ member ∈ members, ∃ error, f member = .error error := by
  induction members with
  | nil => simp [pure, Except.pure]
  | cons first members ih =>
    simp only [List.mapM_cons, List.mem_cons, exists_eq_or_imp]
    rw [← ih]
    cases f first with
    | error error => exact iff_of_true ⟨error, rfl⟩ (.inl ⟨error, rfl⟩)
    | ok result => cases members.mapM f <;> simp [bind, Except.bind, pure, Except.pure]

variable {environment : Environment} {text : Text}

theorem exists_fill_error_iff {part : Part} :
    (∃ fault, environment.fill part = .error fault) ↔
      ∃ name, part = .reference name ∧ environment.value? name = none := by
  cases part with
  | literal c => simp [fill]
  | reference name => cases found : environment.value? name <;> simp [fill, found]

/-- Replacing the references of a text fails exactly if one of them has no value. -/
theorem exists_substitute_error_iff :
    (∃ fault, environment.substitute text = .error fault) ↔
      ∃ name, Refers text name ∧ environment.value? name = none := by
  have failed : (∃ fault, environment.substitute text = .error fault) ↔
      ∃ fault, (parts text).mapM environment.fill = .error fault := by
    rw [substitute]
    cases (parts text).mapM environment.fill <;> simp [Except.map]
  simp only [failed, exists_mapM_error_iff, exists_fill_error_iff, refers_iff]
  constructor
  · rintro ⟨_, member, name, rfl, missed⟩
    exact ⟨name, member, missed⟩
  · rintro ⟨name, member, missed⟩
    exact ⟨_, member, name, rfl, missed⟩

end LegibleTrace.Environment
