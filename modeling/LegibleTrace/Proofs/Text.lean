import LegibleTrace.Text.Blank
import Mathlib.Data.List.Basic
import Mathlib.Data.List.TakeWhile

/-! Texts and their parts. A text is broken at the first occurrence of a marker; it is split at
its last separator exactly when what follows has none; splitting everywhere goes part by part,
and joining undoes it and is undone by it on parts without the separator, which is all that
joining adds; a part cannot reach over characters that it has not; and what begins a text is not
disturbed by replacing others in it. -/
namespace LegibleTrace.Text

-- Deciding a statement on all characters of a text by itself would go through all code points.
theorem forall_mem_of_all {P : Char → Prop} [DecidablePred P] {text : Text}
    (checked : text.all (fun c => P c) = true) : ∀ c ∈ text, P c := by
  simpa using checked

theorem not_mem_of_digits {digits : Text} {c : Char} (numeral : ∀ digit ∈ digits, digit.isDigit)
    (plain : c.isDigit = false) : c ∉ digits := by
  intro inside
  have isDigit := numeral c inside
  rw [plain] at isDigit
  contradiction

theorem after?_eq_none_iff {start text : Text} :
    after? start text = none ↔ ¬ start <+: text := by
  rw [Option.eq_none_iff_forall_ne_some]
  constructor
  · rintro missed ⟨rest, whole⟩
    exact missed rest (after?_eq_some_iff.mpr whole.symm)
  · intro absent rest found
    exact absent ⟨rest, (after?_eq_some_iff.mp found).symm⟩

theorem after?_append (start more text : Text) :
    after? (start ++ more) (start ++ text) = after? more text := by
  induction start with
  | nil => rfl
  | cons c start ih => simp [after?, ih]

/-- `left` and `right` stand around the first occurrence of `marker`. -/
structure FirstAt (marker text left right : Text) : Prop where
  whole : text = left ++ marker ++ right
  first (before behind) (occurs : text = before ++ marker ++ behind) :
    left.length ≤ before.length

section

variable {marker text left right : Text}

theorem breakOn?_of_after? (start : after? marker text = some right) :
    breakOn? marker text = some ([], right) := by
  cases text with
  | nil => rw [breakOn?, start, Option.map_some]
  | cons c text => rw [breakOn?, start]

theorem breakOn?_cons {c : Char} (missed : after? marker (c :: text) = none) :
    breakOn? marker (c :: text) = (breakOn? marker text).map (Prod.map (c :: ·) id) := by
  rw [breakOn?, missed]
  rfl

theorem firstAt_nil (whole : text = marker ++ right) : FirstAt marker text [] right where
  whole := whole
  first before _ _ := Nat.zero_le before.length

theorem firstAt_cons {c : Char} (missed : after? marker (c :: text) = none) :
    FirstAt marker (c :: text) (c :: left) right ↔ FirstAt marker text left right := by
  constructor
  · intro around
    refine ⟨(List.cons_inj_right c).mp around.whole, ?_⟩
    intro before behind occurs
    have shifted := around.first (c :: before) behind (congrArg (c :: ·) occurs)
    exact Nat.le_of_succ_le_succ shifted
  · intro around
    refine ⟨congrArg (c :: ·) around.whole, ?_⟩
    intro before behind occurs
    cases before with
    | nil =>
      rw [List.nil_append, ← after?_eq_some_iff, missed] at occurs
      contradiction
    | cons d before =>
      obtain ⟨_, inner⟩ := List.cons_eq_cons.mp occurs
      exact Nat.succ_le_succ (around.first before behind inner)

theorem firstAt_of_breakOn? (found : breakOn? marker text = some (left, right)) :
    FirstAt marker text left right := by
  induction text generalizing left with
  | nil =>
    rw [breakOn?, Option.map_eq_some_iff] at found
    obtain ⟨rest, start, same⟩ := found
    obtain ⟨rfl, rfl⟩ := Prod.mk.inj same
    exact firstAt_nil (after?_eq_some_iff.mp start)
  | cons c text ih =>
    cases start : after? marker (c :: text) with
    | some rest =>
      rw [breakOn?_of_after? start, Option.some_inj] at found
      obtain ⟨rfl, rfl⟩ := Prod.mk.inj found
      exact firstAt_nil (after?_eq_some_iff.mp start)
    | none =>
      rw [breakOn?_cons start, Option.map_eq_some_iff] at found
      obtain ⟨⟨inner, rest⟩, found, same⟩ := found
      obtain ⟨rfl, rfl⟩ := Prod.mk.inj same
      exact (firstAt_cons start).mpr (ih found)

theorem breakOn?_of_firstAt (around : FirstAt marker text left right) :
    breakOn? marker text = some (left, right) := by
  induction left generalizing text with
  | nil => exact breakOn?_of_after? (after?_eq_some_iff.mpr around.whole)
  | cons c left ih =>
    obtain rfl := around.whole
    have missed : after? marker (c :: (left ++ marker ++ right)) = none := by
      rw [Option.eq_none_iff_forall_ne_some]
      intro rest start
      have early := around.first [] rest (after?_eq_some_iff.mp start)
      exact absurd early (Nat.not_succ_le_zero _)
    change breakOn? marker (c :: (left ++ marker ++ right)) = _
    rw [breakOn?_cons missed, ih ((firstAt_cons missed).mp around)]
    rfl

/-- A text is broken at the first occurrence of the marker. -/
theorem breakOn?_eq_some_iff :
    breakOn? marker text = some (left, right) ↔ FirstAt marker text left right :=
  ⟨firstAt_of_breakOn?, breakOn?_of_firstAt⟩

theorem firstAt_of_not_mem {c : Char} (absent : c ∉ left) :
    FirstAt (c :: marker) (left ++ c :: marker ++ right) left right := by
  refine ⟨rfl, ?_⟩
  intro before behind occurs
  rw [List.append_assoc, List.append_assoc, List.append_eq_append_iff] at occurs
  rcases occurs with ⟨between, rfl, -⟩ | ⟨between, rfl, rest⟩
  · simp
  · cases between with
    | nil => simp
    | cons d between =>
      obtain ⟨rfl, -⟩ := List.cons_eq_cons.mp rest
      simp at absent

theorem occursIn_iff : occursIn marker text ↔ marker <:+: text := by
  induction text with
  | nil =>
    rw [occursIn, breakOn?, Option.isSome_map, List.infix_nil]
    cases marker <;> simp [after?]
  | cons c text ih =>
    rw [List.infix_cons_iff, ← ih]
    cases start : after? marker (c :: text) with
    | some rest =>
      have begins : marker <+: c :: text := ⟨rest, (after?_eq_some_iff.mp start).symm⟩
      simp [occursIn, breakOn?_of_after? start, begins]
    | none =>
      have unlike := after?_eq_none_iff.mp start
      simp [occursIn, breakOn?_cons start, unlike]

end

theorem reverse_bne {separator : Char} {text : Text} (absent : separator ∉ text) :
    ∀ c ∈ text.reverse, (c != separator) = true := by
  intro c member
  rw [bne_iff_ne]
  rintro rfl
  exact absent (List.mem_reverse.mp member)

theorem splitLast_append {separator : Char} (left : Text) {right : Text}
    (absent : separator ∉ right) :
    splitLast separator (left ++ separator :: right) = (left, right) := by
  have back : (left ++ separator :: right).reverse =
      right.reverse ++ separator :: left.reverse := by simp
  have whole := reverse_bne absent
  rw [splitLast, back, List.dropWhile_append_of_pos whole, List.takeWhile_append_of_pos whole,
    List.dropWhile_cons_of_neg (by simp), List.takeWhile_cons_of_neg (by simp)]
  simp

theorem splitLast_of_not_mem {separator : Char} {text : Text} (absent : separator ∉ text) :
    splitLast separator text = ([], text) := by
  have whole := reverse_bne absent
  rw [splitLast, List.dropWhile_eq_nil_iff.mpr whole, List.takeWhile_eq_self_iff.mpr whole]
  simp

theorem exists_last {separator : Char} {text : Text} (member : separator ∈ text) :
    ∃ left right, text = left ++ separator :: right ∧ separator ∉ right := by
  obtain ⟨right, left, back, absent⟩ :=
    List.eq_append_cons_of_mem (List.mem_reverse.mpr member)
  refine ⟨left.reverse, right.reverse, ?_, by simpa using absent⟩
  simpa using congrArg List.reverse back

theorem not_mem_splitLast (separator : Char) (text : Text) :
    separator ∉ (splitLast separator text).2 := by
  intro member
  have kept := List.mem_takeWhile_imp (List.mem_reverse.mp member)
  simp at kept

theorem split_eq_splitOn (separator : Char) (text : Text) :
    split separator text = text.splitOn separator := by
  induction text with
  | nil => rfl
  | cons c text ih =>
    simp only [split, List.splitOn_cons_eq_if_modifyHead, ih, beq_iff_eq]

theorem split_append (separator : Char) (left right : Text) :
    split separator (left ++ separator :: right) =
      split separator left ++ split separator right := by
  simp only [split_eq_splitOn, List.splitOn]
  exact List.splitOnP_append_cons left right (beq_self_eq_true separator)

theorem join_split (separator : Char) (text : Text) :
    join [separator] (split separator text) = text := by
  rw [split_eq_splitOn, join, List.intercalate_splitOn]

theorem split_join {separator : Char} {parts : List Text} (nonempty : parts ≠ [])
    (free : ∀ part ∈ parts, separator ∉ part) :
    split separator (join [separator] parts) = parts := by
  rw [split_eq_splitOn, join, List.splitOn_intercalate separator free nonempty]

theorem join_concat (separator : Text) {parts : List Text} (nonempty : parts ≠ [])
    (last : Text) :
    join separator (parts ++ [last]) = join separator parts ++ separator ++ last := by
  rw [join, join]
  induction parts with
  | nil => contradiction
  | cons part parts ih =>
    have longer : parts ++ [last] ≠ [] := by simp
    rw [List.cons_append, List.intercalate_cons_of_ne_nil longer]
    cases parts with
    | nil => rw [List.nil_append, List.intercalate_singleton, List.intercalate_singleton]
    | cons next parts =>
      rw [ih (List.cons_ne_nil _ _), List.intercalate_cons_cons]
      simp only [List.append_assoc]

theorem join_eq_nil_iff {separator : Text} {parts : List Text}
    (visible : ∀ part ∈ parts, part ≠ []) : join separator parts = [] ↔ parts = [] := by
  cases parts with
  | nil => exact iff_of_true rfl rfl
  | cons part parts =>
    have first := visible part List.mem_cons_self
    refine iff_of_false ?_ (List.cons_ne_nil part parts)
    cases parts with
    | nil =>
      rw [join, List.intercalate_singleton]
      exact first
    | cons next parts =>
      rw [join, List.intercalate_cons_cons, List.append_assoc]
      exact List.append_ne_nil_of_left_ne_nil first _

theorem mem_of_mem_join {separator : Text} {parts : List Text} {c : Char}
    (inside : c ∈ join separator parts) : c ∈ separator ∨ ∃ part ∈ parts, c ∈ part := by
  rw [join] at inside
  induction parts with
  | nil => contradiction
  | cons part parts ih =>
    cases parts with
    | nil =>
      rw [List.intercalate_singleton] at inside
      exact .inr ⟨part, List.mem_cons_self, inside⟩
    | cons next parts =>
      rw [List.intercalate_cons_cons, List.mem_append, List.mem_append] at inside
      rcases inside with (first | apart) | rest
      · exact .inr ⟨part, List.mem_cons_self, first⟩
      · exact .inl apart
      · refine (ih rest).imp_right ?_
        rintro ⟨other, member, here⟩
        exact ⟨other, List.mem_cons_of_mem part member, here⟩

theorem join_subset {separator whole : Text} {parts : List Text} (apart : separator ⊆ whole)
    (inside : ∀ part ∈ parts, part ⊆ whole) : join separator parts ⊆ whole := by
  intro c joined
  rcases mem_of_mem_join joined with separates | ⟨part, member, here⟩
  · exact apart separates
  · exact inside part member here

/-- What begins a text and has no separator begins the part before the separator. -/
theorem prefix_of_prefix_append {separator : Char} {part left right : Text}
    (begins : part <+: left ++ separator :: right) (absent : separator ∉ part) :
    part <+: left := by
  rcases List.prefix_or_prefix_of_prefix begins (List.prefix_append left _) with shorter | longer
  · exact shorter
  · obtain ⟨extra, rfl⟩ := longer
    rw [List.prefix_append_right_inj] at begins
    cases extra with
    | nil => simp
    | cons c extra =>
      rw [List.cons_prefix_cons] at begins
      obtain rfl := begins.1
      simp at absent

/-- A part that shares no character with what precedes the rest stands in the rest. -/
theorem infix_of_infix_append {part left right : Text} (inside : part <:+: left ++ right)
    (apart : ∀ c ∈ left, c ∉ part) : part <:+: right := by
  induction left with
  | nil => exact inside
  | cons c left ih =>
    rw [List.cons_append, List.infix_cons_iff] at inside
    rcases inside with begins | inner
    · cases part with
      | nil => exact List.nil_infix
      | cons d part =>
        obtain ⟨rfl, _⟩ := List.cons_prefix_cons.mp begins
        exact absurd List.mem_cons_self (apart d List.mem_cons_self)
    · exact ih inner fun other member => apart other (List.mem_cons_of_mem c member)

theorem infix_of_infix_append_right {part left right : Text}
    (inside : part <:+: left ++ right) (apart : ∀ c ∈ right, c ∉ part) : part <:+: left := by
  rw [← List.reverse_infix] at inside ⊢
  rw [List.reverse_append] at inside
  refine infix_of_infix_append inside ?_
  simpa only [List.mem_reverse] using apart

/-- Every `old` of a text replaced by `new`. -/
def replace (old : Char) (new text : Text) : Text :=
  text.flatMap fun c => if c = old then new else [c]

section

variable {old : Char} {new text : Text}

theorem replace_of_not_mem (absent : old ∉ text) : replace old new text = text := by
  have kept : replace old new text = text.flatMap fun c => [c] := by
    apply List.flatMap_congr
    intro c member
    have other : c ≠ old := by
      rintro rfl
      exact absent member
    simp [other]
  rw [kept]
  exact List.flatMap_singleton' text

theorem not_mem_replace (absent : old ∉ new) : old ∉ replace old new text := by
  intro inside
  obtain ⟨c, _, here⟩ := List.mem_flatMap.mp inside
  by_cases same : c = old
  · exact absent (by simpa [same] using here)
  · have kept : old = c := by simpa [same] using here
    exact same kept.symm

/-- A start that holds neither the replaced character nor the first of its replacement is found
before and after replacing alike. -/
theorem after?_replace {start : Text} {first : Char} {others : Text} (unmarked : old ∉ start)
    (apart : first ∉ start) :
    after? start (replace old (first :: others) text) =
      (after? start text).map (replace old (first :: others)) := by
  induction start generalizing text with
  | nil => simp [after?]
  | cons c start ih =>
    rw [List.mem_cons, not_or] at unmarked apart
    obtain ⟨unlike, unmarked⟩ := unmarked
    obtain ⟨other, apart⟩ := apart
    cases text with
    | nil => simp [after?, replace]
    | cons d text =>
      by_cases same : d = old
      · simp [replace, after?, same, Ne.symm unlike, Ne.symm other]
      · have kept : replace old (first :: others) (d :: text) =
            d :: replace old (first :: others) text := by simp [replace, same]
        rw [kept, after?, after?, ih unmarked apart]
        split <;> rfl

end

theorem trimBy_eq_nil_iff {isOuter : Char → Bool} {text : Text} :
    trimBy isOuter text = [] ↔ ∀ c ∈ text, isOuter c = true := by
  rw [trimBy, List.reverse_eq_nil_iff, List.dropWhile_eq_nil_iff]
  simp only [List.mem_reverse]
  constructor
  · intro outer
    -- What is left begins with no outer character, so nothing is left.
    have nothing : text.dropWhile isOuter = [] := by
      cases left : text.dropWhile isOuter with
      | nil => rfl
      | cons c rest =>
        have inner := List.head?_dropWhile_not isOuter text
        rw [left] at inner outer
        have first := outer c List.mem_cons_self
        simp [first] at inner
    exact List.dropWhile_eq_nil_iff.mp nothing
  · intro outer c member
    exact outer c ((List.dropWhile_sublist isOuter).subset member)

theorem strip_eq_nil_iff {text : Text} : strip text = [] ↔ ∀ c ∈ text, isBlank c = true :=
  trimBy_eq_nil_iff

end LegibleTrace.Text
