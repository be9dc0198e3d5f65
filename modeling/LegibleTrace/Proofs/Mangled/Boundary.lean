import LegibleTrace.Proofs.Mangled.Shown

/-! Names put together from two parts. Where no token reaches over the boundary, the cut of the
whole is the cut of the parts: of what lies before, the second part can only see whether it goes
on with a digit. At a dot neither can happen, whatever stands on either side. -/
namespace LegibleTrace.Mangled

/-- No text of a token starts before the boundary of the two parts and ends behind it. -/
def Apart (left right : Text) : Prop :=
  ∀ token ∈ Token.table, ∀ start < left.length,
    token.text <+: (left ++ right).drop start → start + token.text.length ≤ left.length

instance (left right : Text) : Decidable (Apart left right) :=
  inferInstanceAs (Decidable (∀ token ∈ Token.table, ∀ start < left.length,
    token.text <+: (left ++ right).drop start → start + token.text.length ≤ left.length))

namespace Apart

variable {left right : Text}

theorem behind {part : Text} (apart : Apart (part ++ left) right) : Apart left right := by
  intro token member start inside begins
  have shifted : (part ++ left ++ right).drop (part.length + start) =
      (left ++ right).drop start := by
    rw [List.append_assoc, List.drop_append]
    simp
  have bound : part.length + start < (part ++ left).length := by
    rw [List.length_append]
    omega
  have ends := apart token member (part.length + start) bound (shifted ▸ begins)
  rw [List.length_append] at ends
  omega

theorem tail {c : Char} (apart : Apart (c :: left) right) : Apart left right := by
  have joined : Apart ([c] ++ left) right := apart
  exact joined.behind

theorem untokened {c : Char} (apart : Apart (c :: left) right)
    (absent : ∀ token ∈ Token.table, ¬ token.text <+: c :: left) :
    ∀ token ∈ Token.table, ¬ token.text <+: c :: (left ++ right) := by
  intro token member begins
  have ends := apart token member 0 (Nat.succ_pos _) begins
  rw [Nat.zero_add] at ends
  have first : c :: left <+: c :: (left ++ right) := List.prefix_append (c :: left) right
  exact absent token member (List.prefix_of_prefix_length_le begins first ends)

end Apart

theorem undigited_cons {c : Char} (plain : c.isDigit = false) (rest : Text) :
    ¬ ∃ digit ∈ (c :: rest).head?, digit.isDigit := by
  simp [plain]

namespace Lawful

variable {mode : Mode} {left right : Text} {pieces others : List Piece}

theorem of_undigited (lawful : Lawful mode right pieces)
    (undigited : ¬ ∃ digit ∈ right.head?, digit.isDigit) (other : Mode) :
    Lawful other right pieces := by
  cases lawful with
  | nil => exact .nil other
  | subscript digit rest pieces isDigit further => exact absurd ⟨digit, rfl, isDigit⟩ undigited
  | token mode token rest pieces member further => exact .token _ _ _ _ member further
  | marker mode rest pieces untokened numbered further =>
    exact .marker _ _ _ untokened numbered further
  | separator mode rest pieces untokened unnumbered further =>
    exact .separator _ _ _ untokened unnumbered further
  | copied mode c rest pieces untokened ordinary unlowered further =>
    refine .copied _ _ _ _ untokened ordinary ?_ further
    rintro ⟨_, isDigit⟩
    exact undigited ⟨c, rfl, isDigit⟩

/-- Lawful cuts of two parts make a lawful cut of the whole. -/
theorem append (lawful : Lawful mode left pieces) (apart : Apart left right)
    (undigited : ¬ ∃ digit ∈ right.head?, digit.isDigit)
    (behind : Lawful .plain right others) : Lawful mode (left ++ right) (pieces ++ others) := by
  induction lawful with
  | nil mode => exact behind.of_undigited undigited mode
  | subscript digit rest pieces isDigit further ih =>
    exact .subscript _ _ _ isDigit (ih apart.tail)
  | token mode token rest pieces member further ih =>
    rw [List.append_assoc]
    exact .token _ _ _ _ member (ih apart.behind)
  | marker mode rest pieces untokened numbered further ih =>
    refine .marker _ _ _ (apart.untokened untokened) ?_ (ih apart.tail)
    cases rest with
    | nil => simp at numbered
    | cons c rest => exact numbered
  | separator mode rest pieces untokened unnumbered further ih =>
    refine .separator _ _ _ (apart.untokened untokened) ?_ (ih apart.tail)
    -- At the end of the first part the dollar sign sees the second one.
    cases rest with
    | nil => exact undigited
    | cons c rest => exact unnumbered
  | copied mode c rest pieces untokened ordinary unlowered further ih =>
    exact .copied _ _ _ _ (apart.untokened untokened) ordinary unlowered (ih apart.tail)

end Lawful

section

variable {left right : Text}

theorem cut_append (apart : Apart left right)
    (undigited : ¬ ∃ digit ∈ right.head?, digit.isDigit) :
    cut (left ++ right) = cut left ++ cut right :=
  ((lawful_cut left).append apart undigited (lawful_cut right)).eq_cut.symm

theorem scan_append (context : Context) (apart : Apart left right)
    (undigited : ¬ ∃ digit ∈ right.head?, digit.isDigit) :
    scan context (left ++ right) = scan context left ++ scan context right := by
  rw [scan, cut_append apart undigited, List.flatMap_append]
  rfl

end

theorem Token.dot_not_mem_text : ∀ token ∈ table, '.' ∉ token.text := by
  decide

theorem Apart.dot (left right : Text) : Apart left ('.' :: right) := by
  intro token member start inside begins
  rw [List.drop_append_of_le_length inside.le] at begins
  have before := Text.prefix_of_prefix_append begins (Token.dot_not_mem_text token member)
  have short := before.length_le
  rw [List.length_drop] at short
  omega

theorem Apart.of_digit {left : Text} {digit : Char} (last : left.getLast? = some digit)
    (isDigit : digit.isDigit) (right : Text) : Apart left right := by
  intro token member start inside begins
  by_contra! reaches
  rw [List.drop_append_of_le_length inside.le] at begins
  have covered : left.drop start <+: token.text := by
    apply List.prefix_of_prefix_length_le (List.prefix_append _ right) begins
    rw [List.length_drop]
    omega
  have kept : digit ∈ left.drop start := by
    apply List.mem_of_getLast?
    rw [List.getLast?_drop, if_neg (by omega), last]
  exact Token.digit_not_mem_text member isDigit (covered.subset kept)

theorem scan_dot (context : Context) (right : Text) :
    scan context ('.' :: right) = '.' :: scan context right := by
  have untokened : ∀ token ∈ Token.table, ¬ token.text <+: '.' :: right := by
    intro token member
    have absent := Token.dot_not_mem_text token member
    exact Token.not_begins_of_not_mem member absent right
  have copied := Lawful.copied .plain '.' right (cut right) untokened (by decide) nofun
    (lawful_cut right)
  rw [scan, ← copied.eq_cut]
  rfl

theorem scan_append_dot (context : Context) (left right : Text) :
    scan context (left ++ '.' :: right) = scan context left ++ '.' :: scan context right := by
  have undigited : ¬ ∃ digit ∈ ('.' :: right).head?, digit.isDigit := undigited_cons rfl right
  rw [scan_append context (Apart.dot left right) undigited, scan_dot]

/-- A name is shown part by part wherever no token reaches over the boundary and the second part
does not begin with a digit; and at every dot, even if the first part ends with a dollar sign or
with lowered digits and the second begins with a digit. -/
theorem scan_compositional (context : Context) (left right : Text) :
    (Apart left right → (¬ ∃ digit ∈ right.head?, digit.isDigit) →
      scan context (left ++ right) = scan context left ++ scan context right) ∧
    scan context (left ++ '.' :: right) = scan context left ++ '.' :: scan context right := by
  constructor
  · intro apart undigited
    exact scan_append context apart undigited
  · exact scan_append_dot context left right

-- The last character of the first part would begin a token if the second went on.
theorem scan_parts_of_dollar :
    Apart "f$anonfun$12$" "plus" ∧ (¬ ∃ digit ∈ ("plus" : Text).head?, digit.isDigit) ∧
      scan .methodName ("f$anonfun$12$" ++ "plus" : Text) = "fλ₁₂().plus".toList := by
  have apart : Apart "f$anonfun$12$" "plus" := by decide +kernel
  have undigited : ¬ ∃ digit ∈ ("plus" : Text).head?, digit.isDigit := undigited_cons rfl "lus"
  refine ⟨apart, undigited, ?_⟩
  rw [(scan_compositional .methodName _ _).1 apart undigited]
  cbv

end LegibleTrace.Mangled
