import LegibleTrace.Proofs.Mangled.Token
import Mathlib

/-! The lawful cuts of a name. The rules say which pieces may stand where without saying how
they are found; every name has exactly one lawful cut, and it is the one that is shown. -/
namespace LegibleTrace.Mangled

/-- The rules for the pieces of a name, behind a piece that puts the digits after it below the
line or behind another. -/
inductive Lawful : Mode → Text → List Piece → Prop
  | nil (mode) : Lawful mode [] []
  | subscript (digit rest pieces) (isDigit : digit.isDigit)
      (further : Lawful .digits rest pieces) :
      Lawful .digits (digit :: rest) (.subscript digit :: pieces)
  | token (mode token rest pieces) (member : token ∈ Token.table)
      (further : Lawful (if token.digits then .digits else .plain) rest pieces) :
      Lawful mode (token.text ++ rest) (.token token :: pieces)
  | marker (mode rest pieces) (untokened : ∀ token ∈ Token.table, ¬ token.text <+: '$' :: rest)
      (numbered : ∃ digit ∈ rest.head?, digit.isDigit) (further : Lawful .digits rest pieces) :
      Lawful mode ('$' :: rest) (.marker :: pieces)
  | separator (mode rest pieces)
      (untokened : ∀ token ∈ Token.table, ¬ token.text <+: '$' :: rest)
      (unnumbered : ¬ ∃ digit ∈ rest.head?, digit.isDigit)
      (further : Lawful .plain rest pieces) :
      Lawful mode ('$' :: rest) (.separator :: pieces)
  | copied (mode c rest pieces) (untokened : ∀ token ∈ Token.table, ¬ token.text <+: c :: rest)
      (ordinary : c ≠ '$') (unlowered : ¬ (mode = .digits ∧ c.isDigit))
      (further : Lawful .plain rest pieces) :
      Lawful mode (c :: rest) (.copied c :: pieces)

/-- What a piece is shown as. The digits below the line are ten characters in a row. -/
inductive Piece.Rendered (context : Context) : Piece → Text → Prop
  | subscript (digit) (isDigit : digit.isDigit) :
      Rendered context (.subscript digit) [Char.ofNat (digit.toNat - '0'.toNat + '₀'.toNat)]
  | token (token) : Rendered context (.token token) token.glyph
  | marker : Rendered context .marker []
  | classSeparator (inClass : context = .className) : Rendered context .separator ['#']
  | methodSeparator (inMethod : context = .methodName) :
      Rendered context .separator ['(', ')', '.']
  | copied (c) : Rendered context (.copied c) [c]

/-- A name shown by the pieces that a way to look for tokens cuts it into. -/
def scanWith (find : Text → Option Token) (context : Context) (name : Text) : Text :=
  (cutFrom find .plain name).flatMap (Piece.render context)

section

variable {find : Text → Option Token} {mode : Mode} {c : Char} {rest : Text}

theorem cutFrom_nil : cutFrom find mode [] = [] := by
  rw [cutFrom]

theorem cutFrom_cons : cutFrom find mode (c :: rest) =
    let piece := Piece.next find mode c rest
    piece :: cutFrom find piece.mode (rest.drop (piece.source.length - 1)) := by
  rw [cutFrom]

namespace Piece

theorem next_subscript (isDigit : c.isDigit) : next find .digits c rest = subscript c := by
  simp [next, isDigit]

theorem next_token {t : Token} (unlowered : ¬ (mode = .digits ∧ c.isDigit))
    (answer : find (c :: rest) = some t) : next find mode c rest = token t := by
  rw [next, if_neg unlowered, answer]

theorem next_copied (unlowered : ¬ (mode = .digits ∧ c.isDigit))
    (missed : find (c :: rest) = none) (ordinary : c ≠ '$') :
    next find mode c rest = copied c := by
  rw [next, if_neg unlowered, missed]
  simp only [ordinary, ne_eq, not_false_eq_true, if_true]

theorem unlowered_of_not_isDigit (mode : Mode) (plain : c.isDigit = false) :
    ¬ (mode = .digits ∧ c.isDigit) := by
  rintro ⟨_, isDigit⟩
  rw [plain] at isDigit
  contradiction

theorem next_marker (missed : find ('$' :: rest) = none)
    (numbered : ∃ digit ∈ rest.head?, digit.isDigit) :
    next find mode '$' rest = marker := by
  have digit : rest.head?.any Char.isDigit := by simpa [Option.any_eq_true] using numbered
  rw [next, if_neg (unlowered_of_not_isDigit mode rfl), missed]
  simp [digit]

theorem next_separator (missed : find ('$' :: rest) = none)
    (unnumbered : ¬ ∃ digit ∈ rest.head?, digit.isDigit) :
    next find mode '$' rest = separator := by
  have digit : ¬ rest.head?.any Char.isDigit := by simpa [Option.any_eq_true] using unnumbered
  rw [next, if_neg (unlowered_of_not_isDigit mode rfl), missed]
  simp [digit]

end Piece

theorem Lawful.eq_cutFrom (finds : Token.Finds Token.table find) {name : Text}
    {pieces : List Piece} (lawful : Lawful mode name pieces) :
    pieces = cutFrom find mode name := by
  have missed {rest : Text} (untokened : ∀ token ∈ Token.table, ¬ token.text <+: rest) :
      find rest = none :=
    finds.eq_none fun token member starts => untokened token member (Token.startsAt_iff.mp starts)
  induction lawful with
  | nil mode => exact cutFrom_nil.symm
  | subscript digit rest pieces isDigit further ih =>
    rw [cutFrom_cons, Piece.next_subscript isDigit]
    exact congrArg _ ih
  | token mode token rest pieces member further ih =>
    obtain ⟨c, text, shape⟩ := List.exists_cons_of_ne_nil (Token.text_ne_nil token member)
    have head : c.isDigit = false := Token.not_isDigit_of_mem_text member c (by simp [shape])
    have answer : find (c :: (text ++ rest)) = some token := by
      refine finds.eq_some member (Token.startsAt_iff.mpr ?_)
      rw [shape]
      exact List.prefix_append _ _
    rw [shape, List.cons_append, cutFrom_cons,
      Piece.next_token (Piece.unlowered_of_not_isDigit mode head) answer]
    simp [Piece.source, Piece.mode, shape, ih]
  | marker mode rest pieces untokened numbered further ih =>
    rw [cutFrom_cons, Piece.next_marker (missed untokened) numbered]
    exact congrArg _ ih
  | separator mode rest pieces untokened unnumbered further ih =>
    rw [cutFrom_cons, Piece.next_separator (missed untokened) unnumbered]
    exact congrArg _ ih
  | copied mode c rest pieces untokened ordinary unlowered further ih =>
    rw [cutFrom_cons, Piece.next_copied unlowered (missed untokened) ordinary]
    exact congrArg _ ih

theorem lawful_cutFrom (finds : Token.Finds Token.table find) (mode : Mode) (name : Text) :
    Lawful mode name (cutFrom find mode name) := by
  match name with
  | [] =>
    rw [cutFrom_nil]
    exact .nil mode
  | c :: rest =>
    rw [cutFrom_cons]
    by_cases lowered : mode = .digits ∧ c.isDigit
    · obtain ⟨rfl, isDigit⟩ := lowered
      rw [Piece.next_subscript isDigit]
      exact .subscript _ _ _ isDigit (lawful_cutFrom finds .digits rest)
    · cases answer : find (c :: rest) with
      | some token =>
        obtain ⟨member, starts⟩ := finds.found answer
        obtain ⟨behind, split⟩ := Token.startsAt_iff.mp starts
        have nonempty := List.length_pos_of_ne_nil (Token.text_ne_nil token member)
        have dropped : rest.drop (token.text.length - 1) = behind := by
          rw [← List.drop_succ_cons (a := c), Nat.sub_add_cancel nonempty, ← split,
            List.drop_left]
        have shorter : behind.length < (c :: rest).length := by
          rw [← split, List.length_append]
          omega
        rw [Piece.next_token lowered answer, ← split]
        refine .token _ _ _ _ member ?_
        rw [Piece.source, dropped]
        exact lawful_cutFrom finds _ behind
      | none =>
        have untokened : ∀ token ∈ Token.table, ¬ token.text <+: c :: rest :=
          fun token member starts => finds.missed answer member (Token.startsAt_iff.mpr starts)
        by_cases dollar : c = '$'
        · subst c
          by_cases numbered : ∃ digit ∈ rest.head?, digit.isDigit
          · rw [Piece.next_marker answer numbered]
            exact .marker _ _ _ untokened numbered (lawful_cutFrom finds .digits rest)
          · rw [Piece.next_separator answer numbered]
            exact .separator _ _ _ untokened numbered (lawful_cutFrom finds .plain rest)
        · rw [Piece.next_copied lowered answer dollar]
          exact .copied _ _ _ _ untokened dollar lowered (lawful_cutFrom finds .plain rest)
termination_by name.length
decreasing_by
  all_goals first | assumption | exact Nat.lt_succ_self _

end

theorem forall_digit {P : Char → Prop} (digits : ∀ n < 10, P (Char.ofNat ('0'.toNat + n)))
    {c : Char} (isDigit : c.isDigit) : P c := by
  have bounds : '0'.toNat ≤ c.toNat ∧ c.toNat ≤ '9'.toNat := by
    simpa [Char.isDigit, UInt32.le_iff_toNat_le] using isDigit
  obtain ⟨low, high⟩ := bounds
  have within : c.toNat - '0'.toNat < 10 := by
    have nine : '9'.toNat = '0'.toNat + 9 := rfl
    omega
  have checked := digits _ within
  rwa [Nat.add_sub_cancel' low, Char.ofNat_toNat] at checked

theorem lowered_eq {digit : Char} (isDigit : digit.isDigit) :
    lowered digit = Char.ofNat (digit.toNat - '0'.toNat + '₀'.toNat) := by
  revert digit
  apply forall_digit
  decide

namespace Lawful

variable {mode : Mode} {name : Text} {pieces : List Piece}

theorem flatMap_source (lawful : Lawful mode name pieces) :
    pieces.flatMap Piece.source = name := by
  induction lawful with
  | nil => rfl
  | subscript _ _ _ _ _ ih | token _ _ _ _ _ _ ih | marker _ _ _ _ _ _ ih
  | separator _ _ _ _ _ _ ih | copied _ _ _ _ _ _ _ _ ih =>
    rw [List.flatMap_cons, ih]
    rfl

theorem rendered (lawful : Lawful mode name pieces) (context : Context) :
    List.Forall₂ (Piece.Rendered context) pieces (pieces.map (Piece.render context)) := by
  induction lawful with
  | nil => exact .nil
  | subscript digit rest pieces isDigit further ih =>
    refine .cons ?_ ih
    rw [Piece.render, lowered_eq isDigit]
    exact .subscript digit isDigit
  | token mode token rest pieces member further ih => exact .cons (.token token) ih
  | marker mode rest pieces untokened numbered further ih => exact .cons .marker ih
  | separator mode rest pieces untokened unnumbered further ih =>
    refine .cons ?_ ih
    cases context with
    | className => exact .classSeparator rfl
    | methodName => exact .methodSeparator rfl
  | copied mode c rest pieces untokened ordinary unlowered further ih =>
    exact .cons (.copied c) ih

end Lawful

theorem scan_eq_scanWith {find : Text → Option Token} (finds : Token.Finds Token.table find)
    (context : Context) (name : Text) : scanWith find context name = scan context name := by
  rw [finds.unique Index.finds_standard]
  rfl

/-- Every name has one lawful cut, and its pieces in order are what is shown. At most one token
of the table starts anywhere, so for a table in any order the first token that fits, the
shortest, the longest and the one in the index all show the name alike. -/
theorem existsUnique_lawful (name : Text) (tokens : List Token)
    (reordered : tokens.Perm Token.table) :
    (∃ pieces, Lawful .plain name pieces ∧
      (∀ others, Lawful .plain name others → others = pieces) ∧
      pieces.flatMap Piece.source = name ∧
      ∀ context, ∃ parts, List.Forall₂ (Piece.Rendered context) pieces parts ∧
        scan context name = parts.flatten) ∧
    (∀ part, ∀ one ∈ tokens, ∀ other ∈ tokens,
      one.text <+: part → other.text <+: part → one = other) ∧
    ∀ context, scanWith (Token.first tokens) context name = scan context name ∧
      scanWith (Token.shortest tokens) context name = scan context name ∧
      scanWith (Token.longest tokens) context name = scan context name ∧
      scanWith (Index.ofTokens tokens).find? context name = scan context name := by
  have lawful : Lawful .plain name (cut name) :=
    lawful_cutFrom Index.finds_standard .plain name
  have nonempty : ∀ token ∈ tokens, token.text ≠ [] := fun token member =>
    Token.text_ne_nil token (reordered.mem_iff.mp member)
  refine ⟨⟨cut name, lawful, ?_, lawful.flatMap_source, ?_⟩, ?_, ?_⟩
  · exact fun others other => other.eq_cutFrom Index.finds_standard
  · intro context
    refine ⟨(cut name).map (Piece.render context), lawful.rendered context, ?_⟩
    exact List.flatMap_def
  · intro part one first other second starts begins
    exact Token.eq_of_startsAt (reordered.mem_iff.mp first) (reordered.mem_iff.mp second)
      (Token.startsAt_iff.mpr starts) (Token.startsAt_iff.mpr begins)
  · intro context
    exact ⟨scan_eq_scanWith ((Token.finds_first tokens).perm reordered) context name,
      scan_eq_scanWith ((Token.finds_shortest tokens).perm reordered) context name,
      scan_eq_scanWith ((Token.finds_longest tokens).perm reordered) context name,
      scan_eq_scanWith ((Index.finds_ofTokens nonempty).perm reordered) context name⟩

theorem first_of_reversed_table :
    Token.table.reverse.Perm Token.table ∧
      scanWith (Token.first Token.table.reverse) .methodName "f$anonfun$12$default$1$x" =
        "fλ₁₂δ1().x".toList := by
  have reordered := List.reverse_perm Token.table
  refine ⟨reordered, ?_⟩
  rw [((existsUnique_lawful _ _ reordered).2.2 .methodName).1]
  cbv

end LegibleTrace.Mangled
