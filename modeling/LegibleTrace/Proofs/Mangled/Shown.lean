import LegibleTrace.Proofs.Mangled.Cut
import LegibleTrace.Proofs.Mangled.FunctionType

/-! The characters of a shown name. Each is a sign, that is part of a glyph, a lowered digit or
part of a separator, or else it was copied from the name; and a dollar sign is neither. -/
namespace LegibleTrace.Mangled

/-- The characters that are shown for something else: for a token, a digit or a dollar sign. -/
def signs (context : Context) (tokens : List Token) : Text :=
  tokens.flatMap Token.glyph ++ subscripts.map Prod.snd ++ context.separator

/-- What is known of a piece in a cut of `name`. -/
def Piece.From (name : Text) : Piece → Prop
  | token t => t ∈ Token.table ∧ t.text <:+: name
  | subscript digit => digit.isDigit
  | marker | separator => True
  | copied c => c ≠ '$' ∧ c ∈ name

theorem Piece.From.mono {piece : Piece} {part whole : Text} (origin : piece.From part)
    (inside : part <:+: whole) : piece.From whole := by
  cases piece with
  | token t => exact ⟨origin.1, origin.2.trans inside⟩
  | subscript digit => exact origin
  | marker => exact trivial
  | separator => exact trivial
  | copied c => exact ⟨origin.1, inside.subset origin.2⟩

theorem lowered_mem_signs {digit : Char} (isDigit : digit.isDigit) (context : Context)
    (tokens : List Token) : lowered digit ∈ signs context tokens := by
  have lowers : lowered digit ∈ subscripts.map Prod.snd := by
    revert digit
    apply forall_digit (P := fun digit => lowered digit ∈ subscripts.map Prod.snd)
    decide
  exact List.mem_append_left _ (List.mem_append_right _ lowers)

theorem signs_nil_subset (context : Context) (tokens : List Token) :
    signs context [] ⊆ signs context tokens := by
  intro c sign
  simp only [signs, List.mem_append, List.flatMap_nil, List.not_mem_nil, false_or] at sign ⊢
  exact sign.elim (fun lowers => .inl (.inr lowers)) .inr

/-- What a piece shows is its glyph, or a sign of no token, or the character that it copies. -/
theorem Piece.shown_cases {context : Context} {name : Text} {piece : Piece} {c : Char}
    (origin : piece.From name) (shown : c ∈ piece.render context) :
    (∃ token, piece = .token token ∧ c ∈ token.glyph) ∨ c ∈ signs context [] ∨
      piece = .copied c := by
  cases piece with
  | token t => exact .inl ⟨t, rfl, shown⟩
  | subscript digit =>
    obtain rfl := List.mem_singleton.mp shown
    exact .inr (.inl (lowered_mem_signs origin context []))
  | marker => exact absurd shown List.not_mem_nil
  | separator => exact .inr (.inl (List.mem_append_right _ shown))
  | copied d => exact .inr (.inr (by rw [List.mem_singleton.mp shown]))

theorem flatMap_render_copied (context : Context) (word : Text) :
    (word.map .copied).flatMap (Piece.render context) = word := by
  rw [List.flatMap_map]
  exact List.flatMap_singleton' word

namespace Lawful

variable {mode : Mode} {name : Text} {pieces : List Piece}

theorem forall_from (lawful : Lawful mode name pieces) : ∀ piece ∈ pieces, piece.From name := by
  have cons {piece : Piece} {pieces : List Piece} {rest whole : Text} (own : piece.From whole)
      (others : ∀ piece ∈ pieces, piece.From rest) (behind : rest <:+ whole) :
      ∀ other ∈ piece :: pieces, other.From whole :=
    List.forall_mem_cons.mpr ⟨own, fun other member => (others other member).mono behind.isInfix⟩
  induction lawful with
  | nil => exact List.forall_mem_nil _
  | subscript digit rest pieces isDigit _ ih => exact cons isDigit ih (List.suffix_cons _ _)
  | token mode token rest pieces member _ ih =>
    exact cons ⟨member, List.infix_append_left⟩ ih (List.suffix_append _ _)
  | marker mode rest pieces _ _ _ ih => exact cons trivial ih (List.suffix_cons _ _)
  | separator mode rest pieces _ _ _ ih => exact cons trivial ih (List.suffix_cons _ _)
  | copied mode c rest pieces _ ordinary _ _ ih =>
    exact cons ⟨ordinary, List.mem_cons_self⟩ ih (List.suffix_cons _ _)

theorem eq_copied {context : Context} {tokens : List Token} {piece : Piece} {c : Char}
    (lawful : Lawful mode name pieces)
    (consumed : ∀ token ∈ Token.table, token.text <:+: name → token ∈ tokens)
    (unsigned : c ∉ signs context tokens) (member : piece ∈ pieces)
    (shown : c ∈ piece.render context) : piece = .copied c := by
  have origin := lawful.forall_from piece member
  rcases Piece.shown_cases origin shown with ⟨token, rfl, inside⟩ | sign | copied
  · have sign : c ∈ tokens.flatMap Token.glyph :=
      List.mem_flatMap.mpr ⟨token, consumed token origin.1 origin.2, inside⟩
    exact absurd (List.mem_append_left _ (List.mem_append_left _ sign)) unsigned
  · exact absurd (signs_nil_subset context tokens sign) unsigned
  · exact copied

end Lawful

theorem lawful_cut (name : Text) : Lawful .plain name (cut name) :=
  lawful_cutFrom Index.finds_standard .plain name

theorem Lawful.eq_cut {name : Text} {pieces : List Piece} (lawful : Lawful .plain name pieces) :
    pieces = cut name :=
  lawful.eq_cutFrom Index.finds_standard

section

variable {context : Context} {name : Text} {c : Char}

/-- A character that is no sign is shown only where it was copied. -/
theorem mem_of_mem_scan (unsigned : c ∉ signs context Token.table)
    (shown : c ∈ scan context name) : c ≠ '$' ∧ c ∈ name := by
  obtain ⟨piece, member, inside⟩ := List.mem_flatMap.mp shown
  have copied := (lawful_cut name).eq_copied (fun _ inTable _ => inTable) unsigned member inside
  have origin := (lawful_cut name).forall_from piece member
  rwa [copied] at origin

/-- A character that is no sign, unless it is part of a glyph, is shown only for a token that was
taken for one or where it stands in the name. -/
theorem mem_scan_cases (unsigned : c ∉ signs context []) (shown : c ∈ scan context name) :
    (∃ token ∈ Token.table, Piece.token token ∈ cut name ∧ c ∈ token.glyph) ∨ c ∈ name := by
  obtain ⟨piece, taken, inside⟩ := List.mem_flatMap.mp shown
  have origin := (lawful_cut name).forall_from piece taken
  rcases Piece.shown_cases origin inside with ⟨token, rfl, glyph⟩ | sign | rfl
  · exact .inl ⟨token, origin.1, taken, glyph⟩
  · exact absurd sign unsigned
  · exact .inr origin.2

theorem dollar_not_mem_scan (context : Context) (name : Text) : '$' ∉ scan context name := by
  have unsigned : '$' ∉ signs context Token.table := by
    cases context <;> decide
  exact fun shown => (mem_of_mem_scan unsigned shown).1 rfl

theorem dot_not_mem_scan (absent : '.' ∉ name) : '.' ∉ scan .className name := by
  have unsigned : '.' ∉ signs .className Token.table := by decide
  exact fun shown => absent (mem_of_mem_scan unsigned shown).2

theorem display_of_none (unmade : FunctionType.ofName? (scan context name) = none) :
    display context name = scan context name ++ context.ending := by
  rw [display, unmade]
  rfl

theorem display_of_some {type : FunctionType}
    (made : FunctionType.ofName? (scan context name) = some type) :
    display context name = type.render ++ context.ending := by
  rw [display, made]
  rfl

theorem ending_subset (context : Context) : context.ending ⊆ FunctionType.alphabet := by
  cases context <;> decide

theorem display_subset_of_some {type : FunctionType}
    (made : FunctionType.ofName? (scan context name) = some type) :
    display context name ⊆ FunctionType.alphabet := by
  rw [display_of_some made, List.append_subset]
  exact ⟨FunctionType.render_subset_of_ofName? made, ending_subset context⟩

theorem dollar_not_mem_display (context : Context) (name : Text) :
    '$' ∉ display context name := by
  have letters : '$' ∉ FunctionType.alphabet := by decide
  intro shown
  cases made : FunctionType.ofName? (scan context name) with
  | none =>
    rw [display_of_none made, List.mem_append] at shown
    rcases shown with scanned | ending
    · exact dollar_not_mem_scan context name scanned
    · exact letters (ending_subset context ending)
  | some type => exact letters (display_subset_of_some made shown)

end

end LegibleTrace.Mangled
