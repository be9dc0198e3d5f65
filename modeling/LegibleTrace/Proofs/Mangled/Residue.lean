import LegibleTrace.Proofs.Mangled.Shown

/-! What is left of the tokens in a shown name. Characters that were copied and stand side by
side did so in the name too, and no token starts where a character was copied; so a text of a
token is shown only where signs help to spell it, and just one text has such characters. -/
namespace LegibleTrace.Mangled

/-- The characters of `part` stand in what is shown of the pieces only where they were copied. -/
def CopiedOnly (context : Context) (part : Text) (pieces : List Piece) : Prop :=
  ∀ piece ∈ pieces, ∀ c ∈ part, c ∈ piece.render context → piece = .copied c

namespace CopiedOnly

variable {context : Context} {part : Text} {piece : Piece} {pieces : List Piece}

theorem mono {other : Text} {others : List Piece} (only : CopiedOnly context part pieces)
    (fewer : other ⊆ part) (shorter : others ⊆ pieces) : CopiedOnly context other others :=
  fun piece member c inside => only piece (shorter member) c (fewer inside)

theorem tail (only : CopiedOnly context part (piece :: pieces)) :
    CopiedOnly context part pieces :=
  only.mono (List.Subset.refl part) (List.subset_cons_self piece pieces)

theorem not_mem_render (only : CopiedOnly context part (piece :: pieces))
    (uncopied : ∀ c, piece ≠ .copied c) : ∀ c ∈ piece.render context, c ∉ part :=
  fun c shown inside => uncopied c (only piece List.mem_cons_self c inside shown)

theorem within_tail (only : CopiedOnly context part (piece :: pieces))
    (uncopied : ∀ c, piece ≠ .copied c)
    (inside : part <:+: (piece :: pieces).flatMap (Piece.render context)) :
    part <:+: pieces.flatMap (Piece.render context) := by
  rw [List.flatMap_cons] at inside
  exact Text.infix_of_infix_append inside (only.not_mem_render uncopied)

theorem eq_nil_of_begins (only : CopiedOnly context part (piece :: pieces))
    (uncopied : ∀ c, piece ≠ .copied c) (visible : piece.render context ≠ [])
    (begins : part <+: (piece :: pieces).flatMap (Piece.render context)) : part = [] := by
  obtain ⟨sign, signs, shown⟩ := List.exists_cons_of_ne_nil visible
  cases part with
  | nil => rfl
  | cons c part =>
    rw [List.flatMap_cons, shown, List.cons_append, List.cons_prefix_cons] at begins
    obtain ⟨rfl, _⟩ := begins
    have absent := only.not_mem_render uncopied c (by simp [shown])
    exact absurd List.mem_cons_self absent

end CopiedOnly

namespace Lawful

variable {context : Context} {mode : Mode} {name part : Text} {pieces : List Piece}

-- A marker shows nothing, but the digit behind it is lowered, so no copied character follows.
theorem begins_of_copiedOnly (lawful : Lawful mode name pieces)
    (only : CopiedOnly context part pieces) (undigited : ∀ c ∈ part, c.isDigit = false)
    (begins : part <+: pieces.flatMap (Piece.render context)) : part <+: name := by
  induction lawful generalizing part with
  | nil => exact begins
  | subscript digit rest pieces isDigit further ih =>
    rw [only.eq_nil_of_begins nofun (List.cons_ne_nil _ _) begins]
    exact List.nil_prefix
  | token mode token rest pieces member further ih =>
    rw [only.eq_nil_of_begins nofun (Token.glyph_ne_nil token member) begins]
    exact List.nil_prefix
  | marker mode rest pieces untokened numbered further ih =>
    have behind := ih only.tail undigited begins
    obtain ⟨digit, head, isDigit⟩ := numbered
    cases part with
    | nil => exact List.nil_prefix
    | cons c part =>
      obtain ⟨others, rfl⟩ := behind
      obtain rfl := Option.some.inj head
      simp [undigited c List.mem_cons_self] at isDigit
  | separator mode rest pieces untokened unnumbered further ih =>
    have visible : context.separator ≠ [] := by cases context <;> decide
    rw [only.eq_nil_of_begins nofun visible begins]
    exact List.nil_prefix
  | copied mode c rest pieces untokened ordinary unlowered further ih =>
    cases part with
    | nil => exact List.nil_prefix
    | cons d part =>
      obtain ⟨rfl, behind⟩ := List.cons_prefix_cons.mp begins
      have others := only.tail.mono (List.subset_cons_self d part) (List.Subset.refl _)
      have inner := ih others (fun e member => undigited e (List.mem_cons_of_mem d member)) behind
      exact List.cons_prefix_cons.mpr ⟨rfl, inner⟩

theorem token_not_within {token : Token} (lawful : Lawful mode name pieces)
    (member : token ∈ Token.table) (only : CopiedOnly context token.text pieces) :
    ¬ token.text <:+: pieces.flatMap (Piece.render context) := by
  intro inside
  induction lawful with
  | nil => exact Token.text_ne_nil token member (List.infix_nil.mp inside)
  | subscript _ _ _ _ _ ih | token _ _ _ _ _ _ ih | marker _ _ _ _ _ _ ih
  | separator _ _ _ _ _ _ ih => exact ih only.tail (only.within_tail nofun inside)
  | copied mode c rest pieces untokened ordinary unlowered further ih =>
    rcases List.infix_cons_iff.mp inside with begins | behind
    · have whole := Lawful.copied mode c rest pieces untokened ordinary unlowered further
      have starts := whole.begins_of_copiedOnly only
        (Token.not_isDigit_of_mem_text member) begins
      exact untokened token member starts
    · exact ih only.tail behind

end Lawful

/-- No text of a token is shown that has no sign among its characters. -/
theorem token_not_within_scan {context : Context} {name : Text} {token : Token}
    (member : token ∈ Token.table) (tokens : List Token)
    (consumed : ∀ token ∈ Token.table, token.text <:+: name → token ∈ tokens)
    (unsigned : ∀ c ∈ token.text, c ∉ signs context tokens) :
    ¬ token.text <:+: scan context name := by
  refine (lawful_cut name).token_not_within member ?_
  intro piece taken c inside shown
  exact (lawful_cut name).eq_copied consumed (unsigned c inside) taken shown

namespace Token

theorem text_cases : ∀ token ∈ table,
    '$' ∈ token.text ∨ token.text = ("<init>" : Text) ∨ token.text = ("lzyINIT" : Text) := by
  decide

theorem not_mem_ending (context : Context) {token : Token} (member : token ∈ table) :
    ∀ c ∈ context.ending, c ∉ token.text := by
  have marks : ∀ token ∈ table, '(' ∉ token.text ∧ ')' ∉ token.text := by decide
  cases context with
  | className => exact List.forall_mem_nil _
  | methodName => simpa [Context.ending] using marks token member

theorem not_text_subset : ∀ token ∈ table, ¬ token.text ⊆ FunctionType.alphabet := by
  decide

/-- The tokens whose glyphs are no angle brackets. -/
def unbracketed : List Token :=
  table.filter fun token => token.text ≠ ("$less$" : Text) ∧ token.text ≠ ("$greater$" : Text)

end Token

section

variable {context : Context} {name : Text} {token : Token}

theorem within_scan_of_within_display (member : token ∈ Token.table)
    (shown : token.text <:+: display context name) : token.text <:+: scan context name := by
  cases made : FunctionType.ofName? (scan context name) with
  | none =>
    rw [display_of_none made] at shown
    exact Text.infix_of_infix_append_right shown (Token.not_mem_ending context member)
  | some type =>
    have written := List.Subset.trans shown.subset (display_subset_of_some made)
    exact absurd written (Token.not_text_subset token member)

theorem lzy_not_within_scan (member : token ∈ Token.table)
    (text : token.text = ("lzyINIT" : Text)) : ¬ token.text <:+: scan context name := by
  refine token_not_within_scan member Token.table (fun _ inTable _ => inTable) ?_
  rw [text]
  refine Text.forall_mem_of_all ?_
  cases context <;> decide

theorem bracket_of_init_within_scan (member : token ∈ Token.table)
    (text : token.text = ("<init>" : Text)) (shown : token.text <:+: scan context name) :
    ("$less$" : Text) <:+: name ∨ ("$greater$" : Text) <:+: name := by
  by_contra! absent
  refine token_not_within_scan member Token.unbracketed ?_ ?_ shown
  · intro other inTable inside
    refine List.mem_filter.mpr ⟨inTable, decide_eq_true ⟨?_, ?_⟩⟩
    · exact fun less => absent.1 (less ▸ inside)
    · exact fun greater => absent.2 (greater ▸ inside)
  · rw [text]
    refine Text.forall_mem_of_all ?_
    cases context <;> decide

end

/-- A shown name has no dollar sign, and none of the texts of tokens but that of a constructor,
which is spelled anew only by glyphs for its brackets. -/
theorem token_within_display (context : Context) (name : Text) :
    '$' ∉ display context name ∧
    ∀ token ∈ Token.table, token.text <:+: display context name →
      token.text = ("<init>" : Text) ∧
        (("$less$" : Text) <:+: name ∨ ("$greater$" : Text) <:+: name) := by
  refine ⟨dollar_not_mem_display context name, ?_⟩
  intro token member shown
  have inside := within_scan_of_within_display member shown
  rcases Token.text_cases token member with dollar | init | lzy
  · exact absurd (shown.subset dollar) (dollar_not_mem_display context name)
  · exact ⟨init, bracket_of_init_within_scan member init inside⟩
  · exact absurd inside (lzy_not_within_scan member lzy)

theorem init_of_brackets :
    let init := Token.plain "<init>" "ⲛ"
    (init ∈ Token.table ∧ init.text <:+: display .methodName "$less$init$greater$") ∧
      '$' ∉ display .methodName "$less$init$greater$" ∧
      (("$less$" : Text) <:+: "$less$init$greater$".toList ∨
        ("$greater$" : Text) <:+: "$less$init$greater$".toList) := by
  intro init
  have member : init ∈ Token.table := by decide
  have display : display .methodName "$less$init$greater$" = "<init>()".toList := by cbv
  have shown : init.text <:+: "<init>()".toList := by decide
  rw [← display] at shown
  obtain ⟨dollar, tokens⟩ := token_within_display .methodName "$less$init$greater$"
  exact ⟨⟨member, shown⟩, dollar, (tokens init member shown).2⟩

end LegibleTrace.Mangled
