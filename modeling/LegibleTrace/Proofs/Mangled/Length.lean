import LegibleTrace.Proofs.Mangled.Shown

/-! The length of a shown name. Each step of a cut takes a piece with at least one character off
the name. The longest that a character can be shown as is a separator, so a name shown as long as
that allows has no piece that is shown shorter. -/
namespace LegibleTrace.Mangled

theorem Token.length_glyph_lt : ∀ token ∈ table, token.glyph.length < token.text.length := by
  decide +kernel

theorem Piece.source_ne_nil {name : Text} {piece : Piece} (origin : piece.From name) :
    piece.source ≠ [] := by
  cases piece with
  | token t => exact Token.text_ne_nil t origin.1
  | subscript digit | marker | separator | copied c => exact List.cons_ne_nil _ _

/-- A lawful cut of a name that is not at its end takes one piece off it and goes on behind. -/
theorem Lawful.exists_step {mode : Mode} {c : Char} {rest : Text} {pieces : List Piece}
    (lawful : Lawful mode (c :: rest) pieces) :
    ∃ piece behind others, pieces = piece :: others ∧ c :: rest = piece.source ++ behind ∧
      Lawful piece.mode behind others := by
  generalize whole : c :: rest = name at lawful
  cases lawful with
  | nil => contradiction
  | subscript digit rest others _ further => exact ⟨_, _, _, rfl, rfl, further⟩
  | token mode token rest others _ further => exact ⟨_, _, _, rfl, rfl, further⟩
  | marker mode rest others _ _ further => exact ⟨_, _, _, rfl, rfl, further⟩
  | separator mode rest others _ _ further => exact ⟨_, _, _, rfl, rfl, further⟩
  | copied mode c rest others _ _ _ further => exact ⟨_, _, _, rfl, rfl, further⟩

theorem cutFrom_step (mode : Mode) (c : Char) (rest : Text) :
    let piece := Piece.next Index.standard.find? mode c rest
    ∃ behind, c :: rest = piece.source ++ behind ∧ behind.length < (c :: rest).length ∧
      cutFrom Index.standard.find? mode (c :: rest) =
        piece :: cutFrom Index.standard.find? piece.mode behind := by
  intro piece
  have lawful := lawful_cutFrom Index.finds_standard mode (c :: rest)
  obtain ⟨taken, behind, others, cut, split, further⟩ := lawful.exists_step
  rw [further.eq_cutFrom Index.finds_standard] at cut
  have same : piece = taken := (List.cons.inj (cutFrom_cons.symm.trans cut)).1
  have origin : taken.From (c :: rest) := by
    apply lawful.forall_from
    rw [cut]
    exact List.mem_cons_self
  have taking := List.length_pos_of_ne_nil (Piece.source_ne_nil origin)
  have lengths := congrArg List.length split
  rw [List.length_append] at lengths
  rw [same]
  exact ⟨behind, split, by omega, cut⟩

section

variable {name : Text} {piece : Piece}

theorem Piece.length_render_le (context : Context) (origin : piece.From name) :
    (piece.render context).length ≤ context.separator.length * piece.source.length := by
  cases piece with
  | token t =>
    have shorter : t.glyph.length < t.text.length := Token.length_glyph_lt t origin.1
    cases context <;> simp [render, source, Context.separator] <;> omega
  | subscript digit | marker | separator | copied c =>
    cases context <;> simp [render, source, Context.separator]

theorem Piece.length_render_className_iff (origin : piece.From name) :
    (piece.render .className).length = Context.className.separator.length * piece.source.length ↔
      (∀ token, piece ≠ .token token) ∧ piece ≠ .marker := by
  cases piece with
  | token t =>
    have shorter : t.glyph.length < t.text.length := Token.length_glyph_lt t origin.1
    simp [render, source, Context.separator]
    omega
  | subscript digit | marker | separator | copied c =>
    simp [render, source, Context.separator]

theorem Piece.length_render_methodName_iff (origin : piece.From name) :
    (piece.render .methodName).length =
        Context.methodName.separator.length * piece.source.length ↔ piece = .separator := by
  cases piece with
  | token t =>
    have shorter : t.glyph.length < t.text.length := Token.length_glyph_lt t origin.1
    simp [render, source, Context.separator]
    omega
  | subscript digit | marker | separator | copied c =>
    simp [render, source, Context.separator]

end

/-- Pieces that are each shown within `factor` times their length stay within it together, and
reach it only if each of them does. -/
theorem length_flatMap_render {context : Context} {pieces : List Piece} {factor : Nat}
    (within : ∀ piece ∈ pieces, (piece.render context).length ≤ factor * piece.source.length) :
    (pieces.flatMap (Piece.render context)).length ≤
        factor * (pieces.flatMap Piece.source).length ∧
      ((pieces.flatMap (Piece.render context)).length =
          factor * (pieces.flatMap Piece.source).length ↔
        ∀ piece ∈ pieces, (piece.render context).length = factor * piece.source.length) := by
  induction pieces with
  | nil => simp
  | cons piece pieces ih =>
    obtain ⟨own, others⟩ := List.forall_mem_cons.mp within
    obtain ⟨bound, exact_iff⟩ := ih others
    simp only [List.flatMap_cons, List.length_append, Nat.mul_add, List.forall_mem_cons,
      ← exact_iff]
    omega

theorem length_scan (context : Context) (name : Text) :
    (scan context name).length ≤ context.separator.length * name.length ∧
      ((scan context name).length = context.separator.length * name.length ↔
        ∀ piece ∈ cut name,
          (piece.render context).length = context.separator.length * piece.source.length) := by
  have lawful := lawful_cut name
  have lengths := length_flatMap_render fun piece member =>
    Piece.length_render_le context (lawful.forall_from piece member)
  rwa [lawful.flatMap_source] at lengths

theorem length_cut_le (name : Text) : (cut name).length ≤ name.length := by
  have lawful := lawful_cut name
  have sources : ∀ length ∈ (cut name).map (·.source.length), 1 ≤ length := by
    intro length member
    obtain ⟨piece, taken, rfl⟩ := List.mem_map.mp member
    exact List.length_pos_of_ne_nil (Piece.source_ne_nil (lawful.forall_from piece taken))
  calc (cut name).length
      = ((cut name).map (·.source.length)).length * 1 := by rw [List.length_map, Nat.mul_one]
    _ ≤ ((cut name).map (·.source.length)).sum := List.card_nsmul_le_sum _ 1 sources
    _ = ((cut name).flatMap Piece.source).length := List.length_flatMap.symm
    _ = name.length := by rw [lawful.flatMap_source]

/-- Showing a name takes at most as many steps as it has characters, for each step takes one off
at least. A class name is never shown longer than it is, and as long only if it has no token and
no dropped dollar sign; a method name is shown at most three times as long, and that long only if
it is cut into separators alone. -/
theorem scan_bounded (name : Text) :
    (∀ mode c rest, ∃ behind,
      let piece := Piece.next Index.standard.find? mode c rest
      c :: rest = piece.source ++ behind ∧ behind.length < (c :: rest).length ∧
        cutFrom Index.standard.find? mode (c :: rest) =
          piece :: cutFrom Index.standard.find? piece.mode behind) ∧
    (cut name).length ≤ name.length ∧
    (scan .className name).length ≤ name.length ∧
    ((scan .className name).length = name.length ↔
      ∀ piece ∈ cut name, (∀ token, piece ≠ .token token) ∧ piece ≠ .marker) ∧
    (scan .methodName name).length ≤ 3 * name.length ∧
    ((scan .methodName name).length = 3 * name.length ↔
      ∀ piece ∈ cut name, piece = .separator) := by
  obtain ⟨inClass, class_iff⟩ := length_scan .className name
  obtain ⟨inMethod, method_iff⟩ := length_scan .methodName name
  have origins := (lawful_cut name).forall_from
  have unit : Context.className.separator.length * name.length = name.length := Nat.one_mul _
  rw [unit] at inClass class_iff
  refine ⟨cutFrom_step, length_cut_le name, inClass, ?_, inMethod, ?_⟩
  · rw [class_iff]
    exact forall₂_congr fun piece taken => Piece.length_render_className_iff (origins piece taken)
  · rw [show 3 = Context.methodName.separator.length from rfl, method_iff]
    exact forall₂_congr fun piece taken =>
      Piece.length_render_methodName_iff (origins piece taken)

-- A dollar sign can be a separator, be dropped, or begin a token.
example : scan .methodName "$$a" = "().().a".toList ∧ scan .methodName "$1" = "₁".toList ∧
    scan .methodName "$eq$" = "=".toList := by
  refine ⟨?_, ?_, ?_⟩ <;> cbv

end LegibleTrace.Mangled
