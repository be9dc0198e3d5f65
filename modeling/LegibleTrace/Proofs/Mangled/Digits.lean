import LegibleTrace.Proofs.Mangled.Shown

/-! The digits of a name. No token and no glyph has one, so what is shown has the digits of the
name in their order, on the line or below it. Every digit is a piece of its own and leaves the
mode as it was; the digits of a run are therefore shown side by side and all in the same way. -/
namespace LegibleTrace.Mangled

/-- The digit that a character stands for, on the line or below it. -/
def digit? (c : Char) : Option Char :=
  if c.isDigit then some c
  else if '₀' ≤ c ∧ c ≤ '₉' then some (Char.ofNat (c.toNat - '₀'.toNat + '0'.toNat))
  else none

/-- The digits of a text in their order, however they are written. -/
def digitsOf (text : Text) : Text :=
  text.filterMap digit?

theorem Token.digitsOf_eq_nil : ∀ token ∈ table,
    digitsOf token.text = [] ∧ digitsOf token.glyph = [] := by
  decide

theorem digit?_lowered {digit : Char} (isDigit : digit.isDigit) :
    digit? (lowered digit) = digit? digit := by
  revert digit
  apply forall_digit (P := fun digit => digit? (lowered digit) = digit? digit)
  decide

namespace Piece

variable {name : Text} {piece : Piece}

theorem digitsOf_render (origin : piece.From name) (context : Context) :
    digitsOf (piece.render context) = digitsOf piece.source := by
  cases piece with
  | token t =>
    obtain ⟨text, glyph⟩ := Token.digitsOf_eq_nil t origin.1
    exact glyph.trans text.symm
  | subscript digit =>
    have isDigit : digit.isDigit := origin
    have same := digit?_lowered isDigit
    simp only [render, source, digitsOf, List.filterMap_cons, same]
  | marker => rfl
  | separator => cases context <;> rfl
  | copied c => rfl

theorem source_of_digit {digit : Char} (origin : piece.From name)
    (inside : digit ∈ piece.source) (isDigit : digit.isDigit) : piece.source = [digit] := by
  cases piece with
  | token t => exact absurd inside (Token.digit_not_mem_text origin.1 isDigit)
  | subscript d => rw [List.mem_singleton.mp inside, source]
  | marker => rw [List.mem_singleton.mp inside] at isDigit; contradiction
  | separator => rw [List.mem_singleton.mp inside] at isDigit; contradiction
  | copied c => rw [List.mem_singleton.mp inside, source]

theorem alone_of_digit {before behind : Text} {digit : Char} (origin : piece.From name)
    (isDigit : digit.isDigit) (own : piece.source = before ++ digit :: behind) :
    before = [] ∧ behind = [] := by
  have inside : digit ∈ piece.source := by simp [own]
  have single := source_of_digit origin inside isDigit
  rw [single, List.singleton_eq_append_iff] at own
  simpa using own

theorem exists_front {pieces : List Piece} {before behind : Text} {digit : Char}
    (origin : ∀ piece ∈ pieces, piece.From name) (isDigit : digit.isDigit)
    (whole : pieces.flatMap source = before ++ digit :: behind) :
    ∃ front back, pieces = front ++ back ∧ front.flatMap source = before ∧
      back.flatMap source = digit :: behind := by
  induction pieces generalizing before with
  | nil => simp at whole
  | cons piece pieces ih =>
    rw [List.forall_mem_cons] at origin
    rw [List.flatMap_cons, List.append_eq_append_iff] at whole
    rcases whole with ⟨rest, earlier, further⟩ | ⟨rest, own, further⟩
    · obtain ⟨front, back, split, first, second⟩ := ih origin.2 further
      refine ⟨piece :: front, back, by rw [split, List.cons_append], ?_, second⟩
      rw [List.flatMap_cons, first, earlier]
    · -- The piece ends before the digit, or it reaches up to it and then is the digit alone.
      cases rest with
      | nil =>
        rw [List.append_nil] at own
        exact ⟨[piece], pieces, rfl, by simpa using own, further.symm⟩
      | cons c rest =>
        obtain ⟨rfl, behind⟩ := List.cons_eq_cons.mp further
        obtain ⟨rfl, rfl⟩ := alone_of_digit origin.1 isDigit own
        refine ⟨[], piece :: pieces, rfl, rfl, ?_⟩
        rw [List.flatMap_cons, own, behind]
        rfl

/-- The piece that a digit makes in each mode. -/
def ofDigit : Mode → Char → Piece
  | .plain, digit => copied digit
  | .digits, digit => subscript digit

end Piece

namespace Lawful

variable {mode : Mode} {name : Text} {pieces : List Piece}

theorem tail {piece : Piece} (lawful : Lawful mode name (piece :: pieces)) :
    ∃ rest, Lawful piece.mode rest pieces := by
  cases lawful with
  | subscript digit rest pieces isDigit further => exact ⟨rest, further⟩
  | token mode token rest pieces member further => exact ⟨rest, further⟩
  | marker mode rest pieces untokened numbered further => exact ⟨rest, further⟩
  | separator mode rest pieces untokened unnumbered further => exact ⟨rest, further⟩
  | copied mode c rest pieces untokened ordinary unlowered further => exact ⟨rest, further⟩

theorem behind {front back : List Piece} (lawful : Lawful mode name (front ++ back)) :
    ∃ between, Lawful between (back.flatMap Piece.source) back := by
  induction front generalizing mode name with
  | nil =>
    refine ⟨mode, ?_⟩
    rw [List.nil_append] at lawful
    rw [lawful.flatMap_source]
    exact lawful
  | cons piece front ih =>
    obtain ⟨rest, further⟩ := lawful.tail
    exact ih further

theorem of_digit {digit : Char} {rest : Text} (isDigit : digit.isDigit)
    (lawful : Lawful mode (digit :: rest) pieces) :
    ∃ others, pieces = Piece.ofDigit mode digit :: others ∧ Lawful mode rest others := by
  generalize whole : digit :: rest = name at lawful
  -- A digit begins no token and is no dollar sign; of the other rules the mode leaves one.
  cases lawful with
  | nil => contradiction
  | subscript d rest pieces _ further =>
    obtain ⟨rfl, rfl⟩ := List.cons_eq_cons.mp whole
    exact ⟨pieces, rfl, further⟩
  | token mode token rest pieces member further =>
    have begins : token.text <+: token.text ++ rest := List.prefix_append _ _
    rw [← whole] at begins
    exact absurd begins (Token.not_begins_of_isDigit member isDigit _)
  | marker mode rest pieces untokened numbered further =>
    rw [(List.cons_eq_cons.mp whole).1] at isDigit
    contradiction
  | separator mode rest pieces untokened unnumbered further =>
    rw [(List.cons_eq_cons.mp whole).1] at isDigit
    contradiction
  | copied mode c rest pieces untokened ordinary unlowered further =>
    obtain ⟨rfl, rfl⟩ := List.cons_eq_cons.mp whole
    cases mode with
    | plain => exact ⟨pieces, rfl, further⟩
    | digits => exact absurd ⟨rfl, isDigit⟩ unlowered

theorem of_run {run behind : Text} (digits : ∀ digit ∈ run, digit.isDigit)
    (lawful : Lawful mode (run ++ behind) pieces) :
    ∃ others, pieces = run.map (Piece.ofDigit mode) ++ others ∧ Lawful mode behind others := by
  induction run generalizing pieces with
  | nil => exact ⟨pieces, rfl, lawful⟩
  | cons digit run ih =>
    rw [List.forall_mem_cons] at digits
    obtain ⟨others, first, further⟩ := lawful.of_digit digits.1
    obtain ⟨last, split, behind⟩ := ih digits.2 further
    refine ⟨last, ?_, behind⟩
    rw [first, split, List.map_cons, List.cons_append]

end Lawful

section

variable {run : Text}

theorem flatMap_source_ofDigit (mode : Mode) :
    (run.map (Piece.ofDigit mode)).flatMap Piece.source = run := by
  rw [List.flatMap_map]
  cases mode <;> exact List.flatMap_singleton' run

theorem flatMap_render_plain (context : Context) :
    (run.map (Piece.ofDigit .plain)).flatMap (Piece.render context) = run :=
  flatMap_render_copied context run

theorem flatMap_render_digits (digits : ∀ digit ∈ run, digit.isDigit) (context : Context) :
    (run.map (Piece.ofDigit .digits)).flatMap (Piece.render context) =
      run.map fun digit => Char.ofNat (digit.toNat - '0'.toNat + '₀'.toNat) := by
  rw [List.flatMap_map, List.map_eq_flatMap]
  apply List.flatMap_congr
  intro digit member
  simp only [Piece.ofDigit, Piece.render, lowered_eq (digits digit member)]

-- The first digit of the run starts a piece; from there on the mode no longer changes.
theorem cut_run {name before behind : Text} (whole : name = before ++ run ++ behind)
    (nonempty : run ≠ []) (digits : ∀ digit ∈ run, digit.isDigit) :
    ∃ front mode back, cut name = front ++ run.map (Piece.ofDigit mode) ++ back ∧
      front.flatMap Piece.source = before ∧ back.flatMap Piece.source = behind := by
  obtain ⟨digit, others, rfl⟩ := List.exists_cons_of_ne_nil nonempty
  have lawful := lawful_cut name
  have source : (cut name).flatMap Piece.source = before ++ digit :: (others ++ behind) := by
    rw [lawful.flatMap_source, whole, List.append_assoc, List.cons_append]
  obtain ⟨front, rest, split, first, second⟩ :=
    Piece.exists_front lawful.forall_from (digits digit List.mem_cons_self) source
  rw [split] at lawful
  obtain ⟨mode, further⟩ := lawful.behind
  rw [second, ← List.cons_append] at further
  obtain ⟨back, shape, last⟩ := further.of_run digits
  refine ⟨front, mode, back, ?_, first, last.flatMap_source⟩
  rw [split, shape, List.append_assoc]

end

theorem digitsOf_scan (context : Context) (name : Text) :
    digitsOf (scan context name) = digitsOf name := by
  have lawful := lawful_cut name
  have source : digitsOf name = digitsOf ((cut name).flatMap Piece.source) := by
    rw [lawful.flatMap_source]
  rw [source, scan, digitsOf, digitsOf, List.filterMap_flatMap, List.filterMap_flatMap]
  apply List.flatMap_congr
  intro piece member
  exact Piece.digitsOf_render (lawful.forall_from piece member) context

/-- A shown name has the digits of the name in their order. Each run of digits in the name, the
longest ones included, is a row of pieces by itself, and is shown either as it stands or with
every digit below the line, in both contexts alike. -/
theorem scan_keeps_digits (name : Text) :
    (∀ context, digitsOf (scan context name) = digitsOf name) ∧
    ∀ before run behind, name = before ++ run ++ behind → run ≠ [] →
      (∀ digit ∈ run, digit.isDigit) →
      ∃ front block back, cut name = front ++ block ++ back ∧
        front.flatMap Piece.source = before ∧ block.flatMap Piece.source = run ∧
        back.flatMap Piece.source = behind ∧
        ((∀ context, block.flatMap (Piece.render context) = run) ∨
          ∀ context, block.flatMap (Piece.render context) =
            run.map fun digit => Char.ofNat (digit.toNat - '0'.toNat + '₀'.toNat)) := by
  refine ⟨fun context => digitsOf_scan context name, ?_⟩
  intro before run behind whole nonempty digits
  obtain ⟨front, mode, back, split, first, last⟩ := cut_run whole nonempty digits
  refine ⟨front, _, back, split, first, flatMap_source_ofDigit mode, last, ?_⟩
  cases mode with
  | plain => exact .inl flatMap_render_plain
  | digits => exact .inr (flatMap_render_digits digits)

theorem digits_of_numbered_default :
    let name : Text := "f$anonfun$12$default$1"
    let run : Text := "12"
    (name = ("f$anonfun$" : Text) ++ run ++ ("$default$1" : Text) ∧ run ≠ [] ∧
        ∀ digit ∈ run, digit.isDigit) ∧
      digitsOf (scan .methodName name) = "121".toList ∧
      ∃ front block back, cut name = front ++ block ++ back ∧
        front.flatMap Piece.source = "f$anonfun$".toList ∧ block.flatMap Piece.source = run ∧
        back.flatMap Piece.source = "$default$1".toList ∧
        ((∀ context, block.flatMap (Piece.render context) = run) ∨
          ∀ context, block.flatMap (Piece.render context) = "₁₂".toList) := by
  intro name run
  have whole : name = ("f$anonfun$" : Text) ++ run ++ ("$default$1" : Text) := by decide
  have nonempty : run ≠ [] := by decide
  have digits : ∀ digit ∈ run, digit.isDigit := Text.forall_mem_of_all (by decide)
  have below : (run.map fun digit => Char.ofNat (digit.toNat - '0'.toNat + '₀'.toNat)) =
      "₁₂".toList := by decide
  obtain ⟨kept, runs⟩ := scan_keeps_digits name
  have read : digitsOf name = "121".toList := by decide
  have shown := runs _ run _ whole nonempty digits
  rw [below] at shown
  exact ⟨⟨whole, nonempty, digits⟩, (kept .methodName).trans read, shown⟩

-- The token before the first run lowers it; the token before the second does not.
example : scan .className "f$anonfun$12$default$1" = "fλ₁₂δ1".toList := by cbv

end LegibleTrace.Mangled
