import LegibleTrace.Legend
import LegibleTrace.Proofs.Mangled.Shown

/-! The legend of a shown name. The last character of a glyph tells its token apart from all
others, so an entry is listed just when its token was taken for one; copied characters, lowered
digits and separators have no part in it, and a function type is written without any glyph. -/
namespace LegibleTrace

open Mangled

namespace Mangled

/-- What is said of each token in a legend; the others are shown as the signs they name. -/
def Token.meanings : List (Text × Text) :=
  [("$anonfun$", "anonymous function"),
   ("$anon$", "anonymous class"),
   ("initial$", "initialization"),
   ("super$", "super reference"),
   ("$extension$", "extension method"),
   ("$direct$", "direct"),
   ("$package$", "package file"),
   ("<init>", "class initializer"),
   ("lzyINIT", "lazy initializer"),
   ("$default$", "default argument"),
   ("$_avoid_name_clash_$", "renamed to avoid a name clash")]

end Mangled

namespace LegendEntry

variable {context : Context} {name : Text} {entry : LegendEntry}

/-- The character of a glyph that no other glyph has. -/
def last (entry : LegendEntry) : Char := entry.glyph.getLastD ' '

theorem last_mem_glyph : ∀ entry ∈ legend, entry.last ∈ entry.glyph := by
  decide

theorem last_not_mem_signs (context : Context) :
    ∀ entry ∈ legend, entry.last ∉ signs context [] := by
  cases context <;> decide

theorem last_not_mem_alphabet : ∀ entry ∈ legend, entry.last ∉ FunctionType.alphabet := by
  decide

theorem meaning_of_last : ∀ entry ∈ legend, ∀ token ∈ Token.table,
    entry.last ∈ token.glyph → (token.text, entry.meaning) ∈ Token.meanings := by
  decide

theorem glyph_of_meaning : ∀ meant ∈ Token.meanings, ∀ token ∈ Token.table,
    token.text = meant.1 → ∀ entry ∈ legend, entry.meaning = meant.2 →
      entry.glyph <:+: token.glyph := by
  decide

theorem mem_legendOf {text : Text} :
    entry ∈ legendOf text ↔ entry ∈ legend ∧ entry.glyph <:+: text := by
  rw [legendOf, List.mem_filter, Text.occursIn_iff]

theorem last_mem_scan (member : entry ∈ legend)
    (unmade : FunctionType.ofName? (scan context name) = none)
    (shown : entry.glyph <:+: display context name) : entry.last ∈ scan context name := by
  have inside := shown.subset (last_mem_glyph entry member)
  rw [display_of_none unmade, List.mem_append] at inside
  apply inside.resolve_right
  intro ending
  exact last_not_mem_alphabet entry member (ending_subset context ending)

/-- A glyph of the legend is shown where its token was taken for one, and nowhere else. -/
theorem glyph_within_display_iff (member : entry ∈ legend)
    (clean : ∀ c ∈ entry.glyph, c ∉ name)
    (unmade : FunctionType.ofName? (scan context name) = none) :
    entry.glyph <:+: display context name ↔
      ∃ token, Piece.token token ∈ cut name ∧
        (token.text, entry.meaning) ∈ Token.meanings := by
  constructor
  · intro shown
    have scanned := last_mem_scan member unmade shown
    rcases mem_scan_cases (last_not_mem_signs context entry member) scanned with
      ⟨token, inTable, taken, inside⟩ | copied
    · exact ⟨token, taken, meaning_of_last entry member token inTable inside⟩
    · exact absurd copied (clean entry.last (last_mem_glyph entry member))
  · rintro ⟨token, taken, meant⟩
    have origin := (lawful_cut name).forall_from _ taken
    have part : entry.glyph <:+: token.glyph :=
      glyph_of_meaning _ meant token origin.1 rfl entry member rfl
    have whole : token.glyph <:+: scan context name := by
      apply List.infix_of_mem_flatten
      exact List.mem_map.mpr ⟨_, taken, rfl⟩
    rw [display_of_none unmade]
    exact (part.trans whole).trans List.infix_append_left

end LegendEntry

theorem legendOf_of_some {context : Context} {name : Text} {type : FunctionType}
    (made : FunctionType.ofName? (scan context name) = some type) :
    legendOf (display context name) = [] := by
  rw [List.eq_nil_iff_forall_not_mem]
  intro entry listed
  obtain ⟨member, shown⟩ := LegendEntry.mem_legendOf.mp listed
  have inside := shown.subset (LegendEntry.last_mem_glyph entry member)
  exact LegendEntry.last_not_mem_alphabet entry member (display_subset_of_some made inside)

theorem legend_nodup : legend.Nodup := by
  decide

/-- For a name without characters of glyphs, the legend lists in its own order, each once, the
entries whose tokens were taken for one, and no others; for a function type it lists nothing. -/
theorem legendOf_display (context : Context) (name : Text)
    (clean : ∀ entry ∈ legend, ∀ c ∈ entry.glyph, c ∉ name) :
    let listed := legendOf (display context name)
    listed.Sublist legend ∧ listed.Nodup ∧
      (FunctionType.ofName? (scan context name) = none → ∀ entry, entry ∈ listed ↔
        entry ∈ legend ∧ ∃ token, Piece.token token ∈ cut name ∧
          (token.text, entry.meaning) ∈ Token.meanings) ∧
      (FunctionType.ofName? (scan context name) ≠ none → listed = []) := by
  intro listed
  have ordered : listed.Sublist legend := List.filter_sublist
  refine ⟨ordered, legend_nodup.sublist ordered, ?_, ?_⟩
  · intro unmade entry
    rw [LegendEntry.mem_legendOf]
    apply and_congr_right
    intro member
    exact LegendEntry.glyph_within_display_iff member (clean entry member) unmade
  · intro made
    obtain ⟨type, made⟩ := Option.ne_none_iff_exists'.mp made
    exact legendOf_of_some made

-- The mark before the glyph is shared with two other entries, which are not listed.
theorem legend_of_direct_method :
    let name : Text := "run$direct$Int"
    let direct : LegendEntry := ⟨"ϕ", "direct"⟩
    (∀ entry ∈ legend, ∀ c ∈ entry.glyph, c ∉ name) ∧
      FunctionType.ofName? (scan .methodName name) = none ∧
      ∀ entry, entry ∈ legendOf (display .methodName name) ↔ entry = direct := by
  intro name direct
  have clean : ∀ entry ∈ legend, ∀ c ∈ entry.glyph, c ∉ name := by
    intro entry member
    apply Text.forall_mem_of_all
    revert entry
    decide
  have unmade : FunctionType.ofName? (scan .methodName "run$direct$Int") = none := by cbv
  have pieces : cut "run$direct$Int" =
      [.copied 'r', .copied 'u', .copied 'n', .token (.plain "$direct$" "⋮ϕ"),
        .copied 'I', .copied 'n', .copied 't'] := by cbv
  have single : ∀ entry ∈ legend, ("$direct$".toList, entry.meaning) ∈ Token.meanings →
      entry = direct := by decide
  refine ⟨clean, unmade, ?_⟩
  intro entry
  rw [(legendOf_display .methodName name clean).2.2.1 unmade entry, pieces]
  constructor
  · rintro ⟨member, token, taken, meant⟩
    obtain rfl : token = .plain "$direct$" "⋮ϕ" := by simpa using taken
    exact single entry member meant
  · rintro rfl
    exact ⟨by decide, .plain "$direct$" "⋮ϕ", by simp, by decide⟩

end LegibleTrace
