import LegibleTrace.Proofs.Cause.Assembly
import LegibleTrace.Proofs.Settings.Validation
import LegibleTrace.Proofs.Text

/-! The assembler of checked settings. A check that enforces what is declared accepts no settings
for which the assembler could not be made; it keeps traces short, and every frame without a file
has something to see. -/
namespace LegibleTrace

theorem Frame.file_of_none {placeholder : Text} {raw : RawFrame} (missing : raw.file = none) :
    (Frame.ofRaw placeholder raw).file = placeholder := by
  rw [Frame.ofRaw, missing, Option.getD_none]

namespace Settings

variable {ε : Type} {check : Checker ε} {entries : List (Value × Value)}
  {environment : Environment} {settings : Settings}

theorem exists_visible_of_validatePlaceholder {text shown : Text}
    (accepted : validatePlaceholder text = .ok shown) : ∃ c ∈ shown, Text.isBlank c = false := by
  rw [validatePlaceholder] at accepted
  split at accepted
  · cases accepted
  · next unblank =>
    obtain rfl := Except.ok.inj accepted
    simpa [Text.strip_eq_nil_iff] using unblank

-- The standard settings are as declared, though they need not be checked.
theorem limit_standard : minLimit ≤ Settings.standard.trace.maxCauseDepth ∧
    Settings.standard.trace.maxCauseDepth ≤ maxLimit := by
  decide

theorem placeholder_standard : validatePlaceholder Settings.standard.trace.noFilePlaceholder =
    .ok Settings.standard.trace.noFilePlaceholder := by
  decide

theorem Enforces.limit (enforces : Enforces check)
    (accepted : check entries environment = .ok settings) :
    minLimit ≤ settings.trace.maxCauseDepth ∧ settings.trace.maxCauseDepth ≤ maxLimit := by
  rcases enforces.bounds _ _ _ accepted with same | within
  · rw [same]
    exact limit_standard
  · exact within

theorem Enforces.placeholder (enforces : Enforces check)
    (accepted : check entries environment = .ok settings) :
    ∃ c ∈ settings.trace.noFilePlaceholder, Text.isBlank c = false := by
  rcases enforces.validated _ _ _ accepted with same | ⟨text, validated⟩
  · rw [same]
    exact exists_visible_of_validatePlaceholder placeholder_standard
  · exact exists_visible_of_validatePlaceholder validated

/-- Whatever was given and wherever, an assembler can be made from settings that such a check has
accepted, and its limit is within the bounds. A trace has at most one entry more than that, and a
frame without a file shows more than blanks. -/
theorem assembler_of_check (enforces : Enforces check)
    (accepted : check entries environment = .ok settings) :
    ∃ assembler, settings.assembler = .ok assembler ∧
      (assembler.limit : Int) = settings.trace.maxCauseDepth ∧ assembler.limit ≤ 10000 ∧
      ∀ (ν : Type) [DecidableEq ν] (graph : CauseGraph ν) (start : ν),
        let chain := (graph.assemble assembler start).1.chain
        chain.length ≤ assembler.limit + 1 ∧
        ∃ nodes : List ν, graph.Takes assembler.limit start nodes ∧
          List.Forall₂ (fun node entry =>
              List.Forall₂ (fun raw frame =>
                  raw.file = none → ∃ c ∈ frame.file, Text.isBlank c = false)
                (graph.throwable node).frames entry.frames)
            nodes chain := by
  obtain ⟨least, most⟩ := enforces.limit accepted
  have limited : (settings.trace.maxCauseDepth.toNat : Int) = settings.trace.maxCauseDepth :=
    Int.toNat_of_nonneg least
  let assembler : Assembler :=
    ⟨settings.trace.maxCauseDepth.toNat, settings.trace.noFilePlaceholder⟩
  have made : settings.assembler = .ok assembler := if_neg (Int.not_lt.mpr least)
  refine ⟨assembler, made, limited, ?_, ?_⟩
  · change settings.trace.maxCauseDepth.toNat ≤ 10000
    unfold maxLimit at most
    omega
  · intro ν _ graph start chain
    have shown : chain = _ := graph.chain_assemble assembler start
    refine ⟨?_, (graph.walk assembler.limit start).nodes, graph.takes_walk _ _, ?_⟩
    · rw [shown, List.length_map]
      exact graph.length_walk_le _ _
    · rw [shown, List.forall₂_map_right_iff, List.forall₂_same]
      intro node _
      rw [(assembler.shows_entry (graph.throwable node)).frames,
        List.forall₂_map_right_iff, List.forall₂_same]
      intro raw _ missing
      rw [Frame.file_of_none missing]
      exact enforces.placeholder accepted

-- The variable of the field wins over that of the section, whose number is out of bounds.
theorem assembler_of_text_limit :
    let given : Fields := [("trace", .mapping [(.text "no_file_placeholder", .text "?")])]
    let environment : Environment :=
      [("STACKGLYPH_TRACE__MAX_CAUSE_DEPTH", " 1_0.0"),
       ("stackglyph_trace", "\x7b\"max_cause_depth\": -5\x7d")]
    let settings : Settings := { Settings.standard with trace := ⟨10, "?"⟩ }
    let graph : CauseGraph Nat := ⟨fun _ => ⟨"E", none, none, []⟩, fun node => some (node + 1)⟩
    Enforces Settings.check ∧ Settings.check given.entries environment = .ok settings ∧
      ∃ assembler, settings.assembler = .ok assembler ∧ assembler.limit = 10 ∧
        (graph.assemble assembler 0).1.chain.length ≤ 11 := by
  intro given environment settings graph
  have accepted : Settings.check given.entries environment = .ok settings := by decide +kernel
  refine ⟨enforces_check, accepted, ?_⟩
  obtain ⟨assembler, made, limited, _, safe⟩ := assembler_of_check enforces_check accepted
  have ten : assembler.limit = 10 := Int.ofNat_inj.mp limited
  refine ⟨assembler, made, ten, ?_⟩
  have short := (safe Nat graph 0).1
  rwa [ten] at short

end Settings
end LegibleTrace
