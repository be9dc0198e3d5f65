import LegibleTrace.Text

/-! What the glyphs of a displayed name mean. -/
namespace LegibleTrace

structure LegendEntry where
  glyph : Text
  meaning : Text
deriving DecidableEq

def legend : List LegendEntry :=
  [⟨"λ", "anonymous function"⟩,
   ⟨"α", "anonymous class"⟩,
   ⟨"ι", "initialization"⟩,
   ⟨"ς", "super reference"⟩,
   ⟨"⋮ε", "extension method"⟩,
   ⟨"ϕ", "direct"⟩,
   ⟨"⋮π", "package file"⟩,
   ⟨"ⲛ", "class initializer"⟩,
   ⟨"ℓ", "lazy initializer"⟩,
   ⟨"δ", "default argument"⟩,
   ⟨"′", "renamed to avoid a name clash"⟩]

/-- The entries whose glyph occurs in a text, in legend order. -/
def legendOf (text : Text) : List LegendEntry :=
  legend.filter fun entry => Text.occursIn entry.glyph text

end LegibleTrace
