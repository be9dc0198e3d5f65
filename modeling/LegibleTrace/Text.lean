/-! Texts are finite sequences of code points. Cutting and joining are stated on the
sequence itself: a marker is found at its first occurrence, a separator splits everywhere,
and the part after the last separator holds none. -/
namespace LegibleTrace

abbrev Text := List Char

instance : Coe String Text := ⟨String.toList⟩

-- Membership of texts, and of paths of texts, is decided by these two everywhere.
instance : LawfulBEq Text := inferInstance

instance : LawfulBEq (List Text) := inferInstance

namespace Text

/-- What follows `start` in a text that begins with it. -/
def after? : Text → Text → Option Text
  | [], text => some text
  | _ :: _, [] => none
  | c :: start, d :: text => if c = d then after? start text else none

/-- What precedes `finish` in a text that ends with it. -/
def before? (finish text : Text) : Option Text :=
  (after? finish.reverse text.reverse).map List.reverse

/-- The parts around the first occurrence of `marker`. -/
def breakOn? (marker : Text) : Text → Option (Text × Text)
  | [] => (after? marker []).map (([], ·))
  | c :: text =>
    match after? marker (c :: text) with
    | some rest => some ([], rest)
    | none => (breakOn? marker text).map fun (left, right) => (c :: left, right)

def occursIn (part text : Text) : Bool :=
  (breakOn? part text).isSome

/-- All parts between separators; a text without one is its only part. -/
def split (separator : Char) : Text → List Text
  | [] => [[]]
  | c :: text =>
    if c = separator then [] :: split separator text
    else (split separator text).modifyHead (c :: ·)

/-- The parts before and after the last separator; without one the first part is empty. -/
def splitLast (separator : Char) (text : Text) : Text × Text :=
  let back := text.reverse
  (((back.dropWhile (· != separator)).drop 1).reverse,
    (back.takeWhile (· != separator)).reverse)

def join (separator : Text) (parts : List Text) : Text :=
  List.intercalate separator parts

/-- The order by code points, character by character. -/
def isAtMost : Text → Text → Bool
  | [], _ => true
  | _ :: _, [] => false
  | c :: first, d :: second => c.toNat < d.toNat || (c = d && isAtMost first second)

def padRight (width : Nat) (text : Text) : Text :=
  text ++ List.replicate (width - text.length) ' '

theorem after?_eq_some_iff {start text rest : Text} :
    after? start text = some rest ↔ text = start ++ rest := by
  induction start generalizing text with
  | nil => simp [after?, eq_comm]
  | cons c start ih =>
    cases text with
    | nil => simp [after?]
    | cons d text =>
      by_cases same : c = d
      · simp [after?, same, ih]
      · simp [after?, same, Ne.symm same]

theorem before?_eq_some_iff {finish text rest : Text} :
    before? finish text = some rest ↔ text = rest ++ finish := by
  simp only [before?, Option.map_eq_some_iff, after?_eq_some_iff]
  constructor
  · rintro ⟨back, whole, rfl⟩
    simpa using congrArg List.reverse whole
  · rintro rfl
    exact ⟨rest.reverse, by simp, by simp⟩

theorem split_ne_nil (separator : Char) (text : Text) : split separator text ≠ [] := by
  induction text with
  | nil => simp [split]
  | cons c text ih =>
    unfold split
    split
    · simp
    · cases parts : split separator text with
      | nil => exact absurd parts ih
      | cons part parts => simp

end Text
end LegibleTrace
