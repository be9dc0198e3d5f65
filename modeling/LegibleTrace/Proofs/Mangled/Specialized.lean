import LegibleTrace.Proofs.Mangled.Boundary
import LegibleTrace.Proofs.Mangled.Unchanged

/-! Specialized functions. The pieces of a wrapper change nothing but its two dollar signs, and
the tags stand behind the first of them. Every primitive type is written with one upper-case
letter, unlike that of any other, so the tags can be read back from the letters of the type. -/
namespace LegibleTrace.Mangled

/-- The class of a specialized function: a number of arguments and the tags of its types. -/
structure Wrapper where
  arity : Text
  tags : Text
  numbered : arity ≠ []
  digits : ∀ c ∈ arity, c.isDigit
  tagged : tags ≠ []
  letters : ∀ tag ∈ tags, tag.isUpper

def Wrapper.name (wrapper : Wrapper) : Text :=
  "scala.runtime.java8.JFunction" ++ wrapper.arity ++ "$mc" ++ wrapper.tags ++ "$sp"

namespace Token

/-- The characters with which tokens begin. -/
def heads : Text := table.filterMap (·.text.head?)

theorem not_begins_of_not_mem_heads {token : Token} {c : Char} (member : token ∈ table)
    (unlike : c ∉ heads) (rest : Text) : ¬ token.text <+: c :: rest := by
  obtain ⟨d, text, shape⟩ := List.exists_cons_of_ne_nil (text_ne_nil token member)
  intro begins
  rw [shape, List.cons_prefix_cons] at begins
  apply unlike
  exact List.mem_filterMap.mpr ⟨token, member, by simp [shape, begins.1]⟩

theorem not_isUpper_of_mem_heads : ∀ c ∈ heads, ¬ c.isUpper := by
  apply Text.forall_mem_of_all
  decide

theorem not_begins_mark : ∀ token ∈ table, ¬ token.text.take 3 <+: ("$mc" : Text) := by
  decide

end Token

theorem Lawful.copied_append {word rest : Text} {pieces : List Piece}
    (unlike : ∀ c ∈ word, c ∉ Token.heads) (lawful : Lawful .plain rest pieces) :
    Lawful .plain (word ++ rest) (word.map .copied ++ pieces) := by
  induction word with
  | nil => exact lawful
  | cons c word ih =>
    rw [List.forall_mem_cons] at unlike
    refine .copied _ _ _ _ ?_ ?_ nofun (ih unlike.2)
    · intro token member
      exact Token.not_begins_of_not_mem_heads member unlike.1 _
    · rintro rfl
      exact absurd (by decide) unlike.1

/-- The letters in upper case. -/
def initials (shown : Text) : Text := shown.filter Char.isUpper

theorem initials_append (left right : Text) :
    initials (left ++ right) = initials left ++ initials right :=
  List.filter_append ..

namespace FunctionType

theorem ofTags?_concat (arguments : Text) (result : Char) :
    ofTags? (arguments ++ [result]) =
      some ⟨arguments.map fun tag => primitive [tag], primitive [result]⟩ := by
  simp [ofTags?]

theorem initials_join (parts : List Text) :
    initials (Text.join ", " parts) = parts.flatMap initials := by
  have comma : initials ", " = [] := by decide
  rw [Text.join]
  induction parts with
  | nil => rfl
  | cons part parts ih =>
    cases parts with
    | nil => simp
    | cons next parts =>
      rw [List.intercalate_cons_cons, initials_append, initials_append, ih, comma,
        List.append_nil]
      rfl

/-- The marks of a function type have no letters, so those of its types follow in order. -/
theorem initials_render (type : FunctionType) :
    initials type.render = type.domain.flatMap initials ++ initials type.result := by
  have marks : ∀ mark ∈ (["(", "((", ")", " => ", ") => "] : List Text), initials mark = [] := by
    decide
  simp only [List.forall_mem_cons] at marks
  obtain ⟨opening, openings, closing, arrow, arrows, _⟩ := marks
  rcases shape : type.domain with _ | ⟨argument, _ | ⟨second, rest⟩⟩
  · simp only [render, shape, initials_append, opening, closing]
    simp
  · simp only [render, shape, initials_append, opening, arrow, closing]
    simp
  · simp only [render, shape, initials_append, initials_join, openings, arrows, closing]
    simp

/-- The tags of the types that begin with a letter. -/
def tagsOf (initial : Char) : Text :=
  (primitives.filter (·.2.head? = some initial)).flatMap Prod.fst

/-- The tags that a shown function type was made from. -/
def readTags (shown : Text) : Text := (initials shown).flatMap tagsOf

theorem readTags_primitive :
    ∀ tag ∈ ("ZIJVSFCDL" : Text), readTags (primitive [tag]) = [tag] := by
  apply Text.forall_mem_of_all
  decide

theorem readTags_render {tags : Text} {type : FunctionType} (made : ofTags? tags = some type)
    (known : ∀ tag ∈ tags, tag ∈ ("ZIJVSFCDL" : Text)) : readTags type.render = tags := by
  obtain ⟨result, last, rfl⟩ := Option.map_eq_some_iff.mp made
  obtain ⟨arguments, rfl⟩ := List.getLast?_eq_some_iff.mp last
  rw [List.forall_mem_append] at known
  have single := readTags_primitive result (known.2 result List.mem_cons_self)
  have others : (arguments.map fun tag => primitive [tag]).flatMap readTags = arguments := by
    rw [List.flatMap_map]
    calc
      arguments.flatMap (fun tag => readTags (primitive [tag]))
      _ = arguments.flatMap fun tag => [tag] := by
        apply List.flatMap_congr
        intro tag member
        exact readTags_primitive tag (known.1 tag member)
      _ = arguments := List.flatMap_singleton' arguments
  rw [readTags, initials_render, List.flatMap_append, List.flatMap_assoc, List.dropLast_concat]
  exact congrArg₂ (· ++ ·) others single

end FunctionType

namespace Wrapper

open FunctionType

variable (wrapper : Wrapper)

theorem scan_start : scan .className (specializedStart ++ wrapper.arity) =
    specializedStart ++ wrapper.arity := by
  have absent {c : Char} (unlike : c ∉ specializedStart) (plain : c.isDigit = false) :
      c ∉ specializedStart ++ wrapper.arity := by
    rw [List.mem_append, not_or]
    exact ⟨unlike, Text.not_mem_of_digits wrapper.digits plain⟩
  rw [scan_eq_self_iff]
  refine ⟨absent (by decide) rfl, ?_, ?_⟩
  · intro init
    exact absent (c := '<') (by decide) rfl (init.subset (by decide))
  · intro lzy
    exact absent (c := 'y') (by decide) rfl (lzy.subset (by decide))

/-- The name in three parts, of which the last begins with its first dollar sign. -/
theorem name_eq : wrapper.name =
    (specializedStart ++ wrapper.arity) ++ '$' :: (("mc" ++ wrapper.tags) ++ "$sp") := by
  have dollar : ("$mc" : Text) = '$' :: "mc" := by decide
  have start : ("scala.runtime.java8.JFunction" : Text) = specializedStart := rfl
  unfold name
  simp only [dollar, start, List.append_assoc, List.cons_append]

theorem scan_marked : scan .className ('$' :: (("mc" ++ wrapper.tags) ++ "$sp")) =
    specializedMark ++ wrapper.tags ++ specializedEnd := by
  have unlike : ∀ c ∈ ("mc" : Text) ++ wrapper.tags, c ∉ Token.heads := by
    rw [List.forall_mem_append]
    constructor
    · apply Text.forall_mem_of_all
      decide
    · intro tag member head
      exact Token.not_isUpper_of_mem_heads tag head (wrapper.letters tag member)
  have untokened : ∀ token ∈ Token.table,
      ¬ token.text <+: '$' :: (("mc" ++ wrapper.tags) ++ "$sp" : Text) := by
    intro token member begins
    exact Token.not_begins_mark token member (begins.take 3)
  have copied := Lawful.copied_append unlike (lawful_cut "$sp")
  have whole := Lawful.separator .plain _ _ untokened (undigited_cons rfl _) copied
  have shown : scan .className "$sp" = specializedEnd := by cbv
  rw [scan, ← whole.eq_cut, List.flatMap_cons, List.flatMap_append, flatMap_render_copied]
  change _ ++ (_ ++ scan .className "$sp") = _
  rw [shown]
  rfl

theorem scan_name : scan .className wrapper.name =
    specializedStart ++ (wrapper.arity ++ specializedMark ++ wrapper.tags) ++ specializedEnd := by
  have last : ∃ digit, (specializedStart ++ wrapper.arity).getLast? = some digit ∧
      digit.isDigit := by
    obtain ⟨front, digit, shape⟩ := (List.eq_nil_or_concat wrapper.arity).resolve_left
      wrapper.numbered
    refine ⟨digit, by simp [shape], wrapper.digits digit (by simp [shape])⟩
  obtain ⟨digit, last, isDigit⟩ := last
  have apart : Apart (specializedStart ++ wrapper.arity)
      ('$' :: (("mc" ++ wrapper.tags) ++ "$sp")) := Apart.of_digit last isDigit _
  rw [name_eq, scan_append .className apart (undigited_cons rfl _), scan_start, scan_marked]
  simp only [List.append_assoc]

theorem ofName?_scan_name {type : FunctionType} (made : ofTags? wrapper.tags = some type) :
    ofName? (scan .className wrapper.name) = some type := by
  have unmarked : '#' ∉ wrapper.arity := Text.not_mem_of_digits wrapper.digits rfl
  have special : specialized? (scan .className wrapper.name) = some type := by
    rw [scan_name, specialized?_eq_some_iff]
    exact ⟨_, _, _, rfl, Text.firstAt_of_not_mem unmarked, wrapper.numbered, made⟩
  rw [ofName?, special]
  rfl

theorem display_name {type : FunctionType} (made : ofTags? wrapper.tags = some type) :
    display .className wrapper.name = type.render := by
  rw [display_of_some (wrapper.ofName?_scan_name made)]
  exact List.append_nil _

theorem display_concat (arguments : Text) (result : Char)
    (tags : wrapper.tags = arguments ++ [result]) :
    display .className wrapper.name =
      render ⟨arguments.map fun tag => primitive [tag], primitive [result]⟩ := by
  apply wrapper.display_name
  rw [tags, ofTags?_concat]

theorem exists_ofTags? : ∃ type, ofTags? wrapper.tags = some type :=
  Option.ne_none_iff_exists'.mp (mt ofTags?_eq_none_iff.mp wrapper.tagged)

/-- The tags are among those of the primitive types. -/
def Known : Prop := ∀ tag ∈ wrapper.tags, tag ∈ ("ZIJVSFCDL" : Text)

theorem readTags_display (known : wrapper.Known) :
    readTags (display .className wrapper.name) = wrapper.tags := by
  obtain ⟨type, made⟩ := wrapper.exists_ofTags?
  rw [wrapper.display_name made]
  exact readTags_render made known

theorem display_name_eq_iff {wrapper other : Wrapper} (known : wrapper.Known)
    (alsoKnown : other.Known) :
    display .className wrapper.name = display .className other.name ↔
      wrapper.tags = other.tags := by
  constructor
  · intro same
    rw [← wrapper.readTags_display known, same, other.readTags_display alsoKnown]
  · intro same
    obtain ⟨type, made⟩ := wrapper.exists_ofTags?
    rw [wrapper.display_name made, other.display_name (same ▸ made)]

end Wrapper

open FunctionType in
/-- A specialized function is shown by the type of its result, behind the types of its arguments
if there are any. With primitive types two of them look alike only if all their tags agree. -/
theorem display_wrapper (wrapper other : Wrapper) :
    let shown := display .className wrapper.name
    (∀ result, wrapper.tags = [result] → shown = "(" ++ primitive [result] ++ ")") ∧
    (∀ argument result, wrapper.tags = [argument, result] →
      shown = "(" ++ primitive [argument] ++ " => " ++ primitive [result] ++ ")") ∧
    (∀ arguments result, 2 ≤ arguments.length → wrapper.tags = arguments ++ [result] →
      shown = "((" ++ Text.join ", " (arguments.map fun tag => primitive [tag]) ++ ") => " ++
        primitive [result] ++ ")") ∧
    (wrapper.Known → other.Known →
      (shown = display .className other.name ↔ wrapper.tags = other.tags)) := by
  intro shown
  refine ⟨?_, ?_, ?_, Wrapper.display_name_eq_iff⟩
  · intro result tags
    exact wrapper.display_concat [] result tags
  · intro argument result tags
    exact wrapper.display_concat [argument] result tags
  · intro arguments result several tags
    refine (wrapper.display_concat arguments result tags).trans ?_
    match arguments, several with
    | first :: second :: rest, _ => rfl

theorem wrapper_of_two_arguments :
    let wrapper : Wrapper := ⟨"2", "ZDJ", by decide, by simp, by decide, by simp⟩
    let other : Wrapper := ⟨"02", "ZIJ", by decide, by simp, by decide, by simp⟩
    (wrapper.Known ∧ other.Known ∧ 2 ≤ ("ZD" : Text).length ∧ wrapper.tags = "ZD" ++ ['J']) ∧
      display .className wrapper.name = "((Boolean, Double) => Long)".toList ∧
      display .className wrapper.name ≠ display .className other.name := by
  intro wrapper other
  have known : wrapper.Known := Text.forall_mem_of_all (by decide)
  have alsoKnown : other.Known := Text.forall_mem_of_all (by decide)
  have tags : wrapper.tags = "ZD" ++ ['J'] := by decide
  obtain ⟨-, -, several, alike⟩ := display_wrapper wrapper other
  refine ⟨⟨known, alsoKnown, by decide, tags⟩, ?_, ?_⟩
  · exact (several "ZD" 'J' (by decide) tags).trans (by decide)
  · rw [ne_eq, alike known alsoKnown]
    decide

-- Tags that no primitive type has are all shown alike.
example : display .className "scala.runtime.java8.JFunction1$mcXI$sp" =
    display .className "scala.runtime.java8.JFunction1$mcYI$sp" := by
  cbv

end LegibleTrace.Mangled
