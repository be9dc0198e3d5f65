import LegibleTrace.Mangled.Display
import LegibleTrace.Proofs.Text

/-! Function types as shown. One is read from a name that begins with either of two class names,
and is written with few characters: the marks around its types and the letters of those. -/
namespace LegibleTrace.Mangled

namespace FunctionType

/-- All characters with which a function type is written. -/
def alphabet : Text := "(), =>?" ++ primitives.flatMap Prod.snd

variable {type : FunctionType} {name : Text}

theorem primitive_subset (tag : Text) : primitive tag ⊆ alphabet := by
  rw [primitive]
  cases found : primitives.lookup tag with
  | none =>
    have unknown : ("?" : Text) ⊆ alphabet := by decide
    exact unknown
  | some name =>
    obtain ⟨before, behind, shape, _⟩ := List.lookup_eq_some_iff.mp found
    intro c member
    refine List.mem_append_right _ (List.mem_flatMap.mpr ⟨(tag, name), ?_, member⟩)
    exact shape ▸ List.mem_append_right before List.mem_cons_self

theorem render_subset (result : type.result ⊆ alphabet)
    (domain : ∀ argument ∈ type.domain, argument ⊆ alphabet) : type.render ⊆ alphabet := by
  have marks : ∀ mark ∈ (["(", "((", ")", ", ", " => ", ") => "] : List Text),
      mark ⊆ alphabet := by decide
  simp only [List.forall_mem_cons] at marks
  obtain ⟨opening, openings, closing, comma, arrow, arrows, _⟩ := marks
  have joined := Text.join_subset comma domain
  rcases shape : type.domain with _ | ⟨argument, _ | ⟨second, rest⟩⟩
  · simp only [render, shape, List.append_subset]
    exact ⟨⟨opening, result⟩, closing⟩
  · have single := domain argument (by simp [shape])
    simp only [render, shape, List.append_subset]
    exact ⟨⟨⟨⟨opening, single⟩, arrow⟩, result⟩, closing⟩
  · rw [shape] at joined
    simp only [render, shape, List.append_subset]
    exact ⟨⟨⟨⟨openings, joined⟩, arrows⟩, result⟩, closing⟩

theorem render_subset_of_ofTags? {tags : Text} (made : ofTags? tags = some type) :
    type.render ⊆ alphabet := by
  obtain ⟨result, _, rfl⟩ := Option.map_eq_some_iff.mp made
  refine render_subset (primitive_subset _) ?_
  intro argument member
  obtain ⟨tag, _, rfl⟩ := List.mem_map.mp member
  exact primitive_subset [tag]

theorem ofTags?_eq_none_iff {tags : Text} : ofTags? tags = none ↔ tags = [] := by
  rw [ofTags?, Option.map_eq_none_iff, List.getLast?_eq_none_iff]

theorem specialized?_eq_some_iff :
    specialized? name = some type ↔
      ∃ body stem tags, name = specializedStart ++ body ++ specializedEnd ∧
        Text.FirstAt specializedMark body stem tags ∧ stem ≠ [] ∧ ofTags? tags = some type := by
  simp only [specialized?, Option.bind_eq_bind, Option.bind_eq_some_iff, Prod.exists,
    Text.after?_eq_some_iff, Text.before?_eq_some_iff, Text.breakOn?_eq_some_iff,
    Option.ite_none_left_eq_some]
  constructor
  · rintro ⟨_, rfl, body, rfl, stem, tags, around, nonempty, made⟩
    exact ⟨body, stem, tags, (List.append_assoc _ _ _).symm, around, nonempty, made⟩
  · rintro ⟨body, stem, tags, rfl, around, nonempty, made⟩
    exact ⟨_, List.append_assoc _ _ _, body, rfl, stem, tags, around, nonempty, made⟩

theorem specialized?_eq_none_iff :
    specialized? name = none ↔
      ¬ ∃ body stem tags, name = specializedStart ++ body ++ specializedEnd ∧
        Text.FirstAt specializedMark body stem tags ∧ stem ≠ [] ∧ tags ≠ [] := by
  rw [Option.eq_none_iff_forall_ne_some]
  constructor
  · rintro unmade ⟨body, stem, tags, whole, around, nonempty, tagged⟩
    obtain ⟨type, made⟩ := Option.ne_none_iff_exists'.mp (mt ofTags?_eq_none_iff.mp tagged)
    refine unmade type (specialized?_eq_some_iff.mpr ?_)
    exact ⟨body, stem, tags, whole, around, nonempty, made⟩
  · intro unmarked type special
    obtain ⟨body, stem, tags, whole, around, nonempty, made⟩ := specialized?_eq_some_iff.mp special
    have tagged : tags ≠ [] := by
      rw [ne_eq, ← ofTags?_eq_none_iff, made]
      exact Option.some_ne_none type
    exact unmarked ⟨body, stem, tags, whole, around, nonempty, tagged⟩

theorem specialized?_of_unmarked (unmarked : '#' ∉ name) : specialized? name = none := by
  rw [specialized?_eq_none_iff]
  rintro ⟨body, stem, tags, whole, _⟩
  rw [whole] at unmarked
  exact unmarked (List.mem_append_right _ (by decide))

theorem procedure?_eq_some_iff :
    procedure? name = some type ↔
      ∃ suffix, name = procedureStart ++ suffix ∧
        type = ⟨List.replicate (max (arity suffix) 1) "Any", "Unit"⟩ := by
  simp only [procedure?, Option.map_eq_some_iff, Text.after?_eq_some_iff, eq_comm (b := type)]

theorem procedure?_eq_none_iff : procedure? name = none ↔ ¬ procedureStart <+: name := by
  rw [procedure?, Option.map_eq_none_iff, Text.after?_eq_none_iff]

theorem ofName?_eq_none_iff :
    ofName? name = none ↔ specialized? name = none ∧ procedure? name = none := by
  rw [ofName?, Option.orElse_eq_orElse, Option.orElse_eq_or, Option.or_eq_none_iff]

theorem ofName?_eq_some (made : ofName? name = some type) :
    specialized? name = some type ∨ procedure? name = some type := by
  rw [ofName?, Option.orElse_eq_orElse, Option.orElse_eq_or, Option.or_eq_some_iff] at made
  exact made.imp_right And.right

theorem ofName?_of_unspecialized (unspecialized : specialized? name = none) :
    ofName? name = procedure? name := by
  rw [ofName?, unspecialized]
  rfl

/-- A function type is shown with the letters of the primitive types and the marks alone. -/
theorem render_subset_of_ofName? (made : ofName? name = some type) :
    type.render ⊆ alphabet := by
  rcases ofName?_eq_some made with special | procedure
  · obtain ⟨_, _, _, _, _, _, made⟩ := specialized?_eq_some_iff.mp special
    exact render_subset_of_ofTags? made
  · obtain ⟨suffix, _, rfl⟩ := procedure?_eq_some_iff.mp procedure
    refine render_subset (primitive_subset "V") ?_
    intro argument member
    obtain rfl := (List.mem_replicate.mp member).2
    exact primitive_subset "L"

theorem dot_not_mem_of_ofName? (made : ofName? name = some type) : '.' ∉ type.render := by
  have absent : '.' ∉ alphabet := by decide
  exact fun member => absent (render_subset_of_ofName? made member)

theorem head?_render (type : FunctionType) : type.render.head? = some '(' := by
  rw [render]
  split <;> rfl

theorem head?_of_ofName? (made : ofName? name = some type) : name.head? = some 's' := by
  rcases ofName?_eq_some made with special | procedure
  · obtain ⟨_, _, _, rfl, _⟩ := specialized?_eq_some_iff.mp special
    rfl
  · obtain ⟨_, rfl, _⟩ := procedure?_eq_some_iff.mp procedure
    rfl

theorem ofName?_render (type : FunctionType) : ofName? type.render = none := by
  rw [Option.eq_none_iff_forall_ne_some]
  intro other made
  have start := head?_of_ofName? made
  rw [head?_render] at start
  exact absurd start (by decide)

theorem ne_render_of_ofName? (made : ofName? name = some type) : name ≠ type.render := by
  rintro rfl
  rw [ofName?_render] at made
  contradiction

end FunctionType

/-- A class name is shown by its pieces unless they spell a function type. -/
theorem display_eq_scan_iff (name : Text) :
    display .className name = scan .className name ↔
      FunctionType.ofName? (scan .className name) = none := by
  rw [display]
  cases made : FunctionType.ofName? (scan .className name) with
  | none => simp [Context.ending]
  | some type => simpa [Context.ending] using (FunctionType.ne_render_of_ofName? made).symm

end LegibleTrace.Mangled
