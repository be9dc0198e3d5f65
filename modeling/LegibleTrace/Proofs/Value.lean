import LegibleTrace.Value
import Mathlib.Data.List.Basic

/-! Values and their fields. Setting a field changes what is found under its name and leaves the
others; set under changed names, the last field of a name is what is found. -/
namespace LegibleTrace

/-- A value without the entries that it has as a mapping. -/
def Value.outline : Value → Value
  | .mapping _ => .mapping []
  | value => value

theorem Value.isMapping_iff {value : Value} :
    value.isMapping ↔ ∃ entries, value = .mapping entries := by
  cases value <;> simp [isMapping]

theorem Value.isMapping_outline (value : Value) : value.outline.isMapping = value.isMapping := by
  cases value <;> rfl

theorem Value.map_isMapping_of_outline {held other : Option Value}
    (same : held.map outline = other.map outline) :
    held.map isMapping = other.map isMapping := by
  have outlined (held : Option Value) :
      (held.map outline).map isMapping = held.map isMapping := by
    rw [Option.map_map]
    congr 1
    funext value
    exact value.isMapping_outline
  rw [← outlined held, same, outlined other]

theorem Value.fields_of_solid {value : Value} (solid : value.isMapping = false) :
    value.fields = [] := by
  cases value
  case mapping entries => cases solid
  all_goals rfl

namespace Fields

/-- The value that is given last under a name. -/
def given? (name : Text) (fields : Fields) : Option Value :=
  (fields.filter (·.1 = name)).getLast?.map Prod.snd

/-- No name occurs twice. -/
def Distinct (fields : Fields) : Prop :=
  (fields.map Prod.fst).Nodup

variable {fields : Fields} {name key : Text} {value : Value}

theorem reach?_singleton (fields : Fields) (key : Text) :
    fields.reach? [key] = fields.lookup key := by
  cases found : fields.lookup key <;> simp [reach?, Value.reach?, found]

theorem reach?_pair (fields : Fields) (key next : Text) :
    fields.reach? [key, next] = (fields.lookup key).bind fun value => value.fields.lookup next := by
  rw [reach?]
  congr 1
  funext value
  exact reach?_singleton value.fields next

theorem mem_keys_iff : key ∈ fields.map Prod.fst ↔ (fields.lookup key).isSome := by
  simp [List.lookup_isSome_iff]

theorem lookup_set_self (fields : Fields) (name : Text) (value : Value) :
    (fields.set name value).lookup name = some value := by
  induction fields with
  | nil => simp [set]
  | cons field fields ih =>
    obtain ⟨other, old⟩ := field
    by_cases same : other = name
    · simp [set, same]
    · simp [set, same, List.lookup_cons, beq_false_of_ne (Ne.symm same), ih]

theorem lookup_set_of_ne (apart : name ≠ key) :
    (fields.set name value).lookup key = fields.lookup key := by
  induction fields with
  | nil => simp [set, List.lookup_cons, beq_false_of_ne (Ne.symm apart)]
  | cons field fields ih =>
    obtain ⟨other, old⟩ := field
    by_cases same : other = name
    · simp [set, same, List.lookup_cons, beq_false_of_ne (Ne.symm apart)]
    · simp [set, same, List.lookup_cons, ih]

theorem set_set (first second : Value) :
    (fields.set name first).set name second = fields.set name second := by
  induction fields with
  | nil => simp [set]
  | cons field fields ih =>
    obtain ⟨other, old⟩ := field
    by_cases same : other = name
    · simp [set, same]
    · simp [set, same, ih]

theorem set_of_lookup (found : fields.lookup name = some value) :
    fields.set name value = fields := by
  induction fields with
  | nil => contradiction
  | cons field fields ih =>
    obtain ⟨other, old⟩ := field
    by_cases same : other = name
    · subst same
      rw [List.lookup_cons_self, Option.some_inj] at found
      rw [set, if_pos rfl, found]
    · rw [List.lookup_cons, beq_false_of_ne (Ne.symm same)] at found
      rw [set, if_neg same, ih found]

theorem map_set (change : Value → Value) :
    (fields.set name value).map (Prod.map id change) =
      set name (change value) (fields.map (Prod.map id change)) := by
  induction fields with
  | nil => rfl
  | cons field fields ih =>
    obtain ⟨other, old⟩ := field
    by_cases same : other = name
    · simp [set, same]
    · simp [set, same, ih]

section

variable {kept : Text → Bool}

theorem filter_set_of_not (dropped : kept name = false) :
    (fields.set name value).filter (kept ·.1) = fields.filter (kept ·.1) := by
  induction fields with
  | nil => simp [set, dropped]
  | cons field fields ih =>
    obtain ⟨other, old⟩ := field
    by_cases same : other = name
    · simp [set, same, dropped]
    · simp [set, same, List.filter_cons, ih]

theorem filter_set_of (stays : kept name = true) :
    (fields.set name value).filter (kept ·.1) =
      set name value (fields.filter (kept ·.1)) := by
  induction fields with
  | nil => simp [set, stays]
  | cons field fields ih =>
    obtain ⟨other, old⟩ := field
    by_cases same : other = name
    · simp [set, same, stays]
    · cases keep : kept other <;> simp [set, same, keep, ih]

theorem lookup_filter (stays : kept key = true) :
    (fields.filter (kept ·.1)).lookup key = fields.lookup key := by
  induction fields with
  | nil => rfl
  | cons field fields ih =>
    obtain ⟨other, old⟩ := field
    by_cases same : key = other
    · subst same
      simp [stays]
    · cases keep : kept other <;> simp [keep, List.lookup_cons, beq_false_of_ne same, ih]

theorem lookup_filter_of_not (dropped : kept key = false) :
    (fields.filter (kept ·.1)).lookup key = none := by
  rw [List.lookup_eq_none_iff]
  intro field inside
  have stays := (List.mem_filter.mp inside).2
  rw [bne_iff_ne]
  intro same
  rw [← same, dropped] at stays
  contradiction

end

theorem lookup_map_value (change : Text → Value → Value) :
    (fields.map fun field => (field.1, change field.1 field.2)).lookup key =
      (fields.lookup key).map (change key) := by
  induction fields with
  | nil => rfl
  | cons field fields ih =>
    obtain ⟨other, old⟩ := field
    by_cases same : key = other
    · subst same
      simp
    · simp [List.lookup_cons, beq_false_of_ne same, ih]

theorem lookup_foldl_set (rename : Text → Text) (change : Value → Value) (before : Fields) :
    (fields.foldl (fun named field => named.set (rename field.1) (change field.2)) before).lookup
        key =
      ((fields.filter (rename ·.1 = key)).getLast?.map (change ·.2)).or (before.lookup key) := by
  induction fields generalizing before with
  | nil => rfl
  | cons field fields ih =>
    rw [List.foldl_cons, ih]
    by_cases same : rename field.1 = key
    · rw [List.filter_cons_of_pos (by simpa using same), List.getLast?_cons, same,
        lookup_set_self]
      cases (fields.filter (rename ·.1 = key)).getLast? <;> rfl
    · rw [List.filter_cons_of_neg (by simpa using same), lookup_set_of_ne same]

theorem lookup_override (fields changes : Fields) (name : Text) :
    (fields.override changes).lookup name = (given? name changes).or (fields.lookup name) :=
  lookup_foldl_set id id fields

theorem lookup_erase_self (fields : Fields) (name : Text) :
    (fields.erase name).lookup name = none := by
  let kept (other : Text) : Bool := other != name
  have dropped : kept name = false := bne_self_eq_false name
  exact lookup_filter_of_not dropped

theorem lookup_erase_of_ne (apart : key ≠ name) :
    (fields.erase name).lookup key = fields.lookup key := by
  let kept (other : Text) : Bool := other != name
  have stays : kept key = true := bne_iff_ne.mpr apart
  exact lookup_filter stays

theorem mem_map_fst_set :
    key ∈ (fields.set name value).map Prod.fst ↔ key = name ∨ key ∈ fields.map Prod.fst := by
  induction fields with
  | nil => simp [set]
  | cons field fields ih =>
    obtain ⟨other, old⟩ := field
    by_cases same : other = name
    · simp [set, same]
    · simp only [set, same, if_false, List.map_cons, List.mem_cons, ih]
      exact or_left_comm

namespace Distinct

theorem nil : Distinct [] :=
  List.nodup_nil

theorem set (distinct : Distinct fields) (name : Text) (value : Value) :
    Distinct (fields.set name value) := by
  induction fields with
  | nil => exact List.pairwise_singleton _ name
  | cons field fields ih =>
    obtain ⟨other, old⟩ := field
    obtain ⟨fresh, rest⟩ := List.nodup_cons.mp distinct
    by_cases same : other = name
    · subst same
      rw [Fields.set, if_pos rfl]
      exact distinct
    · rw [Fields.set, if_neg same]
      refine List.nodup_cons.mpr ⟨?_, ih rest⟩
      rw [mem_map_fst_set]
      rintro (rfl | inside)
      · exact same rfl
      · exact fresh inside

theorem filter (distinct : Distinct fields) (kept : Text × Value → Bool) :
    Distinct (fields.filter kept) :=
  List.Nodup.sublist (List.filter_sublist.map Prod.fst) distinct

theorem override (distinct : Distinct fields) (changes : Fields) :
    Distinct (fields.override changes) := by
  induction changes generalizing fields with
  | nil => exact distinct
  | cons change changes ih => exact ih (distinct.set change.1 change.2)

end Distinct
end Fields
end LegibleTrace
