import LegibleTrace.Proofs.Value
import LegibleTrace.Settings.Merge

/-! Fields over other fields. What is found at the end of a path is what the first fields have
there, or else the others, as long as nothing but mappings is on the way. -/
namespace LegibleTrace.Settings

/-- One way to put fields over others: mappings that meet are put together in the same way, and
otherwise the first value stands. -/
structure MergesDeeply (merge : Fields → Fields → Fields) : Prop where
  absent : ∀ fields below key, fields.lookup key = none →
    (merge fields below).lookup key = below.lookup key
  solid : ∀ fields below key value, fields.lookup key = some value →
    (∀ inner outer, value = .mapping inner → below.lookup key ≠ some (.mapping outer)) →
    (merge fields below).lookup key = some value
  mapping : ∀ fields below key inner outer, fields.lookup key = some (.mapping inner) →
    below.lookup key = some (.mapping outer) →
    ∃ merged, (merge fields below).lookup key = some (.mapping merged) ∧
      (Value.mapping merged).fields =
        merge (Value.mapping inner).fields (Value.mapping outer).fields

/-- All that fields have on the way to a place are mappings. -/
def Passable : List Text → Fields → Prop
  | key :: next :: keys, fields => ∀ value, fields.lookup key = some value →
    value.isMapping ∧ Passable (next :: keys) value.fields
  | _, _ => True

theorem fields_asMapping (fields : Fields) : (asMapping fields).fields = fields := by
  rw [asMapping, Value.fields, Fields.entries, List.filterMap_map]
  exact List.filterMap_some

section

variable {merge : Fields → Fields → Fields} (deep : MergesDeeply merge)

include deep

theorem MergesDeeply.outline_lookup (fields below : Fields) (key : Text) :
    ((merge fields below).lookup key).map Value.outline =
      ((fields.lookup key).or (below.lookup key)).map Value.outline := by
  cases first : fields.lookup key with
  | none => rw [deep.absent _ _ _ first, Option.none_or]
  | some value =>
    rw [Option.some_or]
    by_cases meet : ∃ inner outer, value = .mapping inner ∧ below.lookup key = some (.mapping outer)
    · obtain ⟨inner, outer, rfl, second⟩ := meet
      obtain ⟨merged, found, _⟩ := deep.mapping _ _ _ _ _ first second
      rw [found]
      rfl
    · rw [deep.solid _ _ _ _ first]
      intro inner outer shaped second
      exact meet ⟨inner, outer, shaped, second⟩

theorem MergesDeeply.outline_reach? {location : List Text} {fields : Fields}
    (passable : Passable location fields) (below : Fields) :
    ((merge fields below).reach? location).map Value.outline =
      ((fields.reach? location).or (below.reach? location)).map Value.outline := by
  induction location generalizing fields below with
  | nil => rfl
  | cons key location ih =>
    cases location with
    | nil =>
      simp only [Fields.reach?_singleton]
      exact deep.outline_lookup fields below key
    | cons next keys =>
      cases first : fields.lookup key with
      | none =>
        simp only [Fields.reach?, deep.absent _ _ _ first, first, Option.bind_none, Option.none_or]
      | some value =>
        obtain ⟨shaped, within⟩ := passable value first
        obtain ⟨inner, rfl⟩ := Value.isMapping_iff.mp shaped
        by_cases meet : ∃ outer, below.lookup key = some (.mapping outer)
        · obtain ⟨outer, second⟩ := meet
          obtain ⟨merged, found, inside⟩ := deep.mapping _ _ _ _ _ first second
          have later := ih within (Value.mapping outer).fields
          rw [← inside] at later
          simp only [Fields.reach?, first, second, found, Option.bind_some]
          exact later
        · have nothing : below.reach? (key :: next :: keys) = none := by
            rw [Fields.reach?, Option.bind_eq_none_iff]
            intro other second
            rw [Value.reach?, Value.fields_of_solid]
            · rfl
            · cases other
              case mapping outer => exact absurd ⟨outer, second⟩ meet
              all_goals rfl
          rw [nothing, Option.or_none, Fields.reach?, Fields.reach?, first,
            deep.solid _ _ _ _ first]
          exact fun _ outer _ second => meet ⟨outer, second⟩

end

theorem overEntries_eq (below : Fields) (entries : List (Value × Value)) :
    overEntries below entries = (Value.mapping entries).fields.map fun field =>
      (field.1, laidOver (below.lookup field.1) field.2) := by
  induction entries with
  | nil => rfl
  | cons entry entries ih =>
    obtain ⟨key, value⟩ := entry
    rw [overEntries, ih]
    cases key <;> rfl

theorem lookup_merge (fields below : Fields) (key : Text) :
    (merge fields below).lookup key =
      ((fields.lookup key).map (laidOver (below.lookup key))).or (below.lookup key) := by
  have first : (overEntries below fields.entries).lookup key =
      (fields.lookup key).map (laidOver (below.lookup key)) := by
    have same : (Value.mapping fields.entries).fields = fields := fields_asMapping fields
    rw [overEntries_eq, same, Fields.lookup_map_value fun key => laidOver (below.lookup key)]
  rw [merge, List.lookup_append, first]
  cases given : fields.lookup key with
  | some value => rfl
  | none =>
    rw [Option.map_none, Option.none_or, Option.none_or]
    let kept (name : Text) : Bool := (fields.lookup name).isNone
    have stays : kept key = true := by rw [Option.isNone_iff_eq_none]; exact given
    exact Fields.lookup_filter stays

theorem fields_laidOver (inner outer : List (Value × Value)) :
    (laidOver (some (.mapping outer)) (.mapping inner)).fields =
      merge (Value.mapping inner).fields (Value.mapping outer).fields := by
  generalize given : (Value.mapping inner).fields = fields
  have same : (Value.mapping (Fields.entries fields)).fields = fields := fields_asMapping fields
  rw [laidOver, fields_asMapping, merge, overEntries_eq, overEntries_eq, same, given]

theorem laidOver_of_solid {below : Option Value} {value : Value}
    (apart : ∀ inner outer, value = .mapping inner → below ≠ some (.mapping outer)) :
    laidOver below value = value := by
  cases value
  case mapping inner =>
    cases below with
    | none => rfl
    | some other =>
      cases other
      case mapping outer => exact absurd rfl (apart inner outer rfl)
      all_goals rfl
  all_goals rfl

theorem mergesDeeply_merge : MergesDeeply merge where
  absent fields below key missing := by rw [lookup_merge, missing]; rfl
  solid fields below key value found apart := by
    rw [lookup_merge, found, Option.map_some, laidOver_of_solid apart, Option.some_or]
  mapping fields below key inner outer first second := by
    rw [lookup_merge, first, second]
    exact ⟨_, rfl, fields_laidOver inner outer⟩

end LegibleTrace.Settings
