import LegibleTrace.Proofs.Settings.Variable

/-! What the environment holds for a setting. The variable named for it comes first, then one
named for a place below it, and in a section with a variable of its own only the variables behind
that one count. The entries of a mapping do not matter, for no setting is read from a mapping. -/
namespace LegibleTrace.Settings

/-- What the variables of a setting make of its entry: the text of its own one, or else, with a
variable named for a place below it, a mapping if nothing else is there. The entries of that mapping
are left out. -/
def afterVariables (named : Environment) (name : Text) (held : Option Value) : Option Value :=
  match named.value? name with
  | some content => some (.text content)
  | none =>
    if (named.any fun entry => (name ++ "__").isPrefixOf entry.1) ∧ held.all Value.isMapping then
      some (.mapping [])
    else held

/-- The fields of a section in its own variable, and the variables behind it. -/
def opening (named : Environment) (name : Text) : Fields × Environment :=
  match named.dropWhile (·.1 ≠ name) with
  | [] => ([], named)
  | (_, content) :: behind => (((Json.read? content).map Value.fields).getD [], behind)

/-- The value at the end of a path of keys that are read without regard to case. -/
def entryAt? : List Text → Value → Option Value
  | [], value => some value
  | key :: keys, value => (valueUnder? key value.fields).bind (entryAt? keys)

/-- Names in lower case, each once. -/
structure WellNamed (named : Environment) : Prop where
  distinct : (named.map (·.1)).Nodup
  small : ∀ entry ∈ named, ∀ c ∈ entry.1, Text.isCapital c = false

/-- A word that can be a key on the way to a setting. -/
structure IsKey (key : Text) : Prop where
  apart : Apart key
  plain : ∀ c ∈ key, Text.isPlain c = true
  small : Text.lower key = key

theorem outline_lowerKeys (depth : Nat) (value : Value) :
    (lowerKeys depth value).outline = value.outline := by
  cases depth <;> cases value <;> rfl

theorem lowerKeys_zero (value : Value) : lowerKeys 0 value = value := by
  cases value <;> rfl

theorem wellNamed_caseless {environment : Environment}
    (distinct : ((caseless environment).map (·.1)).Nodup) : WellNamed (caseless environment) := by
  refine ⟨distinct, ?_⟩
  intro entry member c inside
  obtain ⟨original, _, rfl⟩ := List.mem_map.mp member
  exact Text.not_isCapital_of_mem_lower inside

theorem WellNamed.sublist {part named : Environment} (wellNamed : WellNamed named)
    (kept : part.Sublist named) : WellNamed part where
  distinct := wellNamed.distinct.sublist (kept.map _)
  small entry member := wellNamed.small entry (kept.subset member)

/-- In rows of well-named variables only the key itself reads as the key. -/
theorem WellNamed.heads {named : Environment} (wellNamed : WellNamed named) {key : Text}
    (isKey : IsKey key) (nested : List Text) (start : Text) :
    ∀ row ∈ assigned nested named start, ∀ head ∈ row.1.head?,
      Text.lower head = key → head = key := by
  intro row member head first same
  obtain ⟨entry, inside, part⟩ := assigned_head member first
  have kept := Text.lower_of_plain (fun c here => wellNamed.small entry inside c (part here))
    (same ▸ isKey.plain)
  rw [← kept, same]

section

variable {named : Environment} {name : Text}

theorem value?_eq_none_iff : named.value? name = none ↔ ∀ entry ∈ named, entry.1 ≠ name := by
  simp only [Environment.value?, List.lookup_eq_none_iff, bne_iff_ne, ne_comm]

theorem any_isPrefixOf_iff {start : Text} :
    (named.any fun entry => start.isPrefixOf entry.1) ↔ ∃ entry ∈ named, start <+: entry.1 := by
  simp

theorem afterVariables_of_none_below (held : Option Value)
    (none_below : ¬ ∃ entry ∈ named, name ++ "__".toList <+: entry.1) :
    afterVariables named name held = ((named.value? name).map .text).or held := by
  rw [afterVariables]
  cases named.value? name with
  | some content => rfl
  | none =>
    apply if_neg
    rintro ⟨below, _⟩
    exact none_below (any_isPrefixOf_iff.mp below)

theorem afterVariables_of_below {held : Option Value} (unset : named.value? name = none)
    (below : ∃ entry ∈ named, name ++ "__".toList <+: entry.1) (shaped : held.all Value.isMapping) :
    afterVariables named name held = some (.mapping []) := by
  rw [afterVariables, unset]
  exact if_pos ⟨any_isPrefixOf_iff.mpr below, shaped⟩

theorem afterVariables_of_solid {held : Value} (unset : named.value? name = none)
    (solid : ∀ entries, held ≠ .mapping entries) :
    afterVariables named name (some held) = some held := by
  rw [afterVariables, unset]
  apply if_neg
  rintro ⟨_, shaped⟩
  cases held
  case mapping entries => exact solid entries rfl
  all_goals contradiction

/-- What the rows of a name and below it make of an entry, but for the entries of a mapping. -/
theorem outline_outcome (wellNamed : WellNamed named) (name : Text) (held : Option Value) :
    (outcome (rowsAt .text named name) held).map Value.outline =
      (afterVariables named name held).map Value.outline := by
  cases found : named.value? name with
  | some content =>
    obtain ⟨before, behind, rfl, _, absent⟩ := split_of_value? wellNamed.distinct found
    have solid : ∀ entries, Value.text content ≠ .mapping entries := nofun
    rw [outcome_rowsAt _ _ absent, outcome_of_inner (assigned_inner [] _ _) solid, afterVariables,
      found]
  | none =>
    rw [rowsAt_of_absent _ (value?_eq_none_iff.mp found)]
    have inner := assigned_inner [] named (name ++ "__")
    by_cases below : ∃ entry ∈ named, name ++ "__".toList <+: entry.1
    · have nonempty : assigned [] named (name ++ "__") ≠ [] := by
        rw [ne_eq, assigned_eq_nil_iff]
        simpa using below
      cases held with
      | none =>
        obtain ⟨result, final, _⟩ := outcome_of_none inner nonempty
        rw [final, afterVariables_of_below found below rfl]
        rfl
      | some value =>
        by_cases mapping : ∃ entries, value = .mapping entries
        · obtain ⟨entries, rfl⟩ := mapping
          obtain ⟨result, final, _⟩ := outcome_of_mapping inner entries
          rw [final, afterVariables_of_below found below rfl]
          rfl
        · rw [outcome_of_inner inner (not_exists.mp mapping),
            afterVariables_of_solid found (not_exists.mp mapping)]
    · have empty : assigned [] named (name ++ "__") = [] := by
        rw [assigned_eq_nil_iff]
        simpa using below
      rw [empty, afterVariables_of_none_below held below, found]
      rfl

end

/-- The entries of a section that its variables give. -/
def layer (nested : List Text) (named : Environment) (area : Text) : Value :=
  lowerKeys 2 (asMapping (assignAll (assigned nested named (sectionName area ++ "__")) []))

theorem valueUnder?_settle_nil {key : Text} (small : Text.lower key = key) (held : Option Value) :
    valueUnder? key (settle key held []) = held := by
  cases held with
  | none => rfl
  | some value =>
    have read : reads key key = true := decide_eq_true small
    simp [settle, Fields.set, valueUnder?, read]

theorem map_valueUnder? (change : Value → Value) (key : Text) (fields : Fields) :
    (valueUnder? key fields).map change = valueUnder? key (fields.map (Prod.map id change)) := by
  rw [valueUnder?, valueUnder?, List.filter_map, List.getLast?_map, Option.map_map, Option.map_map]
  rfl

theorem map_settle (change : Value → Value) (key : Text) (held : Option Value) (fields : Fields) :
    (settle key held fields).map (Prod.map id change) =
      settle key (held.map change) (fields.map (Prod.map id change)) := by
  cases held with
  | none => rfl
  | some value => exact Fields.map_set change

theorem outline_valueUnder?_settle {key : Text} {held other : Option Value}
    (same : held.map Value.outline = other.map Value.outline) (fields : Fields) :
    (valueUnder? key (settle key held fields)).map Value.outline =
      (valueUnder? key (settle key other fields)).map Value.outline := by
  rw [map_valueUnder?, map_valueUnder?, map_settle, map_settle, same]

section

variable {named : Environment} {area key : Text} (wellNamed : WellNamed named)
  (isKey : IsKey key)

include wellNamed isKey

theorem valueUnder?_assigned (nested : List Text) (fields : Fields) (start : Text) :
    valueUnder? key (assignAll (assigned nested named start) fields) =
      valueUnder? key (settle key
        (outcome (rowsAt (fun content => (fieldValue? nested [key] content).getD .null) named
          (start ++ key)) (fields.lookup key)) fields) := by
  have heads := wellNamed.heads isKey nested start
  rw [valueUnder?_assignAll isKey.small heads, gathered_assigned isKey.apart]

theorem lookup_layer (nested : List Text) :
    (layer nested named area).fields.lookup key =
      (outcome (rowsAt (fun content => (fieldValue? nested [key] content).getD .null) named
        (sectionName area ++ "__" ++ key)) none).map (lowerKeys 1) := by
  rw [layer, lookup_lowerKeys, fields_asMapping, valueUnder?_assigned wellNamed isKey,
    List.lookup_nil, valueUnder?_settle_nil isKey.small]

/-- What is put under a key of fields that were there before. -/
theorem outline_valueUnder?_assignAll (fields : Fields) (start : Text) :
    (valueUnder? key (assignAll (assigned [] named start) fields)).map Value.outline =
      (valueUnder? key (settle key
        (afterVariables named (start ++ key) (fields.lookup key)) fields)).map Value.outline := by
  rw [valueUnder?_assigned wellNamed isKey]
  exact outline_valueUnder?_settle (outline_outcome wellNamed _ _) fields

theorem outline_layer {nested : List Text} (outer : key ∉ nested) :
    ((layer nested named area).fields.lookup key).map Value.outline =
      (afterVariables named (sectionName area ++ "__" ++ key) none).map Value.outline := by
  have text : (fun content => (fieldValue? nested [key] content).getD .null) = Value.text := by
    funext content
    rw [fieldValue?, if_neg]
    · rfl
    · simp [outer]
  rw [lookup_layer wellNamed isKey, text, ← outline_outcome wellNamed, Option.map_map]
  congr 1
  funext value
  exact outline_lowerKeys 1 value

end

theorem opening_of_absent {named : Environment} {name : Text}
    (absent : ∀ entry ∈ named, entry.1 ≠ name) : opening named name = ([], named) := by
  have none_left : named.dropWhile (·.1 ≠ name) = [] := by
    rw [List.dropWhile_eq_nil_iff]
    simpa using absent
  rw [opening, none_left]

theorem opening_of_split {before behind : Environment} {name content : Text}
    {entries : List (Value × Value)} (absent : ∀ entry ∈ before, entry.1 ≠ name)
    (object : Json.read? content = some (.mapping entries)) :
    opening (before ++ (name, content) :: behind) name =
      ((Value.mapping entries).fields, behind) := by
  have rest : (before ++ (name, content) :: behind).dropWhile (·.1 ≠ name) =
      (name, content) :: behind := by
    rw [List.dropWhile_append_of_pos (by simpa using absent), List.dropWhile_cons_of_neg (by simp)]
  rw [opening, rest]
  simp [object]

theorem opening_sublist (named : Environment) (name : Text) :
    (opening named name).2.Sublist named := by
  rw [opening]
  split
  · exact List.Sublist.refl named
  · next content behind rest =>
    have tail : ((_, content) :: behind).Sublist named := rest ▸ List.dropWhile_sublist _
    exact (List.sublist_cons_self _ behind).trans tail

theorem fieldValue?_of_object {inner content : Text} {value : Value}
    (object : Json.read? content = some value) :
    fieldValue? [inner] [inner] content = some value := by
  rw [fieldValue?, if_pos, object]
  refine ⟨List.mem_cons_self, ?_⟩
  rintro rfl
  contradiction

/-- A section inside a section is found if a variable is named for it or below it. It has then the
fields of its own variable, and those that the variables behind it put into it. -/
inductive Found (named : Environment) (name : Text) : Option Value → Prop
  | missing (unnamed : afterVariables named name none = none)
      (empty : (opening named name).1 = [])
      (alone : assigned [] (opening named name).2 (name ++ "__") = []) : Found named name none
  | present (entries : List (Value × Value)) (reached : afterVariables named name none ≠ none)
      (holds : ∀ key, (Value.mapping entries).fields.lookup key =
        valueUnder? key (assignAll (assigned [] (opening named name).2 (name ++ "__"))
          (opening named name).1)) : Found named name (some (.mapping entries))

section

variable {named : Environment} {name : Text}

theorem Found.of_mapping {result : List (Value × Value)}
    (reached : afterVariables named name none ≠ none)
    (inside : (Value.mapping result).fields =
      assignAll (assigned [] (opening named name).2 (name ++ "__")) (opening named name).1) :
    Found named name (some (lowerKeys 1 (.mapping result))) := by
  apply Found.present _ reached
  intro key
  have lookup := lookup_lowerKeys 0 key (.mapping result)
  rw [funext lowerKeys_zero, Option.map_id', inside] at lookup
  exact lookup

variable (wellNamed : WellNamed named) (value : Text → Value)

include wellNamed

theorem Found.of_unset (unset : named.value? name = none) :
    Found named name ((outcome (rowsAt value named name) none).map (lowerKeys 1)) := by
  have absent := value?_eq_none_iff.mp unset
  have opened := opening_of_absent absent
  have after := outline_outcome wellNamed name none
  rw [rowsAt_of_absent _ absent] at after ⊢
  by_cases empty : assigned [] named (name ++ "__") = []
  · rw [empty] at after ⊢
    apply Found.missing
    · exact Option.map_eq_none_iff.mp after.symm
    · rw [opened]
    · rw [opened, empty]
  · obtain ⟨result, final, inside⟩ := outcome_of_none (assigned_inner [] _ _) empty
    rw [final] at after ⊢
    apply Found.of_mapping
    · intro missing
      rw [missing] at after
      contradiction
    · rw [opened, inside]

theorem Found.of_set {content : Text} {entries : List (Value × Value)}
    (set : named.value? name = some content) (object : Json.read? content = some (.mapping entries))
    (read : value content = .mapping entries) :
    Found named name ((outcome (rowsAt value named name) none).map (lowerKeys 1)) := by
  have reached : afterVariables named name none ≠ none := by
    rw [afterVariables, set]
    exact Option.some_ne_none _
  obtain ⟨before, behind, rfl, early, late⟩ := split_of_value? wellNamed.distinct set
  rw [outcome_rowsAt _ _ late, read]
  obtain ⟨result, final, inside⟩ :=
    outcome_of_mapping (assigned_inner [] behind (name ++ "__")) entries
  rw [final]
  apply Found.of_mapping reached
  rw [opening_of_split early object, inside]

end

section

variable {named : Environment} {area inner : Text} (wellNamed : WellNamed named)
  (isInner : IsKey inner)
  (object : ∀ content, named.value? (sectionName area ++ "__" ++ inner) = some content →
    ∃ entries, Json.read? content = some (.mapping entries))

include wellNamed isInner object

theorem found_layer :
    Found named (sectionName area ++ "__" ++ inner)
      ((layer [inner] named area).fields.lookup inner) := by
  rw [lookup_layer wellNamed isInner]
  cases set : named.value? (sectionName area ++ "__" ++ inner) with
  | none => exact Found.of_unset wellNamed _ set
  | some content =>
    obtain ⟨entries, read⟩ := object content set
    apply Found.of_set wellNamed _ set read
    rw [fieldValue?_of_object read]
    rfl

/-- What a section inside a section holds under a key. -/
theorem outline_layer_inner {key : Text} (isKey : IsKey key) :
    let name := sectionName area ++ "__" ++ inner
    let fields := (opening named name).1
    let behind := (opening named name).2
    (((layer [inner] named area).fields.lookup inner).bind
        fun value => value.fields.lookup key).map Value.outline =
      (valueUnder? key (settle key
        (afterVariables behind (name ++ "__" ++ key) (fields.lookup key)) fields)).map
          Value.outline := by
  intro name fields behind
  have later := wellNamed.sublist (opening_sublist named name)
  have found : Found named name _ := found_layer wellNamed isInner object
  rw [← outline_valueUnder?_assignAll later isKey]
  generalize (layer [inner] named area).fields.lookup inner = value at found ⊢
  cases found with
  | missing unnamed empty alone =>
    simp only [fields, empty, alone]
    rfl
  | present entries reached holds => exact congrArg _ (holds key)

end

/-- The section that a variable of its own holds in JSON. -/
def jsonOf? (named : Environment) (area : Text) : Option Value :=
  (named.value? (sectionName area)).bind Json.read?

theorem outline_lookup_lowerKeys (key : Text) (value : Value) :
    ((lowerKeys 2 value).fields.lookup key).map Value.outline =
      (entryAt? [key] value).map Value.outline := by
  rw [lookup_lowerKeys, Option.map_map, entryAt?]
  cases valueUnder? key value.fields with
  | none => rfl
  | some found => exact congrArg some (outline_lowerKeys 1 found)

theorem lookup_lowerKeys_inner (inner key : Text) (value : Value) :
    ((lowerKeys 2 value).fields.lookup inner).bind (fun found => found.fields.lookup key) =
      entryAt? [inner, key] value := by
  rw [lookup_lowerKeys, entryAt?]
  cases valueUnder? inner value.fields with
  | none => rfl
  | some found =>
    change (lowerKeys 1 found).fields.lookup key = entryAt? [key] found
    rw [lookup_lowerKeys, entryAt?, funext lowerKeys_zero, Option.map_id']
    cases valueUnder? key found.fields <;> rfl

theorem value?_of_mem {named : Environment} (distinct : (named.map (·.1)).Nodup)
    {entry : Text × Text} (member : entry ∈ named) : named.value? entry.1 = some entry.2 := by
  cases found : named.value? entry.1 with
  | none => exact absurd rfl (value?_eq_none_iff.mp found entry member)
  | some content =>
    obtain ⟨before, behind, rfl, early, late⟩ := split_of_value? distinct found
    rcases List.mem_append.mp member with inside | inside
    · exact absurd rfl (early entry inside)
    · rcases List.mem_cons.mp inside with same | inside
      · rw [same]
      · exact absurd rfl (late entry inside)

/-- Only a section inside a section is read, and its variable can be. -/
theorem readable_of_objects {nested : List Text} {named : Environment} {area : Text}
    (distinct : (named.map (·.1)).Nodup)
    (objects : ∀ inner ∈ nested, ∀ content,
      named.value? (sectionName area ++ "__" ++ inner) = some content →
      ∃ entries, Json.read? content = some (.mapping entries)) :
    ∀ entry ∈ named, ∀ rest, Text.after? (sectionName area ++ "__") entry.1 = some rest →
      (fieldValue? nested (namePath rest) entry.2).isSome := by
  intro entry member rest begins
  rw [fieldValue?]
  split
  · next whole =>
    obtain ⟨inner, inside, path⟩ := List.mem_map.mp whole.1
    have alone : rest = inner := by
      rw [← join_namePath rest, ← path, Text.join, List.intercalate_singleton]
    have found := value?_of_mem distinct member
    rw [Text.after?_eq_some_iff.mp begins, alone] at found
    obtain ⟨entries, read⟩ := objects inner inside _ found
    rw [read]
    rfl
  · rfl

/-- The fields of a section in JSON, with keys in lower case. -/
def jsonFields (named : Environment) (area : Text) : Fields :=
  ((jsonOf? named area).map fun value => (lowerKeys 2 value).fields).getD []

theorem merge_nil (fields : Fields) : merge fields [] = fields := by
  have same : (Value.mapping fields.entries).fields = fields := fields_asMapping fields
  have alone (value : Value) : laidOver none value = value := laidOver_of_solid fun _ _ _ => nofun
  rw [merge, List.filter_nil, List.append_nil, overEntries_eq, same]
  simp [alone]

section

variable {nested : List Text} {named : Environment} {area : Text}
  (readable : ∀ entry ∈ named, ∀ rest,
    Text.after? (sectionName area ++ "__") entry.1 = some rest →
    (fieldValue? nested (namePath rest) entry.2).isSome)

include readable

theorem sectionVariables?_of_unset (unset : named.value? (sectionName area) = none) :
    sectionVariables? nested named area =
      some (if (layer nested named area).fields = [] then none
        else some (layer nested named area)) := by
  rw [sectionVariables?, unset, fieldVariables?_eq readable]
  rfl

theorem sectionVariables?_of_object {content : Text} {entries : List (Value × Value)}
    (set : named.value? (sectionName area) = some content)
    (object : Json.read? content = some (.mapping entries)) :
    sectionVariables? nested named area =
      some (some (laidOver (some (lowerKeys 2 (.mapping entries))) (layer nested named area))) := by
  rw [sectionVariables?, set, fieldVariables?_eq readable]
  dsimp only
  rw [object]
  rfl

/-- The environment holds the entries that the variables of a section give, put over those of the
section in JSON. -/
theorem exists_section
    (object : ∀ content, named.value? (sectionName area) = some content →
      ∃ entries, Json.read? content = some (.mapping entries)) :
    ∃ held, sectionVariables? nested named area = some held ∧
      (∀ value, held = some value → value.isMapping) ∧
      ∀ key keys, held.bind (Value.reach? (key :: keys)) =
        (merge (layer nested named area).fields (jsonFields named area)).reach? (key :: keys) := by
  obtain ⟨inner, shaped⟩ := Value.isMapping_iff.mp (rfl : (layer nested named area).isMapping)
  cases set : named.value? (sectionName area) with
  | none =>
    have nothing : jsonFields named area = [] := by rw [jsonFields, jsonOf?, set]; rfl
    refine ⟨_, sectionVariables?_of_unset readable set, ?_, ?_⟩
    · split
      · nofun
      · rintro _ ⟨⟩
        rfl
    · intro key keys
      rw [nothing, merge_nil]
      split
      · next empty =>
        rw [empty]
        rfl
      · rfl
  | some content =>
    obtain ⟨entries, read⟩ := object content set
    obtain ⟨outer, lowered⟩ :=
      Value.isMapping_iff.mp (rfl : (lowerKeys 2 (.mapping entries)).isMapping)
    have json : jsonFields named area = (Value.mapping outer).fields := by
      rw [jsonFields, jsonOf?, set, Option.bind_some, read, ← lowered]
      rfl
    refine ⟨_, sectionVariables?_of_object readable set read, ?_, ?_⟩
    · rintro _ ⟨⟩
      rw [shaped, lowered]
      rfl
    · intro key keys
      rw [shaped, lowered, json, ← fields_laidOver]
      rfl

end

end LegibleTrace.Settings
