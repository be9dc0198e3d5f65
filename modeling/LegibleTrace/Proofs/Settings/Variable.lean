import LegibleTrace.Proofs.Settings.Merge
import LegibleTrace.Proofs.Text
import LegibleTrace.Proofs.Text.LetterCase
import LegibleTrace.Settings.Variable
import Mathlib.Data.List.Induction

/-! What the variables put into a section. Only the variables named for a key or below it touch
the entry of this key, and they touch nothing else; so what becomes of an entry can be told from
these variables and from what it was. -/
namespace LegibleTrace.Settings

/-- The variables by name, where names are read without regard to case. -/
def caseless (environment : Environment) : Environment :=
  environment.map (Prod.map Text.lower id)

theorem lowerNames_concat {environment : Environment} {name : Text} (content : Text)
    (fresh : ∀ entry ∈ lowerNames environment, entry.1 ≠ Text.lower name) :
    lowerNames (environment ++ [(name, content)]) =
      lowerNames environment ++ [(Text.lower name, content)] := by
  have absent : (lowerNames environment).any (·.1 = Text.lower name) = false := by
    simpa using fresh
  unfold lowerNames at absent ⊢
  rw [List.foldl_append, List.foldl_cons, List.foldl_nil]
  dsimp only
  rw [absent]
  rfl

theorem lowerNames_of_nodup {environment : Environment}
    (distinct : ((caseless environment).map (·.1)).Nodup) :
    lowerNames environment = caseless environment := by
  induction environment using List.reverseRecOn with
  | nil => rfl
  | append_singleton environment entry ih =>
    obtain ⟨name, content⟩ := entry
    have whole : caseless (environment ++ [(name, content)]) =
        caseless environment ++ [(Text.lower name, content)] := List.map_append
    rw [whole, List.map_append, List.nodup_append] at distinct
    have before := ih distinct.1
    rw [whole, lowerNames_concat, before]
    rw [before]
    intro other member
    exact distinct.2.2 _ (List.mem_map_of_mem member) _ List.mem_cons_self

theorem namePath_ne_nil (text : Text) : namePath text ≠ [] := by
  induction text using namePath.induct with
  | case1 rest => simp [namePath]
  | case2 c rest other ih =>
    rw [namePath]
    · cases path : namePath rest with
      | nil => contradiction
      | cons key keys => simp
    · exact other
  | case3 => simp [namePath]

theorem join_namePath (text : Text) : Text.join "__" (namePath text) = text := by
  induction text using namePath.induct with
  | case1 rest ih =>
    obtain ⟨key, keys, path⟩ := List.exists_cons_of_ne_nil (namePath_ne_nil rest)
    rw [path] at ih
    rw [namePath, path, Text.join, List.intercalate_cons_cons, ← Text.join, ih]
    rfl
  | case2 c rest other ih =>
    obtain ⟨key, keys, path⟩ := List.exists_cons_of_ne_nil (namePath_ne_nil rest)
    rw [path] at ih
    rw [namePath, path, List.modifyHead_cons]
    · cases keys with
      | nil =>
        rw [Text.join, List.intercalate_singleton] at ih ⊢
        rw [ih]
      | cons next keys =>
        rw [Text.join, List.intercalate_cons_cons] at ih ⊢
        rw [List.cons_append, List.cons_append, ih]
    · exact other
  | case3 => rfl

/-- A key that stands between doubled low lines as a whole. -/
def Apart (key : Text) : Prop :=
  ¬ "__".toList <:+: key ++ ['_']

theorem namePath_append {key : Text} (apart : Apart key) (rest : Text) :
    namePath (key ++ rest) = (namePath rest).modifyHead (key ++ ·) := by
  induction key with
  | nil =>
    simp only [List.nil_append]
    cases namePath rest <;> rfl
  | cons c key ih =>
    unfold Apart at apart ih
    rw [List.cons_append, List.infix_cons_iff, not_or] at apart
    rw [List.cons_append, namePath, ih apart.2, List.modifyHead_modifyHead]
    · rfl
    · rintro more rfl begins
      apply apart.1
      cases key with
      | nil => exact List.prefix_refl _
      | cons d key =>
        obtain ⟨rfl, _⟩ := List.cons_eq_cons.mp begins
        exact ⟨_, rfl⟩

/-- What follows a key at the head of a path. -/
def tailOf? (key : Text) : List Text → Option (List Text)
  | [] => none
  | head :: keys => if head = key then some keys else none

theorem tailOf?_eq_some_iff {key : Text} {path keys : List Text} :
    tailOf? key path = some keys ↔ path = key :: keys := by
  cases path with
  | nil => simp [tailOf?]
  | cons head rest => simp [tailOf?]

theorem namePath_of_apart {key : Text} (apart : Apart key) : namePath key = [key] := by
  have alone := namePath_append apart []
  rw [List.append_nil] at alone
  simpa [namePath] using alone

theorem namePath_below {key : Text} (apart : Apart key) (rest : Text) :
    namePath (key ++ "__" ++ rest) = key :: namePath rest := by
  rw [List.append_assoc, namePath_append apart]
  simp [namePath]

theorem tailOf?_namePath {key : Text} (apart : Apart key) (text : Text) :
    tailOf? key (namePath text) =
      if text = key then some [] else (Text.after? (key ++ "__") text).map namePath := by
  split
  · next same =>
    rw [same, namePath_of_apart apart]
    simp [tailOf?]
  · next other =>
    ext keys
    rw [tailOf?_eq_some_iff, Option.map_eq_some_iff]
    constructor
    · intro path
      have whole := join_namePath text
      rw [path] at whole
      cases keys with
      | nil =>
        rw [Text.join, List.intercalate_singleton] at whole
        exact absurd whole.symm other
      | cons next keys =>
        rw [Text.join, List.intercalate_cons_cons, ← Text.join] at whole
        refine ⟨_, Text.after?_eq_some_iff.mpr whole.symm, ?_⟩
        rw [← whole, namePath_below apart] at path
        exact (List.cons_eq_cons.mp path).2
    · rintro ⟨more, longer, rfl⟩
      rw [Text.after?_eq_some_iff.mp longer, namePath_below apart]

/-- What an entry becomes when a value is put at the end of a path below it. -/
def stepped : Option Value → List Text × Value → Value
  | _, ([], value) => value
  | none, (keys, value) => asMapping (assign value keys [])
  | some (.mapping entries), (keys, value) =>
    asMapping (assign value keys (Value.mapping entries).fields)
  | some other, _ => other

theorem assign_cons (value : Value) (key : Text) (keys : List Text) (fields : Fields) :
    assign value (key :: keys) fields =
      fields.set key (stepped (fields.lookup key) (keys, value)) := by
  cases keys with
  | nil => rw [assign, stepped]
  | cons next keys =>
    rw [assign]
    · cases found : fields.lookup key with
      | none => rfl
      | some old =>
        cases old
        case mapping entries => rfl
        all_goals exact (Fields.set_of_lookup found).symm
    · simp

/-- Puts values at the ends of their paths, one after the other. -/
def assignAll (rows : List (List Text × Value)) (fields : Fields) : Fields :=
  rows.foldl (fun fields row => assign row.2 row.1 fields) fields

/-- What an entry becomes of values that are put below it one after the other. -/
def outcome (rows : List (List Text × Value)) (held : Option Value) : Option Value :=
  rows.foldl (fun held row => some (stepped held row)) held

/-- The rows at a key and below it, by what follows the key. -/
def gathered (key : Text) (rows : List (List Text × Value)) : List (List Text × Value) :=
  rows.filterMap fun row => (tailOf? key row.1).map (·, row.2)

/-- Whether a name is the key when it is read without regard to case. -/
def reads (key name : Text) : Bool :=
  Text.lower name = key

/-- The value under a key, where keys are read without regard to case and the last one counts. -/
def valueUnder? (key : Text) (fields : Fields) : Option Value :=
  (fields.filter fun field => reads key field.1).getLast?.map (·.2)

/-- Puts in a value if there is one. -/
def settle (key : Text) (held : Option Value) (fields : Fields) : Fields :=
  held.elim fields fun value => fields.set key value

theorem outcome_some (rows : List (List Text × Value)) (value : Value) :
    ∃ result, outcome rows (some value) = some result := by
  induction rows generalizing value with
  | nil => exact ⟨value, rfl⟩
  | cons row rows ih => exact ih (stepped (some value) row)

theorem settle_lookup (key : Text) (fields : Fields) :
    settle key (fields.lookup key) fields = fields := by
  cases found : fields.lookup key with
  | none => rfl
  | some value => exact Fields.set_of_lookup found

section

variable {key : Text} (small : Text.lower key = key)

include small

theorem filter_settle (held : Option Value) (fields : Fields) :
    (settle key held fields).filter (fun field => reads key field.1) =
      settle key held (fields.filter fun field => reads key field.1) := by
  cases held with
  | none => rfl
  | some value => exact Fields.filter_set_of (decide_eq_true small)

/-- Of the fields whose names read a key only that of the key itself changes. -/
theorem filter_assignAll {rows : List (List Text × Value)}
    (heads : ∀ row ∈ rows, ∀ head ∈ row.1.head?, Text.lower head = key → head = key)
    (fields : Fields) :
    (assignAll rows fields).filter (fun field => reads key field.1) =
      settle key (outcome (gathered key rows) (fields.lookup key))
        (fields.filter fun field => reads key field.1) := by
  have inside (fields : Fields) : (fields.filter fun field => reads key field.1).lookup key =
    fields.lookup key := Fields.lookup_filter (decide_eq_true small)
  induction rows generalizing fields with
  | nil =>
    change _ = settle key (fields.lookup key) _
    rw [← inside, settle_lookup]
    rfl
  | cons row rows ih =>
    obtain ⟨path, value⟩ := row
    have later := ih fun row member => heads row (List.mem_cons_of_mem _ member)
    change (assignAll rows (assign value path fields)).filter _ = _
    rw [later]
    cases path with
    | nil => rfl
    | cons head keys =>
      rw [assign_cons]
      by_cases same : head = key
      · subst same
        have first : gathered head ((head :: keys, value) :: rows) =
            (keys, value) :: gathered head rows := by simp [gathered, tailOf?]
        obtain ⟨result, final⟩ := outcome_some (gathered head rows)
          (stepped (fields.lookup head) (keys, value))
        have after : outcome (gathered head ((head :: keys, value) :: rows))
            (fields.lookup head) = some result := by rw [first, ← final]; rfl
        rw [Fields.lookup_set_self, final, after, Fields.filter_set_of (decide_eq_true small)]
        exact Fields.set_set _ _
      · have other : reads key head = false :=
          decide_eq_false fun read => same (heads _ List.mem_cons_self head rfl read)
        have first : gathered key ((head :: keys, value) :: rows) = gathered key rows := by
          simp [gathered, tailOf?, same]
        rw [Fields.lookup_set_of_ne same, first, Fields.filter_set_of_not other]

theorem valueUnder?_assignAll {rows : List (List Text × Value)}
    (heads : ∀ row ∈ rows, ∀ head ∈ row.1.head?, Text.lower head = key → head = key)
    (fields : Fields) :
    valueUnder? key (assignAll rows fields) =
      valueUnder? key (settle key (outcome (gathered key rows) (fields.lookup key)) fields) := by
  rw [valueUnder?, valueUnder?, filter_assignAll small heads, filter_settle small]

end

theorem lookup_lowerKeys (depth : Nat) (key : Text) (value : Value) :
    (lowerKeys (depth + 1) value).fields.lookup key =
      (valueUnder? key value.fields).map (lowerKeys depth) := by
  cases value
  case mapping entries =>
    rw [lowerKeys, fields_asMapping, Fields.lookup_foldl_set Text.lower (lowerKeys depth),
      valueUnder?, Option.map_map]
    exact Option.or_none
  all_goals rfl

section

variable {rows : List (List Text × Value)}

/-- Values that are put below a mapping are put into its fields. -/
theorem outcome_of_mapping (inner : ∀ row ∈ rows, row.1 ≠ []) (entries : List (Value × Value)) :
    ∃ result, outcome rows (some (.mapping entries)) = some (.mapping result) ∧
      (Value.mapping result).fields = assignAll rows (Value.mapping entries).fields := by
  induction rows generalizing entries with
  | nil => exact ⟨entries, rfl, rfl⟩
  | cons row rows ih =>
    obtain ⟨path, value⟩ := row
    obtain ⟨key, keys, rfl⟩ := List.exists_cons_of_ne_nil (inner _ List.mem_cons_self)
    have later := ih fun row member => inner row (List.mem_cons_of_mem _ member)
    obtain ⟨result, final, inside⟩ :=
      later ((assign value (key :: keys) (Value.mapping entries).fields).map
        fun field => (.text field.1, field.2))
    refine ⟨result, final, ?_⟩
    rw [inside]
    exact congrArg (assignAll rows) (fields_asMapping _)

theorem outcome_of_none (inner : ∀ row ∈ rows, row.1 ≠ []) (nonempty : rows ≠ []) :
    ∃ result, outcome rows none = some (.mapping result) ∧
      (Value.mapping result).fields = assignAll rows [] := by
  cases rows with
  | nil => contradiction
  | cons row rows =>
    obtain ⟨path, value⟩ := row
    obtain ⟨key, keys, rfl⟩ := List.exists_cons_of_ne_nil (inner _ List.mem_cons_self)
    exact outcome_of_mapping inner []

/-- What is not a mapping stays if values are put below it only. -/
theorem outcome_of_inner (inner : ∀ row ∈ rows, row.1 ≠ []) {held : Value}
    (solid : ∀ entries, held ≠ .mapping entries) :
    outcome rows (some held) = some held := by
  induction rows with
  | nil => rfl
  | cons row rows ih =>
    obtain ⟨path, value⟩ := row
    obtain ⟨key, keys, rfl⟩ := List.exists_cons_of_ne_nil (inner _ List.mem_cons_self)
    have stays : stepped (some held) (key :: keys, value) = held := by
      cases held
      case mapping entries => exact absurd rfl (solid entries)
      all_goals rfl
    change outcome rows (some (stepped (some held) (key :: keys, value))) = _
    rw [stays]
    exact ih fun row member => inner row (List.mem_cons_of_mem _ member)

end

/-- The rows of the variables whose names begin in one way, by the rest of their names. -/
def assigned (nested : List Text) (named : Environment) (start : Text) :
    List (List Text × Value) :=
  named.filterMap fun entry => (Text.after? start entry.1).map fun rest =>
    (namePath rest, (fieldValue? nested (namePath rest) entry.2).getD .null)

/-- The rows of the variable of a name and of those below it. -/
def rowsAt (value : Text → Value) (named : Environment) (name : Text) :
    List (List Text × Value) :=
  named.filterMap fun entry =>
    if entry.1 = name then some ([], value entry.2)
    else (Text.after? (name ++ "__") entry.1).map fun rest => (namePath rest, .text entry.2)

theorem assigned_inner (nested : List Text) (named : Environment) (start : Text) :
    ∀ row ∈ assigned nested named start, row.1 ≠ [] := by
  intro row member
  obtain ⟨entry, _, made⟩ := List.mem_filterMap.mp member
  obtain ⟨rest, _, rfl⟩ := Option.map_eq_some_iff.mp made
  exact namePath_ne_nil rest

/-- The first key of a row is a part of the name of its variable. -/
theorem assigned_head {nested : List Text} {named : Environment} {start : Text}
    {row : List Text × Value} (member : row ∈ assigned nested named start) {head : Text}
    (first : head ∈ row.1.head?) : ∃ entry ∈ named, head ⊆ entry.1 := by
  obtain ⟨entry, inside, made⟩ := List.mem_filterMap.mp member
  obtain ⟨rest, after, rfl⟩ := Option.map_eq_some_iff.mp made
  refine ⟨entry, inside, ?_⟩
  rw [Text.after?_eq_some_iff.mp after]
  obtain ⟨keys, path⟩ := List.head?_eq_some_iff.mp first
  change namePath rest = head :: keys at path
  rw [← join_namePath rest, path]
  apply List.subset_append_of_subset_right
  cases keys with
  | nil => simp [Text.join]
  | cons next keys =>
    rw [Text.join, List.intercalate_cons_cons, List.append_assoc]
    exact List.subset_append_left _ _

theorem assigned_eq_nil_iff {nested : List Text} {named : Environment} {start : Text} :
    assigned nested named start = [] ↔ ∀ entry ∈ named, ¬ start <+: entry.1 := by
  simp only [assigned, List.filterMap_eq_nil_iff, Option.map_eq_none_iff, Text.after?_eq_none_iff]

theorem fieldValue?_of_inner {nested : List Text} {key : Text} {keys : List Text} (content : Text)
    (inner : keys ≠ []) : fieldValue? nested (key :: keys) content = some (.text content) := by
  rw [fieldValue?, if_neg]
  simp [inner]

theorem gathered_assigned {key : Text} (apart : Apart key) (nested : List Text)
    (named : Environment) (start : Text) :
    gathered key (assigned nested named start) =
      rowsAt (fun content => (fieldValue? nested [key] content).getD .null) named
        (start ++ key) := by
  rw [gathered, assigned, rowsAt, List.filterMap_filterMap]
  congr 1
  funext entry
  cases begins : Text.after? start entry.1 with
  | none =>
    rw [Text.after?_eq_none_iff] at begins
    rw [if_neg]
    · have longer : Text.after? (start ++ key ++ "__") entry.1 = none := by
        rw [Text.after?_eq_none_iff]
        rintro ⟨rest, whole⟩
        exact begins ⟨key ++ ("__" ++ rest), by simpa using whole⟩
      rw [longer]
      rfl
    · intro whole
      exact begins ⟨key, whole.symm⟩
  | some rest =>
    rw [Text.after?_eq_some_iff.mp begins, List.append_assoc, Text.after?_append]
    simp only [List.append_cancel_left_eq, Option.map_some, Option.bind_some,
      tailOf?_namePath apart]
    split
    · next same =>
      rw [same, namePath_of_apart apart]
      rfl
    · next other =>
      cases below : Text.after? (key ++ "__") rest with
      | none => rfl
      | some more =>
        rw [Text.after?_eq_some_iff.mp below, namePath_below apart,
          fieldValue?_of_inner _ (namePath_ne_nil more)]
        rfl

theorem rowsAt_of_absent (value : Text → Value) {named : Environment} {name : Text}
    (absent : ∀ entry ∈ named, entry.1 ≠ name) :
    rowsAt value named name = assigned [] named (name ++ "__") := by
  apply List.filterMap_congr
  intro entry member
  rw [if_neg (absent entry member)]
  simp [fieldValue?]

/-- A variable stands between others that have other names. -/
theorem split_of_value? {named : Environment} {name content : Text}
    (distinct : (named.map (·.1)).Nodup) (found : named.value? name = some content) :
    ∃ before behind, named = before ++ (name, content) :: behind ∧
      (∀ entry ∈ before, entry.1 ≠ name) ∧ ∀ entry ∈ behind, entry.1 ≠ name := by
  obtain ⟨before, behind, rfl, absent⟩ := List.lookup_eq_some_iff.mp found
  refine ⟨before, behind, rfl, ?_, ?_⟩
  · intro entry member same
    simpa [same] using absent entry member
  · rw [List.map_append, List.map_cons, List.nodup_append, List.nodup_cons] at distinct
    intro entry member same
    exact distinct.2.1.1 (List.mem_map.mpr ⟨entry, member, same⟩)

/-- The value of the variable of a name replaces what those before it have put in. -/
theorem outcome_rowsAt (value : Text → Value) {before behind : Environment} {name : Text}
    (content : Text) (absent : ∀ entry ∈ behind, entry.1 ≠ name) (held : Option Value) :
    outcome (rowsAt value (before ++ (name, content) :: behind) name) held =
      outcome (assigned [] behind (name ++ "__")) (some (value content)) := by
  have split : rowsAt value (before ++ (name, content) :: behind) name =
      rowsAt value before name ++ ([], value content) :: rowsAt value behind name := by
    simp [rowsAt]
  rw [split, rowsAt_of_absent value absent, outcome, List.foldl_append, List.foldl_cons, stepped]
  rfl

theorem fieldVariables?_eq {nested : List Text} {named : Environment} {area : Text}
    (readable : ∀ entry ∈ named, ∀ rest,
      Text.after? (sectionName area ++ "__") entry.1 = some rest →
      (fieldValue? nested (namePath rest) entry.2).isSome) :
    fieldVariables? nested named area =
      some (assignAll (assigned nested named (sectionName area ++ "__")) []) := by
  rw [fieldVariables?]
  generalize ([] : Fields) = fields
  induction named generalizing fields with
  | nil => rfl
  | cons entry named ih =>
    obtain ⟨name, content⟩ := entry
    have later := ih fun other member => readable other (List.mem_cons_of_mem _ member)
    have first := readable (name, content) List.mem_cons_self
    rw [List.foldlM_cons, assigned, List.filterMap_cons]
    cases begins : Text.after? (sectionName area ++ "__") name with
    | none =>
      simp only [begins]
      exact later fields
    | some rest =>
      obtain ⟨value, read⟩ := Option.isSome_iff_exists.mp (first rest begins)
      dsimp only at read
      simp only [begins, read, Option.map_some, Option.getD_some]
      exact later (assign value (namePath rest) fields)

end LegibleTrace.Settings
