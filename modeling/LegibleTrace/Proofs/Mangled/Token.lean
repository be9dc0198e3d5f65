import LegibleTrace.Mangled.Piece
import Mathlib.Data.List.MinMax

/-! No token of the table begins another, so a name begins with at most one of them. Whoever
looks for a token finds the same one: the first of the table, the shortest, the longest, or
the one in the index, whatever the order of the table. -/
namespace LegibleTrace.Mangled

namespace Token

theorem startsAt_iff {name : Text} {token : Token} :
    startsAt name token = true ↔ token.text <+: name :=
  List.isPrefixOf_iff_prefix

theorem text_ne_nil : ∀ token ∈ table, token.text ≠ [] := by
  decide +kernel

theorem glyph_ne_nil : ∀ token ∈ table, token.glyph ≠ [] := by
  decide +kernel

theorem all_not_isDigit : ∀ token ∈ table, token.text.all (fun c => !c.isDigit) := by
  decide +kernel

theorem not_isDigit_of_mem_text {token : Token} (member : token ∈ table) :
    ∀ c ∈ token.text, c.isDigit = false := by
  simpa using all_not_isDigit token member

theorem digit_not_mem_text {token : Token} {digit : Char} (member : token ∈ table)
    (isDigit : digit.isDigit) : digit ∉ token.text := by
  intro inside
  rw [not_isDigit_of_mem_text member digit inside] at isDigit
  contradiction

theorem not_begins_of_not_mem {token : Token} {c : Char} (member : token ∈ table)
    (absent : c ∉ token.text) (rest : Text) : ¬ token.text <+: c :: rest := by
  obtain ⟨d, text, shape⟩ := List.exists_cons_of_ne_nil (text_ne_nil token member)
  rw [shape] at absent ⊢
  intro begins
  obtain ⟨rfl, _⟩ := List.cons_prefix_cons.mp begins
  exact absent List.mem_cons_self

theorem not_begins_of_isDigit {token : Token} {digit : Char} (member : token ∈ table)
    (isDigit : digit.isDigit) (rest : Text) : ¬ token.text <+: digit :: rest :=
  not_begins_of_not_mem member (digit_not_mem_text member isDigit) rest

theorem eq_of_text_begins : ∀ first ∈ table, ∀ second ∈ table,
    first.text <+: second.text → first = second := by
  decide +kernel

theorem eq_of_startsAt {name : Text} {first second : Token} (one : first ∈ table)
    (other : second ∈ table) (starts : startsAt name first) (begins : startsAt name second) :
    first = second := by
  rw [startsAt_iff] at starts begins
  rcases List.prefix_or_prefix_of_prefix starts begins with shorter | longer
  · exact eq_of_text_begins first one second other shorter
  · exact (eq_of_text_begins second other first one longer).symm

/-- Looking a name up with `find` gives a token with which it begins, if there is one. -/
structure Finds (tokens : List Token) (find : Text → Option Token) : Prop where
  found {name token} (answer : find name = some token) :
    token ∈ tokens ∧ startsAt name token
  missed {name token} (answer : find name = none) (member : token ∈ tokens) :
    ¬ startsAt name token

def first (tokens : List Token) (name : Text) : Option Token :=
  tokens.find? (startsAt name)

def shortest (tokens : List Token) (name : Text) : Option Token :=
  (tokens.filter (startsAt name)).argmin (·.text.length)

def longest (tokens : List Token) (name : Text) : Option Token :=
  (tokens.filter (startsAt name)).argmax (·.text.length)

theorem finds_first (tokens : List Token) : Finds tokens (first tokens) where
  found answer := ⟨List.mem_of_find?_eq_some answer, List.find?_some answer⟩
  missed answer member := List.find?_eq_none.mp answer _ member

theorem finds_of_filter {tokens : List Token} {find : Text → Option Token}
    (chosen : ∀ {name token}, find name = some token → token ∈ tokens.filter (startsAt name))
    (empty : ∀ {name}, find name = none → tokens.filter (startsAt name) = []) :
    Finds tokens find where
  found answer := List.mem_filter.mp (chosen answer)
  missed answer member starts := by
    have fits := List.mem_filter.mpr ⟨member, starts⟩
    rw [empty answer] at fits
    exact List.not_mem_nil fits

theorem finds_shortest (tokens : List Token) : Finds tokens (shortest tokens) :=
  finds_of_filter List.argmin_mem List.argmin_eq_none.mp

theorem finds_longest (tokens : List Token) : Finds tokens (longest tokens) :=
  finds_of_filter List.argmax_mem List.argmax_eq_none.mp

namespace Finds

variable {tokens : List Token} {find : Text → Option Token}

theorem perm {others : List Token} (finds : Finds tokens find) (reordered : tokens.Perm others) :
    Finds others find where
  found answer := ⟨reordered.mem_iff.mp (finds.found answer).1, (finds.found answer).2⟩
  missed answer member := finds.missed answer (reordered.mem_iff.mpr member)

theorem eq_some {name : Text} {token : Token} (finds : Finds table find)
    (member : token ∈ table) (starts : startsAt name token) : find name = some token := by
  cases answer : find name with
  | none => exact absurd starts (finds.missed answer member)
  | some other =>
    obtain ⟨inside, begins⟩ := finds.found answer
    rw [eq_of_startsAt inside member begins starts]

theorem eq_none {name : Text} (finds : Finds table find)
    (absent : ∀ token ∈ table, ¬ startsAt name token) : find name = none := by
  cases answer : find name with
  | none => rfl
  | some other =>
    obtain ⟨inside, begins⟩ := finds.found answer
    exact absurd begins (absent other inside)

theorem unique {other : Text → Option Token} (finds : Finds table find)
    (agrees : Finds table other) : find = other := by
  funext name
  cases answer : other name with
  | none => exact finds.eq_none fun token member => agrees.missed answer member
  | some token =>
    obtain ⟨member, starts⟩ := agrees.found answer
    exact finds.eq_some member starts

end Finds
end Token

namespace Index

theorem mem_group {tokens : List Token} {c : Char} {token : Token} :
    token ∈ group tokens c ↔ token ∈ tokens ∧ token.text.head? = some c := by
  simp [group, List.mem_mergeSort]

theorem lookup_groups (tokens : List Token) (c : Char) :
    ((ofTokens tokens).groups.lookup c).getD [] = group tokens c := by
  by_cases known : c ∈ (tokens.filterMap (·.text.head?)).eraseDups
  · rw [ofTokens, List.lookup_graph (group tokens) known, Option.getD_some]
  · have absent : (ofTokens tokens).groups.lookup c = none := by
      rw [List.lookup_eq_none_iff]
      intro entry member
      obtain ⟨first, inside, rfl⟩ := List.mem_map.mp member
      rw [bne_iff_ne]
      rintro rfl
      exact known inside
    rw [absent, Option.getD_none, eq_comm, List.eq_nil_iff_forall_not_mem]
    intro token member
    obtain ⟨inside, head⟩ := mem_group.mp member
    exact known (List.mem_eraseDups.mpr (List.mem_filterMap.mpr ⟨token, inside, head⟩))

theorem find?_cons (tokens : List Token) (c : Char) (rest : Text) :
    (ofTokens tokens).find? (c :: rest) =
      (group tokens c).find? (Token.startsAt (c :: rest)) := by
  rw [find?, lookup_groups]

theorem finds_ofTokens {tokens : List Token} (nonempty : ∀ token ∈ tokens, token.text ≠ []) :
    Token.Finds tokens (ofTokens tokens).find? where
  found {name token} answer := by
    cases name with
    | nil => contradiction
    | cons c rest =>
      rw [find?_cons] at answer
      exact ⟨(mem_group.mp (List.mem_of_find?_eq_some answer)).1, List.find?_some answer⟩
  missed {name token} answer member starts := by
    have beginning := Token.startsAt_iff.mp starts
    cases name with
    | nil => exact nonempty token member (List.prefix_nil.mp beginning)
    | cons c rest =>
      obtain ⟨d, text, shape⟩ := List.exists_cons_of_ne_nil (nonempty token member)
      rw [shape, List.cons_prefix_cons] at beginning
      rw [find?_cons] at answer
      have head : token.text.head? = some c := by rw [shape, beginning.1, List.head?_cons]
      exact List.find?_eq_none.mp answer token (mem_group.mpr ⟨member, head⟩) starts

theorem finds_standard : Token.Finds Token.table standard.find? :=
  finds_ofTokens Token.text_ne_nil

end Index
end LegibleTrace.Mangled
