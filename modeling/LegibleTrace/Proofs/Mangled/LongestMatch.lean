import LegibleTrace.Proofs.Mangled.Token

/-! The index over a table in which tokens begin one another, or are listed twice. Filing by the
first character loses no token that can fit, sorting puts a longer one before a shorter, and
because it is stable the earlier of two with the same text stays the earlier. -/
namespace LegibleTrace.Mangled

/-- A token with which `name` begins, no shorter than any other such token of the table and the
first of the table with its text. -/
structure LongestMatch (tokens : List Token) (name : Text) (token : Token) : Prop where
  begins : token.text <+: name
  longest : ∀ other ∈ tokens, other.text <+: name → other.text.length ≤ token.text.length
  earliest : tokens.find? (·.text = token.text) = some token

section

variable {tokens : List Token} {find : Text → Option Token} {name text : Text}
  {token other : Token} {c : Char}

namespace LongestMatch

theorem mem (chosen : LongestMatch tokens name token) : token ∈ tokens :=
  List.mem_of_find?_eq_some chosen.earliest

theorem unique (chosen : LongestMatch tokens name token)
    (rival : LongestMatch tokens name other) : token = other := by
  have lengths : token.text.length = other.text.length :=
    Nat.le_antisymm (rival.longest token chosen.mem chosen.begins)
      (chosen.longest other rival.mem rival.begins)
  have same : token.text = other.text :=
    (List.prefix_of_prefix_length_le chosen.begins rival.begins lengths.le).eq_of_length lengths
  have first := chosen.earliest
  rw [same, rival.earliest] at first
  exact (Option.some.inj first).symm

end LongestMatch

/-- A lookup that finds some fitting token and whose answers are longest matches finds each
longest match. -/
theorem Token.Finds.eq_some_iff_longestMatch (finds : Token.Finds tokens find)
    (chooses : ∀ token, find name = some token → LongestMatch tokens name token)
    (token : Token) : find name = some token ↔ LongestMatch tokens name token := by
  constructor
  · exact chooses token
  · intro chosen
    cases answer : find name with
    | none => exact absurd (Token.startsAt_iff.mpr chosen.begins) (finds.missed answer chosen.mem)
    | some other => rw [(chooses other answer).unique chosen]

theorem longestMatch_of_longest (answer : Token.longest tokens name = some token) :
    LongestMatch tokens name token := by
  obtain ⟨member, longest, first⟩ := List.argmax_eq_some_iff.mp answer
  obtain ⟨inside, starts⟩ := List.mem_filter.mp member
  have begins := Token.startsAt_iff.mp starts
  refine ⟨begins, ?_, ?_⟩
  · intro other member begins
    exact longest other (List.mem_filter.mpr ⟨member, Token.startsAt_iff.mpr begins⟩)
  · -- The first fitting token with this text has no greater index than the one that is found.
    have narrowed : (tokens.filter (Token.startsAt name)).find? (·.text = token.text) =
        tokens.find? (·.text = token.text) := by
      rw [List.find?_filter]
      congr 1
      funext other
      by_cases same : other.text = token.text
      · simp [same, Token.startsAt, List.isPrefixOf_iff_prefix.mpr begins]
      · simp [same]
    rw [← narrowed, List.find?_eq_some_iff_append]
    obtain ⟨before, after, split, apart⟩ := List.eq_append_cons_of_mem member
    refine ⟨by simp, before, after, split, ?_⟩
    intro other ahead
    rw [Bool.not_eq_true', decide_eq_false_iff_not]
    intro same
    have earlier := first other (split ▸ List.mem_append_left _ ahead) (same ▸ Nat.le_refl _)
    rw [split, List.idxOf_append_of_notMem apart, List.idxOf_cons_self,
      List.idxOf_append_of_mem ahead] at earlier
    exact absurd earlier (Nat.not_le.mpr (List.idxOf_lt_length_of_mem ahead))

namespace Index

theorem longer_trans (a b c : Token) (first : decide (b.text.length ≤ a.text.length))
    (second : decide (c.text.length ≤ b.text.length)) :
    decide (c.text.length ≤ a.text.length) := by
  simp only [decide_eq_true_eq] at *
  omega

theorem longer_total (a b : Token) :
    decide (b.text.length ≤ a.text.length) || decide (a.text.length ≤ b.text.length) := by
  simp only [Bool.or_eq_true, decide_eq_true_eq]
  omega

theorem pairwise_group (tokens : List Token) (c : Char) :
    (group tokens c).Pairwise fun earlier later => later.text.length ≤ earlier.text.length :=
  (List.pairwise_mergeSort longer_trans longer_total _).imp of_decide_eq_true

-- Tokens with one text are sorted as they stand, and a stable sort leaves sorted ones alone.
theorem filter_group (tokens : List Token) (head : text.head? = some c) :
    (group tokens c).filter (·.text = text) = tokens.filter (·.text = text) := by
  let filed := tokens.filter (·.text.head? == some c)
  have tied : (filed.filter (·.text = text)).Pairwise
      fun a b => decide (b.text.length ≤ a.text.length) := by
    rw [List.pairwise_filter]
    refine List.pairwise_of_forall fun a b one two => ?_
    rw [of_decide_eq_true one, of_decide_eq_true two]
    exact decide_eq_true (Nat.le_refl _)
  have kept := (List.sublist_mergeSort longer_trans longer_total tied List.filter_sublist).filter
    fun token => decide (token.text = text)
  have perm : ((group tokens c).filter (·.text = text)).Perm (filed.filter (·.text = text)) :=
    (List.mergeSort_perm filed _).filter _
  simp only [List.filter_filter, Bool.and_self] at kept
  calc (group tokens c).filter (·.text = text)
      = filed.filter (·.text = text) := (kept.eq_of_length perm.length_eq.symm).symm
    _ = tokens.filter (·.text = text) := by
        rw [List.filter_filter]
        refine List.filter_congr fun token _ => ?_
        by_cases same : token.text = text <;> simp [same, head]

theorem longestMatch_of_find? (nonempty : ∀ token ∈ tokens, token.text ≠ [])
    (answer : (ofTokens tokens).find? name = some token) : LongestMatch tokens name token := by
  obtain ⟨member, starts⟩ := (finds_ofTokens nonempty).found answer
  have begins := Token.startsAt_iff.mp starts
  obtain ⟨c, rest, rfl⟩ := List.exists_cons_of_ne_nil
    (begins.ne_nil (nonempty token member))
  rw [find?_cons, List.find?_eq_some_iff_append] at answer
  obtain ⟨-, before, after, split, missed⟩ := answer
  have fits {other : Token} (begins : other.text <+: c :: rest) : other ∉ before := by
    intro ahead
    have late := missed other ahead
    rw [Token.startsAt_iff.mpr begins] at late
    contradiction
  have headed {other : Token} (inside : other ∈ tokens) (begins : other.text <+: c :: rest) :
      other.text.head? = some c := by
    obtain ⟨d, text, shape⟩ := List.exists_cons_of_ne_nil (nonempty other inside)
    rw [shape, List.cons_prefix_cons] at begins
    rw [shape, begins.1, List.head?_cons]
  refine ⟨begins, ?_, ?_⟩
  · intro other inside fitting
    have grouped := mem_group.mpr ⟨inside, headed inside fitting⟩
    have sorted := pairwise_group tokens c
    rw [split] at grouped sorted
    rcases List.mem_cons.mp ((List.mem_append.mp grouped).resolve_left (fits fitting)) with
      rfl | behind
    · exact Nat.le_refl _
    · exact (List.pairwise_cons.mp (List.pairwise_append.mp sorted).2.1).1 other behind
  · rw [← List.head?_filter, ← filter_group tokens (headed member begins), split,
      List.head?_filter, List.find?_eq_some_iff_append]
    refine ⟨decide_eq_true rfl, before, after, rfl, ?_⟩
    intro other ahead
    rw [Bool.not_eq_true', decide_eq_false_iff_not]
    intro same
    exact fits (same ▸ begins) ahead

end Index
end

/-- Looking up the index over a table with no empty text, at any place of a name, finds a token
exactly if a token of the table starts there; it finds the longest of those and, of two with the
same text, the first of the table. So does a plain search through the whole table. -/
theorem Index.find?_eq_longest {tokens : List Token} (nonempty : ∀ token ∈ tokens, token.text ≠ [])
    (name : Text) (place : Nat) :
    (((ofTokens tokens).find? (name.drop place)).isSome ↔
      ∃ token ∈ tokens, token.text <+: name.drop place) ∧
    (∀ token, (ofTokens tokens).find? (name.drop place) = some token ↔
      LongestMatch tokens (name.drop place) token) ∧
    (ofTokens tokens).find? (name.drop place) = Token.longest tokens (name.drop place) := by
  have finds := finds_ofTokens nonempty
  have chosen_iff (token : Token) : (ofTokens tokens).find? (name.drop place) = some token ↔
      LongestMatch tokens (name.drop place) token :=
    finds.eq_some_iff_longestMatch (fun token => longestMatch_of_find? nonempty) token
  refine ⟨?_, chosen_iff, ?_⟩
  · constructor
    · intro found
      obtain ⟨token, answer⟩ := Option.isSome_iff_exists.mp found
      obtain ⟨member, starts⟩ := finds.found answer
      exact ⟨token, member, Token.startsAt_iff.mp starts⟩
    · rintro ⟨token, member, begins⟩
      rw [Option.isSome_iff_ne_none]
      exact fun missing => finds.missed missing member (Token.startsAt_iff.mpr begins)
  · apply Option.ext
    intro token
    rw [chosen_iff, (Token.finds_longest tokens).eq_some_iff_longestMatch
      (fun token => longestMatch_of_longest)]

theorem Index.longest_of_nested_texts :
    let tokens : List Token := [.plain "$a" "1", .plain "$ab" "2", .numbered "b" "3",
      .plain "$ab" "4", .plain "$abcd" "5"]
    (∀ token ∈ tokens, token.text ≠ []) ∧
      (ofTokens tokens).find? (("x$abc" : Text).drop 1) = some (.plain "$ab" "2") := by
  intro tokens
  have nonempty : ∀ token ∈ tokens, token.text ≠ [] := by decide
  refine ⟨nonempty, ?_⟩
  rw [(Index.find?_eq_longest nonempty "x$abc" 1).2.1]
  exact ⟨by decide, by decide, by decide⟩

end LegibleTrace.Mangled
