import ImportResolution.Resolution.Basic

/-!
# Searches

Below the aliases, resolution asks the locator one question after the other and takes
the first answer. `Attempt.search` says this in one place: a list of candidates, each a
question with what becomes of its answer. Attempts that are made after one another are
one search through all their candidates (`Attempt.orElse_search`,
`Attempt.firstOf_search`), however they are nested.
-/

namespace ImportResolution

namespace Locator

/-- The questions that are asked until one is answered, that one included. -/
def asked (locator : Locator) (queries : List Query) : List Query :=
  queries.takeWhile (fun query => (locator.answer query).isNone) ++
    (queries.find? fun query => (locator.answer query).isSome).toList

variable {locator : Locator}

theorem asked_cons_of_none {query : Query} (unanswered : locator.answer query = none)
    (queries : List Query) : locator.asked (query :: queries) = query :: locator.asked queries := by
  simp [asked, unanswered]

theorem asked_cons_of_some {query : Query} {path : Path}
    (answered : locator.answer query = some path) (queries : List Query) :
    locator.asked (query :: queries) = [query] := by
  simp [asked, answered]

theorem asked_append_of_none {first : List Query}
    (unanswered : ∀ query ∈ first, locator.answer query = none) (second : List Query) :
    locator.asked (first ++ second) = first ++ locator.asked second := by
  induction first with
  | nil => rfl
  | cons query first ih =>
      rw [List.cons_append, asked_cons_of_none (unanswered query (by simp)),
        ih fun other mem => unanswered other (by simp [mem])]
      rfl

theorem asked_of_none {queries : List Query}
    (unanswered : ∀ query ∈ queries, locator.answer query = none) :
    locator.asked queries = queries := by
  have whole := asked_append_of_none unanswered []
  simpa [asked] using whole

theorem asked_append_of_some {first : List Query}
    (answered : ∃ query ∈ first, (locator.answer query).isSome) (second : List Query) :
    locator.asked (first ++ second) = locator.asked first := by
  induction first with
  | nil => simp at answered
  | cons query first ih =>
      cases answer : locator.answer query with
      | some path =>
          rw [List.cons_append, asked_cons_of_some answer, asked_cons_of_some answer]
      | none =>
          have later : ∃ query ∈ first, (locator.answer query).isSome := by
            simpa [answer] using answered
          rw [List.cons_append, asked_cons_of_none answer, asked_cons_of_none answer, ih later]

/-- A question is answered, and none of the questions before it is. -/
def AnswersFirst (locator : Locator) (queries before : List Query) (query : Query) : Prop :=
  ∃ after, queries = before ++ query :: after ∧
    (∀ earlier ∈ before, locator.answer earlier = none) ∧ (locator.answer query).isSome

theorem AnswersFirst.exists_answered {queries before : List Query} {query : Query}
    (first : locator.AnswersFirst queries before query) :
    ∃ query ∈ queries, (locator.answer query).isSome := by
  rcases first with ⟨after, rfl, -, answered⟩
  exact ⟨query, by simp, answered⟩

/-- The questions up to the first that is answered are asked, and no other. -/
theorem AnswersFirst.asked_eq {queries before : List Query} {query : Query}
    (first : locator.AnswersFirst queries before query) :
    locator.asked queries = before ++ [query] := by
  rcases first with ⟨after, rfl, unanswered, answered⟩
  rcases Option.isSome_iff_exists.mp answered with ⟨path, answer⟩
  rw [asked_append_of_none unanswered, asked_cons_of_some answer]

end Locator

/-- A question with what becomes of its answer. -/
structure Candidate (α : Type) where
  query : Query
  form : Path → α

namespace Candidate

variable {α β : Type}

/-- What the answer becomes, if there is one. -/
def value? (locator : Locator) (candidate : Candidate α) : Option α :=
  (locator.answer candidate.query).map candidate.form

/-- The same question with another form of what becomes of its answer. -/
def map (candidate : Candidate α) (form : α → β) : Candidate β :=
  ⟨candidate.query, form ∘ candidate.form⟩

theorem findSome?_map {locator : Locator} (candidates : List (Candidate α)) (form : α → β) :
    (candidates.map fun candidate => candidate.map form).findSome? (value? locator) =
      (candidates.findSome? (value? locator)).map form := by
  induction candidates with
  | nil => rfl
  | cons candidate candidates ih =>
      cases answer : locator.answer candidate.query with
      | none =>
          simp only [List.map_cons, List.findSome?_cons, value?, Candidate.map, answer] at ih ⊢
          exact ih
      | some path => simp [value?, Candidate.map, answer]

theorem isSome_findSome?_iff {locator : Locator} {candidates : List (Candidate α)} :
    (candidates.findSome? (value? locator)).isSome ↔
      ∃ query ∈ candidates.map Candidate.query, (locator.answer query).isSome := by
  rw [List.isSome_findSome?, List.any_eq_true]
  simp only [value?, Option.isSome_map]
  constructor
  · rintro ⟨candidate, candidate_mem, answered⟩
    exact ⟨candidate.query, List.mem_map_of_mem candidate_mem, answered⟩
  · rintro ⟨_, query_mem, answered⟩
    rcases List.mem_map.mp query_mem with ⟨candidate, candidate_mem, rfl⟩
    exact ⟨candidate, candidate_mem, answered⟩

theorem findSome?_eq_none_iff {locator : Locator} {candidates : List (Candidate α)} :
    candidates.findSome? (value? locator) = none ↔
      ∀ query ∈ candidates.map Candidate.query, locator.answer query = none := by
  rw [List.findSome?_eq_none_iff]
  simp [value?]

end Candidate

namespace Attempt

variable {α β : Type} {locator : Locator}

/-- The attempt that tries candidates in order up to the first whose question is answered. -/
def search (locator : Locator) (candidates : List (Candidate α)) : Attempt α :=
  ⟨candidates.findSome? (Candidate.value? locator), [],
    locator.asked (candidates.map Candidate.query)⟩

@[simp]
theorem miss_map (form : α → β) : (miss : Attempt α).map form = miss := rfl

@[simp]
theorem miss_orElse (second : Attempt α) : miss.orElse second = second := rfl

theorem search_nil : search locator ([] : List (Candidate α)) = miss := rfl

theorem ask_eq_search (query : Query) : ask locator query = search locator [⟨query, id⟩] := by
  cases answer : locator.answer query with
  | none => simp [ask, search, Candidate.value?, answer, Locator.asked]
  | some path => simp [ask, search, Candidate.value?, answer, Locator.asked]

theorem map_search (candidates : List (Candidate α)) (form : α → β) :
    (search locator candidates).map form =
      search locator (candidates.map fun candidate => candidate.map form) := by
  rw [search, search, Candidate.findSome?_map, List.map_map]
  rfl

/-- A search after a search is one search through the candidates of both. -/
theorem orElse_search (first second : List (Candidate α)) :
    (search locator first).orElse (search locator second) = search locator (first ++ second) := by
  cases value : first.findSome? (Candidate.value? locator) with
  | some found =>
      have answered := Candidate.isSome_findSome?_iff.mp (Option.isSome_of_eq_some value)
      simp [orElse, search, value, List.findSome?_append, Locator.asked_append_of_some answered]
  | none =>
      have unanswered := Candidate.findSome?_eq_none_iff.mp value
      simp [orElse, search, value, List.findSome?_append, Locator.asked_of_none unanswered,
        Locator.asked_append_of_none unanswered]

/-- Nothing after a candidate that has an answer is tried. -/
theorem search_append_of_answered {first : List (Candidate α)}
    (answered : ∃ query ∈ first.map Candidate.query, (locator.answer query).isSome)
    (second : List (Candidate α)) :
    search locator (first ++ second) = search locator first := by
  rcases Option.isSome_iff_exists.mp (Candidate.isSome_findSome?_iff.mpr answered) with
    ⟨value, found⟩
  rw [← orElse_search, orElse, search, found]

/-- A search depends on the locator by the answers to its own questions. -/
theorem search_congr {other : Locator} {candidates : List (Candidate α)}
    (agree : ∀ query ∈ candidates.map Candidate.query,
      locator.answer query = other.answer query) :
    search locator candidates = search other candidates := by
  induction candidates with
  | nil => rfl
  | cons candidate candidates ih =>
      have here : search locator [candidate] = search other [candidate] := by
        simp [search, Candidate.value?, Locator.asked, List.takeWhile,
          agree candidate.query (by simp)]
      have later := ih fun query query_mem => agree query (by simp_all)
      rw [← List.singleton_append, ← orElse_search, ← orElse_search, here, later]

/-- Searches made in order are one search through the candidates of all. -/
theorem firstOf_search (candidates : β → List (Candidate α)) (items : List β) :
    firstOf (fun item => search locator (candidates item)) items =
      search locator (items.flatMap candidates) := by
  induction items with
  | nil => rfl
  | cons item items ih => rw [firstOf, ih, orElse_search, List.flatMap_cons]

end Attempt

end ImportResolution
