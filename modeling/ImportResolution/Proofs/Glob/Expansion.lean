import ImportResolution.Glob.Expansion
import ImportResolution.Proofs.Glob.Pattern
import ImportResolution.Proofs.Host.Names

/-!
# What an expansion of a glob pattern finds

An expansion goes down one name at a time, and `Glob.Takes` says which names it may take at a
directory and what is left to match then. `Glob.Spells` forgets the directory: it relates
segments to the lists of steps that they stand for. A path that is found is spelled by the
segments (`Glob.exists_spells_of_mem_expandFrom`), whatever else the file tree holds.

For a pattern with one part in front of another, a path has a part for each of them
(`Glob.exists_matches_of_mem_directories`). A step is a name, unless a name of the pattern
matches `.` or `..`.
-/

namespace ImportResolution

namespace Glob

open ImportResolution.Path (IsName AreNames)

variable {host : Host} {segment : Segment} {segments rest : List Segment} {name : Text}
  {steps : List Text}

/-! ## One level -/

/-- A name that is taken at a directory, with the segments that are left behind it. -/
inductive Takes (host : Host) (directory : Path) : List Segment → Text → List Segment → Prop
  | literal {name : Text} {rest : List Segment} :
      Takes host directory (.literal name :: rest) name rest
  | special {segment : Segment} {rest : List Segment} {name : Text}
      (name_mem : name ∈ specialEntries segment) : Takes host directory (segment :: rest) name rest
  | entry {segment : Segment} {rest : List Segment} {entry : Text × Node}
      (entry_mem : entry ∈ host.entries directory) (matched : segment.matchesName entry.1) :
      Takes host directory (segment :: rest) entry.1 rest
  | deeper {rest : List Segment} {entry : Text × Node}
      (entry_mem : entry ∈ host.entries directory) :
      Takes host directory (.recursive :: rest) entry.1 (.recursive :: dropRecursive rest)
  | last {rest : List Segment} {entry : Text × Node}
      (entry_mem : entry ∈ host.entries directory) (isLast : dropRecursive rest = []) :
      Takes host directory (.recursive :: rest) entry.1 []
  | behind {segment : Segment} {rest behind : List Segment} {entry : Text × Node}
      (entry_mem : entry ∈ host.entries directory)
      (isNext : dropRecursive rest = segment :: behind) (matched : segment.matchesName entry.1) :
      Takes host directory (.recursive :: rest) entry.1 behind

theorem reachedEntry_path (host : Host) (path : Path) (entry : Text × Node) :
    (reachedEntry host path entry).path = path.join entry.1 := by
  unfold reachedEntry
  split <;> rfl

/-- One level of an expansion takes a name and has arrived, or goes on from there. -/
theorem exists_takes_of_mem_expandFrom {fuel : Nat} {reached : Reached} {path : Path}
    (path_mem : path ∈ expandFrom host (fuel + 1) segments reached) :
    ∃ name next rest, next.path = reached.path.join name ∧
      Takes host reached.path segments name rest ∧
      (rest = [] ∧ path = next.path ∨ path ∈ expandFrom host fuel rest next) := by
  have onward : ∀ (rest : List Segment) (next : Reached) (name : Text),
      next.path = reached.path.join name → Takes host reached.path segments name rest →
      (path ∈ if rest.isEmpty then [next.path] else expandFrom host fuel rest next) →
      ∃ name next rest, next.path = reached.path.join name ∧
        Takes host reached.path segments name rest ∧
        (rest = [] ∧ path = next.path ∨ path ∈ expandFrom host fuel rest next) := by
    intro rest next name below takes next_mem
    refine ⟨name, next, rest, below, takes, ?_⟩
    split at next_mem
    · rename_i empty
      exact Or.inl ⟨List.isEmpty_iff.mp empty, List.mem_singleton.mp next_mem⟩
    · exact Or.inr next_mem
  cases segments with
  | nil => simp [expandFrom] at path_mem
  | cons segment rest =>
      cases segment with
      | literal name =>
          simp only [expandFrom] at path_mem
          split at path_mem
          · exact onward rest (reachedAt host (reached.path.join name)) name rfl .literal path_mem
          · simp at path_mem
      | wildcard tokens =>
          simp only [expandFrom, reduceCtorEq, if_false, decide_false, Bool.false_and,
            Bool.false_eq_true, List.append_nil, List.mem_ite_nil_right, List.mem_append,
            List.mem_flatMap] at path_mem
          rcases path_mem with
            ⟨-, ⟨name, name_mem, next_mem⟩ | ⟨entry, entry_mem, matched, next_mem⟩⟩
          · exact onward rest _ name rfl (.special name_mem) next_mem
          · exact onward rest _ entry.1 (reachedEntry_path host reached.path entry)
              (.entry entry_mem matched) next_mem
      | recursive =>
          simp only [expandFrom, if_true, decide_true, Bool.true_and, specialEntries,
            List.mem_ite_nil_right, List.mem_append, List.mem_flatMap, List.not_mem_nil,
            false_and, exists_false, false_or] at path_mem
          rcases path_mem with ⟨-, entry, entry_mem, next_mem⟩
          have below := reachedEntry_path host reached.path entry
          split at next_mem
          · rename_i isLast
            simp only [List.mem_ite_nil_right, List.mem_cons] at next_mem
            rcases next_mem with ⟨-, here | ⟨-, deeper⟩⟩
            · exact ⟨entry.1, _, [], below, .last entry_mem isLast, Or.inl ⟨rfl, here⟩⟩
            · exact ⟨entry.1, _, _, below, .deeper entry_mem, Or.inr deeper⟩
          · rename_i segment behind isNext
            simp only [List.mem_ite_nil_right, List.mem_append] at next_mem
            rcases next_mem with ⟨matched, here⟩ | ⟨-, deeper⟩
            · exact onward behind _ entry.1 below (.behind entry_mem isNext matched) here
            · exact ⟨entry.1, _, _, below, .deeper entry_mem, Or.inr deeper⟩

theorem isAbsolute_of_mem_expandFrom {fuel : Nat} {reached : Reached} {path : Path}
    (absolute : reached.path.isAbsolute)
    (path_mem : path ∈ expandFrom host fuel segments reached) : path.isAbsolute = true := by
  induction fuel generalizing segments reached with
  | zero => simp [expandFrom] at path_mem
  | succ fuel ih =>
      rcases exists_takes_of_mem_expandFrom path_mem with ⟨name, next, rest, below, -, found⟩
      have nextAbsolute : next.path.isAbsolute := below ▸ Path.isAbsolute_join absolute name
      rcases found with ⟨-, rfl⟩ | deeper
      · exact nextAbsolute
      · exact ih nextAbsolute deeper

/-! ## The whole descent -/

/-- A step for which a segment other than a recursive one stands. -/
inductive Segment.Admits : Segment → Text → Prop
  | literal {name : Text} : Admits (.literal name) name
  | special {segment : Segment} {name : Text} (name_mem : name ∈ specialEntries segment) :
      Admits segment name
  | name {segment : Segment} {name : Text} (isName : IsName name)
      (matched : segment.matchesName name) : Admits segment name

/-- The steps that segments stand for: a recursive one for any names, another for one step. -/
inductive Spells : List Segment → List Text → Prop
  | done : Spells [] []
  | step {segment : Segment} {segments : List Segment} {name : Text} {steps : List Text}
      (admits : segment.Admits name) (rest : Spells segments steps) :
      Spells (segment :: segments) (name :: steps)
  | deeper {segments : List Segment} {name : Text} {steps : List Text} (isName : IsName name)
      (rest : Spells (.recursive :: segments) steps) :
      Spells (.recursive :: segments) (name :: steps)
  | passed {segments : List Segment} {steps : List Text} (rest : Spells segments steps) :
      Spells (.recursive :: segments) steps

namespace Spells

/-- One recursive segment stands for as much as several in a row. -/
theorem of_dropRecursive (spells : Spells (dropRecursive segments) steps) :
    Spells segments steps := by
  induction segments with
  | nil => exact spells
  | cons segment segments ih =>
      cases segment with
      | recursive => exact .passed (ih (by simpa [dropRecursive] using spells))
      | _ => simpa [dropRecursive] using spells

theorem of_recursive_dropRecursive (spells : Spells (.recursive :: dropRecursive segments) steps) :
    Spells (.recursive :: segments) steps := by
  induction steps with
  | nil =>
      cases spells with
      | passed rest => exact .passed (of_dropRecursive rest)
  | cons name steps ih =>
      cases spells with
      | step admits rest => exact .step admits (of_dropRecursive rest)
      | deeper isName rest => exact .deeper isName (ih rest)
      | passed rest => exact .passed (of_dropRecursive rest)

/-- What is left behind a name goes on with what the segments spell. -/
theorem of_takes {directory : Path} (named : host.HasNames)
    (takes : Takes host directory segments name rest) (spells : Spells rest steps) :
    Spells segments (name :: steps) := by
  cases takes with
  | literal => exact .step .literal spells
  | special name_mem => exact .step (.special name_mem) spells
  | entry entry_mem matched =>
      exact .step (.name (named.isName_of_mem_entries entry_mem) matched) spells
  | deeper entry_mem =>
      exact .deeper (named.isName_of_mem_entries entry_mem) (of_recursive_dropRecursive spells)
  | last entry_mem isLast =>
      exact .deeper (named.isName_of_mem_entries entry_mem)
        (.passed (of_dropRecursive (isLast ▸ spells)))
  | behind entry_mem isNext matched =>
      have isName := named.isName_of_mem_entries entry_mem
      exact .passed (of_dropRecursive (isNext ▸ .step (.name isName matched) spells))

/-- Segments one after the other stand for steps one after the other. -/
theorem exists_append {first second : List Segment} (spells : Spells (first ++ second) steps) :
    ∃ above below, steps = above ++ below ∧ Spells first above ∧ Spells second below := by
  generalize whole : first ++ second = segments at spells
  induction spells generalizing first with
  | done =>
      rcases List.append_eq_nil_iff.mp whole with ⟨rfl, rfl⟩
      exact ⟨[], [], rfl, .done, .done⟩
  | step admits rest ih =>
      rcases List.append_eq_cons_iff.mp whole with ⟨rfl, rfl⟩ | ⟨first, rfl, rfl⟩
      · exact ⟨[], _, rfl, .done, .step admits rest⟩
      · rcases ih rfl with ⟨above, below, rfl, aboveSpells, belowSpells⟩
        exact ⟨_ :: above, below, rfl, .step admits aboveSpells, belowSpells⟩
  | deeper isName rest ih =>
      rcases List.append_eq_cons_iff.mp whole with ⟨rfl, rfl⟩ | ⟨first, rfl, rfl⟩
      · exact ⟨[], _, rfl, .done, .deeper isName rest⟩
      · -- The recursive segment is still in front of what is left.
        rcases ih List.cons_append with ⟨above, below, rfl, aboveSpells, belowSpells⟩
        exact ⟨_ :: above, below, rfl, .deeper isName aboveSpells, belowSpells⟩
  | passed rest ih =>
      rcases List.append_eq_cons_iff.mp whole with ⟨rfl, rfl⟩ | ⟨first, rfl, rfl⟩
      · exact ⟨[], _, rfl, .done, .passed rest⟩
      · rcases ih rfl with ⟨above, below, rfl, aboveSpells, belowSpells⟩
        exact ⟨above, below, rfl, .passed aboveSpells, belowSpells⟩

/-- Segments without wildcards stand for themselves alone. -/
theorem eq_of_literal {names : List Text} (spells : Spells (names.map .literal) steps) :
    steps = names := by
  induction names generalizing steps with
  | nil =>
      cases spells
      rfl
  | cons name names ih =>
      cases spells with
      | step admits rest =>
          rw [ih rest]
          cases admits with
          | literal => rfl
          | special name_mem => simp [specialEntries] at name_mem
          | name isName matched => rw [beq_iff_eq.mp matched]

end Spells

/-- Every path that is found goes on from the start by steps that the segments spell. -/
theorem exists_spells_of_mem_expandFrom {fuel : Nat} {reached : Reached} {path : Path}
    (named : host.HasNames) (path_mem : path ∈ expandFrom host fuel segments reached) :
    ∃ steps, Spells segments steps ∧ path = steps.foldl Path.join reached.path := by
  induction fuel generalizing segments reached with
  | zero => simp [expandFrom] at path_mem
  | succ fuel ih =>
      rcases exists_takes_of_mem_expandFrom path_mem with
        ⟨name, next, rest, below, takes, ⟨rfl, rfl⟩ | deeper⟩
      · exact ⟨[name], .of_takes named takes .done, below⟩
      · rcases ih deeper with ⟨steps, spells, rfl⟩
        exact ⟨name :: steps, .of_takes named takes spells, by rw [below, List.foldl_cons]⟩

/-! ## Patterns -/

/-- The special entries that a name of a pattern matches. -/
def specialsOf (name : Text) : List Text :=
  match readSegment name with
  | .ok segment => specialEntries segment
  | .error _ => []

/-- Steps for which the names of a pattern stand. -/
def Matches (pattern steps : List Text) : Prop :=
  ∃ segments, pattern.mapM readSegment = .ok segments ∧ Spells segments steps

theorem mem_specialsOf {step : Text} (special : step ∈ specialsOf name) :
    step = ['.', '.'] ∨ step = ['.'] := by
  unfold specialsOf at special
  split at special
  · unfold specialEntries at special
    split at special
    · simpa using List.mem_of_mem_filter special
    · simp at special
  · simp at special

/-- A step that no segment stands for on its own is one of the names below a directory. -/
theorem Spells.isName_or_admits (spells : Spells segments steps) :
    ∀ step ∈ steps, IsName step ∨ ∃ segment ∈ segments, segment.Admits step := by
  have wider : ∀ {segment : Segment} {segments : List Segment} {step : Text},
      (∃ other ∈ segments, other.Admits step) →
      ∃ other ∈ segment :: segments, other.Admits step := by
    rintro segment segments step ⟨other, other_mem, admits⟩
    exact ⟨other, List.mem_cons_of_mem _ other_mem, admits⟩
  induction spells with
  | done => simp
  | step admits rest ih =>
      rw [List.forall_mem_cons]
      refine ⟨Or.inr ⟨_, List.mem_cons_self, admits⟩, ?_⟩
      exact fun step step_mem => (ih step step_mem).imp_right wider
  | deeper isName rest ih =>
      rw [List.forall_mem_cons]
      exact ⟨Or.inl isName, ih⟩
  | passed rest ih => exact fun step step_mem => (ih step step_mem).imp_right wider

namespace Matches

variable {pattern : List Text}

theorem eq_of_plain (matched : Matches pattern steps)
    (plain : ∀ name ∈ pattern, hasWildcard name = false) : steps = pattern := by
  rcases matched with ⟨segments, read, spells⟩
  rw [mapM_readSegment_of_plain plain, Except.ok.injEq] at read
  subst read
  exact spells.eq_of_literal

/-- Every step is a name, unless a name of the pattern matches a special entry. -/
theorem isName_or_special (matched : Matches pattern steps) (all : AreNames pattern) :
    ∀ step ∈ steps, IsName step ∨ ∃ name ∈ pattern, step ∈ specialsOf name := by
  rcases matched with ⟨segments, read, spells⟩
  intro step step_mem
  rcases spells.isName_or_admits step step_mem with isName | ⟨segment, segment_mem, admits⟩
  · exact Or.inl isName
  · rcases exists_of_mem_mapM read segment_mem with ⟨written, written_mem, isRead⟩
    cases admits with
    | literal =>
        rw [eq_of_readSegment_literal isRead]
        exact Or.inl (all written written_mem)
    | special name_mem =>
        refine Or.inr ⟨written, written_mem, ?_⟩
        rwa [specialsOf, isRead]
    | name isName matched => exact Or.inl isName

theorem ne_nil_and_no_slash (matched : Matches pattern steps) (all : AreNames pattern) :
    ∀ step ∈ steps, step ≠ [] ∧ '/' ∉ step := by
  intro step step_mem
  rcases matched.isName_or_special all step step_mem with isName | ⟨name, -, special⟩
  · exact ⟨isName.ne_nil, isName.no_slash⟩
  · rcases mem_specialsOf special with rfl | rfl
    · decide
    · decide

end Matches

/-- A directory that is found below a pattern is found by steps for which the two parts stand. -/
theorem exists_matches_of_mem_directories {above below : List Text} {path : Path}
    {found : List Path} (named : host.HasNames) (all : AreNames (above ++ below))
    (nonempty : above ++ below ≠ [])
    (expanded : directories host (Path.rooted (above ++ below)) = .ok found)
    (path_mem : path ∈ found) :
    ∃ upper lower, Matches above upper ∧ Matches below lower ∧
      (∀ step ∈ upper ++ lower, step ≠ [] ∧ '/' ∉ step) ∧ path = Path.rooted (upper ++ lower) := by
  rcases exists_of_bind_pure_eq_ok expanded with ⟨segments, isRead, rfl⟩
  rcases exists_of_mapM_append (mapM_readSegment_of_segments all nonempty isRead) with
    ⟨upperSegments, lowerSegments, rfl, upperRead, lowerRead⟩
  rcases exists_spells_of_mem_expandFrom named (List.mem_of_mem_filter path_mem) with
    ⟨steps, spells, rfl⟩
  rcases spells.exists_append with ⟨upper, lower, rfl, upperSpells, lowerSpells⟩
  have upperMatches : Matches above upper := ⟨_, upperRead, upperSpells⟩
  have lowerMatches : Matches below lower := ⟨_, lowerRead, lowerSpells⟩
  rcases AreNames.append.mp all with ⟨aboveNames, belowNames⟩
  have noSlash : ∀ step ∈ upper ++ lower, step ≠ [] ∧ '/' ∉ step := by
    rw [List.forall_mem_append]
    exact ⟨upperMatches.ne_nil_and_no_slash aboveNames,
      lowerMatches.ne_nil_and_no_slash belowNames⟩
  exact ⟨upper, lower, upperMatches, lowerMatches, noSlash, Path.foldl_join_root noSlash⟩

end Glob

end ImportResolution
