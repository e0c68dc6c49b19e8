import ImportResolution.Proofs.Regex.Advance

/-!
# What a search finds

A search advances its threads at each place of a text, and all that wait take the same
character. `Regex.exists_leads_of_search` says that what a search answers is recorded on a
way to a match from some place of the text, and `Regex.isSome_search_iff` that a search
answers exactly if there is such a way.
-/

namespace ImportResolution

namespace Regex

/-! ## Advancing all threads of a place -/

section Program

variable {program : Program}

/-- Unless a thread has matched, one that waits is on a way whenever one that was pending is. -/
theorem exists_waiting_of_leads {place : Place} {threads : List Thread} {thread : Thread}
    {places : List (Nat × Nat)} (thread_mem : thread ∈ threads)
    (leads : Leads program place thread places)
    (unmatched : (advanceAll program program.ways place threads).matched = none) :
    ∃ waiter ∈ (advanceAll program program.ways place threads).waiting,
      (∃ charClass, program[waiter.address]? = some (.take charClass)) ∧
        ∃ others, Leads program place waiter others := by
  have nothingEntered :
      Covers program place (Array.replicate program.size false) threads [] := by
    constructor
    · intro address entered
      rw [Array.getD_eq_getD_getElem?, Array.getElem?_replicate] at entered
      split at entered <;> simp at entered
    · simp
  have enough : threads.length +
      waysLeft program.toList (Array.replicate program.size false).toList <
        threads.length + program.ways + 1 := by
    rw [waysLeft_program]
    omega
  rcases nothingEntered.exists_entered (by simp) enough unmatched with
    ⟨seenAfter, after, -, enters⟩
  rcases after.exists_waiting leads (enters thread thread_mem) with ⟨waiter, waiter_mem, others⟩
  exact ⟨waiter, waiter_mem, after.takes waiter waiter_mem, others⟩

/-- A thread on a way from where it waits takes the character that follows. -/
theorem Leads.exists_take {place : Place} {thread : Thread} {places : List (Nat × Nat)}
    {charClass : CharClass} (leads : Leads program place thread places)
    (found : program[thread.address]? = some (.take charClass)) :
    ∃ char rest, place.after = char :: rest ∧ charClass.contains char = true ∧
      Leads program (place.behind char rest) thread.next places := by
  cases leads with
  | matched ended =>
      rw [ended] at found
      contradiction
  | onward otherFound next_mem _ =>
      rw [otherFound, Option.some.injEq] at found
      subst found
      simp [Thread.onward] at next_mem
  | take otherFound follows contains leads =>
      rw [otherFound, Option.some.injEq, Instruction.take.injEq] at found
      subst found
      exact ⟨_, _, follows, contains, leads⟩

theorem mem_takeChar {charClass : CharClass} {char : Char} {threads : List Thread}
    {thread : Thread} (thread_mem : thread ∈ threads)
    (found : program[thread.address]? = some (.take charClass))
    (contains : charClass.contains char = true) :
    thread.next ∈ takeChar program char threads := by
  refine List.mem_filterMap.mpr ⟨thread, thread_mem, ?_⟩
  rw [found]
  simp [contains]

theorem exists_of_mem_takeChar {char : Char} {threads : List Thread} {next : Thread}
    (next_mem : next ∈ takeChar program char threads) :
    ∃ thread ∈ threads, ∃ charClass, program[thread.address]? = some (.take charClass) ∧
      charClass.contains char = true ∧ next = thread.next := by
  rcases List.mem_filterMap.mp next_mem with ⟨thread, thread_mem, taken⟩
  split at taken
  · rename_i charClass found
    split at taken
    · rename_i contains
      exact ⟨thread, thread_mem, charClass, found, contains, (Option.some.inj taken).symm⟩
    · contradiction
  · contradiction

/-! ## Searching a text -/

/-- The places of a text from one of them on. -/
def placesFrom (index : Nat) (before : Option Char) : Text → List Place
  | [] => [⟨index, before, []⟩]
  | char :: rest => ⟨index, before, char :: rest⟩ :: placesFrom (index + 1) (some char) rest

theorem mem_placesFrom (index : Nat) (before : Option Char) (text : Text) :
    ⟨index, before, text⟩ ∈ placesFrom index before text := by
  cases text <;> simp [placesFrom]

theorem before_ne_none_of_mem_placesFrom {index : Nat} {char : Char} {text : Text} {place : Place}
    (place_mem : place ∈ placesFrom index (some char) text) : place.before ≠ none := by
  induction text generalizing index char with
  | nil =>
      rw [List.mem_singleton.mp place_mem]
      simp
  | cons next rest ih =>
      rcases List.mem_cons.mp place_mem with rfl | later
      · simp
      · exact ih later

/-- Only at the beginning of a text does no character stand before a place. -/
theorem eq_of_mem_placesFrom {index : Nat} {text : Text} {place : Place}
    (place_mem : place ∈ placesFrom index none text) (starts : place.before = none) :
    place = ⟨index, none, text⟩ := by
  cases text with
  | nil => exact List.mem_singleton.mp place_mem
  | cons char rest =>
      rcases List.mem_cons.mp place_mem with rfl | later
      · rfl
      · exact absurd starts (before_ne_none_of_mem_placesFrom later)

/-- The threads at a place: those begun before and, until there is a match, a new one. -/
theorem mem_begun_iff {best : Option (List (Nat × Nat))} {pending : List Thread}
    {thread : Thread} :
    (thread ∈ if best.isSome then pending else pending ++ [⟨0, []⟩]) ↔
      thread ∈ pending ∨ (best = none ∧ thread = ⟨0, []⟩) := by
  cases best with
  | none => simp
  | some _ => simp

/-- A pending thread gets from here to the end, or a new one does from here or later. -/
def LeadsOn (program : Program) (index : Nat) (before : Option Char) (pending : List Thread)
    (text : Text) (places : List (Nat × Nat)) : Prop :=
  (∃ thread ∈ pending, Leads program ⟨index, before, text⟩ thread places) ∨
    ∃ place ∈ placesFrom index before text, Leads program place ⟨0, []⟩ places

section Run

variable {ways index : Nat} {before : Option Char} {pending : List Thread}
  {best : Option (List (Nat × Nat))} {text rest : Text} {char : Char} {places : List (Nat × Nat)}

theorem leadsOn_of_begun {thread : Thread}
    (begun : thread ∈ if best.isSome then pending else pending ++ [⟨0, []⟩])
    (leads : Leads program ⟨index, before, text⟩ thread places) :
    LeadsOn program index before pending text places := by
  rcases mem_begun_iff.mp begun with thread_mem | ⟨-, rfl⟩
  · exact Or.inl ⟨thread, thread_mem, leads⟩
  · exact Or.inr ⟨_, mem_placesFrom index before text, leads⟩

/-- The threads behind a character come from those before it. -/
theorem leadsOn_of_behind
    (leadsOn : LeadsOn program (index + 1) (some char)
      (takeChar program char (advanceAll program ways ⟨index, before, char :: rest⟩
        (if best.isSome then pending else pending ++ [⟨0, []⟩])).waiting) rest places) :
    LeadsOn program index before pending (char :: rest) places := by
  rcases leadsOn with ⟨thread, thread_mem, leads⟩ | ⟨place, place_mem, leads⟩
  · rcases exists_of_mem_takeChar thread_mem with
      ⟨waiter, waiter_mem, charClass, found, contains, rfl⟩
    have whole : Leads program ⟨index, before, char :: rest⟩ waiter places :=
      .take found rfl contains leads
    rcases mem_or_exists_leads_of_waiting waiter_mem whole with none_mem | ⟨origin, begun, leads⟩
    · simp at none_mem
    · exact leadsOn_of_begun begun leads
  · exact Or.inr ⟨place, List.mem_cons_of_mem _ place_mem, leads⟩

/-- What a run answers has been known before or is recorded on a way from here or later. -/
theorem eq_or_leadsOn_of_run
    (answered : run program ways index before pending best text = some places) :
    best = some places ∨ LeadsOn program index before pending text places := by
  induction text generalizing index before pending best with
  | nil =>
      rcases Option.or_eq_some_iff.mp answered with matched | ⟨-, known⟩
      · rcases exists_leads_of_matched matched with ⟨thread, begun, leads⟩
        exact Or.inr (leadsOn_of_begun begun leads)
      · exact Or.inl known
  | cons char rest ih =>
      rw [run] at answered
      split at answered
      · exact Or.inl answered
      · rcases ih answered with known | leadsOn
        · rcases Option.or_eq_some_iff.mp known with matched | ⟨-, known⟩
          · rcases exists_leads_of_matched matched with ⟨thread, begun, leads⟩
            exact Or.inr (leadsOn_of_begun begun leads)
          · exact Or.inl known
        · exact Or.inr (leadsOn_of_behind leadsOn)

/-- A match that is known is not lost. -/
theorem isSome_run_of_isSome (known : best.isSome = true) :
    (run program ways index before pending best text).isSome = true := by
  induction text generalizing index before pending best with
  | nil => simp [run, known]
  | cons char rest ih =>
      rw [run]
      split
      · exact known
      · exact ih (by simp [known])

/-- Where no thread matches, those on a way to a match are among those behind the character. -/
theorem exists_leadsOn_behind
    (leadsOn : LeadsOn program index before pending (char :: rest) places)
    (unmatched : (advanceAll program program.ways ⟨index, before, char :: rest⟩
      (pending ++ [⟨0, []⟩])).matched = none) :
    ∃ others, LeadsOn program (index + 1) (some char)
      (takeChar program char (advanceAll program program.ways ⟨index, before, char :: rest⟩
        (pending ++ [⟨0, []⟩])).waiting) rest others := by
  have behind : ∀ {thread : Thread}, thread ∈ pending ++ [⟨0, []⟩] →
      Leads program ⟨index, before, char :: rest⟩ thread places →
      ∃ others, LeadsOn program (index + 1) (some char)
        (takeChar program char (advanceAll program program.ways ⟨index, before, char :: rest⟩
          (pending ++ [⟨0, []⟩])).waiting) rest others := by
    intro thread thread_mem leads
    rcases exists_waiting_of_leads thread_mem leads unmatched with
      ⟨waiter, waiter_mem, ⟨charClass, found⟩, others, waiterLeads⟩
    rcases waiterLeads.exists_take found with ⟨next, after, follows, contains, nextLeads⟩
    obtain ⟨rfl, rfl⟩ := List.cons.inj follows
    exact ⟨others, Or.inl ⟨waiter.next, mem_takeChar waiter_mem found contains, nextLeads⟩⟩
  rcases leadsOn with ⟨thread, thread_mem, leads⟩ | ⟨place, place_mem, leads⟩
  · exact behind (List.mem_append_left _ thread_mem) leads
  · rcases List.mem_cons.mp place_mem with rfl | later
    · exact behind (by simp) leads
    · exact ⟨places, Or.inr ⟨place, later, leads⟩⟩

/-- A run without a match so far finds one if a thread is on a way to it. -/
theorem isSome_run_of_leadsOn (leadsOn : LeadsOn program index before pending text places) :
    (run program program.ways index before pending none text).isSome = true := by
  induction text generalizing index before pending places with
  | nil =>
      have begun : ∃ thread ∈ pending ++ [⟨0, []⟩],
          Leads program ⟨index, before, []⟩ thread places := by
        rcases leadsOn with ⟨thread, thread_mem, leads⟩ | ⟨place, place_mem, leads⟩
        · exact ⟨thread, List.mem_append_left _ thread_mem, leads⟩
        · rw [List.mem_singleton.mp place_mem] at leads
          exact ⟨⟨0, []⟩, by simp, leads⟩
      rcases begun with ⟨thread, thread_mem, leads⟩
      by_contra unmatched
      simp only [run, Option.or_none, Option.not_isSome_iff_eq_none] at unmatched
      -- A waiting thread on a way would need a character, and the text is at its end.
      rcases exists_waiting_of_leads thread_mem leads unmatched with
        ⟨waiter, -, ⟨charClass, found⟩, others, waiterLeads⟩
      rcases waiterLeads.exists_take found with ⟨char, rest, follows, -, -⟩
      simp at follows
  | cons char rest ih =>
      simp only [run, Option.isSome_none, Bool.false_and, Bool.false_eq_true, if_false,
        Option.or_none]
      cases matched : (advanceAll program program.ways ⟨index, before, char :: rest⟩
          (pending ++ [⟨0, []⟩])).matched with
      | some found => exact isSome_run_of_isSome rfl
      | none =>
          rcases exists_leadsOn_behind leadsOn matched with ⟨others, behind⟩
          exact ih behind

end Run

variable {text : Text}

/-- What a search answers is recorded on a way from some place of the text. -/
theorem exists_leads_of_search {places : List (Nat × Nat)}
    (answered : program.search text = some places) :
    ∃ place ∈ placesFrom 0 none text, Leads program place ⟨0, []⟩ places := by
  rcases eq_or_leadsOn_of_run answered with known | ⟨thread, none_mem, -⟩ | begun
  · contradiction
  · simp at none_mem
  · exact begun

/-- A search answers exactly if there is a way to a match from some place of the text. -/
theorem isSome_search_iff : (program.search text).isSome = true ↔
    ∃ place ∈ placesFrom 0 none text, ∃ places, Leads program place ⟨0, []⟩ places := by
  constructor
  · intro answered
    rcases Option.isSome_iff_exists.mp answered with ⟨places, found⟩
    rcases exists_leads_of_search found with ⟨place, place_mem, leads⟩
    exact ⟨place, place_mem, places, leads⟩
  · rintro ⟨place, place_mem, places, leads⟩
    exact isSome_run_of_leadsOn (Or.inr ⟨place, place_mem, leads⟩)

end Program

end Regex

end ImportResolution
