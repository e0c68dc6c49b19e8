import ImportResolution.Regex.Match
import Mathlib.Data.List.Basic

/-!
# Threads on the way to a match

A thread gets to a match when the instructions from its address on, carried out one after
the other, reach the end of the program. `Regex.Leads` says so of a single thread, and
knows nothing of other threads, of addresses that have been seen or of fuel.

An advance answers only with what such a way records (`Regex.exists_leads_of_matched`), and
the threads that it leaves waiting come from those that were pending. That it forgets no
way rests on `Regex.Covers`, which each of its steps keeps: whatever an entered address
leads to has been entered, waits or is pending. `Regex.Covers.exists_entered` also says
that the fuel is never used up, since each step drops a thread or enters an address.
-/

namespace ImportResolution

namespace Regex

/-! ## Ways to a match -/

/-- The threads with which an instruction goes on that takes no character. -/
def Thread.onward (thread : Thread) (place : Place) : Instruction → List Thread
  | .take _ => []
  | .look look => if look.holds place then [thread.next] else []
  | .record slot => [{ thread.next with places := (slot, place.index) :: thread.places }]
  | .fork distances => distances.map thread.jump

/-- The place behind the next character. -/
def Place.behind (place : Place) (char : Char) (rest : Text) : Place :=
  ⟨place.index + 1, some char, rest⟩

/-- A thread gets from a place to the end of the program, with these places recorded there. -/
inductive Leads (program : Program) : Place → Thread → List (Nat × Nat) → Prop
  | matched {place : Place} {thread : Thread} (ended : program[thread.address]? = none) :
      Leads program place thread thread.places
  | onward {place : Place} {thread next : Thread} {instruction : Instruction}
      {places : List (Nat × Nat)} (found : program[thread.address]? = some instruction)
      (next_mem : next ∈ thread.onward place instruction)
      (leads : Leads program place next places) :
      Leads program place thread places
  | take {place : Place} {thread : Thread} {charClass : CharClass} {char : Char} {rest : Text}
      {places : List (Nat × Nat)} (found : program[thread.address]? = some (.take charClass))
      (follows : place.after = char :: rest) (contains : charClass.contains char = true)
      (leads : Leads program (place.behind char rest) thread.next places) :
      Leads program place thread places

/-- The instructions after which a thread waits for a character. -/
def Instruction.waits : Instruction → Bool
  | .take _ => true
  | _ => false

theorem Instruction.exists_of_waits {instruction : Instruction} (waits : instruction.waits) :
    ∃ charClass, instruction = .take charClass := by
  cases instruction with
  | take charClass => exact ⟨charClass, rfl⟩
  | look _ => simp [Instruction.waits] at waits
  | record _ => simp [Instruction.waits] at waits
  | fork _ => simp [Instruction.waits] at waits

/-- Where threads go depends on where they are, not on what they have recorded. -/
theorem Thread.map_address_onward {first second : Thread} (same : first.address = second.address)
    (place : Place) (instruction : Instruction) :
    (first.onward place instruction).map Thread.address =
      (second.onward place instruction).map Thread.address := by
  cases instruction with
  | take _ => rfl
  | look look =>
      simp only [onward]
      split <;> simp [Thread.next, same]
  | record _ => simp [onward, Thread.next, same]
  | fork distances => simp [onward, Thread.jump, same, Function.comp_def]

/-- Another thread at the same address gets to the end as well. -/
theorem Leads.of_address_eq {program : Program} {place : Place} {first second : Thread}
    {places : List (Nat × Nat)} (leads : Leads program place first places)
    (same : first.address = second.address) : ∃ others, Leads program place second others := by
  induction leads generalizing second with
  | matched ended => exact ⟨second.places, .matched (same ▸ ended)⟩
  | @onward place thread next instruction places found next_mem _ ih =>
      have target : next.address ∈ (second.onward place instruction).map Thread.address := by
        rw [← Thread.map_address_onward same]
        exact List.mem_map_of_mem next_mem
      rcases List.mem_map.mp target with ⟨other, other_mem, otherSame⟩
      rcases ih otherSame.symm with ⟨others, leads⟩
      exact ⟨others, .onward (same ▸ found) other_mem leads⟩
  | @take place thread charClass char rest places found follows contains _ ih =>
      have nextSame : thread.next.address = second.next.address := by simp [Thread.next, same]
      rcases ih nextSame with ⟨others, leads⟩
      exact ⟨others, .take (same ▸ found) follows contains leads⟩

/-! ## One step of an advance -/

section Advance

variable {program : Program} {place : Place} {fuel : Nat} {thread : Thread}
  {pending waiting : List Thread} {seen : Array Bool}

theorem advance_nil : advance program place fuel [] seen waiting = ⟨waiting.reverse, none⟩ := by
  cases fuel <;> rfl

theorem advance_seen (entered : seen.getD thread.address false = true) :
    advance program place (fuel + 1) (thread :: pending) seen waiting =
      advance program place fuel pending seen waiting := by
  simp [advance, entered]

theorem advance_matched (fresh : seen.getD thread.address false = false)
    (ended : program[thread.address]? = none) :
    advance program place (fuel + 1) (thread :: pending) seen waiting =
      ⟨waiting.reverse, some thread.places⟩ := by
  simp [advance, fresh, ended]

/-- An address that is entered for the first time gives way to those it leads to. -/
theorem advance_entered {instruction : Instruction}
    (fresh : seen.getD thread.address false = false)
    (found : program[thread.address]? = some instruction) :
    advance program place (fuel + 1) (thread :: pending) seen waiting =
      advance program place fuel (thread.onward place instruction ++ pending)
        (seen.setIfInBounds thread.address true)
        (if instruction.waits then thread :: waiting else waiting) := by
  cases instruction with
  | take _ => simp [advance, fresh, found, Thread.onward, Instruction.waits]
  | look look =>
      by_cases holds : look.holds place = true <;>
        simp [advance, fresh, found, Thread.onward, Instruction.waits, holds]
  | record _ => simp [advance, fresh, found, Thread.onward, Instruction.waits]
  | fork _ => simp [advance, fresh, found, Thread.onward, Instruction.waits]

/-! ## What an advance answers is on a way -/

theorem exists_leads_of_matched {places : List (Nat × Nat)}
    (matched : (advance program place fuel pending seen waiting).matched = some places) :
    ∃ thread ∈ pending, Leads program place thread places := by
  induction fuel generalizing pending seen waiting with
  | zero => simp [advance] at matched
  | succ fuel ih =>
      cases pending with
      | nil => simp [advance_nil] at matched
      | cons thread pending =>
          by_cases entered : seen.getD thread.address false = true
          · rw [advance_seen entered] at matched
            rcases ih matched with ⟨other, other_mem, leads⟩
            exact ⟨other, List.mem_cons_of_mem thread other_mem, leads⟩
          · rw [Bool.not_eq_true] at entered
            cases found : program[thread.address]? with
            | none =>
                rw [advance_matched entered found, Option.some.injEq] at matched
                exact ⟨thread, List.mem_cons_self, matched ▸ .matched found⟩
            | some instruction =>
                rw [advance_entered entered found] at matched
                rcases ih matched with ⟨other, other_mem, leads⟩
                rcases List.mem_append.mp other_mem with next_mem | other_mem
                · exact ⟨thread, List.mem_cons_self, .onward found next_mem leads⟩
                · exact ⟨other, List.mem_cons_of_mem thread other_mem, leads⟩

/-- A thread that waits after an advance waited before it or comes from a pending one. -/
theorem mem_or_exists_leads_of_waiting {places : List (Nat × Nat)}
    (thread_mem : thread ∈ (advance program place fuel pending seen waiting).waiting)
    (leads : Leads program place thread places) :
    thread ∈ waiting ∨ ∃ origin ∈ pending, Leads program place origin places := by
  induction fuel generalizing pending seen waiting with
  | zero => exact Or.inl (List.mem_reverse.mp thread_mem)
  | succ fuel ih =>
      cases pending with
      | nil =>
          rw [advance_nil] at thread_mem
          exact Or.inl (List.mem_reverse.mp thread_mem)
      | cons first pending =>
          by_cases entered : seen.getD first.address false = true
          · rw [advance_seen entered] at thread_mem
            rcases ih thread_mem with before | ⟨origin, origin_mem, leads⟩
            · exact Or.inl before
            · exact Or.inr ⟨origin, List.mem_cons_of_mem first origin_mem, leads⟩
          · rw [Bool.not_eq_true] at entered
            cases found : program[first.address]? with
            | none =>
                rw [advance_matched entered found] at thread_mem
                exact Or.inl (List.mem_reverse.mp thread_mem)
            | some instruction =>
                rw [advance_entered entered found] at thread_mem
                rcases ih thread_mem with before | ⟨origin, origin_mem, leads⟩
                · split at before
                  · rcases List.mem_cons.mp before with rfl | before
                    · exact Or.inr ⟨thread, List.mem_cons_self, leads⟩
                    · exact Or.inl before
                  · exact Or.inl before
                · rcases List.mem_append.mp origin_mem with next_mem | origin_mem
                  · exact Or.inr ⟨first, List.mem_cons_self, .onward found next_mem leads⟩
                  · exact Or.inr ⟨origin, List.mem_cons_of_mem first origin_mem, leads⟩

end Advance

/-! ## What an advance has entered -/

theorem getD_setIfInBounds {seen : Array Bool} {address : Nat} (inside : address < seen.size)
    (other : Nat) :
    (seen.setIfInBounds address true).getD other false =
      if other = address then true else seen.getD other false := by
  by_cases same : other = address
  · subst same
    simp [Array.getD_eq_getD_getElem?, inside]
  · simp [Array.getD_eq_getD_getElem?, same, Ne.symm same]

/--
What is known while no thread has matched: an address that has been entered holds an
instruction, its thread waits if it takes a character, and each address to which it leads
has been entered or is pending.
-/
structure Covers (program : Program) (place : Place) (seen : Array Bool)
    (pending waiting : List Thread) : Prop where
  entered : ∀ address, seen.getD address false = true →
    ∃ (thread : Thread) (instruction : Instruction), thread.address = address ∧
      program[address]? = some instruction ∧
      (instruction.waits = true → ∃ waiter ∈ waiting, waiter.address = address) ∧
      ∀ next ∈ thread.onward place instruction,
        seen.getD next.address false = true ∨ ∃ other ∈ pending, other.address = next.address
  takes : ∀ thread ∈ waiting, ∃ charClass, program[thread.address]? = some (.take charClass)

namespace Covers

variable {program : Program} {place : Place} {seen : Array Bool} {thread : Thread}
  {pending waiting : List Thread}

theorem of_seen (covers : Covers program place seen (thread :: pending) waiting)
    (entered : seen.getD thread.address false = true) :
    Covers program place seen pending waiting := by
  refine ⟨?_, covers.takes⟩
  intro address addressEntered
  rcases covers.entered address addressEntered with ⟨origin, instruction, same, found, waits, goes⟩
  refine ⟨origin, instruction, same, found, waits, ?_⟩
  intro next next_mem
  rcases goes next next_mem with nextEntered | ⟨other, other_mem, otherSame⟩
  · exact Or.inl nextEntered
  · rcases List.mem_cons.mp other_mem with rfl | other_mem
    · exact Or.inl (otherSame ▸ entered)
    · exact Or.inr ⟨other, other_mem, otherSame⟩

theorem of_entered {instruction : Instruction} (sized : seen.size = program.size)
    (covers : Covers program place seen (thread :: pending) waiting)
    (found : program[thread.address]? = some instruction) :
    Covers program place (seen.setIfInBounds thread.address true)
      (thread.onward place instruction ++ pending)
      (if instruction.waits then thread :: waiting else waiting) := by
  have inside : thread.address < seen.size := by
    rw [sized]
    exact (Array.getElem?_eq_some_iff.mp found).1
  have keeps : ∀ waiter ∈ waiting,
      waiter ∈ if instruction.waits then thread :: waiting else waiting := by
    intro waiter waiter_mem
    split
    · exact List.mem_cons_of_mem thread waiter_mem
    · exact waiter_mem
  constructor
  · intro address addressEntered
    rw [getD_setIfInBounds inside] at addressEntered
    by_cases same : address = thread.address
    · subst same
      refine ⟨thread, instruction, rfl, found, ?_, ?_⟩
      · intro waits
        exact ⟨thread, by simp [waits], rfl⟩
      · intro next next_mem
        exact Or.inr ⟨next, List.mem_append_left pending next_mem, rfl⟩
    · rw [if_neg same] at addressEntered
      rcases covers.entered address addressEntered with
        ⟨origin, other, originSame, otherFound, waits, goes⟩
      refine ⟨origin, other, originSame, otherFound, ?_, ?_⟩
      · intro otherWaits
        rcases waits otherWaits with ⟨waiter, waiter_mem, waiterSame⟩
        exact ⟨waiter, keeps waiter waiter_mem, waiterSame⟩
      · intro next next_mem
        rw [getD_setIfInBounds inside]
        rcases goes next next_mem with nextEntered | ⟨target, target_mem, targetSame⟩
        · exact Or.inl (by simp [nextEntered])
        · rcases List.mem_cons.mp target_mem with rfl | target_mem
          · exact Or.inl (by simp [targetSame])
          · exact Or.inr ⟨target, List.mem_append_right _ target_mem, targetSame⟩
  · intro waiter waiter_mem
    by_cases waits : instruction.waits = true
    · rw [if_pos waits] at waiter_mem
      rcases List.mem_cons.mp waiter_mem with rfl | waiter_mem
      · rcases Instruction.exists_of_waits waits with ⟨charClass, rfl⟩
        exact ⟨charClass, found⟩
      · exact covers.takes waiter waiter_mem
    · rw [if_neg waits] at waiter_mem
      exact covers.takes waiter waiter_mem

theorem reverse (covers : Covers program place seen pending waiting) :
    Covers program place seen pending waiting.reverse := by
  rcases covers with ⟨entered, takes⟩
  constructor
  · simpa only [List.mem_reverse] using entered
  · simpa only [List.mem_reverse] using takes

/-- Once nothing is pending, a way from an entered address goes on from a thread that waits. -/
theorem exists_waiting {places : List (Nat × Nat)}
    (covers : Covers program place seen [] waiting) (leads : Leads program place thread places)
    (entered : seen.getD thread.address false = true) :
    ∃ waiter ∈ waiting, ∃ others, Leads program place waiter others := by
  induction leads with
  | @matched place thread ended =>
      rcases covers.entered _ entered with ⟨_, _, _, found, _, _⟩
      rw [ended] at found
      contradiction
  | @onward place thread next instruction places found next_mem leads ih =>
      rcases covers.entered _ entered with ⟨origin, other, same, otherFound, _, goes⟩
      have instructionSame : other = instruction := by
        rw [found, Option.some.injEq] at otherFound
        exact otherFound.symm
      subst instructionSame
      have target : next.address ∈ (origin.onward place other).map Thread.address := by
        rw [Thread.map_address_onward same]
        exact List.mem_map_of_mem next_mem
      rcases List.mem_map.mp target with ⟨step, step_mem, stepSame⟩
      rcases goes step step_mem with nextEntered | ⟨_, none_mem, _⟩
      · exact ih covers (stepSame ▸ nextEntered)
      · simp at none_mem
  | @take place thread charClass char rest places found follows contains leads _ =>
      rcases covers.entered _ entered with ⟨_, other, _, otherFound, waits, _⟩
      rw [found, Option.some.injEq] at otherFound
      rcases waits (by rw [← otherFound]; rfl) with ⟨waiter, waiter_mem, same⟩
      have whole : Leads program place thread places := .take found follows contains leads
      exact ⟨waiter, waiter_mem, whole.of_address_eq same.symm⟩

end Covers

/-! ## The fuel of an advance -/

/-- The ways on from the instructions that have not been entered. -/
def waysLeft : List Instruction → List Bool → Nat
  | instruction :: instructions, entered :: others =>
      (if entered then 0 else instruction.ways) + waysLeft instructions others
  | _, _ => 0

theorem waysLeft_set {instructions : List Instruction} {entered : List Bool} {address : Nat}
    {instruction : Instruction} (found : instructions[address]? = some instruction)
    (fresh : entered[address]? = some false) :
    waysLeft instructions (entered.set address true) + instruction.ways =
      waysLeft instructions entered := by
  induction instructions generalizing entered address with
  | nil => simp at found
  | cons first instructions ih =>
      cases entered with
      | nil => simp at fresh
      | cons firstEntered others =>
          cases address with
          | zero =>
              simp only [List.getElem?_cons_zero, Option.some.injEq] at found fresh
              subst found fresh
              simp [waysLeft]
              omega
          | succ address =>
              simp only [List.getElem?_cons_succ] at found fresh
              have rest := ih found fresh
              simp only [List.set_cons_succ, waysLeft]
              omega

theorem foldl_ways (instructions : List Instruction) (total : Nat) :
    instructions.foldl (fun total instruction => total + instruction.ways) total =
      total + waysLeft instructions (List.replicate instructions.length false) := by
  induction instructions generalizing total with
  | nil => simp [waysLeft]
  | cons instruction instructions ih =>
      rw [List.foldl_cons, ih, List.length_cons, List.replicate_succ, waysLeft]
      simp
      omega

theorem waysLeft_program (program : Program) :
    waysLeft program.toList (Array.replicate program.size false).toList = program.ways := by
  rw [Program.ways, ← Array.foldl_toList, foldl_ways, Array.toList_replicate, Array.length_toList,
    Nat.zero_add]

theorem Thread.length_onward_le (thread : Thread) (place : Place) (instruction : Instruction) :
    (thread.onward place instruction).length ≤ instruction.ways := by
  cases instruction with
  | take _ => simp [onward, Instruction.ways]
  | look look =>
      simp only [onward, Instruction.ways]
      split <;> simp
  | record _ => simp [onward, Instruction.ways]
  | fork _ => simp [onward, Instruction.ways]

/-- An advance without a match ends with nothing pending, and has entered all that was. -/
theorem Covers.exists_entered {program : Program} {place : Place} {fuel : Nat}
    {seen : Array Bool} {pending waiting : List Thread}
    (covers : Covers program place seen pending waiting) (sized : seen.size = program.size)
    (enough : pending.length + waysLeft program.toList seen.toList < fuel)
    (unmatched : (advance program place fuel pending seen waiting).matched = none) :
    ∃ seenAfter : Array Bool,
      Covers program place seenAfter []
        (advance program place fuel pending seen waiting).waiting ∧
      (∀ address, seen.getD address false = true → seenAfter.getD address false = true) ∧
      ∀ thread ∈ pending, seenAfter.getD thread.address false = true := by
  induction fuel generalizing seen pending waiting with
  | zero => omega
  | succ fuel ih =>
      cases pending with
      | nil =>
          rw [advance_nil]
          exact ⟨seen, covers.reverse, fun _ entered => entered, by simp⟩
      | cons thread pending =>
          rw [List.length_cons] at enough
          by_cases entered : seen.getD thread.address false = true
          · rw [advance_seen entered] at unmatched ⊢
            have rest := covers.of_seen entered
            rcases ih rest sized (by omega) unmatched with ⟨seenAfter, after, keeps, enters⟩
            refine ⟨seenAfter, after, keeps, ?_⟩
            intro other other_mem
            rcases List.mem_cons.mp other_mem with rfl | other_mem
            · exact keeps _ entered
            · exact enters other other_mem
          · rw [Bool.not_eq_true] at entered
            cases found : program[thread.address]? with
            | none => simp [advance_matched entered found] at unmatched
            | some instruction =>
                rw [advance_entered entered found] at unmatched ⊢
                have inside : thread.address < seen.size := by
                  rw [sized]
                  exact (Array.getElem?_eq_some_iff.mp found).1
                have fresh : seen.toList[thread.address]? = some false := by
                  simpa [Array.getD_eq_getD_getElem?, inside] using entered
                have listed : program.toList[thread.address]? = some instruction := by
                  simpa using found
                -- What the new address adds to the pending threads has left the ways.
                have paid := waysLeft_set listed fresh
                have pushed := thread.length_onward_le place instruction
                have stillEnough : (thread.onward place instruction ++ pending).length +
                    waysLeft program.toList (seen.setIfInBounds thread.address true).toList <
                      fuel := by
                  rw [List.length_append, Array.toList_setIfInBounds]
                  omega
                rcases ih (covers.of_entered sized found) (by simpa using sized) stillEnough
                  unmatched with ⟨seenAfter, after, keeps, enters⟩
                refine ⟨seenAfter, after, ?_, ?_⟩
                · intro address addressEntered
                  apply keeps
                  rw [getD_setIfInBounds inside, addressEntered]
                  simp
                · intro other other_mem
                  rcases List.mem_cons.mp other_mem with rfl | other_mem
                  · apply keeps
                    rw [getD_setIfInBounds inside]
                    simp
                  · exact enters other (List.mem_append_right _ other_mem)

end Regex

end ImportResolution
