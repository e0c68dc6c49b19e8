import ImportResolution.Proofs.Regex.Advance
import ImportResolution.Regex.Escape
import Mathlib.Logic.Relation

/-!
# Crossing the code of an expression

The code of an expression is the same wherever it stands in a program. `Code.Crosses` says
what it does there: a thread at its first instruction leads to the matches of the threads
that stand behind its last one, and the relation tells which those are. There is one lemma
for each way to put code together, so the relation of an expression follows its syntax.

Main statement: `Expr.leads_program_iff`, for a whole pattern.
-/

namespace ImportResolution

namespace Regex

variable {program : Program} {place : Place} {address : Nat}
  {recorded places : List (Nat × Nat)}

/-! ## One instruction -/

theorem leads_iff_of_none (ended : program[address]? = none) :
    Leads program place ⟨address, recorded⟩ places ↔ places = recorded := by
  constructor
  · intro leads
    cases leads with
    | matched _ => rfl
    | onward found _ _ => simp [ended] at found
    | take found _ _ _ => simp [ended] at found
  · rintro rfl
    exact .matched ended

/-- Unless it takes a character, an instruction leads where the threads behind it lead. -/
theorem leads_iff_of_onward {instruction : Instruction}
    (found : program[address]? = some instruction) (moves : instruction.waits = false) :
    Leads program place ⟨address, recorded⟩ places ↔
      ∃ next ∈ Thread.onward ⟨address, recorded⟩ place instruction,
        Leads program place next places := by
  constructor
  · intro leads
    cases leads with
    | matched ended => simp [found] at ended
    | onward found' next_mem leads =>
        cases found.symm.trans found'
        exact ⟨_, next_mem, leads⟩
    | take found' _ _ _ =>
        cases found.symm.trans found'
        contradiction
  · rintro ⟨next, next_mem, leads⟩
    exact .onward found next_mem leads

theorem leads_iff_of_take {charClass : CharClass}
    (found : program[address]? = some (.take charClass)) :
    Leads program place ⟨address, recorded⟩ places ↔
      ∃ char rest, place.after = char :: rest ∧ charClass.contains char = true ∧
        Leads program (place.behind char rest) ⟨address + 1, recorded⟩ places := by
  constructor
  · intro leads
    cases leads with
    | matched ended => simp [found] at ended
    | onward found' next_mem _ =>
        cases found.symm.trans found'
        simp [Thread.onward] at next_mem
    | take found' follows contains leads =>
        cases found.symm.trans found'
        exact ⟨_, _, follows, contains, leads⟩
  · rintro ⟨char, rest, follows, contains, leads⟩
    exact .take found follows contains leads

/-- A fork leads wherever one of its distances leads. -/
theorem leads_iff_of_fork {distances : List Int}
    (found : program[address]? = some (.fork distances)) :
    Leads program place ⟨address, recorded⟩ places ↔ ∃ distance ∈ distances,
      Leads program place ⟨(address + distance).toNat, recorded⟩ places := by
  rw [leads_iff_of_onward found rfl]
  simp [Thread.onward, Thread.jump]

/-! ## Code in a program -/

/-- The instructions stand in a program from an address on. -/
def HasAt (program : Program) (address : Nat) (instructions : List Instruction) : Prop :=
  ∀ index < instructions.length, program[address + index]? = instructions[index]?

namespace HasAt

variable {first second : List Instruction}

theorem append_left (has : HasAt program address (first ++ second)) :
    HasAt program address first := by
  intro index inside
  rw [has index (by rw [List.length_append]; omega), List.getElem?_append_left inside]

theorem append_right (has : HasAt program address (first ++ second)) :
    HasAt program (address + first.length) second := by
  intro index inside
  have found := has (first.length + index) (by rw [List.length_append]; omega)
  rw [List.getElem?_append_right (by omega), Nat.add_sub_cancel_left] at found
  rw [Nat.add_assoc, found]

theorem head {instruction : Instruction} (has : HasAt program address (instruction :: second)) :
    program[address]? = some instruction := by
  simpa using has 0 (by simp)

theorem tail {instruction : Instruction} (has : HasAt program address (instruction :: second)) :
    HasAt program (address + 1) second :=
  @append_right _ _ [instruction] second has

end HasAt

/-- Where a thread stands in a text, with what it has recorded. -/
structure Standing where
  place : Place
  recorded : List (Nat × Nat)

namespace Code

/-- Wherever the code stands, a thread gets through it to the standings behind it on these ways. -/
def Crosses (code : Code) (way : Standing → Standing → Prop) : Prop :=
  ∀ (program : Program) (address : Nat), HasAt program address code.instructions →
    ∀ (standing : Standing) (places : List (Nat × Nat)),
      Leads program standing.place ⟨address, standing.recorded⟩ places ↔
        ∃ next, way standing next ∧
          Leads program next.place ⟨address + code.length, next.recorded⟩ places

namespace Crosses

variable {first second body : Code} {way other : Standing → Standing → Prop}

theorem congr (crosses : body.Crosses way)
    (same : ∀ standing next, way standing next ↔ other standing next) : body.Crosses other := by
  intro program address has standing places
  rw [crosses program address has]
  simp only [same]

theorem nothing : nothing.Crosses Eq := by
  intro program address _ standing places
  simp [Code.nothing]

theorem failure : failure.Crosses fun _ _ => False := by
  intro program address has standing places
  rw [leads_iff_of_onward (HasAt.head has) rfl]
  simp [Thread.onward]

theorem look (assertion : Look) :
    (single (.look assertion)).Crosses fun standing next =>
      assertion.holds standing.place = true ∧ next = standing := by
  intro program address has standing places
  rw [leads_iff_of_onward (HasAt.head has) rfl]
  by_cases holds : assertion.holds standing.place = true
  · simp [Thread.onward, Thread.next, single, holds]
  · simp [Thread.onward, holds]

theorem record (slot : Nat) :
    (single (.record slot)).Crosses fun standing next =>
      next = ⟨standing.place, (slot, standing.place.index) :: standing.recorded⟩ := by
  intro program address has standing places
  rw [leads_iff_of_onward (HasAt.head has) rfl]
  simp [Thread.onward, Thread.next, single]

theorem take (charClass : CharClass) :
    (single (.take charClass)).Crosses fun standing next =>
      ∃ char rest, standing.place.after = char :: rest ∧ charClass.contains char = true ∧
        next = ⟨standing.place.behind char rest, standing.recorded⟩ := by
  intro program address has standing places
  rw [leads_iff_of_take (HasAt.head has)]
  constructor
  · rintro ⟨char, rest, follows, contains, leads⟩
    exact ⟨_, ⟨char, rest, follows, contains, rfl⟩, leads⟩
  · rintro ⟨_, ⟨char, rest, follows, contains, rfl⟩, leads⟩
    exact ⟨char, rest, follows, contains, leads⟩

theorem append (firstCrosses : first.Crosses way) (secondCrosses : second.Crosses other) :
    (first.append second).Crosses (Relation.Comp way other) := by
  intro program address has standing places
  have behind : HasAt program (address + first.length) second.instructions := by
    rw [first.length_eq]
    exact HasAt.append_right has
  rw [firstCrosses _ _ (HasAt.append_left has)]
  simp only [secondCrosses _ _ behind, Code.append, Nat.add_assoc]
  constructor
  · rintro ⟨middle, firstWay, next, secondWay, leads⟩
    exact ⟨next, ⟨middle, firstWay, secondWay⟩, leads⟩
  · rintro ⟨next, ⟨middle, firstWay, secondWay⟩, leads⟩
    exact ⟨middle, firstWay, next, secondWay, leads⟩

theorem either (firstCrosses : first.Crosses way) (secondCrosses : second.Crosses other) :
    (first.either second).Crosses fun standing next => way standing next ∨ other standing next := by
  intro program address has standing places
  have inFirst : HasAt program (address + 1) first.instructions :=
    HasAt.append_left (HasAt.tail has)
  have pastFirst : HasAt program (address + first.length + 1)
      (.fork [second.length + 1] :: second.instructions) := by
    rw [first.length_eq, Nat.add_right_comm]
    exact HasAt.append_right (HasAt.tail has)
  have inSecond : HasAt program (address + first.length + 2) second.instructions :=
    HasAt.tail pastFirst
  have toFirst : ((address : Int) + 1).toNat = address + 1 := by omega
  have toSecond : ((address : Int) + (first.length + 2)).toNat = address + first.length + 2 := by
    omega
  have toEnd : ((address + first.length + 1 : Nat) + (second.length + 1 : Int)).toNat =
      address + (first.either second).length := by
    simp only [Code.either]
    omega
  have behindFirst (next : Standing) :
      Leads program next.place ⟨address + 1 + first.length, next.recorded⟩ places ↔
        Leads program next.place ⟨address + (first.either second).length, next.recorded⟩
          places := by
    rw [Nat.add_right_comm, leads_iff_of_fork (HasAt.head pastFirst)]
    simp only [List.mem_singleton, exists_eq_left, toEnd]
  have behindSecond : address + first.length + 2 + second.length =
      address + (first.either second).length := by
    simp only [Code.either]
    omega
  rw [leads_iff_of_fork (HasAt.head has)]
  simp only [List.mem_cons, List.not_mem_nil, or_false, exists_eq_left, toFirst, toSecond,
    firstCrosses _ _ inFirst, secondCrosses _ _ inSecond, behindFirst, behindSecond, or_and_right,
    exists_or]

/-- A loop leads where one more round leads, or past it. -/
theorem leads_star_iff (bodyCrosses : body.Crosses way) {greedy : Bool}
    (has : HasAt program address (body.star greedy).instructions) (standing : Standing) :
    Leads program standing.place ⟨address, standing.recorded⟩ places ↔
      (∃ next, way standing next ∧
        Leads program next.place ⟨address, next.recorded⟩ places) ∨
      Leads program standing.place ⟨address + (body.star greedy).length, standing.recorded⟩
        places := by
  have inLoop : HasAt program (address + 1)
      (body.instructions ++ [.fork [-(body.length + 1 : Int)]]) := HasAt.tail has
  have inBody : HasAt program (address + 1) body.instructions := HasAt.append_left inLoop
  have pastBody : program[address + 1 + body.length]? =
      some (.fork [-(body.length + 1 : Int)]) := by
    have found := HasAt.head (HasAt.append_right inLoop)
    rwa [← body.length_eq] at found
  have into : ((address : Int) + 1).toNat = address + 1 := by omega
  have past : ((address : Int) + (body.length + 2)).toNat =
      address + (body.star greedy).length := by
    simp only [Code.star, Code.append, Code.single]
    omega
  have back : ((address + 1 + body.length : Nat) + -(body.length + 1 : Int)).toNat = address := by
    omega
  have loops (next : Standing) :
      Leads program next.place ⟨address + 1 + body.length, next.recorded⟩ places ↔
        Leads program next.place ⟨address, next.recorded⟩ places := by
    rw [leads_iff_of_fork pastBody]
    simp only [List.mem_singleton, exists_eq_left, back]
  have chooses : ∀ holds : Int → Prop, (∃ distance ∈
      if greedy then [1, (body.length + 2 : Int)] else [(body.length + 2 : Int), 1],
        holds distance) ↔ holds 1 ∨ holds (body.length + 2) := by
    intro holds
    cases greedy
    · simp [or_comm]
    · simp
  rw [leads_iff_of_fork (HasAt.head has), chooses, into, past, bodyCrosses _ _ inBody]
  simp only [loops]

/-- A loop is crossed in any number of rounds, if each round leaves less of the text. -/
theorem star (bodyCrosses : body.Crosses way)
    (takes : ∀ standing next, way standing next →
      next.place.after.length < standing.place.after.length) (greedy : Bool) :
    (body.star greedy).Crosses (Relation.ReflTransGen way) := by
  intro program address has standing places
  have round := @leads_star_iff _ _ places _ _ bodyCrosses greedy has
  constructor
  · intro leads
    -- The text behind the standing gets shorter with every round.
    induction left : standing.place.after.length using Nat.strongRecOn
      generalizing standing with
    | ind remaining ih =>
        rcases (round standing).mp leads with ⟨next, step, again⟩ | past
        · have shorter : next.place.after.length < remaining := left ▸ takes standing next step
          rcases ih _ shorter next again rfl with ⟨last, steps, past⟩
          exact ⟨last, .head step steps, past⟩
        · exact ⟨standing, .refl, past⟩
  · rintro ⟨last, steps, past⟩
    induction steps using Relation.ReflTransGen.head_induction_on with
    | refl => exact (round last).mpr (.inr past)
    | head step _ again => exact (round _).mpr (.inl ⟨_, step, again⟩)

end Crosses

end Code

/-! ## Characters of a class -/

theorem CharClass.contains_self_iff {char other : Char} :
    CharClass.contains [(char.toNat, char.toNat)] other = true ↔ other = char := by
  rw [← Char.toNat_inj]
  simp only [CharClass.contains, List.any_cons, List.any_nil, Bool.or_false, Bool.and_eq_true,
    decide_eq_true_eq]
  omega

/-- The dot stands for every character but the line feed. -/
theorem Parser.contains_dot_iff {char : Char} : (dot {}).contains char = true ↔ char ≠ '\n' := by
  have classes : dot {} = [(0, 9), (11, CharClass.maxCode)] := by decide
  have isCode : char.toNat ≤ CharClass.maxCode := by
    rcases char.valid with low | ⟨-, high⟩
    · exact Nat.le_trans (Nat.le_of_lt low) (by decide)
    · exact Nat.le_of_lt_succ high
  have newline : char = '\n' ↔ char.toNat = 10 := by
    rw [← Char.toNat_inj]
    rfl
  rw [classes, Ne, newline]
  simp [CharClass.contains]
  omega

/-! ## Taking a text -/

/-- A text is taken between two places, one character after the other. -/
inductive Takes : Text → Place → Place → Prop
  | nil {place : Place} : Takes [] place place
  | cons {place last : Place} {char : Char} {rest taken : Text}
      (follows : place.after = char :: rest) (takes : Takes taken (place.behind char rest) last) :
      Takes (char :: taken) place last

namespace Takes

variable {taken : Text} {place last : Place}

theorem nil_iff : Takes [] place last ↔ last = place := by
  constructor
  · rintro ⟨⟩
    rfl
  · rintro rfl
    exact .nil

theorem cons_iff {char : Char} : Takes (char :: taken) place last ↔
    ∃ rest, place.after = char :: rest ∧ Takes taken (place.behind char rest) last := by
  constructor
  · rintro ⟨⟩
    exact ⟨_, ‹_›, ‹_›⟩
  · rintro ⟨rest, follows, takes⟩
    exact .cons follows takes

theorem after_eq (takes : Takes taken place last) : place.after = taken ++ last.after := by
  induction takes with
  | nil => rfl
  | cons follows _ ih =>
      rw [follows, List.cons_append, ← ih]
      rfl

theorem index_eq (takes : Takes taken place last) : last.index = place.index + taken.length := by
  induction takes with
  | nil => rfl
  | cons _ _ ih =>
      rw [ih, List.length_cons]
      simp only [Place.behind]
      omega

theorem exists_of_after_eq {rest : Text} (after_eq : place.after = taken ++ rest) :
    ∃ last, Takes taken place last ∧ last.after = rest := by
  induction taken generalizing place with
  | nil => exact ⟨place, .nil, after_eq⟩
  | cons char taken ih =>
      rcases @ih (place.behind char (taken ++ rest)) rfl with ⟨last, takes, last_after⟩
      exact ⟨last, .cons after_eq takes, last_after⟩

end Takes

/-! ## Expressions -/

/-- How threads get through the code of an expression. -/
def Expr.Crosses (expr : Expr) (way : Standing → Standing → Prop) : Prop :=
  expr.code.Crosses way

namespace Expr

namespace Crosses

variable {body first : Expr} {parts branches : List Expr} {way other : Standing → Standing → Prop}

theorem congr (crosses : body.Crosses way)
    (same : ∀ standing next, way standing next ↔ other standing next) : body.Crosses other :=
  Code.Crosses.congr crosses same

theorem empty : Expr.empty.Crosses Eq :=
  Code.Crosses.nothing

theorem look (assertion : Look) :
    (Expr.look assertion).Crosses fun standing next =>
      assertion.holds standing.place = true ∧ next = standing :=
  Code.Crosses.look assertion

theorem oneOf (charClass : CharClass) :
    (Expr.oneOf charClass).Crosses fun standing next =>
      ∃ char rest, standing.place.after = char :: rest ∧ charClass.contains char = true ∧
        next = ⟨standing.place.behind char rest, standing.recorded⟩ :=
  Code.Crosses.take charClass

theorem char (character : Char) :
    (Expr.char character).Crosses fun standing next =>
      ∃ rest, standing.place.after = character :: rest ∧
        next = ⟨standing.place.behind character rest, standing.recorded⟩ := by
  have taken := Code.Crosses.take [(character.toNat, character.toNat)]
  refine taken.congr fun standing next => ?_
  simp only [CharClass.contains_self_iff]
  constructor
  · rintro ⟨_, rest, follows, rfl, stands⟩
    exact ⟨rest, follows, stands⟩
  · rintro ⟨rest, follows, stands⟩
    exact ⟨character, rest, follows, rfl, stands⟩

/-- A group records where its body begins and ends. -/
theorem group (index : Nat) (crosses : body.Crosses way) :
    (Expr.group index body).Crosses fun standing next =>
      ∃ last, way ⟨standing.place, (2 * index, standing.place.index) :: standing.recorded⟩ last ∧
        next = ⟨last.place, (2 * index + 1, last.place.index) :: last.recorded⟩ := by
  have recorded := (Code.Crosses.record (2 * index)).append
    (Code.Crosses.append crosses (.record (2 * index + 1)))
  refine recorded.congr fun standing next => ?_
  simp only [Relation.Comp, exists_eq_left]

theorem seq_nil : (Expr.seq []).Crosses Eq :=
  Code.Crosses.nothing

theorem seq_cons (firstCrosses : first.Crosses way) (restCrosses : (Expr.seq parts).Crosses other) :
    (Expr.seq (first :: parts)).Crosses (Relation.Comp way other) :=
  Code.Crosses.append firstCrosses restCrosses

theorem alt_nil : (Expr.alt []).Crosses fun _ _ => False :=
  Code.Crosses.failure

theorem alt_cons (firstCrosses : first.Crosses way)
    (restCrosses : (Expr.alt branches).Crosses other) :
    (Expr.alt (first :: branches)).Crosses fun standing next =>
      way standing next ∨ other standing next :=
  Code.Crosses.either firstCrosses restCrosses

/-- Characters in a row are crossed by taking them as a text. -/
theorem text (characters : Text) (restCrosses : (Expr.seq parts).Crosses other) :
    (Expr.seq (characters.map .char ++ parts)).Crosses fun standing next =>
      ∃ middle, Takes characters standing.place middle ∧
        other ⟨middle, standing.recorded⟩ next := by
  induction characters with
  | nil =>
      refine restCrosses.congr fun standing next => ?_
      simp only [Takes.nil_iff, exists_eq_left]
  | cons character characters ih =>
      refine (seq_cons (char character) ih).congr fun standing next => ?_
      simp only [Relation.Comp, Takes.cons_iff]
      constructor
      · rintro ⟨_, ⟨rest, follows, rfl⟩, middle, takes, stands⟩
        exact ⟨middle, ⟨rest, follows, takes⟩, stands⟩
      · rintro ⟨middle, ⟨rest, follows, takes⟩, stands⟩
        exact ⟨_, ⟨rest, follows, rfl⟩, middle, takes, stands⟩

/-- A repeated class is crossed by taking any text of its characters. -/
theorem star (charClass : CharClass) (greedy : Bool) :
    (Expr.repetition 0 none greedy (.oneOf charClass)).Crosses fun standing next =>
      ∃ taken, (∀ char ∈ taken, charClass.contains char = true) ∧
        Takes taken standing.place next.place ∧ next.recorded = standing.recorded := by
  have loop := (Code.Crosses.take charClass).star (by
    rintro standing _ ⟨char, rest, follows, -, rfl⟩
    simp [follows, Place.behind]) greedy
  refine loop.congr fun standing next => ?_
  constructor
  · intro steps
    induction steps using Relation.ReflTransGen.head_induction_on with
    | refl => exact ⟨[], by simp, .nil, rfl⟩
    | head step _ ih =>
        rcases step with ⟨char, rest, follows, contains, rfl⟩
        rcases ih with ⟨taken, inClass, takes, recorded⟩
        exact ⟨char :: taken, List.forall_mem_cons.mpr ⟨contains, inClass⟩, .cons follows takes,
          recorded⟩
  · rcases standing with ⟨place, recorded⟩
    rcases next with ⟨last, _⟩
    rintro ⟨taken, inClass, takes, rfl⟩
    simp only at takes
    induction takes with
    | nil => exact .refl
    | cons follows _ ih =>
        rw [List.forall_mem_cons] at inClass
        exact .head ⟨_, _, follows, inClass.1, rfl⟩ (ih inClass.2)

end Crosses

variable {expr : Expr} {way : Standing → Standing → Prop}

/-- The whole pattern is matched from a place exactly as its ways say. -/
theorem leads_program_iff (crosses : (Expr.group 0 expr).Crosses way) :
    Leads expr.program place ⟨0, []⟩ places ↔ ∃ last, way ⟨place, []⟩ ⟨last, places⟩ := by
  have has : HasAt expr.program 0 (Expr.group 0 expr).code.instructions := by
    intro index _
    simp [program]
  have ended : expr.program[0 + (Expr.group 0 expr).code.length]? = none := by
    simp [program, Code.length_eq]
  rw [crosses _ _ has ⟨place, []⟩ places]
  simp only [leads_iff_of_none ended]
  constructor
  · rintro ⟨next, stands, rfl⟩
    exact ⟨next.place, stands⟩
  · rintro ⟨last, stands⟩
    exact ⟨⟨last, places⟩, stands, rfl⟩

end Expr

end Regex

end ImportResolution
