import ImportResolution.Regex.Size

/-!
# Programs of regular expressions

An expression is compiled to instructions that a match runs through. Jumps are given
as distances, so the code of an expression is the same wherever it stands and a
counted repetition simply repeats the code of its body. Code that has matched goes
on behind its last instruction, and a match is complete at the end of the program.
-/

namespace ImportResolution

namespace Regex

/-- One instruction of a program. -/
inductive Instruction
  /-- A character of the class is taken. -/
  | take (charClass : CharClass)
  /-- The match goes on if the assertion holds. -/
  | look (look : Look)
  /-- The place in the text is recorded in a slot. -/
  | record (slot : Nat)
  /-- The match goes on at each of these distances from here, the first preferred. -/
  | fork (distances : List Int)
  deriving DecidableEq, Repr

/-- Instructions in a row, with their number. -/
structure Code where
  instructions : List Instruction
  length : Nat
  length_eq : length = instructions.length

namespace Code

/-- The code that matches the empty text. -/
def nothing : Code := ⟨[], 0, rfl⟩

/-- The code that has no match. -/
def failure : Code := ⟨[.fork []], 1, rfl⟩

/-- A single instruction. -/
def single (instruction : Instruction) : Code := ⟨[instruction], 1, rfl⟩

/-- One code and then another. -/
def append (first second : Code) : Code where
  instructions := first.instructions ++ second.instructions
  length := first.length + second.length
  length_eq := by simp [first.length_eq, second.length_eq]

/-- The first code or the second, the first preferred. -/
def either (first second : Code) : Code where
  instructions :=
    .fork [1, first.length + 2] ::
      (first.instructions ++ .fork [second.length + 1] :: second.instructions)
  length := first.length + second.length + 2
  length_eq := by simp [first.length_eq, second.length_eq]; omega

/-- Two ways on, into a body or past it, in the order that greed asks for. -/
def choose (greedy : Bool) (into past : Int) : Instruction :=
  .fork (if greedy then [into, past] else [past, into])

/-- The body or nothing. -/
def option (greedy : Bool) (body : Code) : Code :=
  (single (choose greedy 1 (body.length + 1))).append body

/-- The body at least once. -/
def plus (greedy : Bool) (body : Code) : Code :=
  body.append (single (choose greedy (-body.length) 1))

/-- The body any number of times; it must take a character each time. -/
def star (greedy : Bool) (body : Code) : Code :=
  (single (choose greedy 1 (body.length + 2))).append
    (body.append (single (.fork [-(body.length + 1)])))

/-- The body so many times. -/
def copies (count : Nat) (body : Code) : Code where
  instructions := (List.replicate count body.instructions).flatten
  length := count * body.length
  length_eq := by simp [body.length_eq]

/-- The body up to so many times; each time is entered from the end of the one before. -/
def upTo (count : Nat) (greedy : Bool) (body : Code) : Code where
  instructions :=
    (List.range count).flatMap fun done =>
      choose greedy 1 ((count - done) * (body.length + 1) : Nat) :: body.instructions
  length := count * (body.length + 1)
  length_eq := by simp [body.length_eq, List.length_flatMap, List.map_const']

/-- The code of a repetition of the body. -/
def repetition (least : Nat) (most : Option Nat) (greedy matchesEmpty : Bool)
    (body : Code) : Code :=
  match least, most with
  | 0, none => if matchesEmpty then (body.plus greedy).option greedy else body.star greedy
  | least + 1, none => (body.copies least).append (body.plus greedy)
  | least, some most => (body.copies least).append (body.upTo (most - least) greedy)

end Code

namespace Expr

mutual

/-- The code of an expression. -/
def code : Expr → Code
  | .empty => .nothing
  | .char character => .single (.take [(character.toNat, character.toNat)])
  | .oneOf charClass => .single (.take charClass)
  | .look assertion => .single (.look assertion)
  | .repetition least most greedy body =>
      .repetition least most greedy body.matchesEmpty body.code
  | .group index body =>
      (Code.single (.record (2 * index))).append
        (body.code.append (.single (.record (2 * index + 1))))
  | .seq parts => (codes parts).foldr .append .nothing
  | .alt branches => (codes branches).foldr .either .failure

/-- The code of each of the expressions. -/
def codes : List Expr → List Code
  | [] => []
  | expr :: exprs => expr.code :: codes exprs

end

end Expr

/-- The instructions of a whole pattern. -/
abbrev Program := Array Instruction

/-- The program of an expression; its whole match is group zero. -/
def Expr.program (expr : Expr) : Program :=
  (Expr.group 0 expr).code.instructions.toArray

/-- The number of instructions to which a match may go on after this one. -/
def Instruction.ways : Instruction → Nat
  | .take _ => 0
  | .look _ => 1
  | .record _ => 1
  | .fork distances => distances.length

/-- The ways on from all instructions of a program together. -/
def Program.ways (program : Program) : Nat :=
  program.foldl (fun total instruction => total + instruction.ways) 0

end Regex

end ImportResolution
