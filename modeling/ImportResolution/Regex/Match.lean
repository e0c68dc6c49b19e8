import ImportResolution.Regex.Program

/-!
# Matching regular expressions

A program is run by threads side by side. A thread is an address in the program with
the places that it has recorded for its groups. At each place in the text the
threads are first advanced to the instructions that take a character, in order of
preference, and a thread that arrives where an earlier one has been is dropped. Then
all take the same character.

The threads stand in order of preference, so the first of them to reach the end of
the program decides the match and those behind it are forgotten: an alternative that
is written first wins over a longer match.
-/

namespace ImportResolution

namespace Regex

/-- One way in which the match may go on. -/
structure Thread where
  address : Nat
  /-- The recorded places, the latest first. -/
  places : List (Nat × Nat)
  deriving DecidableEq, Repr

/-- A place in a text: how many characters stand before it, the last of them, and what follows. -/
structure Place where
  index : Nat
  before : Option Char
  after : Text
  deriving DecidableEq, Repr

/-- ASCII letters, digits and the underscore; the ends of the text are no word characters. -/
def isWordChar (char : Option Char) : Bool :=
  match char with
  | some char => CharClass.wordChars.contains char
  | none => false

/-- Whether an assertion holds at a place. -/
def Look.holds (look : Look) (place : Place) : Bool :=
  let next := place.after.head?
  let wordBefore := isWordChar place.before
  let wordAfter := isWordChar next
  match look with
  | .textStart => place.before.isNone
  | .textEnd => next.isNone
  | .lineStart => place.before.isNone || place.before == some '\n'
  | .lineEnd => next.isNone || next == some '\n'
  | .crlfLineStart =>
      place.before.isNone || place.before == some '\n' ||
        (place.before == some '\r' && next != some '\n')
  | .crlfLineEnd =>
      next.isNone || next == some '\r' || (next == some '\n' && place.before != some '\r')
  | .wordBoundary => wordBefore != wordAfter
  | .notWordBoundary => wordBefore == wordAfter
  | .wordStart => !wordBefore && wordAfter
  | .wordEnd => wordBefore && !wordAfter
  | .wordStartHalf => !wordBefore
  | .wordEndHalf => !wordAfter

/-- The thread at the next instruction. -/
def Thread.next (thread : Thread) : Thread :=
  { thread with address := thread.address + 1 }

/-- The thread at an instruction some way off. -/
def Thread.jump (thread : Thread) (distance : Int) : Thread :=
  { thread with address := (thread.address + distance).toNat }

/-- The threads that wait for a character, and the recorded places of a thread that has matched. -/
structure Advanced where
  waiting : List Thread
  matched : Option (List (Nat × Nat))
  deriving DecidableEq, Repr

/--
The `pending` threads, the preferred first, advanced as far as they get without a
character. Addresses that have been `seen` are not entered again. The `waiting` threads
are collected last first, and a thread that has matched ends the advance.
-/
def advance (program : Program) (place : Place) :
    (fuel : Nat) → (pending : List Thread) → (seen : Array Bool) → (waiting : List Thread) →
    Advanced
  | 0, _, _, waiting => ⟨waiting.reverse, none⟩
  | _ + 1, [], _, waiting => ⟨waiting.reverse, none⟩
  | fuel + 1, thread :: pending, seen, waiting =>
      if seen.getD thread.address false then advance program place fuel pending seen waiting
      else
        let seen := seen.setIfInBounds thread.address true
        match program[thread.address]? with
        | none => ⟨waiting.reverse, some thread.places⟩
        | some (.take _) => advance program place fuel pending seen (thread :: waiting)
        | some (.look look) =>
            if look.holds place then
              advance program place fuel (thread.next :: pending) seen waiting
            else advance program place fuel pending seen waiting
        | some (.record slot) =>
            let places := (slot, place.index) :: thread.places
            advance program place fuel ({ thread.next with places } :: pending) seen waiting
        | some (.fork distances) =>
            advance program place fuel (distances.map thread.jump ++ pending) seen waiting

/--
The threads advanced at a place where no address has been seen. A step either drops a
thread or enters an address for the first time, so the fuel is never used up.
-/
def advanceAll (program : Program) (ways : Nat) (place : Place) (threads : List Thread) :
    Advanced :=
  advance program place (threads.length + ways + 1) threads
    (Array.replicate program.size false) []

/-- The threads behind a character that they all take; those that cannot are dropped. -/
def takeChar (program : Program) (char : Char) (threads : List Thread) : List Thread :=
  threads.filterMap fun thread =>
    match program[thread.address]? with
    | some (Instruction.take charClass) =>
        if charClass.contains char then some thread.next else none
    | _ => none

/--
The places recorded by the preferred match that begins here or later. `pending` are the
threads begun before, and `best` is the match found so far; once there is one, no new
thread begins.
-/
def run (program : Program) (ways : Nat) (index : Nat) (before : Option Char)
    (pending : List Thread) (best : Option (List (Nat × Nat))) :
    Text → Option (List (Nat × Nat))
  | [] =>
      let pending := if best.isSome then pending else pending ++ [⟨0, []⟩]
      (advanceAll program ways ⟨index, before, []⟩ pending).matched.or best
  | char :: rest =>
      if best.isSome && pending.isEmpty then best
      else
        let pending := if best.isSome then pending else pending ++ [⟨0, []⟩]
        let advanced := advanceAll program ways ⟨index, before, char :: rest⟩ pending
        run program ways (index + 1) (some char) (takeChar program char advanced.waiting)
          (advanced.matched.or best) rest

/-- The places recorded by the leftmost match in a text, the preferred one of those. -/
def Program.search (program : Program) (text : Text) : Option (List (Nat × Nat)) :=
  run program program.ways 0 none [] none text

end Regex

end ImportResolution
