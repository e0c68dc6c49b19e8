import ImportResolution.Regex.Count

/-!
# Groups of a pattern

What an opening parenthesis begins: a capture group, with or without a name, a plain
group, or a change of flags.
-/

namespace ImportResolution

namespace Regex

namespace Parser

/-- The state of reading. -/
structure Scanner where
  rest : Text
  flags : Flags := {}
  /-- How many capture groups have been opened. -/
  groups : Nat := 0
  names : List (Text × Nat) := []
  deriving DecidableEq, Repr

/-- What an opening parenthesis begins. -/
inductive GroupStart
  /-- Flags for the rest of the surrounding group. -/
  | flags
  | plain
  | capture (index : Nat)
  deriving DecidableEq, Repr

/-- The flags with one of them set or cleared. -/
def setFlag (flags : Flags) (value : Bool) : Char → Option Flags
  | 'i' => some { flags with ignoreCase := value }
  | 'm' => some { flags with multiLine := value }
  | 's' => some { flags with dotMatchesNewline := value }
  | 'U' => some { flags with swapGreed := value }
  | 'R' => some { flags with crlf := value }
  | 'x' => some { flags with ignoreSpace := value }
  | 'u' => some flags
  | _ => none

/-- The flags up to a colon or a closing parenthesis, which is left in the text. -/
def flagList (flags : Flags) (negated : Bool) (seen : Text) : Text → Except Error (Flags × Text)
  | [] => .error .unclosedFlags
  | '-' :: rest =>
      if negated then .error .repeatedNegation
      else
        match rest with
        | [] => .error .unclosedFlags
        | next :: more =>
            if next = ':' || next = ')' then .error .danglingNegation
            else flagList flags true seen (next :: more)
  | char :: rest =>
      if char = ':' || char = ')' then .ok (flags, char :: rest)
      else
        match setFlag flags (!negated) char with
        | none => .error .unknownFlag
        | some flags =>
            if char ∈ seen then .error .duplicateFlag
            else flagList flags negated (char :: seen) rest

/-- The characters of group names; fewer may come first. -/
def isNameChar (first : Bool) (char : Char) : Bool :=
  if first then char == '_' || Text.isAlphabetic char
  else char == '_' || char == '.' || char == '[' || char == ']' || Text.isAlphanumeric char

/-- A group name up to its closing bracket, after the characters read so far, last first. -/
def groupName (taken : Text) : Text → Except Error (Text × Text)
  | [] => if taken.isEmpty then .error .missingGroupName else .error .unclosedGroupName
  | '>' :: rest =>
      if taken.isEmpty then .error .emptyGroupName else .ok (taken.reverse, rest)
  | char :: rest =>
      if isNameChar taken.isEmpty char then groupName (char :: taken) rest
      else .error .invalidGroupName

/-- Whether a group looks ahead or behind. -/
def isLookAround (text : Text) : Bool :=
  ["?=", "?!", "?<=", "?<!"].any fun beginning => beginning.toList.isPrefixOf text

/-- A capture group opened under a name. -/
def namedGroup (scanner : Scanner) (text : Text) : Except Error (GroupStart × Scanner) := do
  let (name, rest) ← groupName [] text
  if (scanner.names.lookup name).isSome then throw .duplicateGroupName
  pure (.capture (scanner.groups + 1),
    { scanner with
      rest
      groups := scanner.groups + 1
      names := (name, scanner.groups + 1) :: scanner.names })

/-- What follows an opening parenthesis, up to where the body of the group starts. -/
def groupStart (scanner : Scanner) : Except Error (GroupStart × Scanner) :=
  let text := skipSpace scanner.flags scanner.rest
  if isLookAround text then .error .lookAround
  else
    match text with
    | '?' :: 'P' :: '<' :: rest => namedGroup scanner rest
    | '?' :: '<' :: rest => namedGroup scanner rest
    | ['?'] => .error .unclosedGroupQuestion
    | '?' :: rest => do
        let (flags, left) ← flagList scanner.flags false [] rest
        match left with
        | ':' :: left => pure (.plain, { scanner with rest := left, flags })
        | left =>
            if rest.head? = some ')' then throw .emptyFlags
            pure (.flags, { scanner with rest := left, flags })
    | text =>
        .ok (.capture (scanner.groups + 1),
          { scanner with rest := text, groups := scanner.groups + 1 })

/-- The item that a closed group stands for. -/
def GroupStart.close : GroupStart → Item → Item
  | .capture index, body => ⟨.group index body.expr, body.height + 1⟩
  | _, body => body

end Parser

end Regex

end ImportResolution
