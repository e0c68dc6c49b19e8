import ImportResolution.Alias.Expansion

/-!
# Alias templates

The replacement of an alias is written with group references as `\N`, `$N` or
`${N}`. It is turned into the template language of `Expansion`, where a reference
is `$N` or `${N}` and a literal dollar sign is written twice. A backslash before
anything else is literal, and two backslashes are one.
-/

namespace ImportResolution

namespace Template

/-- How reading a replacement goes on. -/
inductive Mode
  | literal
  | dollar
  | backslash
  /-- Inside the number of a reference with a backslash. -/
  | number
  deriving DecidableEq, Repr

/-- The template that a replacement stands for, from a place inside it. -/
def convertFrom : Mode → Text → Text
  | .literal, [] => []
  | .literal, char :: rest =>
      if char = '$' then convertFrom .dollar rest
      else if char = '\\' then convertFrom .backslash rest
      else char :: convertFrom .literal rest
  | .dollar, [] => ['$', '$']
  | .dollar, char :: rest =>
      if char = '$' then '$' :: '$' :: convertFrom .literal rest
      else if char.isDigit || char = '\x7b' then '$' :: char :: convertFrom .literal rest
      else if char = '\\' then '$' :: '$' :: convertFrom .backslash rest
      else '$' :: '$' :: char :: convertFrom .literal rest
  | .backslash, [] => ['\\']
  | .backslash, char :: rest =>
      if char.isDigit then '$' :: '\x7b' :: char :: convertFrom .number rest
      else if char = '\\' then '\\' :: convertFrom .literal rest
      else if char = '$' then '\\' :: convertFrom .dollar rest
      else '\\' :: char :: convertFrom .literal rest
  | .number, [] => ['\x7d']
  | .number, char :: rest =>
      if char.isDigit then char :: convertFrom .number rest
      else if char = '$' then '\x7d' :: convertFrom .dollar rest
      else if char = '\\' then '\x7d' :: convertFrom .backslash rest
      else '\x7d' :: char :: convertFrom .literal rest

/-- The template that a replacement stands for. -/
def convert (replacement : Text) : Text :=
  convertFrom .literal replacement

end Template

end ImportResolution
