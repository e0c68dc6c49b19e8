import ImportResolution.Alias.Template
import ImportResolution.ConfigError
import ImportResolution.Specifier

/-!
# Alias rules

A rule replaces every specifier that its pattern matches. A key that starts with
`^` is a regular expression with a template for its replacement; any other key
stands for itself and everything below it.
-/

namespace ImportResolution

/-- How a match becomes a replacement. -/
inductive Substitution
  /-- A template in the language of `Expansion`. -/
  | template (text : Text)
  /-- Any text that depends on the captures alone. -/
  | function (compute : Captures → Text)

namespace Substitution

/-- The template substitution that a replacement with group references stands for. -/
def ofReplacement (replacement : Text) : Substitution :=
  .template (Template.convert replacement)

/-- The replacement for a match. -/
def apply (captures : Captures) : Substitution → Text
  | .template text => Expansion.expand text captures
  | .function compute => compute captures

end Substitution

/-- A pattern with the replacement for what it matches. -/
structure AliasRule where
  pattern : Regex
  substitution : Substitution

namespace AliasRule

/-- The rule with a pattern and a substitution. -/
def compile (pattern : Text) (substitution : Substitution) : Except ConfigError AliasRule :=
  match Regex.compile pattern with
  | .ok regex => .ok ⟨regex, substitution⟩
  | .error error => .error (.invalidAlias pattern error)

/-- The rule with a regular expression and a replacement with group references. -/
def ofRegex (pattern replacement : Text) : Except ConfigError AliasRule :=
  compile pattern (.ofReplacement replacement)

/-- The pattern that matches `key` and all that follows it after a slash. -/
def belowPattern (key : Text) : Text :=
  '^' :: Regex.escape key ++ "(/.*|)$".toList

/-- The rule that puts `value` in the place of `key`, alone or before a slash. -/
def ofKey (key value : Text) : Except ConfigError AliasRule :=
  compile (belowPattern key) (.function fun captures => value ++ (captures.group? 1).getD [])

/-- Whether a key of the settings is a regular expression. -/
def isRegexKey (key : Text) : Bool :=
  key.head? == some '^'

/-- The rule for an entry of the settings. -/
def ofEntry (key value : Text) : Except ConfigError AliasRule :=
  if isRegexKey key then ofRegex key value else ofKey key value

/-- What the rule makes of a specifier, if its pattern matches. -/
def apply (rule : AliasRule) (specifier : Specifier) : Option Text :=
  (rule.pattern.captures? specifier).map fun captures => rule.substitution.apply captures

end AliasRule

end ImportResolution
