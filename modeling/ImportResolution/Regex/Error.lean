/-!
# Errors of regular expressions

Why a pattern is refused, one constructor for each cause.
-/

namespace ImportResolution

namespace Regex

/-- The first fault found in a pattern. -/
inductive Error
  | tooMuchNesting
  | duplicateGroupName
  | unclosedGroup
  | unclosedGroupQuestion
  | unopenedGroup
  | lookAround
  | emptyFlags
  | missingGroupName
  | invalidGroupName
  | unclosedGroupName
  | emptyGroupName
  | unknownFlag
  | repeatedNegation
  | duplicateFlag
  | unclosedFlags
  | danglingNegation
  | decimalWithoutDigits
  | decimalTooLarge
  | bracedHexWithOtherDigit
  | bracedHexUnclosed
  | bracedHexEmpty
  | bracedHexInvalid
  | fixedHexTooShort
  | fixedHexWithOtherDigit
  | fixedHexInvalid
  | hexMissing
  | escapeMissing
  | backreference
  | unicodeClass
  | unknownEscape
  | nothingToRepeat
  | nothingToCount
  | countUnclosed
  | countUnclosedAfterMin
  | countUnclosedAfterComma
  | countUnclosedAfterMax
  | countInvalid
  | countReversed
  | classUnclosedAfterItem
  | classRangeOfClasses
  | classInvalidItem
  | classUnclosedAfterDash
  | classUnclosedAfterNegation
  | classUnclosedAfterBracket
  | classReversedRange
  | classUnclosed
  | nestedClass
  | classIntersection
  | classDifference
  | classSymmetricDifference
  | boundaryUnclosed
  | unknownBoundary
  | boundaryOrCountUnclosed
  | tooLarge
  deriving DecidableEq, Repr

/-- The text that describes an error. -/
def Error.message : Error → String
  | .tooMuchNesting => "pattern has too much nesting"
  | .duplicateGroupName => "duplicate capture group name"
  | .unclosedGroup => "found open group without closing ')'"
  | .unclosedGroupQuestion => "expected closing ')', but got end of pattern"
  | .unopenedGroup => "found closing ')' without matching '('"
  | .lookAround => "look-around is not supported"
  | .emptyFlags => "empty flag directive '(?)' is not allowed"
  | .missingGroupName => "expected capture group name, but got end of pattern"
  | .invalidGroupName => "invalid group name"
  | .unclosedGroupName => "expected end of capture group name, but got end of pattern"
  | .emptyGroupName => "empty capture group names are not allowed"
  | .unknownFlag => "unrecognized inline flag"
  | .repeatedNegation => "inline flag negation cannot be repeated"
  | .duplicateFlag => "duplicate inline flag is not allowed"
  | .unclosedFlags => "expected ':' or ')' to end inline flags, but got end of pattern"
  | .danglingNegation => "inline flags cannot end with negation directive"
  | .decimalWithoutDigits => "expected decimal number, but found no digits"
  | .decimalTooLarge => "got invalid decimal number"
  | .bracedHexWithOtherDigit => "expected hexadecimal number in braces, but got non-hex digit"
  | .bracedHexUnclosed =>
      "expected hexadecimal number, but saw end of pattern before closing brace"
  | .bracedHexEmpty => "expected hexadecimal number in braces, but got no digits"
  | .bracedHexInvalid => "got invalid hexadecimal number in braces"
  | .fixedHexTooShort =>
      "expected fixed length hexadecimal number, but saw end of pattern first"
  | .fixedHexWithOtherDigit =>
      "expected fixed length hexadecimal number, but got non-hex digit"
  | .fixedHexInvalid => "got invalid fixed length hexadecimal number"
  | .hexMissing => "expected hexadecimal number, but saw end of pattern first"
  | .escapeMissing =>
      "saw start of escape sequence, but saw end of pattern before it finished"
  | .backreference => "backreferences are not supported"
  | .unicodeClass => "Unicode character classes are not supported"
  | .unknownEscape => "unrecognized escape sequence"
  | .nothingToRepeat =>
      "uncounted repetition operator must be applied to a sub-expression"
  | .nothingToCount => "counted repetition operator must be applied to a sub-expression"
  | .countUnclosed => "found unclosed counted repetition operator"
  | .countUnclosedAfterMin => "found incomplete and unclosed counted repetition operator"
  | .countUnclosedAfterComma =>
      "found counted repetition operator with a comma that is unclosed"
  | .countUnclosedAfterMax => "found counted repetition with min and max that is unclosed"
  | .countInvalid =>
      "expected closing brace for counted repetition, but got something else"
  | .countReversed => "found counted repetition with a min bigger than its max"
  | .classUnclosedAfterItem => "non-empty character class has no closing bracket"
  | .classRangeOfClasses =>
      "character class ranges must start and end with a single character"
  | .classInvalidItem => "invalid escape sequence in character class"
  | .classUnclosedAfterDash => "non-empty character class has no closing bracket after dash"
  | .classUnclosedAfterNegation => "negated character class has no closing bracket"
  | .classUnclosedAfterBracket =>
      "character class begins with literal ']' but has no closing bracket"
  | .classReversedRange => "invalid range in character class"
  | .classUnclosed => "found unclosed character class"
  | .nestedClass => "nested character classes are not supported"
  | .classIntersection => "character class intersection is not supported"
  | .classDifference => "character class difference is not supported"
  | .classSymmetricDifference => "character class symmetric difference is not supported"
  | .boundaryUnclosed =>
      "special word boundary assertion is unclosed or has an invalid character"
  | .unknownBoundary => "special word boundary assertion is unrecognized"
  | .boundaryOrCountUnclosed =>
      "found start of special word boundary or repetition without an end"
  | .tooLarge => "compiled regex exceeded size limit"

end Regex

end ImportResolution
