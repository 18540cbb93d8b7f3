/-!
# Operators and punctuation

The operators of the language with their spellings and their published names. No spelling is used
twice (`Operator.ofSpelling?_spelling`), nor is a name (`Operator.ofName?_name`), and a run of
operator characters is read by its longest spelling first.
-/

namespace WolframSyntax

/-- An operator or a punctuation mark. -/
inductive Operator where
  | set
  | setDelayed
  | upSet
  | upSetDelayed
  | tagSet
  | unset
  | addTo
  | subtractFrom
  | timesBy
  | divideBy
  | semicolon
  | span
  | function
  | applyAfter
  | applyBefore
  | map
  | apply
  | mapApply
  | doubleColon
  | rule
  | ruleDelayed
  | replaceAll
  | replaceRepeated
  | condition
  | stringExpression
  | colon
  | alternatives
  | repeated
  | repeatedNull
  | questionMark
  | blank
  | blankSequence
  | blankNullSequence
  | or
  | and
  | exclamation
  | factorial2
  | equal
  | unequal
  | sameQ
  | unsameQ
  | less
  | greater
  | lessEqual
  | greaterEqual
  | plus
  | minus
  | times
  | divide
  | dot
  | power
  | stringJoin
  | increment
  | decrement
  | derivative
  | leftBracket
  | rightBracket
  | leftBrace
  | rightBrace
  | leftPar
  | rightPar
  | comma
  deriving DecidableEq, Repr

namespace Operator

/-- Every operator, in the order of the language's tables. -/
def all : List Operator :=
  [.set, .setDelayed, .upSet, .upSetDelayed, .tagSet, .unset, .addTo, .subtractFrom, .timesBy,
   .divideBy, .semicolon, .span, .function, .applyAfter, .applyBefore, .map, .apply, .mapApply,
   .doubleColon, .rule, .ruleDelayed, .replaceAll, .replaceRepeated, .condition,
   .stringExpression, .colon, .alternatives, .repeated, .repeatedNull, .questionMark, .blank,
   .blankSequence, .blankNullSequence, .or, .and, .exclamation, .factorial2, .equal, .unequal,
   .sameQ, .unsameQ, .less, .greater, .lessEqual, .greaterEqual, .plus, .minus, .times, .divide,
   .dot, .power, .stringJoin, .increment, .decrement, .derivative, .leftBracket, .rightBracket,
   .leftBrace, .rightBrace, .leftPar, .rightPar, .comma]

/-- The characters an operator is written with. -/
def spelling : Operator → List Char
  | .set => ['=']
  | .setDelayed => [':', '=']
  | .upSet => ['^', '=']
  | .upSetDelayed => ['^', ':', '=']
  | .tagSet => ['/', ':']
  | .unset => ['=', '.']
  | .addTo => ['+', '=']
  | .subtractFrom => ['-', '=']
  | .timesBy => ['*', '=']
  | .divideBy => ['/', '=']
  | .semicolon => [';']
  | .span => [';', ';']
  | .function => ['&']
  | .applyAfter => ['/', '/']
  | .applyBefore => ['@']
  | .map => ['/', '@']
  | .apply => ['@', '@']
  | .mapApply => ['@', '@', '@']
  | .doubleColon => [':', ':']
  | .rule => ['-', '>']
  | .ruleDelayed => [':', '>']
  | .replaceAll => ['/', '.']
  | .replaceRepeated => ['/', '/', '.']
  | .condition => ['/', ';']
  | .stringExpression => ['~', '~']
  | .colon => [':']
  | .alternatives => ['|']
  | .repeated => ['.', '.']
  | .repeatedNull => ['.', '.', '.']
  | .questionMark => ['?']
  | .blank => ['_']
  | .blankSequence => ['_', '_']
  | .blankNullSequence => ['_', '_', '_']
  | .or => ['|', '|']
  | .and => ['&', '&']
  | .exclamation => ['!']
  | .factorial2 => ['!', '!']
  | .equal => ['=', '=']
  | .unequal => ['!', '=']
  | .sameQ => ['=', '=', '=']
  | .unsameQ => ['=', '!', '=']
  | .less => ['<']
  | .greater => ['>']
  | .lessEqual => ['<', '=']
  | .greaterEqual => ['>', '=']
  | .plus => ['+']
  | .minus => ['-']
  | .times => ['*']
  | .divide => ['/']
  | .dot => ['.']
  | .power => ['^']
  | .stringJoin => ['<', '>']
  | .increment => ['+', '+']
  | .decrement => ['-', '-']
  | .derivative => ['\'']
  | .leftBracket => ['[']
  | .rightBracket => [']']
  | .leftBrace => ['{']
  | .rightBrace => ['}']
  | .leftPar => ['(']
  | .rightPar => [')']
  | .comma => [',']

/-- The published name of an operator. -/
def name : Operator → String
  | .set => "SET"
  | .setDelayed => "SET_DELAYED"
  | .upSet => "UP_SET"
  | .upSetDelayed => "UP_SET_DELAYED"
  | .tagSet => "TAG_SET"
  | .unset => "UNSET"
  | .addTo => "ADD_TO"
  | .subtractFrom => "SUBTRACT_FROM"
  | .timesBy => "TIMES_BY"
  | .divideBy => "DIVIDE_BY"
  | .semicolon => "SEMICOLON"
  | .span => "SPAN"
  | .function => "FUNCTION"
  | .applyAfter => "POSTFIX"
  | .applyBefore => "PREFIX"
  | .map => "MAP"
  | .apply => "APPLY"
  | .mapApply => "MAP_APPLY"
  | .doubleColon => "DOUBLE_COLON"
  | .rule => "RULE"
  | .ruleDelayed => "RULE_DELAYED"
  | .replaceAll => "REPLACE_ALL"
  | .replaceRepeated => "REPLACE_REPEATED"
  | .condition => "CONDITION"
  | .stringExpression => "STRING_EXPRESSION"
  | .colon => "COLON"
  | .alternatives => "ALTERNATIVES"
  | .repeated => "REPEATED"
  | .repeatedNull => "REPEATED_NULL"
  | .questionMark => "QUESTION_MARK"
  | .blank => "BLANK"
  | .blankSequence => "BLANK_SEQUENCE"
  | .blankNullSequence => "BLANK_NULL_SEQUENCE"
  | .or => "OR"
  | .and => "AND"
  | .exclamation => "EXCLAMATION"
  | .factorial2 => "FACTORIAL2"
  | .equal => "EQUAL"
  | .unequal => "UNEQUAL"
  | .sameQ => "SAME_Q"
  | .unsameQ => "UNSAME_Q"
  | .less => "LESS"
  | .greater => "GREATER"
  | .lessEqual => "LESS_EQUAL"
  | .greaterEqual => "GREATER_EQUAL"
  | .plus => "PLUS"
  | .minus => "MINUS"
  | .times => "TIMES"
  | .divide => "DIVIDE"
  | .dot => "DOT"
  | .power => "POWER"
  | .stringJoin => "STRING_JOIN"
  | .increment => "INCREMENT"
  | .decrement => "DECREMENT"
  | .derivative => "DERIVATIVE"
  | .leftBracket => "LEFT_BRACKET"
  | .rightBracket => "RIGHT_BRACKET"
  | .leftBrace => "LEFT_BRACE"
  | .rightBrace => "RIGHT_BRACE"
  | .leftPar => "LEFT_PAR"
  | .rightPar => "RIGHT_PAR"
  | .comma => "COMMA"

/-- The operator written with the given characters. -/
def ofSpelling? (characters : List Char) : Option Operator :=
  all.find? fun operator => operator.spelling == characters

/-- The operator with the given published name. -/
def ofName? (name : String) : Option Operator :=
  all.find? fun operator => operator.name == name

/-- Every operator is listed. -/
theorem mem_all (sign : Operator) : sign ∈ all := by
  cases sign <;> decide

/-- An operator is found by its spelling. -/
theorem ofSpelling?_spelling (sign : Operator) : ofSpelling? sign.spelling = some sign := by
  cases sign <;> decide +kernel

/-- An operator is found by its name. -/
theorem ofName?_name (sign : Operator) : ofName? sign.name = some sign := by
  cases sign <;> decide +kernel

/-- No operator is written with more characters than this. -/
def longestSpelling : Nat := 3

/-- The operator with the longest spelling of at most `length` characters at the start of the
text. -/
def longestWithin (characters : List Char) : Nat → Option Operator
  | 0 => none
  | length + 1 =>
    match ofSpelling? (characters.take (length + 1)) with
    | some operator => some operator
    | none => longestWithin characters length

/-- The operator with the longest spelling at the start of the text. -/
def longest? (characters : List Char) : Option Operator :=
  longestWithin characters longestSpelling

end Operator

end WolframSyntax
