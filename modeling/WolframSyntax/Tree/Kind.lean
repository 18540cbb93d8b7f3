import WolframSyntax.Text.Quoted

/-!
# Kinds of nodes

What a node of a syntax tree stands for. Every kind has the full-form head that names it
(`NodeKind.ofHead?_head`), and a member name under which it is listed.
-/

namespace WolframSyntax

/-- The construct a node stands for. The last two kinds are the leaves. -/
inductive NodeKind where
  | symbol
  | number
  | string
  | stringifiedSymbol
  | slot
  | slotSequence
  | null
  | file
  | group
  | functionCall
  | part
  | list
  | messageName
  | compoundExpression
  | function
  | callBefore
  | callAfter
  | error
  | set
  | setDelayed
  | tagSet
  | tagSetDelayed
  | upSet
  | upSetDelayed
  | unset
  | addTo
  | subtractFrom
  | timesBy
  | divideBy
  | pattern
  | patternTest
  | blank
  | blankSequence
  | blankNullSequence
  | condition
  | alternatives
  | repeated
  | repeatedNull
  | rule
  | ruleDelayed
  | replaceAll
  | replaceRepeated
  | stringExpression
  | plus
  | subtract
  | minus
  | times
  | divide
  | power
  | dot
  | stringJoin
  | factorial
  | factorial2
  | increment
  | decrement
  | preIncrement
  | preDecrement
  | derivative
  | map
  | apply
  | mapApply
  | span
  | not
  | and
  | or
  | equal
  | unequal
  | sameQ
  | unsameQ
  | less
  | greater
  | lessEqual
  | greaterEqual
  | token
  | whitespace
  deriving DecidableEq, Repr

namespace NodeKind

/-- Every kind, in the order of their listing. -/
def all : List NodeKind :=
  [.symbol, .number, .string, .stringifiedSymbol, .slot, .slotSequence, .null, .file, .group,
   .functionCall, .part, .list, .messageName, .compoundExpression, .function, .callBefore,
   .callAfter, .error, .set, .setDelayed, .tagSet, .tagSetDelayed, .upSet, .upSetDelayed, .unset,
   .addTo, .subtractFrom, .timesBy, .divideBy, .pattern, .patternTest, .blank, .blankSequence,
   .blankNullSequence, .condition, .alternatives, .repeated, .repeatedNull, .rule, .ruleDelayed,
   .replaceAll, .replaceRepeated, .stringExpression, .plus, .subtract, .minus, .times, .divide,
   .power, .dot, .stringJoin, .factorial, .factorial2, .increment, .decrement, .preIncrement,
   .preDecrement, .derivative, .map, .apply, .mapApply, .span, .not, .and, .or, .equal, .unequal,
   .sameQ, .unsameQ, .less, .greater, .lessEqual, .greaterEqual, .token, .whitespace]

/-- The full-form head of a kind. -/
def head : NodeKind → String
  | .symbol => "Symbol"
  | .number => "Number"
  | .string => "String"
  | .stringifiedSymbol => "StringifiedSymbol"
  | .slot => "Slot"
  | .slotSequence => "SlotSequence"
  | .null => "Null"
  | .file => "File"
  | .group => "Group"
  | .functionCall => "FunctionCall"
  | .part => "Part"
  | .list => "List"
  | .messageName => "MessageName"
  | .compoundExpression => "CompoundExpression"
  | .function => "Function"
  | .callBefore => "Prefix"
  | .callAfter => "Postfix"
  | .error => "Error"
  | .set => "Set"
  | .setDelayed => "SetDelayed"
  | .tagSet => "TagSet"
  | .tagSetDelayed => "TagSetDelayed"
  | .upSet => "UpSet"
  | .upSetDelayed => "UpSetDelayed"
  | .unset => "Unset"
  | .addTo => "AddTo"
  | .subtractFrom => "SubtractFrom"
  | .timesBy => "TimesBy"
  | .divideBy => "DivideBy"
  | .pattern => "Pattern"
  | .patternTest => "PatternTest"
  | .blank => "Blank"
  | .blankSequence => "BlankSequence"
  | .blankNullSequence => "BlankNullSequence"
  | .condition => "Condition"
  | .alternatives => "Alternatives"
  | .repeated => "Repeated"
  | .repeatedNull => "RepeatedNull"
  | .rule => "Rule"
  | .ruleDelayed => "RuleDelayed"
  | .replaceAll => "ReplaceAll"
  | .replaceRepeated => "ReplaceRepeated"
  | .stringExpression => "StringExpression"
  | .plus => "Plus"
  | .subtract => "Subtract"
  | .minus => "Minus"
  | .times => "Times"
  | .divide => "Divide"
  | .power => "Power"
  | .dot => "Dot"
  | .stringJoin => "StringJoin"
  | .factorial => "Factorial"
  | .factorial2 => "Factorial2"
  | .increment => "Increment"
  | .decrement => "Decrement"
  | .preIncrement => "PreIncrement"
  | .preDecrement => "PreDecrement"
  | .derivative => "Derivative"
  | .map => "Map"
  | .apply => "Apply"
  | .mapApply => "MapApply"
  | .span => "Span"
  | .not => "Not"
  | .and => "And"
  | .or => "Or"
  | .equal => "Equal"
  | .unequal => "Unequal"
  | .sameQ => "SameQ"
  | .unsameQ => "UnsameQ"
  | .less => "Less"
  | .greater => "Greater"
  | .lessEqual => "LessEqual"
  | .greaterEqual => "GreaterEqual"
  | .token => "Token"
  | .whitespace => "Whitespace"

/-- The member name of a kind. -/
def memberName : NodeKind → String
  | .symbol => "SYMBOL"
  | .number => "NUMBER"
  | .string => "STRING"
  | .stringifiedSymbol => "STRINGIFIED_SYMBOL"
  | .slot => "SLOT"
  | .slotSequence => "SLOT_SEQUENCE"
  | .null => "NULL"
  | .file => "FILE"
  | .group => "GROUP"
  | .functionCall => "FUNCTION_CALL"
  | .part => "PART"
  | .list => "LIST"
  | .messageName => "MESSAGE_NAME"
  | .compoundExpression => "COMPOUND_EXPRESSION"
  | .function => "FUNCTION"
  | .callBefore => "PREFIX_CALL"
  | .callAfter => "POSTFIX_CALL"
  | .error => "ERROR"
  | .set => "SET"
  | .setDelayed => "SET_DELAYED"
  | .tagSet => "TAG_SET"
  | .tagSetDelayed => "TAG_SET_DELAYED"
  | .upSet => "UP_SET"
  | .upSetDelayed => "UP_SET_DELAYED"
  | .unset => "UNSET"
  | .addTo => "ADD_TO"
  | .subtractFrom => "SUBTRACT_FROM"
  | .timesBy => "TIMES_BY"
  | .divideBy => "DIVIDE_BY"
  | .pattern => "PATTERN"
  | .patternTest => "PATTERN_TEST"
  | .blank => "BLANK"
  | .blankSequence => "BLANK_SEQUENCE"
  | .blankNullSequence => "BLANK_NULL_SEQUENCE"
  | .condition => "CONDITION"
  | .alternatives => "ALTERNATIVES"
  | .repeated => "REPEATED"
  | .repeatedNull => "REPEATED_NULL"
  | .rule => "RULE"
  | .ruleDelayed => "RULE_DELAYED"
  | .replaceAll => "REPLACE_ALL"
  | .replaceRepeated => "REPLACE_REPEATED"
  | .stringExpression => "STRING_EXPRESSION"
  | .plus => "PLUS"
  | .subtract => "SUBTRACT"
  | .minus => "MINUS"
  | .times => "TIMES"
  | .divide => "DIVIDE"
  | .power => "POWER"
  | .dot => "DOT"
  | .stringJoin => "STRING_JOIN"
  | .factorial => "FACTORIAL"
  | .factorial2 => "FACTORIAL2"
  | .increment => "INCREMENT"
  | .decrement => "DECREMENT"
  | .preIncrement => "PRE_INCREMENT"
  | .preDecrement => "PRE_DECREMENT"
  | .derivative => "DERIVATIVE"
  | .map => "MAP"
  | .apply => "APPLY"
  | .mapApply => "MAP_APPLY"
  | .span => "SPAN"
  | .not => "NOT"
  | .and => "AND"
  | .or => "OR"
  | .equal => "EQUAL"
  | .unequal => "UNEQUAL"
  | .sameQ => "SAME_Q"
  | .unsameQ => "UNSAME_Q"
  | .less => "LESS"
  | .greater => "GREATER"
  | .lessEqual => "LESS_EQUAL"
  | .greaterEqual => "GREATER_EQUAL"
  | .token => "TOKEN"
  | .whitespace => "WHITESPACE"

/-- The kind with the given full-form head. -/
def ofHead? (head : String) : Option NodeKind :=
  all.find? fun kind => kind.head == head

/-- Every kind is listed. -/
theorem mem_all (kind : NodeKind) : kind ∈ all := by
  cases kind <;> decide

/-- A kind is found by its head. -/
theorem ofHead?_head (kind : NodeKind) : ofHead? kind.head = some kind := by
  cases kind <;> decide +kernel

/-- The report on a text that is the head of no kind. -/
def unknownHeadMessage (head : String) : String :=
  Text.quote head ++ " is not a valid NodeKind"

/-- Leaves are single tokens and pieces of trivia. -/
def isLeaf : NodeKind → Bool
  | .token | .whitespace => true
  | _ => false

end NodeKind

end WolframSyntax
