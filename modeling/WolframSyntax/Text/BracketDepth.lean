/-!
# Bracket depth

How many brackets a text leaves open, whatever their kinds. Brackets in string literals do not
count; brackets in comments do.
-/

namespace WolframSyntax.Text

/-- Where a character stands: outside of string literals, inside one, or behind a backslash inside
one. -/
inductive LiteralState where
  | outside
  | inside
  | escaped
  deriving DecidableEq, Repr

/-- Where the next character stands. -/
def LiteralState.after (state : LiteralState) (character : Char) : LiteralState :=
  match state with
  | outside => if character = '"' then inside else outside
  | inside =>
    if character = '\\' then escaped else if character = '"' then outside else inside
  | escaped => inside

/-- What a character outside of string literals adds to the depth. -/
def bracketValue (character : Char) : Int :=
  if character = '(' ∨ character = '[' ∨ character = '{' then 1
  else if character = ')' ∨ character = ']' ∨ character = '}' then -1
  else 0

/-- What a list of characters adds to the depth. -/
def bracketDepthFrom (state : LiteralState) : List Char → Int
  | [] => 0
  | character :: rest =>
    (if state = .outside then bracketValue character else 0)
      + bracketDepthFrom (state.after character) rest

/-- The number of open brackets a text leaves, which is negative if it closes more than it
opens. -/
def bracketDepth (text : String) : Int := bracketDepthFrom .outside text.toList

end WolframSyntax.Text
