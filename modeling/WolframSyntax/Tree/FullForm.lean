import WolframSyntax.Text.Numeric
import WolframSyntax.Tree.Basic

/-!
# Trees as texts

Full form is the fully bracketed notation of an expression. Symbols, numbers and strings are written
as they were read, and every other construct as a head with its operands in brackets: `a + b c`
becomes `Plus[a,Times[b,c]]`. Leaves are not written, so no stray commas appear.

A call needs a head. A call without operands has none and no full form; such trees do not come out
of the parser, but edits can make them.

Reports show a tree in one line. It names the construct, shows the text of a node without operands
and the first three operands of any other node, and the message of an error node.
-/

namespace WolframSyntax.Tree

variable {Label : Type}

/-- The report on a call without a head. -/
def headlessMessage : String := "not enough values to unpack (expected at least 1, got 0)"

/-- A head with its operands. -/
def bracketed (head : String) (operands : List String) : String :=
  head ++ "[" ++ String.intercalate "," operands ++ "]"

/-- The operand of a slot or slot sequence: its number, one if it has none, or its quoted name. -/
def slotLabel (text : String) : String :=
  match text.toList.dropWhile (· == '#') with
  | [] => "1"
  | label =>
    if label.all Text.isDigit then String.ofList label
    else "\"" ++ String.ofList label ++ "\""

/-- All values of a list of attempts, if every attempt has one. -/
def allSome {Value : Type} : List (Option Value) → Option (List Value)
  | [] => some []
  | none :: _ => none
  | some value :: attempts => (allSome attempts).map (value :: ·)

/-- The first operand as head of the others. -/
def applyFirst : List (Option String) → Option String
  | [] => none
  | head :: operands => do return bracketed (← head) (← allSome operands)

/-- The full form of a node from its construct, its text and the full forms of its operands. -/
def compose (kind : NodeKind) (text : String) (operands : List (Option String)) : Option String :=
  match kind with
  | .symbol | .number | .string => some text
  | .stringifiedSymbol => some ("\"" ++ text ++ "\"")
  | .slot | .slotSequence => some (bracketed kind.head [slotLabel text])
  | .functionCall | .callBefore => applyFirst operands
  | .callAfter => applyFirst (operands.getLast?.toList ++ operands.dropLast)
  | .group => operands.head?.getD (some "")
  | .null => some "Null"
  | .file => (allSome operands).map (String.intercalate "\n")
  | kind => (allSome operands).map (bracketed kind.head)

mutual

/-- The full form of a tree; a file has one line for each of its expressions. -/
def fullForm? : Tree Label → Option String
  | node label content children =>
    compose content.kind (node label content children).text (fullFormOperands children)

/-- The full forms of the trees of a list that are not leaves. -/
def fullFormOperands : List (Tree Label) → List (Option String)
  | [] => []
  | tree :: trees =>
    if tree.isLeaf then fullFormOperands trees else tree.fullForm? :: fullFormOperands trees

end

/-- The lines a tree contributes to a listing: one for each expression of a file, one otherwise. -/
def fullFormLines? (tree : Tree Label) : Option (List String) :=
  if tree.kind = .file then allSome (fullFormOperands tree.children)
  else tree.fullForm?.map fun form => [form]

/-! ## Short displays -/

/-- At most three operands are shown. -/
def shownOperands : Nat := 3

mutual

/-- A tree as it is shown in reports. -/
def display : Tree Label → String
  | node label content children =>
    let tree := node label content children
    let operands := displayOperands children
    let message := content.message.getD ""
    let subject :=
      if content.kind = .error ∧ message ≠ "" then [", message=" ++ Text.quote message]
      else if content.kind.isLeaf || operands.isEmpty then [", text=" ++ Text.quote tree.text]
      else []
    let shown := String.intercalate ", " (operands.take shownOperands)
    let shown := if operands.length > shownOperands then shown ++ ", ..." else shown
    let preview := if operands.isEmpty then [] else [", children=[" ++ shown ++ "]"]
    "Node(" ++ content.kind.head ++ String.join (subject ++ preview) ++ ")"

/-- The displays of the trees of a list that are not leaves. -/
def displayOperands : List (Tree Label) → List String
  | [] => []
  | tree :: trees =>
    if tree.isLeaf then displayOperands trees else tree.display :: displayOperands trees

end

end WolframSyntax.Tree
