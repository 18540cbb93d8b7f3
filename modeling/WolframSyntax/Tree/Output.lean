import WolframSyntax.Json.Printer
import WolframSyntax.Text.Lowercase
import WolframSyntax.Text.Quoted
import WolframSyntax.Tree.FullForm

/-!
# Output formats

A list of trees as one text: a line of full form for each expression, or a JSON text that holds
the outline of the only tree or a list of outlines. The outline of a tree is its construct, its text
and its place, the outlines of its operands, and its message if it has one. Leaves are not listed.
-/

namespace WolframSyntax

/-! ## Outlines -/

namespace Tree

variable {Label : Type}

mutual

/-- The outline of a tree. -/
def outline : Tree Label → Json
  | node label content children =>
    let tree := node label content children
    let message := content.message.toList.map fun message => ("message", Json.str message)
    .obj <|
      [("kind", .str content.kind.head), ("text", .str tree.text),
       ("line", .int tree.position.line), ("col", .int tree.position.col),
       ("children", .arr (outlineOperands children))] ++ message

/-- The outlines of the trees of a list that are not leaves. -/
def outlineOperands : List (Tree Label) → List Json
  | [] => []
  | tree :: trees =>
    if tree.isLeaf then outlineOperands trees else tree.outline :: outlineOperands trees

end

end Tree

/-! ## Formats -/

/-- How trees are written. -/
inductive OutputFormat where
  | fullForm
  | json
  deriving DecidableEq, Repr

namespace OutputFormat

/-- The formats with their names in lower case. -/
def names : List (String × OutputFormat) :=
  [("fullform", fullForm), ("ff", fullForm), ("json", json)]

/-- The format with the given name, in upper or lower case. -/
def ofName? (name : String) : Option OutputFormat := names.lookup (Text.lowercase name)

/-- The report on a text that names no format. -/
def unknownNameMessage (name : String) : String :=
  "Unknown output format: " ++ Text.quote (Text.lowercase name)

/-- The report on trees that are absent. -/
def absentTreeMessage : String := "Only Node instances can be rendered."

/-- A list of trees as text; none if one of them holds a call without a head and the format has to
write it. -/
def render? {Label : Type} (format : OutputFormat) (trees : List (Tree Label)) : Option String :=
  match format with
  | fullForm =>
    (Tree.allSome (trees.map Tree.fullFormLines?)).map fun lines =>
      String.intercalate "\n" lines.flatten
  | json =>
    match trees with
    | [tree] => some tree.outline.print
    | trees => some (Json.arr (trees.map Tree.outline)).print

end OutputFormat

end WolframSyntax
