import WolframSyntax.Token.Basic
import WolframSyntax.Tree.Kind

/-!
# Syntax trees

A syntax tree keeps every token of the text it was read from: leaves wrap single tokens, and the
text of a node is the text of its leaves. The children of a node that are not leaves are its
expressions. A tree may carry a label at every node; trees that come out of the parser carry none.
-/

namespace WolframSyntax

/-- What a node holds besides its children. A leaf holds a token, an error node a message, and a
node without tokens the place it is reported at. -/
structure Content where
  kind : NodeKind
  token : Option Token
  message : Option String
  position : Option Position

/-- A tree of constructs whose nodes carry labels. -/
inductive Tree (Label : Type) where
  | node (label : Label) (content : Content) (children : List (Tree Label))

/-- A tree without labels. -/
abbrev SyntaxTree := Tree Unit

namespace Tree

variable {Label : Type}

/-- The label of the root. -/
def label : Tree Label → Label
  | node label _ _ => label

/-- What the root holds besides its children. -/
def content : Tree Label → Content
  | node _ content _ => content

/-- The trees directly below the root, leaves included. -/
def children : Tree Label → List (Tree Label)
  | node _ _ children => children

/-- The construct of the root. -/
def kind (tree : Tree Label) : NodeKind := tree.content.kind

/-- The error message of the root. -/
def message (tree : Tree Label) : Option String := tree.content.message

/-- Whether the root is of a leaf kind. -/
def isLeaf (tree : Tree Label) : Bool := tree.kind.isLeaf

/-- The children that are not leaves, which are the operands of the root. -/
def expressions (tree : Tree Label) : List (Tree Label) :=
  tree.children.filter fun child => !child.isLeaf

/-- The first operand, which is the head of a call. -/
def firstExpression (tree : Tree Label) : Option (Tree Label) := tree.expressions.head?

/-- The operands after the first, which are the arguments of a call. -/
def arguments (tree : Tree Label) : List (Tree Label) := tree.expressions.tail

/-- The operand with a given number; zero is the head of a call and one its first argument. -/
def argument (tree : Tree Label) (number : Nat) : Option (Tree Label) := tree.expressions[number]?

mutual

/-- The text a tree covers. -/
def text : Tree Label → String
  | node _ content children =>
    match content.token with
    | some token => token.text
    | none => textOfAll children

/-- The text a list of trees covers. -/
def textOfAll : List (Tree Label) → String
  | [] => ""
  | tree :: trees => tree.text ++ textOfAll trees

end

mutual

/-- The first token a tree covers, trivia apart unless the root itself holds it. -/
def firstToken : Tree Label → Option Token
  | node _ content children =>
    match content.token with
    | some token => some token
    | none => firstTokenOfAll children

/-- The first token a list of trees covers, whitespace trees apart. -/
def firstTokenOfAll : List (Tree Label) → Option Token
  | [] => none
  | tree :: trees =>
    if tree.kind = .whitespace then
      firstTokenOfAll trees
    else
      match tree.firstToken with
      | some token => some token
      | none => firstTokenOfAll trees

end

/-- The place of a tree: that of its first token, or the one its root records. -/
def position (tree : Tree Label) : Position :=
  match tree.firstToken with
  | some token => token.position
  | none => tree.content.position.getD ⟨0, 0⟩

mutual

/-- A tree and all trees below it, each before those below it and from left to right. -/
def walk : Tree Label → List (Tree Label)
  | node label content children => node label content children :: walkAll children

/-- The trees of a list and all trees below them, in the same order. -/
def walkAll : List (Tree Label) → List (Tree Label)
  | [] => []
  | tree :: trees => tree.walk ++ walkAll trees

end

/-- The error nodes of a tree, in document order. -/
def errors (tree : Tree Label) : List (Tree Label) :=
  tree.walk.filter fun node => node.kind == .error

mutual

/-- The tokens of a tree in document order, trivia included. -/
def tokens : Tree Label → List Token
  | node _ content children => content.token.toList ++ tokensOfAll children

/-- The tokens of a list of trees in document order. -/
def tokensOfAll : List (Tree Label) → List Token
  | [] => []
  | tree :: trees => tree.tokens ++ tokensOfAll trees

end

end Tree

namespace SyntaxTree

/-- The leaf for a token. -/
def leaf (token : Token) : SyntaxTree :=
  .node () ⟨if token.isTrivia then .whitespace else .token, some token, none, none⟩ []

/-- A node without message. -/
def ofKind (kind : NodeKind) (children : List SyntaxTree) : SyntaxTree :=
  .node () ⟨kind, none, none, none⟩ children

/-- An error node around `children`. -/
def error (message : String) (children : List SyntaxTree) : SyntaxTree :=
  .node () ⟨.error, none, some message, none⟩ children

/-- A node that covers no token and is reported at the token it stands in front of. -/
def absent (kind : NodeKind) (message : Option String) (next : Token) : SyntaxTree :=
  .node () ⟨kind, none, message, some next.position⟩ []

end SyntaxTree

end WolframSyntax
