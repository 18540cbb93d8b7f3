import WolframSyntax.Forest.Basic
import WolframSyntax.Scope.Declaration
import WolframSyntax.Tree.FullForm

/-!
# Classification

Which localizing construct a node is. A classifier remembers its answers; an answer is good as long
as the node has not changed since, which its version tells, and only then is it used again.
Everything a classifier finds out is noted in its journal.
-/

namespace WolframSyntax

/-- Something that was found out about names. -/
inductive ScopeEvent where
  | classified (node : StampedTree) (construct : Construct)
  | foundLocal (name : String) (construct : Construct) (position : Position)
  | foundNothing (name : String)

namespace ScopeEvent

/-- The report of an event. -/
def message : ScopeEvent → String
  | classified node construct => "Classified " ++ node.display ++ " as " ++ construct.memberName
  | foundLocal name construct position =>
    name ++ " is local to " ++ construct.name ++ " at " ++ toString position.line ++ ":"
      ++ toString position.col
  | foundNothing name => "No definition found for " ++ name

end ScopeEvent

/-- The construct that a node is, by the table of heads. -/
def ConstructTable.classify {Label : Type} (table : ConstructTable) (tree : Tree Label) :
    Construct :=
  match Construct.ofOperatorForm? tree.kind with
  | some construct => construct
  | none =>
    if tree.kind = .functionCall then
      match tree.firstExpression with
      | some head => if head.kind = .symbol then table.constructOf head.text else .null
      | none => .null
    else .null

/-- An answer of a classifier, with the version of the node it was given for. -/
structure Answer where
  birth : Nat
  version : Nat
  construct : Construct

/-- A table of heads, the answers given so far with how many of them had to be worked out, and
a journal, latest entry first. -/
structure Classifier where
  table : ConstructTable
  answers : List Answer
  recomputations : Nat
  journal : List ScopeEvent

namespace Classifier

/-- A classifier that has not been asked anything. -/
def ofTable (table : ConstructTable) : Classifier := ⟨table, [], 0, []⟩

/-- The classifier with one more event in its journal. -/
def note (classifier : Classifier) (event : ScopeEvent) : Classifier :=
  { classifier with journal := event :: classifier.journal }

/-- The answer that is remembered for a node, however old it is. -/
def answer? (classifier : Classifier) (birth : Nat) : Option Answer :=
  classifier.answers.find? fun answer => answer.birth == birth

/-- The answer that is remembered for a node as it is now. -/
def current? (classifier : Classifier) (node : StampedTree) : Option Construct :=
  match classifier.answer? node.birth with
  | some answer => if answer.version = node.version then some answer.construct else none
  | none => none

/-- The classifier with the answer for a node as it is now in place of any older one. -/
def remember (classifier : Classifier) (node : StampedTree) (construct : Construct) : Classifier :=
  { classifier with
    answers := ⟨node.birth, node.version, construct⟩ ::
      classifier.answers.filter fun answer => answer.birth != node.birth
    recomputations := classifier.recomputations + 1 }

/-- The construct that a node is, and the classifier after it has been asked. -/
def classify (classifier : Classifier) (node : StampedTree) : Construct × Classifier :=
  match classifier.current? node with
  | some construct => (construct, classifier)
  | none =>
    let construct := classifier.table.classify node
    (construct, (classifier.remember node construct).note (.classified node construct))

/-- Whether a place lies in an initial value of the variable list of a call. -/
def isInInitialValue (call : StampedTree) (place : Occurrence Stamp) : Bool :=
  call.initialValues.any fun value => place.lineage.any fun node => value.sameNode node

/-- The symbols that `element` declares for `place`, when `last` is the child of `element` on the
way up from there. A call declares nothing for its head, and a construct with initial values
declares nothing for them. -/
def declarations (classifier : Classifier) (element : StampedTree) (last : Occurrence Stamp)
    (place : Occurrence Stamp) : List StampedTree × Classifier :=
  let below := last.parent?.any fun parent => parent.sameNode element
  let isHead := element.firstExpression.any fun head => head.sameNode last.tree
  if !below || (element.kind == .functionCall && isHead) then ([], classifier)
  else
    let (construct, classifier) := classifier.classify element
    if construct = .null then ([], classifier)
    else if construct.initializes && isInInitialValue element place then ([], classifier)
    else (element.localizedSymbols construct, classifier)

end Classifier

end WolframSyntax
