import WolframSyntax.Grammar.Basic
import WolframSyntax.Proofs.Schema

/-!
# Precedence in trees

Which operator made a node can be told from the node (`Tree.madeBy?`,
`Tree.strength?`), so a tree can be compared with a table of precedences. A node
respects the table if its operator holds the operands behind it more strongly than the operators
inside them bind, and if the operators at the end of the operand in front of it do not bind less
strongly than its own operator (`Tree.Respects`).
-/

namespace WolframSyntax

namespace Continuation

/-- Whether a continuation makes constructs of a kind. -/
def makes : Continuation → NodeKind → Bool
  | binary made _, kind | flat made, kind | suffix made, kind => made == kind
  | product, kind => kind == .times
  | call, kind => kind == .functionCall || kind == .part
  | pattern _, kind => kind == .pattern
  | messageName, kind => kind == .messageName
  | compound, kind => kind == .compoundExpression
  | tagSet, kind => kind == .tagSet || kind == .tagSetDelayed

/-- Whether a continuation takes any number of operands between signs of its own. -/
def isChain : Continuation → Bool
  | flat _ | product => true
  | _ => false

/-- Whether nothing behind the operator is held by it. -/
def closes : Continuation → Bool
  | suffix _ | call | pattern _ => true
  | _ => false

/-- Whether an operator of precedence `outer` may hold an operator of precedence `inner` at the top
of an operand behind it. The operands behind it are numbered from zero: those of an assignment to a
tag are the pattern and the value. -/
def HoldsRight (outer inner : Int) (number : Nat) : Continuation → Prop
  | binary _ true => outer ≤ inner
  | binary _ false | flat _ | product | compound => outer < inner
  | tagSet => if number = 0 then outer < inner else outer ≤ inner
  | suffix _ | call | pattern _ | messageName => True

/-- Whether an operator of precedence `inner` may stand at the top of an operand in front of one of
precedence `outer`. `complete` tells whether the last operand has been written. -/
def HoldsLeft (outer inner : Int) (complete : Prop) : Continuation → Prop
  | binary _ true | tagSet => outer < inner
  | binary _ false | flat _ | product | messageName => outer ≤ inner
  | compound => complete → outer ≤ inner
  | suffix _ | call | pattern _ => True

end Continuation

/-- A colon makes patterns, and so do only the blanks that have to touch the name. -/
theorem Continuation.eq_colon_of_makes {sign : Operator} {continuation : Continuation}
    (form : ofOperator? sign = some continuation) (makes : continuation.makes .pattern)
    (apart : continuation.mustTouch = false) :
    sign = .colon ∧ continuation = .binary .pattern false := by
  cases sign <;> cases form <;>
    first | exact ⟨rfl, rfl⟩ | exact absurd makes (by decide) | exact absurd apart (by decide)

/-- The operator that makes constructs of a kind out of the expression in front of it. -/
def NodeKind.madeBy? (kind : NodeKind) : Option Operator :=
  Operator.all.find? fun sign => (Continuation.ofOperator? sign).any (·.makes kind)

namespace Tree

variable {Label : Type}

/-- The operator that made a node out of its first operand. A pattern is made by the blank that
follows its name, or else by a colon. -/
def madeBy? (tree : Tree Label) : Option Operator :=
  match tree.children with
  | [] => none
  | first :: rest =>
    if first.isLeaf then none
    else if tree.kind = .pattern then
      match rest.head?.map kind with
      | some .blank => some .blank
      | some .blankSequence => some .blankSequence
      | some .blankNullSequence => some .blankNullSequence
      | _ => some .colon
    else tree.kind.madeBy?

/-- The strength of the operator in front of the only operand of a node. -/
def strength? (tree : Tree Label) : Option Int :=
  match tree.children.head?.bind fun first => first.content.token with
  | none => none
  | some token =>
    match Opening.ofKind? token.kind with
    | some (.operator kind strength) => if tree.kind = kind then some strength else none
    | _ => none

/-- Whether the last operand of a node has been written. -/
def IsComplete (tree : Tree Label) : Prop :=
  ∀ last ∈ tree.expressions.getLast?, last.kind ≠ .null

/-- Whether a tree may be the operand in front of an operator of precedence `outer`. -/
structure StandsBefore (grammar : Grammar) (outer : Int) (tree : Tree Label) : Prop where
  made : ∀ sign continuation, tree.madeBy? = some sign →
    Continuation.ofOperator? sign = some continuation →
      continuation.HoldsLeft outer (grammar.precedence sign) tree.IsComplete
  opened : ∀ strength, tree.strength? = some strength → outer ≤ strength

/-- Whether the operands of a node agree with the precedences of a grammar. -/
structure Respects (grammar : Grammar) (tree : Tree Label) : Prop where
  right : ∀ sign continuation, tree.madeBy? = some sign →
    Continuation.ofOperator? sign = some continuation →
      ∀ number operand inner, tree.arguments[number]? = some operand →
        operand.madeBy? = some inner →
          continuation.HoldsRight (grammar.precedence sign) (grammar.precedence inner) number
  left : ∀ sign first, tree.madeBy? = some sign → tree.firstExpression = some first →
    first.StandsBefore grammar (grammar.precedence sign)
  chain : ∀ sign continuation first, tree.madeBy? = some sign →
    Continuation.ofOperator? sign = some continuation → continuation.isChain →
      tree.firstExpression = some first → first.madeBy? ≠ some sign

/-- No node of the tree is an error. -/
def IsClean (tree : Tree Label) : Prop := tree.Everywhere fun node => node.kind ≠ .error

/-- The nodes of a tree respect the precedences unless there are errors below them. -/
def Agrees (grammar : Grammar) (tree : Tree Label) : Prop :=
  tree.Everywhere fun node => node.IsClean → node.Respects grammar

/-- A tree that no operator behind it can come in conflict with. -/
structure IsClosed (tree : Tree Label) : Prop where
  made : ∀ sign continuation, tree.madeBy? = some sign →
    Continuation.ofOperator? sign = some continuation → continuation.closes
  opened : tree.strength? = none

/-- A tree without errors may be the operand in front of the operator that is in view. -/
def Awaits (grammar : Grammar) (next : Option Operator) (tree : Tree Label) : Prop :=
  tree.IsClean → ∀ sign ∈ next, tree.StandsBefore grammar (grammar.precedence sign) ∧
    ∀ continuation, Continuation.ofOperator? sign = some continuation → continuation.isChain →
      tree.madeBy? ≠ some sign

/-- A tree is free of errors just in case it has none. -/
theorem isClean_iff_errors_eq_nil {tree : Tree Label} : tree.IsClean ↔ tree.errors = [] := by
  simp [IsClean, Everywhere, errors, List.filter_eq_nil_iff]

/-- Nothing that is closed awaits an operand. -/
theorem IsClosed.awaits {tree : Tree Label} (closed : tree.IsClosed) (grammar : Grammar)
    (next : Option Operator) : tree.Awaits grammar next := by
  intro _ sign _
  refine ⟨⟨fun other continuation made form => ?_, fun strength opened => ?_⟩, ?_⟩
  · have closes := closed.made other continuation made form
    cases continuation with
    | suffix | call | pattern => trivial
    | _ => cases closes
  · rw [closed.opened] at opened
    cases opened
  · intro continuation form chain made
    have closes := closed.made sign continuation made form
    cases continuation with
    | flat | product => cases closes
    | _ => cases chain

/-- A node that no operator made has no operands to compare. -/
theorem respects_of_madeBy?_eq_none {grammar : Grammar} {tree : Tree Label}
    (unmade : tree.madeBy? = none) : tree.Respects grammar := by
  refine ⟨fun _ _ made => ?_, fun _ _ made => ?_, fun _ _ _ made => ?_⟩
  all_goals
    rw [unmade] at made
    cases made

end Tree

namespace SyntaxTree

variable {grammar : Grammar}

/-- A construct agrees with the grammar if its children do and, free of errors, it respects the
precedences. -/
theorem agrees_ofKind {kind : NodeKind} {children : List SyntaxTree}
    (below : ∀ child ∈ children, child.Agrees grammar)
    (respects : (ofKind kind children).IsClean → (ofKind kind children).Respects grammar) :
    (ofKind kind children).Agrees grammar :=
  Tree.everywhere_node.mpr ⟨respects, below⟩

theorem agrees_leaf (token : Token) : (leaf token).Agrees grammar :=
  Tree.everywhere_node.mpr
    ⟨fun _ => Tree.respects_of_madeBy?_eq_none rfl, List.forall_mem_nil _⟩

theorem agrees_absent (kind : NodeKind) (message : Option String) (next : Token) :
    (absent kind message next).Agrees grammar :=
  Tree.everywhere_node.mpr
    ⟨fun _ => Tree.respects_of_madeBy?_eq_none rfl, List.forall_mem_nil _⟩

/-- A construct that begins with its own token was not made by an operator. -/
theorem madeBy?_of_leaf (kind : NodeKind) (token : Token) (rest : List SyntaxTree) :
    (ofKind kind (leaf token :: rest)).madeBy? = none := by
  have head : (leaf token).isLeaf = true := isLeaf_leaf token
  simp [Tree.madeBy?, ofKind, Tree.children, head]

/-- The operator of a pattern with the given children after its name. -/
theorem madeBy?_of_inner (kind : NodeKind) {left : SyntaxTree} (inner : left.isLeaf = false)
    (rest : List SyntaxTree) :
    (ofKind kind (left :: rest)).madeBy?
      = if kind = .pattern then
          match rest.head?.map Tree.kind with
          | some .blank => some .blank
          | some .blankSequence => some .blankSequence
          | some .blankNullSequence => some .blankNullSequence
          | _ => some .colon
        else kind.madeBy? := by
  change (if left.isLeaf then none else _) = _
  rw [inner]
  rfl

/-- A construct of a kind that no operator makes was made by none. -/
theorem madeBy?_eq_none_of_kind {kind : NodeKind} (plain : kind ≠ .pattern)
    (unmade : kind.madeBy? = none) (children : List SyntaxTree) :
    (ofKind kind children).madeBy? = none := by
  cases children with
  | nil => rfl
  | cons first rest =>
    change (if first.isLeaf then none else if kind = .pattern then _ else kind.madeBy?) = none
    rw [if_neg plain, unmade, ite_self]

/-- An operator makes the constructs of its kinds, but for patterns. -/
theorem madeBy?_of_makes {sign : Operator} {continuation : Continuation}
    (form : Continuation.ofOperator? sign = some continuation) {kind : NodeKind}
    (makes : continuation.makes kind) (plain : kind ≠ .pattern) {left : SyntaxTree}
    (inner : left.isLeaf = false) (rest : List SyntaxTree) :
    (ofKind kind (left :: rest)).madeBy? = some sign := by
  have table : Operator.all.all (fun sign => NodeKind.all.all fun kind =>
      (Continuation.ofOperator? sign).all fun continuation =>
        !continuation.makes kind || kind == .pattern || kind.madeBy? == some sign) = true := by
    decide +kernel
  have found := List.all_eq_true.mp (List.all_eq_true.mp table sign sign.mem_all) kind kind.mem_all
  rw [form] at found
  rw [madeBy?_of_inner kind inner, if_neg plain]
  simpa [makes, plain] using found

/-- A pattern with a token behind its first operand was made by a colon. -/
theorem madeBy?_colon {left second : SyntaxTree} (inner : left.isLeaf = false)
    (leaf : second.isLeaf) (rest : List SyntaxTree) :
    (ofKind .pattern (left :: second :: rest)).madeBy? = some .colon := by
  change second.kind.isLeaf = true at leaf
  rw [madeBy?_of_inner _ inner, if_pos rfl, List.head?_cons, Option.map_some]
  split
  · next held => rw [Option.some.inj held] at leaf; cases leaf
  · next held => rw [Option.some.inj held] at leaf; cases leaf
  · next held => rw [Option.some.inj held] at leaf; cases leaf
  · rfl

/-- A pattern with a blank behind its first operand was made by the blank. -/
theorem madeBy?_blank {sign : Operator} {mark : NodeKind}
    (form : Continuation.ofOperator? sign = some (.pattern mark)) {left : SyntaxTree}
    (inner : left.isLeaf = false) (children : List SyntaxTree) :
    (ofKind .pattern [left, ofKind mark children]).madeBy? = some sign := by
  have marks : (sign, mark) ∈ [(Operator.blank, NodeKind.blank),
      (.blankSequence, .blankSequence), (.blankNullSequence, .blankNullSequence)] := by
    cases sign <;> first | (cases form; decide) | cases form
  rw [madeBy?_of_inner _ inner, if_pos rfl]
  simp only [List.mem_cons, List.not_mem_nil, or_false, Prod.mk.injEq] at marks
  rcases marks with ⟨rfl, rfl⟩ | ⟨rfl, rfl⟩ | ⟨rfl, rfl⟩ <;> rfl

/-- The constructs of the operators that are written in front of their operand. -/
def openedKinds : List NodeKind := [.minus, .plus, .not, .preIncrement, .preDecrement]

/-- The kinds that prefix operators make are known. -/
theorem mem_openedKinds {token : TokenKind} {kind : NodeKind} {strength : Int}
    (opens : Opening.ofKind? token = some (.operator kind strength)) : kind ∈ openedKinds := by
  cases token with
  | operator sign =>
    change Opening.ofOperator? sign = _ at opens
    cases sign <;> first | (cases opens; decide) | cases opens
  | _ => cases opens

/-- A construct of any other kind was opened by no operator. -/
theorem strength?_eq_none {tree : SyntaxTree} (plain : tree.kind ∉ openedKinds) :
    tree.strength? = none := by
  unfold Tree.strength?
  split
  · rfl
  · next token held =>
    split
    · next kind strength opens =>
      rw [if_neg]
      rintro rfl
      exact plain (mem_openedKinds opens)
    · rfl

/-- A construct that begins with an operand was opened by no operator. -/
theorem strength?_of_bare {kind : NodeKind} {left : SyntaxTree} (bare : left.content.token = none)
    (rest : List SyntaxTree) : (ofKind kind (left :: rest)).strength? = none := by
  have none : (ofKind kind (left :: rest)).children.head?.bind (fun first => first.content.token)
      = none := bare
  rw [Tree.strength?, none]

/-- A construct has the strength of the operator that opened it. -/
theorem strength?_of_opens {kind : NodeKind} {strength : Int} {token : Token}
    (opens : Opening.ofKind? token.kind = some (.operator kind strength)) (rest : List SyntaxTree) :
    (ofKind kind (leaf token :: rest)).strength? = some strength := by
  have held : (ofKind kind (leaf token :: rest)).children.head?.bind
      (fun first => first.content.token) = some token := rfl
  rw [Tree.strength?, held]
  simp only [opens]
  exact if_pos rfl

end SyntaxTree

end WolframSyntax
