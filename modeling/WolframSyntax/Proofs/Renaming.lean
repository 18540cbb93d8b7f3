import Mathlib.Logic.Equiv.Basic
import WolframSyntax.Proofs.Resolving

/-!
# Renaming

Names matter only as far as they are equal to each other or to the names that the analysis knows
(`ConstructTable.builtInNames`). An injective renaming that keeps the known names leaves every
classification as it is, and what declares, defines or gives a name its meaning after the renaming
is what did so before (`Classifier.resolves_alike_of_rename`).
-/

namespace WolframSyntax

/-! ## Renamed trees -/

/-- A token with another name if it is an identifier. -/
def Token.rename (respell : String → String) (token : Token) : Token :=
  if token.kind = .identifier then { token with text := respell token.text } else token

namespace Tree

variable {Label : Type}

mutual

/-- A tree with the text of every identifier renamed. Its nodes keep their labels. -/
def rename (respell : String → String) : Tree Label → Tree Label
  | node label content children =>
    node label { content with token := content.token.map (Token.rename respell) }
      (renameAll respell children)

/-- The trees of a list with the text of every identifier renamed. -/
def renameAll (respell : String → String) : List (Tree Label) → List (Tree Label)
  | [] => []
  | tree :: trees => tree.rename respell :: renameAll respell trees

end

end Tree

/-- An occurrence in a renamed tree. -/
def Occurrence.rename {Label : Type} (respell : String → String) (occurrence : Occurrence Label) :
    Occurrence Label :=
  ⟨occurrence.tree.rename respell, occurrence.ancestors.map (Tree.rename respell)⟩

/-- A meaning in a renamed tree. -/
def Resolution.rename (respell : String → String) (resolution : Resolution) : Resolution :=
  ⟨resolution.definition.rename respell,
    resolution.scope.map (Prod.map (Tree.rename respell) id)⟩

/-- The names with a meaning of their own: the heads of the table, and those by which calls are
taken for assignments or are looked through. -/
def ConstructTable.builtInNames (table : ConstructTable) : List String :=
  table.map Prod.fst ++ assignmentHeads ++ tagAssignmentHeads ++ upAssignmentHeads
    ++ attributeHeads ++ wrapperHeads ++ [holdingHead]

/-- A renaming that gives different names different names and keeps those with a meaning of their
own. -/
structure ConstructTable.Allows (table : ConstructTable) (respell : String → String) : Prop where
  injective : Function.Injective respell
  keeps : ∀ name ∈ table.builtInNames, respell name = name

namespace Tree

variable {Label : Type} {respell : String → String} {tree : Tree Label}

/-- Trees are renamed one by one. -/
@[simp] theorem renameAll_eq_map (trees : List (Tree Label)) :
    renameAll respell trees = trees.map (rename respell) := by
  induction trees with
  | nil => rfl
  | cons tree trees ih => rw [renameAll, ih, List.map_cons]

/-- A renamed node has its token renamed and its children renamed. -/
theorem rename_node (label : Label) (content : Content) (children : List (Tree Label)) :
    (node label content children).rename respell
      = node label { content with token := content.token.map (Token.rename respell) }
          (children.map (rename respell)) := by
  rw [rename, renameAll_eq_map]

@[simp] theorem label_rename (tree : Tree Label) : (tree.rename respell).label = tree.label := by
  cases tree
  rfl

@[simp] theorem kind_rename (tree : Tree Label) : (tree.rename respell).kind = tree.kind := by
  cases tree
  rfl

@[simp] theorem isLeaf_rename (tree : Tree Label) :
    (tree.rename respell).isLeaf = tree.isLeaf := by
  cases tree
  rfl

@[simp] theorem children_rename (tree : Tree Label) :
    (tree.rename respell).children = tree.children.map (rename respell) := by
  cases tree
  exact renameAll_eq_map _

/-- A renaming does not change which node is which. -/
@[simp] theorem sameNode_rename (left right : StampedTree) :
    (left.rename respell).sameNode (right.rename respell) = left.sameNode right := by
  simp [sameNode, birth]

/-- Renaming and the choice of inner nodes may be done in either order. -/
theorem filter_map_rename (trees : List (Tree Label)) :
    (trees.map (rename respell)).filter (fun tree => !tree.isLeaf)
      = (trees.filter fun tree => !tree.isLeaf).map (rename respell) := by
  simp [List.filter_map, Function.comp_def]

@[simp] theorem expressions_rename (tree : Tree Label) :
    (tree.rename respell).expressions = tree.expressions.map (rename respell) := by
  rw [expressions, children_rename, filter_map_rename]
  rfl

@[simp] theorem firstExpression_rename (tree : Tree Label) :
    (tree.rename respell).firstExpression = tree.firstExpression.map (rename respell) := by
  simp [firstExpression]

@[simp] theorem arguments_rename (tree : Tree Label) :
    (tree.rename respell).arguments = tree.arguments.map (rename respell) := by
  simp [arguments]

@[simp] theorem argument_rename (tree : Tree Label) (number : Nat) :
    (tree.rename respell).argument number = (tree.argument number).map (rename respell) := by
  simp [argument]

@[simp] theorem walk_rename (tree : Tree Label) :
    (tree.rename respell).walk = tree.walk.map (rename respell) := by
  induction tree with
  | node label content children ih =>
    rw [rename_node, walk_node, walk_node, List.map_cons, rename_node, List.flatMap_map,
      List.map_flatMap]
    exact congrArg _ (List.flatMap_congr ih)

/-- The occurrences of a renamed tree are those of the tree, renamed with their ancestors. -/
theorem occurrencesWithin_rename (tree : Tree Label) (ancestors : List (Tree Label)) :
    (tree.rename respell).occurrencesWithin (ancestors.map (rename respell))
      = (tree.occurrencesWithin ancestors).map (Occurrence.rename respell) := by
  induction tree generalizing ancestors with
  | node label content children ih =>
    rw [rename_node, occurrencesWithin, occurrencesWithin, occurrencesOfAll_eq_flatMap,
      occurrencesOfAll_eq_flatMap, ← rename_node, List.map_cons, List.flatMap_map,
      List.map_flatMap]
    exact congrArg _ (List.flatMap_congr fun child among => ih child among (_ :: ancestors))

/-- The occurrences in a renamed tree are those in the tree. -/
theorem occurrences_rename (tree : Tree Label) :
    (tree.rename respell).occurrences
      = tree.occurrences.map (Occurrence.rename respell) :=
  occurrencesWithin_rename tree []

end Tree

namespace SyntaxTree

variable {respell : String → String}

mutual

/-- Stamps do not depend on names. -/
theorem stampFrom_rename (clock : Nat) : ∀ tree : SyntaxTree,
    stampFrom clock (tree.rename respell)
      = ((stampFrom clock tree).1.rename respell, (stampFrom clock tree).2)
  | .node _ content children => by
    rw [Tree.rename, stampFrom, stampAllFrom_rename clock children]
    rfl

/-- Stamps are given to the trees of a list one after the other, whatever their names. -/
theorem stampAllFrom_rename (clock : Nat) : ∀ trees : List SyntaxTree,
    stampAllFrom clock (Tree.renameAll respell trees)
      = (Tree.renameAll respell (stampAllFrom clock trees).1, (stampAllFrom clock trees).2)
  | [] => rfl
  | tree :: trees => by
    rw [Tree.renameAll, stampAllFrom, stampFrom_rename clock tree]
    dsimp only
    rw [stampAllFrom_rename _ trees]
    rfl

end

/-- A renamed tree is stamped as the tree is. -/
theorem stamped_rename (tree : SyntaxTree) :
    stamped (tree.rename respell) = tree.stamped.rename respell := by
  unfold stamped Forest.plant
  rw [stampFrom_rename]

end SyntaxTree

/-! ## Declarations do not depend on names -/

namespace Tree

variable {Label : Type} {respell : String → String} {tree : Tree Label}

/-- What is looked at in place of a construct does not depend on names. -/
@[simp] theorem unwrap?_rename (tree : Tree Label) :
    (tree.rename respell).unwrap? = tree.unwrap?.map (rename respell) := by
  induction tree with
  | node label content children ih =>
    by_cases group : (node label content children).kind = .group
    · rw [unwrap?_of_group group, unwrap?_of_group ((kind_rename _).trans group),
        firstExpression_rename]
      cases first : (node label content children).firstExpression with
      | none => rfl
      | some child => exact ih child (mem_children_of_mem_expressions (List.mem_of_head? first))
    · rw [unwrap?_of_ne_group group,
        unwrap?_of_ne_group fun same => group ((kind_rename _).symm.trans same), Option.map_some]

@[simp] theorem unwrap_rename (tree : Tree Label) :
    (tree.rename respell).unwrap = tree.unwrap.rename respell := by
  rw [unwrap, unwrap, unwrap?_rename]
  cases tree.unwrap? <;> rfl

/-- A tree is a symbol in parentheses or not, whatever its name. -/
@[simp] theorem asSymbol?_rename (tree : Tree Label) :
    (tree.rename respell).asSymbol? = tree.asSymbol?.map (rename respell) := by
  simp [asSymbol?, Option.filter_map, Function.comp_def]

/-- A symbol is found in place of an operand whatever its name. -/
theorem bind_asSymbol?_rename (operand : Option (Tree Label)) :
    (operand.map (rename respell)).bind asSymbol?
      = (operand.bind asSymbol?).map (rename respell) := by
  cases operand with
  | none => rfl
  | some tree => exact asSymbol?_rename tree

/-- What is picked from renamed trees is renamed. -/
theorem filterMap_rename {pick : Tree Label → Option (Tree Label)} {trees : List (Tree Label)}
    (each : ∀ tree ∈ trees, pick (tree.rename respell) = (pick tree).map (rename respell)) :
    (trees.map (rename respell)).filterMap pick
      = (trees.filterMap pick).map (rename respell) := by
  rw [List.filterMap_map, List.map_filterMap]
  exact List.filterMap_congr each

/-- The symbols of a pattern are renamed with it. -/
@[simp] theorem patternSymbols_rename (tree : Tree Label) :
    (tree.rename respell).patternSymbols = tree.patternSymbols.map (rename respell) := by
  unfold patternSymbols
  rw [walk_rename]
  refine filterMap_rename fun node _ => ?_
  rw [kind_rename, firstExpression_rename, bind_asSymbol?_rename]
  split <;> rfl

@[simp] theorem listEntries_rename (tree : Tree Label) :
    (tree.rename respell).listEntries = tree.listEntries.map (rename respell) := by
  unfold listEntries
  rw [unwrap?_rename]
  cases tree.unwrap? with
  | none => rfl
  | some inner =>
    simp only [Option.map_some, kind_rename, expressions_rename]
    split <;> rfl

@[simp] theorem assigns_rename (tree : Tree Label) :
    (tree.rename respell).assigns = tree.assigns := by
  simp [assigns]

/-- What an entry declares is renamed with it. -/
@[simp] theorem declared?_rename (entry : Tree Label) :
    (entry.rename respell).declared? = entry.declared?.map (rename respell) := by
  simp only [declared?, unwrap_rename, assigns_rename, firstExpression_rename,
    bind_asSymbol?_rename, asSymbol?_rename]
  split <;> rfl

@[simp] theorem typedParameter?_rename (entry : Tree Label) :
    (entry.rename respell).typedParameter? = entry.typedParameter?.map (rename respell) := by
  simp only [typedParameter?, unwrap_rename, kind_rename, firstExpression_rename,
    bind_asSymbol?_rename, asSymbol?_rename]
  split <;> rfl

@[simp] theorem ruleVariable?_rename (rule : Tree Label) :
    (rule.rename respell).ruleVariable? = rule.ruleVariable?.map (rename respell) := by
  simp only [ruleVariable?, unwrap?_rename, Option.bind_eq_bind]
  cases rule.unwrap? with
  | none => rfl
  | some inner =>
    simp only [Option.map_some, Option.bind_some, kind_rename, firstExpression_rename,
      bind_asSymbol?_rename]
    split <;> rfl

@[simp] theorem iteratorVariable?_rename (iterator : Tree Label) :
    (iterator.rename respell).iteratorVariable?
      = iterator.iteratorVariable?.map (rename respell) := by
  simp only [iteratorVariable?, unwrap_rename, kind_rename, firstExpression_rename,
    Option.bind_eq_bind]
  split
  · cases iterator.unwrap.firstExpression with
    | none => rfl
    | some first =>
      simp only [Option.map_some, Option.bind_some, unwrap?_rename]
      cases first.unwrap? with
      | none => rfl
      | some inner =>
        simp only [Option.map_some, Option.bind_some, kind_rename, firstExpression_rename,
          bind_asSymbol?_rename, asSymbol?_rename]
        split <;> rfl
  · rfl

/-- The entries of a variable list. -/
theorem entries_rename (operand : Option (Tree Label)) :
    ((operand.map (rename respell)).map listEntries).getD []
      = ((operand.map listEntries).getD []).map (rename respell) := by
  cases operand with
  | none => rfl
  | some tree => exact listEntries_rename tree

@[simp] theorem initialValues_rename (call : Tree Label) :
    (call.rename respell).initialValues = call.initialValues.map (rename respell) := by
  unfold initialValues
  rw [argument_rename, entries_rename]
  refine filterMap_rename fun entry _ => ?_
  simp only [unwrap_rename, assigns_rename, argument_rename]
  split <;> rfl

/-- What a construct declares does not depend on any names. -/
@[simp] theorem localizedSymbols_rename (tree : Tree Label) (construct : Construct) :
    (tree.rename respell).localizedSymbols construct
      = (tree.localizedSymbols construct).map (rename respell) := by
  have patterns : ((tree.firstExpression.map (rename respell)).map patternSymbols).getD []
      = ((tree.firstExpression.map patternSymbols).getD []).map (rename respell) := by
    cases tree.firstExpression with
    | none => rfl
    | some left => exact patternSymbols_rename left
  have iterators : (tree.arguments.map (rename respell)).tail.filterMap iteratorVariable?
      = (tree.arguments.tail.filterMap iteratorVariable?).map (rename respell) := by
    rw [← List.map_tail]
    exact filterMap_rename fun iterator _ => iteratorVariable?_rename iterator
  have limit : ((tree.arguments.map (rename respell))[1]?.bind ruleVariable?).toList
      = (tree.arguments[1]?.bind ruleVariable?).toList.map (rename respell) := by
    rw [List.getElem?_map]
    cases tree.arguments[1]? with
    | none => rfl
    | some rule =>
      simp only [Option.map_some, Option.bind_some, ruleVariable?_rename]
      cases rule.ruleVariable? <;> rfl
  have listed {pick : Tree Label → Option (Tree Label)}
      (each : ∀ entry, pick (entry.rename respell) = (pick entry).map (rename respell)) :
      ((((tree.arguments.map (rename respell)).head?).map listEntries).getD []).filterMap pick
        = ((((tree.arguments.head?).map listEntries).getD []).filterMap pick).map
            (rename respell) := by
    rw [List.head?_map, entries_rename]
    exact filterMap_rename fun entry _ => each entry
  cases construct with
  | setDelayed | ruleDelayed => simpa only [localizedSymbols, firstExpression_rename] using patterns
  | localVariables | dynamicValues | constants =>
    simpa only [localizedSymbols, arguments_rename] using listed declared?_rename
  | function =>
    simp only [localizedSymbols, arguments_rename, List.length_map]
    split
    · rfl
    · exact listed asSymbol?_rename
  | compilation =>
    simpa only [localizedSymbols, arguments_rename] using listed typedParameter?_rename
  | limit => simpa only [localizedSymbols, arguments_rename] using limit
  | null => rfl
  | table | loop | sum | product | numericSum | numericProduct | integral | numericIntegral
  | plot | plot3D | manipulation =>
    simpa only [localizedSymbols, arguments_rename] using iterators

end Tree

/-! ## Names that are known -/

namespace ConstructTable.Allows

variable {table : ConstructTable} {respell : String → String} {name : String}

/-- A name is looked up in a table under its new spelling as under the old one, if the entries keep
theirs. -/
theorem lookup_respell {entries : ConstructTable} (injective : Function.Injective respell)
    (keeps : ∀ entry ∈ entries, respell entry.1 = entry.1) :
    entries.lookup (respell name) = entries.lookup name := by
  induction entries with
  | nil => rfl
  | cons entry entries ih =>
    obtain ⟨first, later⟩ := List.forall_mem_cons.mp keeps
    have same : (respell name == entry.1) = (name == entry.1) := by
      rw [Bool.eq_iff_iff, beq_iff_eq, beq_iff_eq]
      nth_rewrite 1 [← first]
      exact injective.eq_iff
    obtain ⟨head, construct⟩ := entry
    rw [List.lookup_cons, List.lookup_cons, same, ih later]

/-- An allowed renaming leaves what calls of a name localize. -/
theorem constructOf_respell (allows : table.Allows respell) (name : String) :
    table.constructOf (respell name) = table.constructOf name := by
  rw [constructOf, constructOf, lookup_respell allows.injective fun entry among => ?_]
  refine allows.keeps entry.1 ?_
  simp only [builtInNames, List.mem_append, List.mem_map]
  exact .inl (.inl (.inl (.inl (.inl (.inl ⟨entry, among, rfl⟩)))))

/-- Whether a name is among known ones does not change. -/
theorem contains_respell (allows : table.Allows respell) {names : List String}
    (known : ∀ name ∈ names, name ∈ table.builtInNames) (name : String) :
    names.contains (respell name) = names.contains name := by
  rw [Bool.eq_iff_iff, List.contains_iff_mem, List.contains_iff_mem]
  constructor
  · intro among
    have kept := allows.keeps _ (known _ among)
    rwa [allows.injective kept] at among
  · intro among
    rwa [allows.keeps name (known name among)]

end ConstructTable.Allows

namespace Tree

variable {Label : Type} {table : ConstructTable} {respell : String → String} {tree : Tree Label}

/-- The text of a symbol is that of an identifier, so it is renamed as a whole. -/
def IsNamed (respell : String → String) (tree : Tree Label) : Prop :=
  tree.kind = .symbol → (tree.rename respell).text = respell tree.text

/-- A renamed call is taken for the same construct. -/
theorem classify_rename (allows : table.Allows respell)
    (named : tree.Everywhere (IsNamed respell)) :
    table.classify (tree.rename respell) = table.classify tree := by
  unfold ConstructTable.classify
  rw [kind_rename, firstExpression_rename]
  split
  · rfl
  split
  · cases first : tree.firstExpression with
    | none => rfl
    | some head =>
      rw [Option.map_some]
      dsimp only
      rw [kind_rename]
      split
      · next symbol =>
        rw [named head (mem_walk_of_firstExpression first) symbol, allows.constructOf_respell]
      · rfl
  · rfl

/-- The head of a renamed call is the renamed head. -/
theorem headName?_rename (named : tree.Everywhere (IsNamed respell)) :
    (tree.rename respell).headName? = tree.headName?.map respell := by
  unfold headName?
  rw [kind_rename, firstExpression_rename]
  split
  · cases first : tree.firstExpression with
    | none => rfl
    | some head =>
      rw [Option.map_some]
      by_cases symbol : head.kind = .symbol
      · have respelled := named head (mem_walk_of_firstExpression first) symbol
        simp [Option.filter, symbol, respelled]
      · simp [Option.filter, symbol]
  · rfl

/-- Calls are looked through under an allowed renaming as they were. -/
theorem isWrapper_rename (allows : table.Allows respell)
    (named : tree.Everywhere (IsNamed respell)) :
    (tree.rename respell).isWrapper = tree.isWrapper := by
  unfold isWrapper
  rw [headName?_rename named]
  cases tree.headName? with
  | none => rfl
  | some name =>
    have known (name : String) (among : name ∈ holdingHead :: wrapperHeads) :
        name ∈ table.builtInNames := by
      simp only [ConstructTable.builtInNames, List.mem_append, List.mem_singleton]
      exact (List.mem_cons.mp among).symm.imp_left .inr
    exact allows.contains_respell known name

/-- What is selected from the operands of a renamed node is renamed if that holds for each of
them. -/
theorem operands_rename {pick : Tree Label → List (Tree Label)} {children : List (Tree Label)}
    (each : ∀ child ∈ children, pick (child.rename respell) = (pick child).map (rename respell)) :
    ((children.map (rename respell)).filter fun child => !child.isLeaf).map pick
      = ((children.filter fun child => !child.isLeaf).map pick).map
          (List.map (rename respell)) := by
  rw [filter_map_rename, List.map_map, List.map_map]
  exact List.map_congr_left fun child operand => each child (List.mem_filter.mp operand).1

theorem getD_rename (symbols : Option (List (Tree Label))) :
    (symbols.map (List.map (rename respell))).getD []
      = (symbols.getD []).map (rename respell) := by
  cases symbols <;> rfl

/-- The symbols that an assignment assigns are renamed with it. -/
theorem assigned_rename (allows : table.Allows respell)
    (named : tree.Everywhere (IsNamed respell)) :
    (tree.rename respell).assigned = tree.assigned.map (rename respell) := by
  induction tree with
  | node label content children ih =>
    have operands := operands_rename fun child among => ih child among (named.child among)
    have wrapper := isWrapper_rename allows named
    rw [rename_node] at wrapper ⊢
    rw [assigned, assigned, assignedByOperands_eq_map, assignedByOperands_eq_map, operands]
    dsimp only
    rw [wrapper, List.head?_map, List.getElem?_map, getD_rename, getD_rename, ← List.map_flatten,
      ← rename_node]
    split_ifs <;> rfl

/-- What an assignment looks through its left side to is renamed with it. -/
theorem lookThrough_rename (tree : Tree Label) :
    (tree.rename respell).lookThrough = tree.lookThrough.rename respell := by
  induction tree with
  | node label content children ih =>
    rw [rename_node, lookThrough, lookThrough, lookThroughFirst_eq, lookThroughFirst_eq,
      filter_map_rename, List.head?_map, ← rename_node]
    dsimp only
    split
    · cases first : (children.filter fun child => !child.isLeaf).head? with
      | none => rfl
      | some child => exact ih child (List.mem_filter.mp (List.mem_of_head? first)).1
    · rfl

/-- What an assignment to a tag gives its value to is renamed with it. -/
theorem upAssigned?_rename (allows : table.Allows respell)
    (named : tree.Everywhere (IsNamed respell)) :
    (tree.rename respell).upAssigned? = tree.upAssigned?.map (rename respell) := by
  unfold upAssigned?
  rw [lookThrough_rename]
  have inner := named.within tree.lookThrough_mem_walk
  generalize tree.lookThrough = argument at inner
  dsimp only
  rw [kind_rename, firstExpression_rename, argument_rename]
  split
  · rfl
  · cases first : argument.firstExpression with
    | none => rfl
    | some head =>
      rw [Option.map_some, Option.bind_some, Option.bind_some,
        assigned_rename allows (inner.within (mem_walk_of_firstExpression first)), List.head?_map]
  · cases argument.argument 1 with
    | none => rfl
    | some blank =>
      simp only [Option.map_some, Option.bind_eq_bind, Option.bind_some, kind_rename,
        firstExpression_rename]
      split <;> rfl
  · split <;> rfl

theorem upAssigned_rename (allows : table.Allows respell)
    (named : tree.Everywhere (IsNamed respell)) :
    (tree.rename respell).upAssigned = tree.upAssigned.map (rename respell) := by
  induction tree with
  | node label content children ih =>
    have operands := operands_rename fun child among => ih child among (named.child among)
    have holds : ((node label content children).rename respell).headName? = some holdingHead
        ↔ (node label content children).headName? = some holdingHead := by
      have kept : respell holdingHead = holdingHead :=
        allows.keeps _ (List.mem_append_right _ List.mem_cons_self)
      rw [headName?_rename named]
      nth_rewrite 1 [← kept]
      exact (Option.map_injective allows.injective).eq_iff (b := some holdingHead)
    have targets : ((node label content children).rename respell).arguments.filterMap upAssigned?
        = ((node label content children).arguments.filterMap upAssigned?).map
            (rename respell) := by
      rw [arguments_rename]
      refine filterMap_rename fun argument among => upAssigned?_rename allows ?_
      exact named.child (mem_children_of_mem_expressions (List.mem_of_mem_tail among))
    rw [rename_node] at holds targets ⊢
    rw [upAssigned, upAssigned, upAssignedByOperands_eq_map, upAssignedByOperands_eq_map, operands]
    dsimp only
    rw [List.head?_map, List.getElem?_map, getD_rename, getD_rename, targets, List.length_map]
    simp only [holds]
    split_ifs <;> rfl

theorem ifSymbol_rename (operand : Option (Tree Label)) :
    ifSymbol (operand.map (rename respell)) = (ifSymbol operand).map (rename respell) := by
  cases operand with
  | none => rfl
  | some tree =>
    unfold ifSymbol
    by_cases symbol : tree.kind = .symbol <;> simp [Option.filter, symbol]

/-- What an assignment defines is found in the same place after a renaming. -/
theorem defined_rename (allows : table.Allows respell)
    (named : tree.Everywhere (IsNamed respell)) :
    (tree.rename respell).defined = tree.defined.map (rename respell) := by
  have picked {pick : Tree Label → List (Tree Label)} {operand : Option (Tree Label)}
      (each : ∀ inner, operand = some inner →
        pick (inner.rename respell) = (pick inner).map (rename respell)) :
      ((operand.map (rename respell)).map pick).getD []
        = ((operand.map pick).getD []).map (rename respell) := by
    cases operand with
    | none => rfl
    | some inner => exact each inner rfl
  have inFirst (inner : Tree Label) (held : tree.firstExpression = some inner) :=
    named.within (mem_walk_of_firstExpression held)
  have inTarget (inner : Tree Label) (held : tree.argument 1 = some inner) :=
    named.within (mem_walk_of_argument held)
  have first := picked fun inner held => assigned_rename allows (inFirst inner held)
  have upFirst := picked fun inner held => upAssigned_rename allows (inFirst inner held)
  have target := picked fun inner held => assigned_rename allows (inTarget inner held)
  have upTarget := picked fun inner held => upAssigned_rename allows (inTarget inner held)
  unfold defined
  rw [kind_rename, firstExpression_rename, argument_rename, headName?_rename named]
  dsimp only
  split
  · exact first
  · exact first
  · exact ifSymbol_rename _
  · exact ifSymbol_rename _
  · exact upFirst
  · exact upFirst
  cases tree.headName? with
  | none => rfl
  | some name =>
    have known (names : List String) (all : ∀ name ∈ names, name ∈ table.builtInNames) :=
      allows.contains_respell all name
    rw [Option.map_some]
    dsimp only
    rw [known assignmentHeads, known tagAssignmentHeads, known upAssignmentHeads,
      known attributeHeads]
    · split_ifs
      · exact target
      · exact ifSymbol_rename _
      · exact upTarget
      · exact ifSymbol_rename _
      · rfl
    all_goals
      intro name among
      simp [ConstructTable.builtInNames, among]

/-- The first symbol with a name is found in the same place after a renaming. -/
theorem find?_rename (injective : Function.Injective respell) {symbols : List (Tree Label)}
    (named : ∀ symbol ∈ symbols, (symbol.rename respell).text = respell symbol.text)
    (name : String) :
    (symbols.map (rename respell)).find? (fun symbol => symbol.text == respell name)
      = (symbols.find? fun symbol => symbol.text == name).map (rename respell) := by
  induction symbols with
  | nil => rfl
  | cons symbol symbols ih =>
    obtain ⟨first, later⟩ := List.forall_mem_cons.mp named
    have same : ((symbol.rename respell).text == respell name) = (symbol.text == name) := by
      rw [first, Bool.eq_iff_iff, beq_iff_eq, beq_iff_eq, injective.eq_iff]
    rw [List.map_cons, List.find?_cons, List.find?_cons, same, ih later]
    cases symbol.text == name <;> rfl

/-- A node defines the renamed name where it has defined the name. -/
theorem definitionOf?_rename (allows : table.Allows respell)
    (named : tree.Everywhere (IsNamed respell)) (proper : tree.Everywhere IsProper)
    (name : String) :
    (tree.rename respell).definitionOf? (respell name)
      = (tree.definitionOf? name).map (rename respell) := by
  unfold definitionOf?
  rw [defined_rename allows named]
  refine find?_rename allows.injective (fun symbol among => ?_) name
  have held := isSymbolIn_of_mem_defined among
  exact named symbol held.inside (held.kind proper)

/-- The global definition of a renamed name is the renamed one of the name. -/
theorem globalDefinition?_rename (allows : table.Allows respell)
    (named : tree.Everywhere (IsNamed respell)) (proper : tree.Everywhere IsProper)
    (name : String) :
    (tree.rename respell).globalDefinition? (respell name)
      = (tree.globalDefinition? name).map (rename respell) := by
  have each : ∀ node ∈ tree.walk, (node.rename respell).definitionOf? (respell name)
      = (node.definitionOf? name).map (rename respell) := fun node inside =>
    definitionOf?_rename allows (named.within inside) (proper.within inside) name
  unfold globalDefinition?
  rw [walk_rename]
  generalize tree.walk = nodes at each
  induction nodes with
  | nil => rfl
  | cons node nodes ih =>
    obtain ⟨first, later⟩ := List.forall_mem_cons.mp each
    rw [List.map_cons, List.findSome?_cons, List.findSome?_cons, first, ih later]
    cases node.definitionOf? name <;> rfl

end Tree

/-! ## Meanings -/

namespace ConstructTable

variable {table : ConstructTable} {respell : String → String} {tree element : StampedTree}

/-- Whether a node leads up to an occurrence does not depend on names. -/
theorem leadsUp_rename (element : StampedTree) (last : Occurrence Stamp) :
    leadsUp (element.rename respell) (last.rename respell) = leadsUp element last := by
  unfold leadsUp Occurrence.parent? Occurrence.rename
  rw [List.head?_map, Tree.kind_rename, Tree.firstExpression_rename, Option.any_map,
    Option.any_map]
  simp

/-- Whether an occurrence is in an initial value does not depend on names. -/
theorem isInInitialValue_rename (call : StampedTree) (place : Occurrence Stamp) :
    Classifier.isInInitialValue (call.rename respell) (place.rename respell)
      = Classifier.isInInitialValue call place := by
  have lineage : (place.rename respell).lineage = place.lineage.map (Tree.rename respell) := rfl
  unfold Classifier.isInInitialValue
  rw [Tree.initialValues_rename, lineage]
  simp [List.any_map, Function.comp_def]

/-- The declarations of a renamed construct are those of the construct. -/
theorem declarations_rename (allows : table.Allows respell)
    (named : element.Everywhere (Tree.IsNamed respell)) (last place : Occurrence Stamp) :
    table.declarations (element.rename respell) (last.rename respell) (place.rename respell)
      = (table.declarations element last place).map (Tree.rename respell) := by
  unfold declarations declaredIn
  rw [leadsUp_rename, Tree.classify_rename allows named, isInInitialValue_rename,
    Tree.localizedSymbols_rename]
  split_ifs <;> rfl

/-- A declaration is found by the same element after a renaming. -/
theorem declares?_rename (allows : table.Allows respell)
    (named : element.Everywhere (Tree.IsNamed respell)) (proper : element.Everywhere Tree.IsProper)
    (last place : Occurrence Stamp) (name : String) :
    table.declares? (respell name) (element.rename respell) (last.rename respell)
        (place.rename respell)
      = (table.declares? name element last place).map (Tree.rename respell) := by
  unfold declares?
  rw [declarations_rename allows named]
  refine Tree.find?_rename allows.injective (fun symbol among => ?_) name
  have declared : symbol ∈ element.localizedSymbols (table.classify element) := by
    unfold declarations declaredIn at among
    split_ifs at among <;> first | cases among | exact among
  have selection := Tree.isSelection_localizedSymbols proper (table.classify element)
  refine named symbol ?_ (selection.kind symbol declared)
  rw [Tree.walk_eq]
  exact List.mem_cons_of_mem _ (selection.ordered.subset declared)

/-- The construct around an occurrence that declares its name is the same one under the new name. -/
theorem declarationAround_rename (allows : table.Allows respell) {outer : List StampedTree}
    (named : ∀ element ∈ outer, element.Everywhere (Tree.IsNamed respell))
    (proper : ∀ element ∈ outer, element.Everywhere Tree.IsProper)
    (place : Occurrence Stamp) (last : StampedTree) (name : String) :
    table.declarationAround (respell name) (place.rename respell) (last.rename respell)
        (outer.map (Tree.rename respell))
      = (table.declarationAround name place last outer).map (Resolution.rename respell) := by
  induction outer generalizing last with
  | nil => rfl
  | cons element outer ih =>
    obtain ⟨firstNamed, laterNamed⟩ := List.forall_mem_cons.mp named
    obtain ⟨firstProper, laterProper⟩ := List.forall_mem_cons.mp proper
    have declares := declares?_rename allows firstNamed firstProper ⟨last, element :: outer⟩ place
      name
    rw [List.map_cons, declarationAround, declarationAround]
    change table.declares? _ _ ⟨_, element.rename respell :: outer.map (Tree.rename respell)⟩ _ = _
      at declares
    rw [declares]
    cases table.declares? name element ⟨last, element :: outer⟩ place with
    | none => exact ih laterNamed laterProper element
    | some definition =>
      simp only [Option.map_some, Resolution.rename, Tree.classify_rename allows firstNamed,
        Prod.map_apply, id]

/-- What gives a name its meaning does so after a renaming. -/
theorem resolve_rename (allows : table.Allows respell)
    (named : tree.Everywhere (Tree.IsNamed respell)) (proper : tree.Everywhere Tree.IsProper)
    {place : Occurrence Stamp} (present : place ∈ tree.occurrences)
    (symbol : place.tree.kind = .symbol) :
    table.resolve (place.rename respell)
      = (table.resolve place).map (Resolution.rename respell) := by
  have inside {node : StampedTree} (above : node ∈ place.lineage) : node ∈ tree.walk :=
    (Tree.mem_walk_of_mem_lineage present above).resolve_right List.not_mem_nil
  have root : (place.rename respell).root = tree.rename respell := by
    refine Tree.root_of_mem_occurrences ?_
    rw [Tree.occurrences_rename]
    exact List.mem_map_of_mem present
  have text : (place.rename respell).tree.text = respell place.tree.text :=
    named place.tree (inside List.mem_cons_self) symbol
  unfold resolve
  rw [root, Tree.root_of_mem_occurrences present, text,
    Tree.globalDefinition?_rename allows named proper]
  change (table.declarationAround _ _ (place.tree.rename respell)
    (place.ancestors.map (Tree.rename respell))).or _ = _
  rw [declarationAround_rename allows
    (fun element above => named.within (inside (List.mem_cons_of_mem _ above)))
    (fun element above => proper.within (inside (List.mem_cons_of_mem _ above)))]
  cases table.declarationAround place.tree.text place place.tree place.ancestors with
  | some resolution => rfl
  | none => cases tree.globalDefinition? place.tree.text <;> rfl

end ConstructTable

/-! ## Trees that were read -/

namespace SyntaxTree

variable {respell : String → String} {tree : SyntaxTree}

mutual

/-- The text of a tree does not depend on stamps. -/
theorem text_stampFrom (clock : Nat) : ∀ tree : SyntaxTree,
    (tree.stampFrom clock).1.text = tree.text
  | .node _ content children => by
    rw [stampFrom, Tree.text, Tree.text, textOfAll_stampAllFrom clock children]

theorem textOfAll_stampAllFrom (clock : Nat) : ∀ trees : List SyntaxTree,
    Tree.textOfAll (stampAllFrom clock trees).1 = Tree.textOfAll trees
  | [] => rfl
  | tree :: trees => by
    rw [stampAllFrom, Tree.textOfAll, Tree.textOfAll, text_stampFrom clock tree,
      textOfAll_stampAllFrom _ trees]

end

/-- A symbol that fits the schema is made of one identifier. -/
theorem isNamed_of_fits {node : SyntaxTree} (fits : node.Fits) : node.IsNamed respell := by
  intro symbol
  cases fits with
  | leaf token =>
    have leaf := isLeaf_leaf token
    rw [Tree.isLeaf, symbol] at leaf
    cases leaf
  | @atom kind token held =>
    have identifier : token.kind = .identifier := by
      rw [show kind = .symbol from symbol] at held
      exact (Option.some.inj held).symm
    simp [ofKind, leaf, Tree.rename, Tree.renameAll, Tree.text, Tree.textOfAll, Token.rename,
      identifier]
  | @construct content children bare takes =>
    rw [show content.kind = .symbol from symbol] at takes
    cases takes

/-- In a tree that has been read, the text of every symbol is that of an identifier. -/
theorem everywhere_isNamed_of_parseTokens {grammar : Grammar} {tokens : List Token}
    (parsed : parseTokens grammar tokens = .ok tree) : tree.Everywhere (Tree.IsNamed respell) := by
  obtain ⟨children, rfl, fits⟩ := everywhere_fits_of_parseTokens parsed
  exact Tree.everywhere_node.mpr ⟨fun file => (by cases file), fun child among =>
    (fits child among).mono fun _ => isNamed_of_fits⟩

/-- Stamps leave what every symbol's text is. -/
theorem everywhere_isNamed_stamped (named : tree.Everywhere (Tree.IsNamed respell)) :
    tree.stamped.Everywhere (Tree.IsNamed respell) := by
  refine everywhere_stampFrom (fun node clock named symbol => ?_) named 0
  have respelled : (stampFrom clock (node.rename respell)).1
      = (stampFrom clock node).1.rename respell := congrArg Prod.fst (stampFrom_rename clock node)
  rw [kind_stampFrom] at symbol
  rw [← respelled, text_stampFrom, text_stampFrom]
  exact named symbol

end SyntaxTree

namespace Classifier

/-- If different names are given different names, and the names with a meaning of their own are
kept, then a renamed tree has the same nodes in the same places, with the stamps that tell them
apart. Each of them is the same construct and declares the same symbols as before, and the
definition of a name in the whole tree and what gives an occurrence its meaning are the same nodes
as before, if there are any. -/
theorem resolves_alike_of_rename {grammar : Grammar} {tokens : List Token} {tree : SyntaxTree}
    (parsed : parseTokens grammar tokens = .ok tree) (table : ConstructTable)
    {respell : String → String} (injective : Function.Injective respell)
    (keeps : ∀ name ∈ table.builtInNames, respell name = name) :
    (SyntaxTree.stamped (tree.rename respell)).occurrences
        = tree.stamped.occurrences.map (Occurrence.rename respell) ∧
      (∀ node ∈ tree.stamped.walk, (node.rename respell).label = node.label ∧
        ((ofTable table).classify (node.rename respell)).1 = ((ofTable table).classify node).1 ∧
        ∀ construct, (node.rename respell).localizedSymbols construct
          = (node.localizedSymbols construct).map (Tree.rename respell)) ∧
      ∀ place ∈ tree.stamped.occurrences, place.tree.kind = .symbol →
        (place.rename respell).tree.text = respell place.tree.text ∧
        (SyntaxTree.stamped (tree.rename respell)).globalDefinition?
            (place.rename respell).tree.text
          = (tree.stamped.globalDefinition? place.tree.text).map (Tree.rename respell) ∧
        ((ofTable table).resolve (place.rename respell)).1
          = ((ofTable table).resolve place).1.map (Resolution.rename respell) := by
  have allows : table.Allows respell := ⟨injective, keeps⟩
  have named : tree.stamped.Everywhere (Tree.IsNamed respell) :=
    SyntaxTree.everywhere_isNamed_stamped (SyntaxTree.everywhere_isNamed_of_parseTokens parsed)
  have proper : tree.stamped.Everywhere Tree.IsProper :=
    SyntaxTree.everywhere_isProper_stampFrom
      ((everywhere_conforms_of_parseTokens parsed).mono fun _ => SyntaxTree.isProper_of_conforms) 0
  have occurrences : (SyntaxTree.stamped (tree.rename respell)).occurrences
      = tree.stamped.occurrences.map (Occurrence.rename respell) := by
    rw [SyntaxTree.stamped_rename, Tree.occurrences_rename]
  refine ⟨occurrences, fun node inside => ⟨node.label_rename, ?_, node.localizedSymbols_rename⟩,
    fun place present symbol => ?_⟩
  · exact Tree.classify_rename allows (named.within inside)
  · have inside : place.tree ∈ tree.stamped.walk := by
      rw [← Tree.map_tree_occurrencesWithin tree.stamped []]
      exact List.mem_map_of_mem present
    have text : (place.rename respell).tree.text = respell place.tree.text :=
      named place.tree inside symbol
    have renamed : place.rename respell ∈ (SyntaxTree.stamped (tree.rename respell)).occurrences :=
      occurrences ▸ List.mem_map_of_mem present
    refine ⟨text, ?_, ?_⟩
    · rw [text, SyntaxTree.stamped_rename, Tree.globalDefinition?_rename allows named proper]
    · rw [resolve_ofTable table renamed, resolve_ofTable table present,
        ConstructTable.resolve_rename allows named proper present symbol]

/-- Two names change places in a text where one of them is local and the other one is defined. -/
theorem resolves_alike_of_swap :
    let source := "x = 1; Module[{y = x}, HoldPattern[x] + y]"
    let respell : String → String := Equiv.swap "x" "y"
    parseTokens .standard (tokenize source) = .ok (parseSource .standard source) ∧
      Function.Injective respell ∧
      (∀ name ∈ ConstructTable.standard.builtInNames, respell name = name) ∧
      ∀ name ∈ ["x", "y"], ∃ place ∈ (parseSource .standard source).stamped.occurrences,
        place.tree.text = name ∧ ((ofTable .standard).resolve place).1.isSome ∧
        (place.rename respell).tree.text = respell name ∧
        ((ofTable .standard).resolve (place.rename respell)).1
          = ((ofTable .standard).resolve place).1.map (Resolution.rename respell) := by
  intro source respell
  have parsed := parseTokens_tokenize .standard source
  have injective : Function.Injective respell := (Equiv.swap "x" "y").injective
  have keeps : ∀ name ∈ ConstructTable.standard.builtInNames, respell name = name := by
    intro name known
    refine Equiv.swap_apply_of_ne_of_ne ?_ ?_ <;> rintro rfl <;> revert known <;> decide +kernel
  refine ⟨parsed, injective, keeps, fun name among => ?_⟩
  have exists_place : ∀ name ∈ ["x", "y"],
      ∃ place ∈ (parseSource .standard source).stamped.occurrences, place.tree.kind = .symbol ∧
        place.tree.text = name ∧ ((ofTable .standard).resolve place).1.isSome := by
    decide +kernel
  obtain ⟨place, present, symbol, text, resolved⟩ := exists_place name among
  obtain ⟨_, _, alike⟩ := resolves_alike_of_rename parsed .standard injective keeps
  obtain ⟨renamed, _, resolves⟩ := alike place present symbol
  exact ⟨place, present, text, resolved, text ▸ renamed, resolves⟩

end Classifier

end WolframSyntax
