import WolframSyntax.Proofs.Inquiry
import WolframSyntax.Reading.Session

/-!
# Free names

A name that no construct around its occurrence declares is looked up in the whole tree. The first
node that defines the name decides, wherever it stands, and what it defines is a symbol of the tree
(`Tree.isSymbolIn_of_mem_defined`). So the definition of a free name can itself be resolved: to
itself, or, because constructs are not asked in that search, to a declaration by a construct around
it (`Classifier.resolve_of_free`). The second case does occur (`Classifier.not_isHygienic`).
-/

namespace WolframSyntax

/-- Whether something of a kind may stand directly below a construct of another kind, as far as
names are concerned: nothing is below a leaf, only leaves are below a symbol, and a blank has
nothing but a name. -/
def NodeKind.mayHold (outer inner : NodeKind) : Bool :=
  if outer.isLeaf then false
  else if outer = .symbol then inner.isLeaf
  else if outer.isBlank then inner.isLeaf || inner == .symbol
  else true

namespace Tree

variable {Label : Type} {tree inner child symbol : Tree Label} {symbols : List (Tree Label)}

/-- The root holds only what it may hold. -/
def IsProper (tree : Tree Label) : Prop := ∀ child ∈ tree.children, tree.kind.mayHold child.kind

/-! ## What is defined is a symbol of the tree -/

/-- An expression of a node is one of its children. -/
theorem mem_children_of_mem_expressions (present : child ∈ tree.expressions) :
    child ∈ tree.children :=
  (List.mem_filter.mp present).1

theorem mem_walk_of_mem_children (present : child ∈ tree.children) : child ∈ tree.walk := by
  rw [walk_eq]
  exact List.mem_cons_of_mem _ (List.mem_flatMap.mpr ⟨child, present, child.mem_walk_self⟩)

theorem mem_walk_of_argument {number : Nat} (held : tree.argument number = some child) :
    child ∈ tree.walk :=
  mem_walk_of_mem_children (mem_children_of_mem_expressions (List.mem_of_getElem? held))

theorem mem_walk_of_firstExpression (held : tree.firstExpression = some child) :
    child ∈ tree.walk :=
  mem_walk_of_mem_children (mem_children_of_mem_expressions (List.mem_of_head? held))

theorem mem_walk_node {label : Label} {content : Content} {children : List (Tree Label)}
    (present : child ∈ children) (inside : symbol ∈ child.walk) :
    symbol ∈ (node label content children).walk :=
  mem_walk_trans (mem_walk_of_mem_children present) inside

/-- A symbol of a list that may be there is one of a list that is there. -/
theorem mem_of_mem_getD {lists : List (List (Tree Label))} {attempt : Option (List (Tree Label))}
    (among : ∀ list, attempt = some list → list ∈ lists) (present : symbol ∈ attempt.getD []) :
    ∃ list ∈ lists, symbol ∈ list := by
  cases attempt with
  | none => cases present
  | some list => exact ⟨list, among list rfl, present⟩

/-- A node of a tree that is a symbol if all nodes hold only what they may hold. -/
structure IsSymbolIn (tree symbol : Tree Label) : Prop where
  inside : symbol ∈ tree.walk
  kind : tree.Everywhere IsProper → symbol.kind = .symbol

/-- A symbol in a node is one in every tree that the node is in. -/
theorem IsSymbolIn.of_mem_walk (held : inner.IsSymbolIn symbol) (inside : inner ∈ tree.walk) :
    tree.IsSymbolIn symbol :=
  ⟨mem_walk_trans inside held.inside, fun proper => held.kind (proper.within inside)⟩

/-- What is picked from the operands of a node is below the node. -/
theorem isSymbolIn_of_operands {label : Label} {content : Content} {children : List (Tree Label)}
    {pick : Tree Label → List (Tree Label)}
    (each : ∀ child ∈ children, ∀ symbol ∈ pick child, child.IsSymbolIn symbol)
    (picked : ∃ list ∈ (children.filter fun child => !child.isLeaf).map pick, symbol ∈ list) :
    (node label content children).IsSymbolIn symbol := by
  obtain ⟨list, among, inside⟩ := picked
  obtain ⟨child, operand, rfl⟩ := List.mem_map.mp among
  have below := (List.mem_filter.mp operand).1
  exact (each child below symbol inside).of_mem_walk (mem_walk_of_mem_children below)

/-- The operand of a blank is its name. -/
theorem isSymbolIn_of_isBlank (blank : tree.kind.isBlank)
    (held : tree.firstExpression = some child) : tree.IsSymbolIn child := by
  refine ⟨mem_walk_of_firstExpression held, fun proper => ?_⟩
  obtain ⟨below, inner⟩ := List.mem_filter.mp (List.mem_of_head? held)
  have allowed := proper.root child below
  unfold NodeKind.mayHold at allowed
  split at allowed
  · cases allowed
  split at allowed
  · next symbol =>
    rw [symbol] at blank
    cases blank
  rcases Bool.or_eq_true_iff.mp allowed with leaf | symbol
  · rw [isLeaf, leaf] at inner
    cases inner
  · exact eq_of_beq symbol

/-- What operands assign is what each of them assigns. -/
theorem assignedByOperands_eq_map (trees : List (Tree Label)) :
    assignedByOperands trees = (trees.filter fun tree => !tree.isLeaf).map assigned := by
  induction trees with
  | nil => rfl
  | cons tree trees ih =>
    rw [assignedByOperands, ih]
    cases leaf : tree.isLeaf <;> simp [leaf]

/-- What operands assign to tags is what each of them assigns. -/
theorem upAssignedByOperands_eq_map (trees : List (Tree Label)) :
    upAssignedByOperands trees = (trees.filter fun tree => !tree.isLeaf).map upAssigned := by
  induction trees with
  | nil => rfl
  | cons tree trees ih =>
    rw [upAssignedByOperands, ih]
    cases leaf : tree.isLeaf <;> simp [leaf]

/-- What a tree assigns is a symbol in it. -/
theorem isSymbolIn_of_mem_assigned (present : symbol ∈ tree.assigned) :
    tree.IsSymbolIn symbol := by
  induction tree using Tree.induct generalizing symbol with
  | node label content children ih =>
    have operands :
        (∃ list ∈ (children.filter fun child => !child.isLeaf).map assigned, symbol ∈ list) →
          (node label content children).IsSymbolIn symbol :=
      isSymbolIn_of_operands fun child below _ => ih child below
    rw [assigned, assignedByOperands_eq_map] at present
    split at present
    · next kind =>
      rw [List.mem_singleton.mp present]
      exact ⟨mem_walk_self _, fun _ => kind⟩
    split at present
    · exact operands (mem_of_mem_getD (fun _ => List.mem_of_head?) present)
    split at present
    · exact operands (List.mem_flatten.mp present)
    split at present
    · split at present
      · exact operands (mem_of_mem_getD (fun _ => List.mem_of_getElem?) present)
      · exact operands (mem_of_mem_getD (fun _ => List.mem_of_head?) present)
    · cases present

/-- The first operand is the one that is looked through. -/
theorem lookThroughFirst_eq (trees : List (Tree Label)) :
    lookThroughFirst trees = ((trees.filter fun tree => !tree.isLeaf).head?).map lookThrough := by
  induction trees with
  | nil => rfl
  | cons tree trees ih =>
    rw [lookThroughFirst, ih]
    cases leaf : tree.isLeaf <;> simp [leaf]

/-- What a tree is looked through to is in it. -/
theorem lookThrough_mem_walk (tree : Tree Label) : tree.lookThrough ∈ tree.walk := by
  induction tree using Tree.induct with
  | node label content children ih =>
    rw [lookThrough]
    split
    · rw [lookThroughFirst_eq]
      cases first : (children.filter fun tree => !tree.isLeaf).head? with
      | none => exact mem_walk_self _
      | some child =>
        have below := (List.mem_filter.mp (List.mem_of_head? first)).1
        exact mem_walk_node below (ih child below)
    · exact mem_walk_self _

/-- What a tree assigns a value to with a tag is a symbol in it. -/
theorem isSymbolIn_of_upAssigned? (held : tree.upAssigned? = some symbol) :
    tree.IsSymbolIn symbol := by
  refine IsSymbolIn.of_mem_walk ?_ tree.lookThrough_mem_walk
  rw [upAssigned?] at held
  split at held
  · next kind =>
    cases held
    exact ⟨mem_walk_self _, fun _ => kind⟩
  · obtain ⟨head, first, held⟩ := Option.bind_eq_some_iff.mp held
    exact (isSymbolIn_of_mem_assigned (List.mem_of_head? held)).of_mem_walk
      (mem_walk_of_firstExpression first)
  · obtain ⟨blank, second, held⟩ := Option.bind_eq_some_iff.mp held
    split at held
    · next isBlank =>
      exact (isSymbolIn_of_isBlank isBlank held).of_mem_walk (mem_walk_of_argument second)
    · cases held
  · split at held
    · next isBlank => exact isSymbolIn_of_isBlank isBlank held
    · cases held

/-- What a tree assigns to tags is a symbol in it. -/
theorem isSymbolIn_of_mem_upAssigned (present : symbol ∈ tree.upAssigned) :
    tree.IsSymbolIn symbol := by
  induction tree using Tree.induct generalizing symbol with
  | node label content children ih =>
    have operands :
        (∃ list ∈ (children.filter fun child => !child.isLeaf).map upAssigned, symbol ∈ list) →
          (node label content children).IsSymbolIn symbol :=
      isSymbolIn_of_operands fun child below _ => ih child below
    rw [upAssigned, upAssignedByOperands_eq_map] at present
    split at present
    · exact operands (mem_of_mem_getD (fun _ => List.mem_of_head?) present)
    split at present
    · exact operands (mem_of_mem_getD (fun _ => List.mem_of_getElem?) present)
    split at present
    · obtain ⟨argument, among, held⟩ := List.mem_filterMap.mp present
      have below := mem_children_of_mem_expressions (List.mem_of_mem_tail among)
      exact (isSymbolIn_of_upAssigned? held).of_mem_walk (mem_walk_of_mem_children below)
    · cases present

/-- An operand that is a symbol is one in the tree. -/
theorem isSymbolIn_of_mem_ifSymbol {operand : Option (Tree Label)}
    (inside : ∀ inner, operand = some inner → inner ∈ tree.walk)
    (present : symbol ∈ ifSymbol operand) : tree.IsSymbolIn symbol := by
  obtain ⟨held, kind⟩ := Option.filter_eq_some_iff.mp (Option.mem_toList.mp present)
  exact ⟨inside symbol held, fun _ => eq_of_beq kind⟩

/-- What is picked from an operand is a symbol in the tree if it is one in the operand. -/
theorem isSymbolIn_of_mem_picked {operand : Option (Tree Label)}
    {pick : Tree Label → List (Tree Label)}
    (inside : ∀ inner, operand = some inner → inner ∈ tree.walk)
    (each : ∀ inner, symbol ∈ pick inner → inner.IsSymbolIn symbol)
    (present : symbol ∈ (operand.map pick).getD []) : tree.IsSymbolIn symbol := by
  cases operand with
  | none => cases present
  | some inner => exact (each inner present).of_mem_walk (inside inner rfl)

/-- What an assignment defines is a symbol of the assignment. -/
theorem isSymbolIn_of_mem_defined (present : symbol ∈ tree.defined) : tree.IsSymbolIn symbol := by
  have first (inner : Tree Label) (held : tree.firstExpression = some inner) :=
    mem_walk_of_firstExpression held
  have target (inner : Tree Label) (held : tree.argument 1 = some inner) :=
    mem_walk_of_argument held
  have assigned (inner : Tree Label) (present : symbol ∈ inner.assigned) :=
    isSymbolIn_of_mem_assigned present
  have upAssigned (inner : Tree Label) (present : symbol ∈ inner.upAssigned) :=
    isSymbolIn_of_mem_upAssigned present
  rw [defined] at present
  dsimp only at present
  split at present
  · exact isSymbolIn_of_mem_picked first assigned present
  · exact isSymbolIn_of_mem_picked first assigned present
  · exact isSymbolIn_of_mem_ifSymbol first present
  · exact isSymbolIn_of_mem_ifSymbol first present
  · exact isSymbolIn_of_mem_picked first upAssigned present
  · exact isSymbolIn_of_mem_picked first upAssigned present
  split at present
  · cases present
  split at present
  · exact isSymbolIn_of_mem_picked target assigned present
  split at present
  · exact isSymbolIn_of_mem_ifSymbol target present
  split at present
  · exact isSymbolIn_of_mem_picked target upAssigned present
  split at present
  · exact isSymbolIn_of_mem_ifSymbol target present
  · cases present

variable {name : String}

/-- The definition of a name is a symbol with that name. -/
theorem text_of_definitionOf? (held : tree.definitionOf? name = some symbol) :
    symbol.text = name := by
  have found := List.find?_some held
  exact eq_of_beq found

/-- The global definition of a name is a symbol in the tree. -/
theorem isSymbolIn_of_globalDefinition? (held : tree.globalDefinition? name = some symbol) :
    tree.IsSymbolIn symbol := by
  obtain ⟨before, node, after, walk, found, _⟩ := List.findSome?_eq_some_iff.mp held
  have inside : node ∈ tree.walk := by simp [walk]
  exact (isSymbolIn_of_mem_defined (List.mem_of_find?_eq_some found)).of_mem_walk inside

theorem text_of_globalDefinition? (held : tree.globalDefinition? name = some symbol) :
    symbol.text = name := by
  obtain ⟨_, node, _, _, found, _⟩ := List.findSome?_eq_some_iff.mp held
  exact text_of_definitionOf? found

/-- A tree all of whose nodes are listed is seen as it is. -/
theorem visible_eq_self {tree : StampedTree} (listed : tree.Everywhere fun node => node.listed) :
    tree.visible = tree := by
  induction tree using Tree.induct with
  | node label content children ih =>
    have all : children.filter Tree.listed = children :=
      List.filter_eq_self.mpr fun child present => (listed.child present).root
    have same : children.map visible = children :=
      List.map_congr_left (fun child present => ih child present (listed.child present))
        |>.trans (List.map_id children)
    obtain ⟨birth, version, flag⟩ := label
    have shown : flag = true := listed.root
    rw [visible, visibleAll_eq_map, all, same, shown]

end Tree

/-! ## The tree of a text as the only one of a forest -/

namespace SyntaxTree

/-- The tree as it stands in a forest of its own. -/
def stamped (tree : SyntaxTree) : StampedTree := (Forest.empty.plant tree).2

variable {tree : SyntaxTree} {place : Occurrence Stamp}

/-- A tree that is planted alone makes a dated forest. -/
theorem isDated_plant (tree : SyntaxTree) : (Forest.empty.plant tree).1.IsDated :=
  (Forest.isDated_empty.grows_plant tree).dated

/-- The nodes of a tree that is planted alone are those it is walked through. -/
theorem nodes_plant (tree : SyntaxTree) :
    (Forest.empty.plant tree).1.nodes = tree.stamped.walk := by
  change StampedTree.nodesOf [tree.stamped] = _
  rw [StampedTree.nodesOf_singleton]

/-- Nothing is hidden in a tree that was planted. -/
theorem shown_of_mem_occurrences (present : place ∈ tree.stamped.occurrences) :
    (Forest.empty.plant tree).1.Shown place := by
  intro node above
  rcases Tree.mem_walk_of_mem_lineage present above with inside | none
  · have listed := (listed_stampFrom tree 0).within inside
    exact ⟨node, by rwa [nodes_plant], Tree.visible_eq_self listed⟩
  · cases none

end SyntaxTree

namespace ConstructTable

variable {table : ConstructTable} {name : String} {place : Occurrence Stamp} {last : StampedTree}
  {outer : List StampedTree}

/-- If no declaration is found on the way up, no construct on the way declares the name. -/
theorem declares?_eq_none_of_around (none : table.declarationAround name place last outer = none)
    {before after : List StampedTree} {inner element : StampedTree}
    (split : last :: outer = before ++ inner :: element :: after) :
    table.declares? name element ⟨inner, element :: after⟩ place = Option.none := by
  induction outer generalizing last before with
  | nil => exact absurd (congrArg List.length split) (by simp; omega)
  | cons next outer ih =>
    rw [declarationAround] at none
    split at none
    · cases none
    · next undeclared =>
      cases before with
      | nil =>
        cases split
        exact undeclared
      | cons first before => exact ih none (List.cons.inj split).2

/-- What is found around a place is the declaration by the innermost element that declares the
name. -/
theorem exists_of_declarationAround {resolution : Resolution}
    (found : table.declarationAround name place last outer = some resolution) :
    ∃ below scope above definition, outer = below ++ scope :: above ∧
      resolution = ⟨definition, some (scope, table.classify scope)⟩ ∧
      (∃ before inner, last :: below = before ++ [inner] ∧
        table.declares? name scope ⟨inner, scope :: above⟩ place = some definition) ∧
      ∀ early between late, below = early ++ between :: late →
        ∃ before inner, last :: early = before ++ [inner] ∧
          table.declares? name between ⟨inner, between :: (late ++ scope :: above)⟩ place
            = none := by
  induction outer generalizing last with
  | nil => cases found
  | cons next outer ih =>
    rw [declarationAround] at found
    split at found
    · next definition declares =>
      cases found
      refine ⟨[], next, outer, definition, rfl, rfl, ⟨[], last, rfl, declares⟩, ?_⟩
      intro early between late split
      cases early <;> cases split
    · next undeclared =>
      obtain ⟨below, scope, above, definition, rfl, same, ⟨before, inner, split, declares⟩,
        silent⟩ := ih found
      refine ⟨next :: below, scope, above, definition, rfl, same,
        ⟨last :: before, inner, by rw [split]; rfl, declares⟩, ?_⟩
      intro early between late between'
      cases early with
      | nil =>
        cases between'
        exact ⟨[], last, rfl, undeclared⟩
      | cons first early =>
        obtain ⟨rfl, rest⟩ := List.cons.inj between'
        obtain ⟨before, inner, split, undeclared⟩ := silent early between late rest
        exact ⟨last :: before, inner, by rw [split]; rfl, undeclared⟩

/-- A declaration that is found on the way up is made by a construct on the way. -/
theorem exists_declares?_of_around {resolution : Resolution}
    (found : table.declarationAround name place last outer = some resolution) :
    ∃ before inner element after declared, last :: outer = before ++ inner :: element :: after ∧
      table.declares? name element ⟨inner, element :: after⟩ place = some declared ∧
      resolution = ⟨declared, some (element, table.classify element)⟩ := by
  obtain ⟨below, scope, above, definition, rfl, same, ⟨before, inner, split, declares⟩, _⟩ :=
    exists_of_declarationAround found
  refine ⟨before, inner, scope, above, definition, ?_, declares, same⟩
  rw [← List.cons_append, split, List.append_assoc]
  rfl

end ConstructTable

namespace Classifier

variable {tree : SyntaxTree} {table : ConstructTable} {place : Occurrence Stamp}

/-- A classifier that has not been asked anything resolves a name as the table does. -/
theorem resolve_ofTable (table : ConstructTable) (present : place ∈ tree.stamped.occurrences) :
    ((ofTable table).resolve place).1 = table.resolve place :=
  ((knows_ofTable _ table).resolve (SyntaxTree.isDated_plant tree)
    (SyntaxTree.shown_of_mem_occurrences present)).1

/-- The definition of a free name is what the first node that defines the name defines, a node
before those below it, and wherever that node stands. It is in the tree, and there it has its
meaning from itself or, since the search does not ask the constructs around a definition, from a
construct around it. -/
theorem resolve_of_free (grammar : Grammar) (source : String) (table : ConstructTable)
    {place : Occurrence Stamp} {definition : StampedTree}
    (present : place ∈ (parseSource grammar source).stamped.occurrences)
    (free : ((ofTable table).resolve place).1 = some ⟨definition, none⟩) :
    (∀ before inner element after, place.lineage = before ++ inner :: element :: after →
      table.declares? place.tree.text element ⟨inner, element :: after⟩ place = none) ∧
    (∃ before node after,
      (parseSource grammar source).stamped.walk = before ++ node :: after ∧
      node.definitionOf? place.tree.text = some definition ∧
      ∀ earlier ∈ before, earlier.definitionOf? place.tree.text = none) ∧
    (∃ target ∈ (parseSource grammar source).stamped.occurrences, target.tree = definition) ∧
    ∀ target ∈ (parseSource grammar source).stamped.occurrences,
      target.tree.sameNode definition →
      target.tree.text = place.tree.text ∧
      (((ofTable table).resolve target).1 = some ⟨definition, none⟩ ∨
        ∃ before inner element after declared,
          target.lineage = before ++ inner :: element :: after ∧
          table.declares? place.tree.text element ⟨inner, element :: after⟩ target
            = some declared ∧
          ((ofTable table).resolve target).1
            = some ⟨declared, some (element, table.classify element)⟩) := by
  generalize parseSource grammar source = tree at present ⊢
  have root := Tree.root_of_mem_occurrences present
  rw [resolve_ofTable table present, ConstructTable.resolve, root] at free
  obtain ⟨undeclared, global⟩ :
      table.declarationAround place.tree.text place place.tree place.ancestors = none ∧
        tree.stamped.globalDefinition? place.tree.text = some definition := by
    cases around : table.declarationAround place.tree.text place place.tree place.ancestors with
    | none =>
      rw [around, Option.none_or] at free
      obtain ⟨found, held, same⟩ := Option.map_eq_some_iff.mp free
      cases same
      exact ⟨rfl, held⟩
    | some resolution =>
      obtain ⟨_, _, _, _, _, _, _, local'⟩ := ConstructTable.exists_declares?_of_around around
      rw [around, Option.some_or, local'] at free
      cases free
  have inside := (Tree.isSymbolIn_of_globalDefinition? global).inside
  have text := Tree.text_of_globalDefinition? global
  refine ⟨fun before inner element after split => ?_, List.findSome?_eq_some_iff.mp global,
    Tree.exists_occurrence [] inside, fun target among same => ?_⟩
  · exact ConstructTable.declares?_eq_none_of_around undeclared split
  · have dated := SyntaxTree.isDated_plant tree
    have node : target.tree = definition := by
      refine dated.eq_of_birth_eq ?_ (SyntaxTree.nodes_plant tree ▸ inside) (eq_of_beq same)
      rw [SyntaxTree.nodes_plant]
      rcases Tree.mem_walk_of_mem_lineage among List.mem_cons_self with inner | none
      · exact inner
      · cases none
    rw [resolve_ofTable table among, ConstructTable.resolve, node, text,
      Tree.root_of_mem_occurrences among, global]
    refine ⟨rfl, ?_⟩
    cases around : table.declarationAround place.tree.text target definition target.ancestors with
    | none => exact .inl rfl
    | some resolution =>
      obtain ⟨before, inner, element, after, declared, split, declares, rfl⟩ :=
        ConstructTable.exists_declares?_of_around around
      refine .inr ⟨before, inner, element, after, declared, ?_, declares, rfl⟩
      rw [Occurrence.lineage, node, split]

/-- A free name whose definition is an assignment to a local variable. -/
def leak : String := "Module[{x}, x = 1]\nx"

/-- The last symbol is free, and its definition is local to the call in front of it. -/
theorem resolve_leak :
    ∃ place ∈ (parseSource .standard leak).stamped.occurrences, ∃ definition,
      ((ofTable .standard).resolve place).1 = some ⟨definition, none⟩ ∧
      ∃ target ∈ (parseSource .standard leak).stamped.occurrences, target.tree = definition ∧
        target.tree.text = place.tree.text ∧
        ∃ declared scope, ((ofTable .standard).resolve target).1 = some ⟨declared, some scope⟩ := by
  have last : ∃ place ∈ (parseSource .standard leak).stamped.occurrences,
      ((ofTable .standard).resolve place).1.map (fun resolution =>
        (resolution.definition.birth, resolution.isLocal)) = some (12, false) := by
    decide +kernel
  have bound : ∀ target ∈ (parseSource .standard leak).stamped.occurrences,
      target.tree.birth = 12 →
      ((ofTable .standard).resolve target).1.map Resolution.isLocal = some true := by
    decide +kernel
  obtain ⟨place, present, resolves⟩ := last
  obtain ⟨⟨definition, scope⟩, free, facts⟩ := Option.map_eq_some_iff.mp resolves
  obtain ⟨birth, unscoped⟩ := Prod.mk.inj facts
  obtain rfl : scope = none := Option.not_isSome_iff_eq_none.mp (Bool.eq_false_iff.mp unscoped)
  obtain ⟨_, _, ⟨target, among, same⟩, meanings⟩ :=
    resolve_of_free .standard leak .standard present free
  obtain ⟨text, alternatives⟩ := meanings target among (by simp [Tree.sameNode, same])
  have local' := bound target among (by rw [same]; exact birth)
  refine ⟨place, present, definition, free, target, among, same, text, ?_⟩
  rcases alternatives with global | ⟨_, _, element, _, declared, _, _, around⟩
  · rw [global] at local'
    cases local'
  · exact ⟨declared, _, around⟩

/-- Whether the definition of a free name is never local to a construct around it. -/
def IsHygienic (table : ConstructTable) (tree : StampedTree) : Prop :=
  ∀ place ∈ tree.occurrences, place.tree.kind = .symbol →
    ∀ resolution ∈ ((ofTable table).resolve place).1, resolution.isLocal = false →
      ∀ target ∈ tree.occurrences, target.tree.sameNode resolution.definition →
        ∀ meaning ∈ ((ofTable table).resolve target).1, meaning.isLocal = false

/-- A free name may have a definition that is local to a construct. -/
theorem not_isHygienic : ¬IsHygienic .standard (parseSource .standard leak).stamped := by
  unfold IsHygienic
  decide +kernel

end Classifier

end WolframSyntax
