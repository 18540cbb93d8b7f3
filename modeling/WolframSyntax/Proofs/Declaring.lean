import Mathlib.Data.List.Flatten
import WolframSyntax.Proofs.Definitions
import WolframSyntax.Scope.Declaration

/-!
# What constructs declare

However a construct wraps the names that it declares, in parentheses, lists, assignments, rules or
patterns, they are symbols below it, in document order (`Tree.isSelection_localizedSymbols`). They
never stand in the head of a call, and never in an initial value
(`StampedTree.not_mem_walk_of_mem_initialValues`). For the order of the names of patterns it matters
what may stand where (`NodeKind.mayHold`): nothing is below a leaf, and only leaves are below a
symbol.
-/

namespace WolframSyntax

namespace Tree

variable {Label : Type} {tree inner symbol : Tree Label} {trees symbols nodes : List (Tree Label)}
  {pick : Tree Label → Option (Tree Label)}

/-- A leaf has no children. -/
theorem children_eq_nil_of_isLeaf (proper : tree.IsProper) (leaf : tree.isLeaf) :
    tree.children = [] := by
  cases below : tree.children with
  | nil => rfl
  | cons child rest =>
    have held := proper child (below ▸ List.mem_cons_self)
    have none : tree.kind.mayHold child.kind = false := if_pos leaf
    rw [none] at held
    cases held

/-! ## Symbols in document order -/

/-- Some symbols among the nodes, in the same order. -/
structure IsSelection (nodes symbols : List (Tree Label)) : Prop where
  ordered : symbols.Sublist nodes
  kind : ∀ symbol ∈ symbols, symbol.kind = .symbol

theorem isSelection_nil (nodes : List (Tree Label)) : IsSelection nodes [] :=
  ⟨List.nil_sublist nodes, List.forall_mem_nil _⟩

/-- A selection of some nodes is one of more nodes. -/
theorem IsSelection.mono {more : List (Tree Label)} (selection : IsSelection nodes symbols)
    (sub : nodes.Sublist more) : IsSelection more symbols :=
  ⟨selection.ordered.trans sub, selection.kind⟩

/-- What is picked from a tree, if anything, is a symbol in the tree. -/
def Picks (pick : Tree Label → Option (Tree Label)) : Prop :=
  ∀ tree symbol, pick tree = some symbol → symbol ∈ tree.walk ∧ symbol.kind = .symbol

/-- What is picked from a tree is a selection of its nodes. -/
theorem Picks.isSelection_toList (picks : Picks pick) (tree : Tree Label) :
    IsSelection tree.walk (pick tree).toList := by
  cases picked : pick tree with
  | none => exact isSelection_nil _
  | some symbol =>
    obtain ⟨inside, kind⟩ := picks tree symbol picked
    exact ⟨List.singleton_sublist.mpr inside, List.forall_mem_singleton.mpr kind⟩

/-- What is picked from several trees is a selection of their nodes. -/
theorem Picks.isSelection_filterMap (picks : Picks pick) (trees : List (Tree Label)) :
    IsSelection (trees.flatMap walk) (trees.filterMap pick) := by
  induction trees with
  | nil => exact isSelection_nil _
  | cons tree trees ih =>
    have first := picks.isSelection_toList tree
    rw [List.flatMap_cons, List.filterMap_cons]
    cases picked : pick tree with
    | none => exact ih.mono (List.sublist_append_right _ _)
    | some symbol =>
      rw [picked] at first
      exact ⟨first.ordered.append ih.ordered,
        List.forall_mem_cons.mpr ⟨first.kind symbol List.mem_cons_self, ih.kind⟩⟩

/-! ## Parentheses -/

/-- The first operand is the one that is looked at. -/
theorem unwrapFirst?_eq_bind (trees : List (Tree Label)) :
    unwrapFirst? trees = (trees.filter fun tree => !tree.isLeaf).head?.bind unwrap? := by
  induction trees with
  | nil => rfl
  | cons tree trees ih =>
    rw [unwrapFirst?, ih]
    cases leaf : tree.isLeaf <;> simp [leaf]

/-- A tree in parentheses is looked at inside of them. -/
theorem unwrap?_of_group (group : tree.kind = .group) :
    tree.unwrap? = tree.firstExpression.bind unwrap? := by
  cases tree with
  | node label content children =>
    rw [unwrap?, unwrapFirst?_eq_bind]
    exact if_pos group

/-- A tree without parentheses is looked at itself. -/
theorem unwrap?_of_ne_group (other : tree.kind ≠ .group) : tree.unwrap? = some tree := by
  cases tree with
  | node label content children =>
    rw [unwrap?]
    exact if_neg other

/-- What is inside of parentheses is in the tree. -/
theorem mem_walk_of_unwrap? (held : tree.unwrap? = some inner) : inner ∈ tree.walk := by
  induction tree with
  | node label content children ih =>
    by_cases group : (node label content children).kind = .group
    · rw [unwrap?_of_group group] at held
      obtain ⟨first, found, held⟩ := Option.bind_eq_some_iff.mp held
      have below := mem_children_of_mem_expressions (List.mem_of_head? found)
      exact mem_walk_node below (ih first below held)
    · rw [unwrap?_of_ne_group group] at held
      cases held
      exact mem_walk_self _

theorem unwrap_mem_walk (tree : Tree Label) : tree.unwrap ∈ tree.walk := by
  unfold unwrap
  cases held : tree.unwrap? with
  | none => exact mem_walk_self _
  | some inner => exact mem_walk_of_unwrap? held

theorem picks_asSymbol? : Picks (@asSymbol? Label) := by
  intro tree symbol held
  obtain ⟨found, kind⟩ := Option.filter_eq_some_iff.mp held
  exact ⟨mem_walk_of_unwrap? found, eq_of_beq kind⟩

/-- A tree in parentheses is a symbol if what is inside is one. -/
theorem asSymbol?_of_group (group : tree.kind = .group) :
    tree.asSymbol? = tree.firstExpression.bind asSymbol? := by
  unfold asSymbol?
  rw [unwrap?_of_group group]
  cases tree.firstExpression <;> rfl

/-- What is no pair of parentheses is the symbol itself. -/
theorem of_asSymbol?_of_ne_group (other : tree.kind ≠ .group)
    (held : tree.asSymbol? = some symbol) : tree = symbol ∧ tree.kind = .symbol := by
  unfold asSymbol? at held
  rw [unwrap?_of_ne_group other] at held
  obtain ⟨same, kind⟩ := Option.filter_eq_some_iff.mp held
  cases same
  exact ⟨rfl, eq_of_beq kind⟩

/-- What is picked from a part of a tree is picked from the tree. -/
theorem Picks.of_mem_walk (picks : Picks pick) {part : Tree Label} (inside : part ∈ tree.walk)
    (held : pick part = some symbol) : symbol ∈ tree.walk ∧ symbol.kind = .symbol := by
  obtain ⟨below, kind⟩ := picks part symbol held
  exact ⟨mem_walk_trans inside below, kind⟩

/-- What is picked from the first operand is a symbol in the tree. -/
theorem Picks.of_firstExpression (picks : Picks pick)
    (held : tree.firstExpression.bind pick = some symbol) :
    symbol ∈ tree.walk ∧ symbol.kind = .symbol := by
  obtain ⟨first, found, held⟩ := Option.bind_eq_some_iff.mp held
  exact picks.of_mem_walk (mem_walk_of_firstExpression found) held

/-! ## Entries of lists -/

/-- The symbol that an entry is, or the one at the front of it if it is of some form. -/
theorem picks_entry (form : Tree Label → Prop) [DecidablePred form] :
    Picks fun entry : Tree Label =>
      if form entry.unwrap then entry.unwrap.firstExpression.bind asSymbol?
      else entry.unwrap.asSymbol? := by
  intro entry symbol held
  have inner : symbol ∈ entry.unwrap.walk ∧ symbol.kind = .symbol := by
    dsimp only at held
    split at held
    · exact picks_asSymbol?.of_firstExpression held
    · exact picks_asSymbol? _ _ held
  exact ⟨mem_walk_trans entry.unwrap_mem_walk inner.1, inner.2⟩

/-- An entry that assigns declares the symbol on its left. -/
theorem picks_declared? : Picks (@declared? Label) := picks_entry fun entry => entry.assigns

/-- A parameter with a pattern is the symbol in front of its colon or blank. -/
theorem picks_typedParameter? : Picks (@typedParameter? Label) :=
  picks_entry fun entry => entry.kind = .list

/-- A rule has its variable on its left. -/
theorem picks_ruleVariable? : Picks (@ruleVariable? Label) := by
  intro tree symbol held
  unfold ruleVariable? at held
  obtain ⟨rule, found, held⟩ := Option.bind_eq_some_iff.mp held
  split at held
  · have inner := picks_asSymbol?.of_firstExpression held
    exact ⟨mem_walk_trans (mem_walk_of_unwrap? found) inner.1, inner.2⟩
  · cases held

/-- An iterator has its variable in front. -/
theorem picks_iteratorVariable? : Picks (@iteratorVariable? Label) := by
  intro tree symbol held
  unfold iteratorVariable? at held
  dsimp only at held
  split at held
  · obtain ⟨entry, first, held⟩ := Option.bind_eq_some_iff.mp held
    obtain ⟨counter, found, held⟩ := Option.bind_eq_some_iff.mp held
    have inside : counter ∈ tree.walk :=
      mem_walk_trans tree.unwrap_mem_walk
        (mem_walk_trans (mem_walk_of_firstExpression first) (mem_walk_of_unwrap? found))
    split at held
    · have inner := picks_asSymbol?.of_firstExpression held
      exact ⟨mem_walk_trans inside inner.1, inner.2⟩
    · exact picks_asSymbol?.of_mem_walk inside held
  · cases held

/-- The entries of a list are in the list, one after the other. -/
theorem flatMap_walk_listEntries_sublist (tree : Tree Label) :
    (tree.listEntries.flatMap walk).Sublist tree.walk := by
  unfold listEntries
  cases held : tree.unwrap? with
  | none => exact List.nil_sublist _
  | some inner =>
    have inside := walk_sublist (mem_walk_of_unwrap? held)
    dsimp only
    split
    · have below : (inner.expressions.flatMap walk).Sublist inner.walk := by
        rw [inner.walk_eq]
        exact (List.filter_sublist.flatMap _).cons _
      exact below.trans inside
    · rw [List.flatMap_singleton]
      exact inside

/-- The initial values of a call are in the call. -/
theorem mem_walk_of_mem_initialValues {value : Tree Label} (initial : value ∈ tree.initialValues) :
    value ∈ tree.walk := by
  unfold initialValues at initial
  obtain ⟨entry, among, held⟩ := List.mem_filterMap.mp initial
  dsimp only at held
  split at held
  · obtain ⟨list, found, among⟩ :=
      mem_of_mem_getD (fun _ held => Option.mem_toList.mpr held) among
    obtain ⟨argument, target, rfl⟩ := Option.map_eq_some_iff.mp (Option.mem_toList.mp found)
    have entries := (flatMap_walk_listEntries_sublist argument).subset
    have inArgument := entries (List.mem_flatMap.mpr ⟨entry, among, entry.mem_walk_self⟩)
    exact mem_walk_trans (mem_walk_of_argument target) (mem_walk_trans inArgument
      (mem_walk_trans entry.unwrap_mem_walk (mem_walk_of_argument held)))
  · cases held

/-! ## Patterns -/

/-- The name that the root binds if it is a pattern. -/
def boundName? (tree : Tree Label) : Option (Tree Label) :=
  if tree.kind = .pattern then tree.firstExpression.bind asSymbol? else none

/-- The symbols of a pattern are its own name and those of what is in it. -/
theorem patternSymbols_node (label : Label) (content : Content) (children : List (Tree Label)) :
    patternSymbols (node label content children)
      = (node label content children).boundName?.toList ++ children.flatMap patternSymbols := by
  change (walk _).filterMap boundName? = _
  rw [walk_node, List.filterMap_cons, List.filterMap_flatMap]
  cases (node label content children).boundName? <;> rfl

/-- No name is bound at or below a leaf. -/
theorem patternSymbols_of_isLeaf (proper : tree.IsProper) (leaf : tree.isLeaf) :
    tree.patternSymbols = [] := by
  have alone := children_eq_nil_of_isLeaf proper leaf
  cases tree with
  | node label content children =>
    obtain rfl : children = [] := alone
    have other : content.kind ≠ .pattern := by
      intro pattern
      have leaf : content.kind.isLeaf := leaf
      rw [pattern] at leaf
      cases leaf
    rw [patternSymbols_node]
    exact List.append_eq_nil_iff.mpr ⟨congrArg Option.toList (if_neg other), rfl⟩

/-- In front of the first operand of a node there are only leaves. -/
theorem exists_children_eq_of_firstExpression {first : Tree Label}
    (held : tree.firstExpression = some first) : ∃ leaves rest,
      tree.children = leaves ++ first :: rest ∧ ∀ leaf ∈ leaves, leaf.isLeaf := by
  rw [firstExpression, expressions, List.head?_filter, List.find?_eq_some_iff_append] at held
  obtain ⟨_, leaves, rest, split, each⟩ := held
  exact ⟨leaves, rest, split, fun leaf among => by simpa using each leaf among⟩

/-- The names that the patterns of a tree bind are in document order, also behind the symbol that
the tree is itself. -/
theorem patternSymbols_sublist (proper : tree.Everywhere IsProper) :
    tree.patternSymbols.Sublist tree.walk ∧
      ∀ symbol, tree.asSymbol? = some symbol →
        (symbol :: tree.patternSymbols).Sublist tree.walk := by
  induction tree with
  | node label content children ih =>
    have below := fun child present => ih child present (proper.child present)
    have all : (children.flatMap patternSymbols).Sublist (children.flatMap walk) :=
      List.Sublist.flatMap_right children fun child present => (below child present).1
    -- Only leaves stand in front of the first operand, and they bind nothing, so a symbol that the
    -- first operand is comes before all names that are bound below the node.
    have behind : ∀ symbol,
        (node label content children).firstExpression.bind asSymbol? = some symbol →
          (symbol :: children.flatMap patternSymbols).Sublist (children.flatMap walk) := by
      intro symbol held
      obtain ⟨first, found, picked⟩ := Option.bind_eq_some_iff.mp held
      obtain ⟨leaves, rest, split, each⟩ := exists_children_eq_of_firstExpression found
      obtain rfl : children = leaves ++ first :: rest := split
      have none : leaves.flatMap patternSymbols = [] :=
        List.flatMap_eq_nil_iff.mpr fun leaf among =>
          patternSymbols_of_isLeaf (proper.child (List.mem_append_left _ among)).root
            (each leaf among)
      have own := (below first (List.mem_append_right _ List.mem_cons_self)).2 symbol picked
      have later : (rest.flatMap patternSymbols).Sublist (rest.flatMap walk) :=
        List.Sublist.flatMap_right rest fun child present =>
          (below child (List.mem_append_right _ (List.mem_cons_of_mem _ present))).1
      rw [List.flatMap_append, List.flatMap_append, none, List.nil_append, List.flatMap_cons,
        List.flatMap_cons, ← List.cons_append]
      exact (own.append later).trans (List.sublist_append_right _ _)
    rw [patternSymbols_node, walk_node]
    constructor
    · cases bound : (node label content children).boundName? with
      | none => exact all.cons _
      | some symbol =>
        unfold boundName? at bound
        split at bound
        · exact (behind symbol bound).cons _
        · cases bound
    · intro symbol held
      -- A pattern is neither a symbol nor a pair of parentheses.
      have unbound : (node label content children).boundName? = none := by
        refine if_neg fun pattern => ?_
        have other : (node label content children).kind ≠ .group := by
          rw [pattern]
          exact NodeKind.noConfusion
        obtain ⟨_, kind⟩ := of_asSymbol?_of_ne_group other held
        rw [pattern] at kind
        cases kind
      rw [unbound]
      by_cases group : (node label content children).kind = .group
      · rw [asSymbol?_of_group group] at held
        exact (behind symbol held).cons _
      · obtain ⟨rfl, _⟩ := of_asSymbol?_of_ne_group group held
        exact all.cons_cons _

/-- The symbols of a pattern are a selection of its nodes. -/
theorem isSelection_patternSymbols (proper : tree.Everywhere IsProper) :
    IsSelection tree.walk tree.patternSymbols := by
  refine ⟨(patternSymbols_sublist proper).1, fun symbol present => ?_⟩
  obtain ⟨node, _, bound⟩ := List.mem_filterMap.mp present
  split at bound
  · exact (picks_asSymbol?.of_firstExpression bound).2
  · cases bound

/-! ## Constructs -/

/-- The symbols of the operands that are picked from the entries of the first argument. -/
theorem Picks.isSelection_entries (picks : Picks pick) (call : Tree Label) :
    IsSelection (call.arguments.flatMap walk)
      (((call.arguments.head?.map listEntries).getD []).filterMap pick) := by
  cases arguments : call.arguments with
  | nil => exact isSelection_nil _
  | cons first rest =>
    refine (picks.isSelection_filterMap first.listEntries).mono ?_
    rw [List.flatMap_cons]
    exact (flatMap_walk_listEntries_sublist first).trans (List.sublist_append_left _ _)

/-- A construct that is not about patterns declares symbols of its arguments, in document order. -/
theorem isSelection_arguments (call : Tree Label) {construct : Construct}
    (first : construct ≠ .setDelayed) (second : construct ≠ .ruleDelayed) :
    IsSelection (call.arguments.flatMap walk) (call.localizedSymbols construct) := by
  have iterators : IsSelection (call.arguments.flatMap walk)
      (call.arguments.tail.filterMap iteratorVariable?) :=
    (picks_iteratorVariable?.isSelection_filterMap _).mono ((List.tail_sublist _).flatMap _)
  cases construct with
  | localVariables | dynamicValues | constants => exact picks_declared?.isSelection_entries call
  | function =>
    unfold localizedSymbols
    dsimp only
    split
    · exact isSelection_nil _
    · exact picks_asSymbol?.isSelection_entries call
  | compilation => exact picks_typedParameter?.isSelection_entries call
  | limit =>
    change IsSelection _ (call.arguments[1]?.bind ruleVariable?).toList
    cases target : call.arguments[1]? with
    | none => exact isSelection_nil _
    | some argument =>
      refine (picks_ruleVariable?.isSelection_toList argument).mono ?_
      exact sublist_flatMap_walk (List.mem_of_getElem? target)
  | null => exact isSelection_nil _
  | setDelayed => exact absurd rfl first
  | ruleDelayed => exact absurd rfl second
  | table | loop | sum | product | numericSum | numericProduct | integral | numericIntegral | plot
  | plot3D | manipulation => exact iterators

/-- No name is bound in a symbol. -/
theorem patternSymbols_of_symbol (proper : tree.Everywhere IsProper) (kind : tree.kind = .symbol) :
    tree.patternSymbols = [] := by
  cases tree with
  | node label content children =>
    have unbound : (node label content children).boundName? = none := by
      refine if_neg fun pattern => ?_
      rw [kind] at pattern
      cases pattern
    rw [patternSymbols_node, unbound]
    refine List.flatMap_eq_nil_iff.mpr fun child present => ?_
    have held := proper.root child present
    rw [kind] at held
    exact patternSymbols_of_isLeaf (proper.child present).root held

/-- What a construct declares are symbols below it, in document order. -/
theorem isSelection_localizedSymbols (proper : tree.Everywhere IsProper) (construct : Construct) :
    IsSelection (tree.children.flatMap walk) (tree.localizedSymbols construct) := by
  have patterns : IsSelection (tree.children.flatMap walk)
      ((tree.firstExpression.map patternSymbols).getD []) := by
    cases found : tree.firstExpression with
    | none => exact isSelection_nil _
    | some first =>
      have below := mem_children_of_mem_expressions (List.mem_of_head? found)
      exact (isSelection_patternSymbols (proper.child below)).mono (sublist_flatMap_walk below)
  by_cases first : construct = .setDelayed
  · rw [first]
    exact patterns
  by_cases second : construct = .ruleDelayed
  · rw [second]
    exact patterns
  refine (tree.isSelection_arguments first second).mono (List.Sublist.flatMap ?_ _)
  exact (List.tail_sublist _).trans List.filter_sublist

/-- A call declares symbols of its arguments, and none of its head. -/
theorem isSelection_of_call (proper : tree.Everywhere IsProper) (call : tree.kind = .functionCall)
    (table : ConstructTable) :
    IsSelection (tree.arguments.flatMap walk) (tree.localizedSymbols (table.classify tree)) := by
  by_cases patterns : table.classify tree = .setDelayed ∨ table.classify tree = .ruleDelayed
  · have none : tree.localizedSymbols (table.classify tree)
        = (tree.firstExpression.map patternSymbols).getD [] := by
      rcases patterns with same | same <;> rw [same] <;> rfl
    rw [none]
    cases found : tree.firstExpression with
    | none => exact isSelection_nil _
    | some head =>
      have symbol : head.kind = .symbol := by
        by_contra other
        have unknown : table.classify tree = .null := by
          unfold ConstructTable.classify
          rw [call, found]
          exact if_neg other
        rw [unknown] at patterns
        rcases patterns with same | same <;> cases same
      have below := mem_children_of_mem_expressions (List.mem_of_head? found)
      have silent := patternSymbols_of_symbol (proper.child below) symbol
      rw [Option.map_some, Option.getD_some, silent]
      exact isSelection_nil _
  · obtain ⟨first, second⟩ := not_or.mp patterns
    exact tree.isSelection_arguments first second

end Tree

namespace StampedTree

variable {trees : List StampedTree} {tree left right node symbol value : StampedTree}

/-- Two trees of a list have no node in common. -/
theorem eq_of_mem_walk (distinct : (birthsOf trees).Nodup) (first : left ∈ trees)
    (second : right ∈ trees) (inLeft : node ∈ left.walk) (inRight : node ∈ right.walk) :
    left = right := by
  by_contra apart
  have disjoint := (List.nodup_flatMap.mp (List.Nodup.of_map _ distinct)).2
  have symmetric : Std.Symm (Function.onFun List.Disjoint (@Tree.walk Stamp)) :=
    ⟨fun _ _ apart _ inRight inLeft => apart inLeft inRight⟩
  exact disjoint.forall first second apart inLeft inRight

/-- The operands of a node have no node in common either. -/
theorem distinct_expressions (distinct : (birthsOf [tree]).Nodup) :
    (birthsOf tree.expressions).Nodup := by
  rw [birthsOf_singleton] at distinct
  exact (List.nodup_cons.mp distinct).2.sublist ((List.filter_sublist.flatMap _).map _)

/-- In a tree of distinct stamps the head of a call is none of its arguments. -/
theorem ne_of_expressions (distinct : (birthsOf [tree]).Nodup)
    (first : tree.firstExpression = some left) (second : right ∈ tree.arguments) :
    left ≠ right := by
  rintro rfl
  have apart := distinct_expressions distinct
  obtain ⟨rest, split⟩ := List.head?_eq_some_iff.mp first
  rw [Tree.arguments, split, List.tail_cons] at second
  rw [split, birthsOf_cons] at apart
  exact (List.nodup_cons.mp apart).1
    (List.mem_append_right _ (birth_mem_birthsOf (mem_nodesOf second)))

/-- The variable that an assignment declares does not stand in its value. -/
theorem not_mem_walk_of_declared? {entry : StampedTree} (distinct : (birthsOf [entry]).Nodup)
    (assigns : entry.unwrap.assigns) (declares : entry.declared? = some symbol)
    (initial : entry.unwrap.argument 1 = some value) : symbol ∉ value.walk := by
  intro within
  unfold Tree.declared? at declares
  dsimp only at declares
  rw [if_pos assigns] at declares
  obtain ⟨first, found, picked⟩ := Option.bind_eq_some_iff.mp declares
  have own : (birthsOf [entry.unwrap]).Nodup := by
    refine distinct_node distinct ?_
    rw [nodesOf_singleton]
    exact entry.unwrap_mem_walk
  have behind : value ∈ entry.unwrap.arguments := by
    rw [Tree.argument, ← List.head?_tail] at initial
    exact List.mem_of_head? initial
  refine ne_of_expressions own found behind ?_
  exact eq_of_mem_walk (distinct_expressions own) (List.mem_of_head? found)
    (List.mem_of_mem_tail behind) (Tree.picks_asSymbol? _ _ picked).1 within

/-- What a construct declares does not stand in an initial value. -/
theorem not_mem_walk_of_mem_initialValues (distinct : (birthsOf [tree]).Nodup)
    {construct : Construct} (initializes : construct.initializes)
    (declared : symbol ∈ tree.localizedSymbols construct) (initial : value ∈ tree.initialValues) :
    symbol ∉ value.walk := by
  have same : tree.localizedSymbols construct
      = (((tree.argument 1).map Tree.listEntries).getD []).filterMap Tree.declared? := by
    rw [Tree.argument, ← List.head?_tail]
    cases construct <;> first | rfl | cases initializes
  rw [same] at declared
  unfold Tree.initialValues at initial
  cases found : tree.argument 1 with
  | none =>
    rw [found] at declared
    cases declared
  | some list =>
    rw [found, Option.map_some, Option.getD_some] at declared initial
    obtain ⟨entry, among, declares⟩ := List.mem_filterMap.mp declared
    obtain ⟨other, amongToo, initial⟩ := List.mem_filterMap.mp initial
    dsimp only at initial
    split at initial
    · next assigns =>
      have distinctEntries : (birthsOf list.listEntries).Nodup := by
        refine distinct.sublist (List.Sublist.map _ ?_)
        rw [nodesOf_singleton]
        exact (Tree.flatMap_walk_listEntries_sublist list).trans
          (Tree.walk_sublist (Tree.mem_walk_of_argument found))
      intro within
      have inOther : symbol ∈ other.walk :=
        Tree.mem_walk_trans other.unwrap_mem_walk
          (Tree.mem_walk_trans (Tree.mem_walk_of_argument initial) within)
      obtain rfl := eq_of_mem_walk distinctEntries among amongToo
        (Tree.picks_declared? _ _ declares).1 inOther
      have own := distinct_node distinctEntries (mem_nodesOf among)
      exact not_mem_walk_of_declared? own assigns declares initial within
    · cases initial

end StampedTree

end WolframSyntax
