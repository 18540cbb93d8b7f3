import WolframSyntax.Proofs.Accepting
import WolframSyntax.Proofs.Declaring

/-!
# Declarations and resolution

The search for the meaning of a name goes up through the trees around it. An element of it declares
its symbols for the nodes that it reaches (`ConstructTable.Reaches`,
`ConstructTable.declarations_eq`), so that the meaning comes from the innermost element that reaches
the name and declares it. A construct reaches the symbols that it declares itself
(`ConstructTable.reaches_of_mem_localizedSymbols`), so they are local to it or to a construct
between (`Classifier.resolves_as_declared`).
-/

namespace WolframSyntax

open StampedTree

namespace Tree

variable {tree node : StampedTree} {place outer : Occurrence Stamp}

/-- A node that can be told apart from all others has only one occurrence. -/
theorem eq_of_tree_eq (distinct : (birthsOf [tree]).Nodup) (first : place ∈ tree.occurrences)
    (second : outer ∈ tree.occurrences) (same : place.tree = outer.tree) : place = outer := by
  have nodes : (tree.occurrences.map Occurrence.tree).Nodup := by
    rw [occurrences, map_tree_occurrencesWithin]
    rw [birthsOf, nodesOf_singleton] at distinct
    exact List.Nodup.of_map _ distinct
  exact List.inj_on_of_nodup_map nodes first second same

/-- The trees around a node are around all that is in it. -/
theorem exists_lineage_eq_append (distinct : (birthsOf [tree]).Nodup)
    (present : place ∈ tree.occurrences) (around : outer ∈ tree.occurrences)
    (inside : place.tree ∈ outer.tree.walk) :
    ∃ before, place.lineage = before ++ outer.lineage := by
  obtain ⟨inner, below, same⟩ := exists_occurrence outer.ancestors inside
  obtain rfl := eq_of_tree_eq distinct (mem_occurrencesWithin_trans around below) present same
  rcases mem_occurrencesWithin below with rfl | ⟨between, above⟩
  · exact ⟨[], rfl⟩
  · exact ⟨inner.tree :: between, by rw [Occurrence.lineage, above]; rfl⟩

/-- A node is around an occurrence, or is it, just in case the occurrence is in it. -/
theorem mem_lineage_iff (distinct : (birthsOf [tree]).Nodup) (present : place ∈ tree.occurrences)
    (held : node ∈ tree.walk) : node ∈ place.lineage ↔ place.tree ∈ node.walk := by
  refine ⟨tree_mem_walk_of_mem_lineage present, fun inside => ?_⟩
  obtain ⟨outer, around, rfl⟩ := exists_occurrence [] held
  obtain ⟨before, split⟩ := exists_lineage_eq_append distinct present around inside
  rw [split]
  exact List.mem_append_right _ List.mem_cons_self

/-- A tree is around all that is below it. -/
theorem mem_ancestors_of_below (distinct : (birthsOf [tree]).Nodup)
    (present : place ∈ tree.occurrences) (held : node ∈ tree.walk)
    (below : place.tree ∈ node.children.flatMap walk) : node ∈ place.ancestors := by
  have inside : place.tree ∈ node.walk := by
    rw [walk_eq]
    exact List.mem_cons_of_mem _ below
  refine (List.mem_cons.mp ((mem_lineage_iff distinct present held).mpr inside)).resolve_left ?_
  rintro rfl
  rw [← nodesOf_singleton] at held
  exact birth_not_mem_children (distinct_node distinct held) (birth_mem_birthsOf below)

/-- In a tree of distinct stamps the same node is one. -/
theorem eq_of_sameNode (distinct : (birthsOf [tree]).Nodup) {left right : StampedTree}
    (first : left ∈ tree.walk) (second : right ∈ tree.walk) (same : left.sameNode right) :
    left = right := by
  rw [← nodesOf_singleton] at first second
  exact eq_of_birth_eq distinct first second (eq_of_beq same)

end Tree

namespace ConstructTable

variable {table : ConstructTable} {tree node element inner symbol : StampedTree}
  {place : Occurrence Stamp} {name : String} {before after : List StampedTree}

/-- Whether the declarations of an element hold for a node in it: it is a construct, the node is not
in the head of a call, and not in an initial value. -/
structure Reaches (table : ConstructTable) (element node : StampedTree) : Prop where
  construct : table.classify element ≠ .null
  head : element.kind = .functionCall → ∀ head, element.firstExpression = some head →
    node ∉ head.walk
  initial : (table.classify element).initializes → ∀ value ∈ element.initialValues,
    node ∉ value.walk

/-- An occurrence is in an initial value just in case one of the values holds it. -/
theorem isInInitialValue_iff (distinct : (birthsOf [tree]).Nodup)
    (present : place ∈ tree.occurrences) (held : element ∈ tree.walk) :
    Classifier.isInInitialValue element place ↔
      ∃ value ∈ element.initialValues, place.tree ∈ value.walk := by
  simp only [Classifier.isInInitialValue, List.any_eq_true]
  refine exists_congr fun value => and_congr_right fun initial => ?_
  have inside : value ∈ tree.walk :=
    Tree.mem_walk_trans held (Tree.mem_walk_of_mem_initialValues initial)
  rw [← Tree.mem_lineage_iff distinct present inside]
  constructor
  · rintro ⟨node, above, same⟩
    have nodeInside := (Tree.mem_walk_of_mem_lineage present above).resolve_right List.not_mem_nil
    rwa [Tree.eq_of_sameNode distinct inside nodeInside same]
  · exact fun above => ⟨value, above, beq_self_eq_true _⟩

/-- The search goes up to an element unless it comes from the head of a call. -/
theorem leadsUp_iff (distinct : (birthsOf [tree]).Nodup) (present : place ∈ tree.occurrences)
    (split : place.lineage = before ++ inner :: element :: after) :
    leadsUp element ⟨inner, element :: after⟩ ↔ (element.kind = .functionCall →
      ∀ head, element.firstExpression = some head → place.tree ∉ head.walk) := by
  have occurs := Tree.mem_occurrences_of_lineage_eq present split
  obtain ⟨held, child⟩ := Tree.of_parent?_eq_some occurs rfl
  have nodes : element ∈ nodesOf [tree] := by
    rwa [nodesOf_singleton]
  have within : place.tree ∈ inner.walk :=
    Tree.tree_mem_walk_of_mem_lineage present (by rw [split]; simp)
  -- The place is in `inner`, and two children have no node in common.
  have heads : ∀ head, element.firstExpression = some head →
      (head.sameNode inner ↔ place.tree ∈ head.walk) := by
    intro head first
    have below := Tree.mem_children_of_mem_expressions (List.mem_of_head? first)
    have inside := Tree.mem_walk_trans held (Tree.mem_walk_of_mem_children below)
    have innerInside := Tree.mem_walk_trans held (Tree.mem_walk_of_mem_children child)
    constructor
    · intro same
      rwa [Tree.eq_of_sameNode distinct inside innerInside same]
    · intro inHead
      have same := eq_of_mem_walk (distinct_children distinct nodes) below child inHead within
      rw [same]
      exact beq_self_eq_true _
  unfold leadsUp
  rw [Occurrence.parent?, List.head?_cons, Option.any_some, Tree.sameNode, beq_self_eq_true,
    Bool.true_and, Bool.not_eq_true', Bool.and_eq_false_imp, beq_iff_eq]
  refine imp_congr_right fun _ => ?_
  cases first : element.firstExpression with
  | none => simp
  | some head =>
    rw [Option.any_some, ← Bool.not_eq_true, heads head first]
    simp

/-- An element declares all its symbols for the nodes that it reaches, and none for others. -/
theorem declarations_eq (table : ConstructTable) (distinct : (birthsOf [tree]).Nodup)
    (present : place ∈ tree.occurrences)
    (split : place.lineage = before ++ inner :: element :: after) :
    (table.Reaches element place.tree →
      table.declarations element ⟨inner, element :: after⟩ place
        = element.localizedSymbols (table.classify element)) ∧
    (¬table.Reaches element place.tree →
      table.declarations element ⟨inner, element :: after⟩ place = []) := by
  have occurs := Tree.mem_occurrences_of_lineage_eq present split
  have held := (Tree.of_parent?_eq_some occurs rfl).1
  have up := leadsUp_iff distinct present split
  have initial := isInInitialValue_iff distinct present held
  unfold declarations declaredIn
  constructor
  · intro reaches
    rw [if_pos (up.mpr reaches.head), if_neg reaches.construct, if_neg]
    intro excluded
    obtain ⟨initializes, inside⟩ := (Bool.and_eq_true _ _).mp excluded
    obtain ⟨value, among, within⟩ := initial.mp inside
    exact reaches.initial initializes value among within
  · intro unreached
    split
    · next leads =>
      split
      · rfl
      · next construct =>
        split
        · rfl
        · next outside =>
          refine absurd ⟨construct, up.mp leads, fun initializes value among within => ?_⟩ unreached
          exact outside (Bool.and_eq_true_iff.mpr
            ⟨initializes, initial.mpr ⟨value, among, within⟩⟩)
    · rfl

/-- An element gives a name its meaning if it reaches the place and declares the name. -/
theorem declares?_eq_some_iff (distinct : (birthsOf [tree]).Nodup)
    (present : place ∈ tree.occurrences)
    (split : place.lineage = before ++ inner :: element :: after) :
    table.declares? name element ⟨inner, element :: after⟩ place = some symbol ↔
      table.Reaches element place.tree ∧
        (element.localizedSymbols (table.classify element)).find?
          (fun symbol => symbol.text == name) = some symbol := by
  obtain ⟨reached, unreached⟩ := declarations_eq table distinct present split
  unfold declares?
  by_cases reaches : table.Reaches element place.tree
  · rw [reached reaches, and_iff_right reaches]
  · rw [unreached reaches]
    exact iff_of_false (fun none => by cases none) fun found => reaches found.1

/-- An element does not give a name its meaning if it does not declare it, or does not reach the
place. -/
theorem declares?_eq_none_iff (distinct : (birthsOf [tree]).Nodup)
    (present : place ∈ tree.occurrences)
    (split : place.lineage = before ++ inner :: element :: after) :
    table.declares? name element ⟨inner, element :: after⟩ place = none ↔
      (table.Reaches element place.tree →
        ∀ symbol ∈ element.localizedSymbols (table.classify element), symbol.text ≠ name) := by
  obtain ⟨reached, unreached⟩ := declarations_eq table distinct present split
  unfold declares?
  by_cases reaches : table.Reaches element place.tree
  · rw [reached reaches, imp_iff_right reaches, List.find?_eq_none]
    simp
  · rw [unreached reaches]
    exact ⟨fun _ reaching => absurd reaching reaches, fun _ => rfl⟩

/-- The meaning that a name gets from the trees around it comes from the innermost one that reaches
it and declares the name. -/
theorem of_declarationAround_eq_some (distinct : (birthsOf [tree]).Nodup)
    (present : place ∈ tree.occurrences) {resolution : Resolution}
    (found : table.declarationAround name place place.tree place.ancestors = some resolution) :
    ∃ below scope above definition, place.ancestors = below ++ scope :: above ∧
      resolution = ⟨definition, some (scope, table.classify scope)⟩ ∧
      table.Reaches scope place.tree ∧
      definition ∈ scope.localizedSymbols (table.classify scope) ∧ definition.text = name ∧
      ∀ between ∈ below, table.Reaches between place.tree →
        ∀ symbol ∈ between.localizedSymbols (table.classify between), symbol.text ≠ name := by
  obtain ⟨below, scope, above, definition, around, same, ⟨before, inner, split, declares⟩,
    silent⟩ := exists_of_declarationAround found
  have lineage : ∀ {upTo after : List StampedTree} {element : StampedTree},
      place.ancestors = upTo ++ element :: after → ∀ {before inner},
        place.tree :: upTo = before ++ [inner] →
          place.lineage = before ++ inner :: element :: after := by
    intro upTo after element whole before inner last
    rw [Occurrence.lineage, whole, ← List.cons_append, last, List.append_assoc]
    rfl
  obtain ⟨reaches, declared⟩ :=
    (declares?_eq_some_iff distinct present (lineage around split)).mp declares
  refine ⟨below, scope, above, definition, around, same, reaches,
    List.mem_of_find?_eq_some declared, eq_of_beq (List.find?_some declared :),
    fun between among => ?_⟩
  obtain ⟨early, late, rfl⟩ := List.append_of_mem among
  obtain ⟨before, inner, split, undeclared⟩ := silent early between late rfl
  rw [List.append_assoc, List.cons_append] at around
  exact (declares?_eq_none_iff distinct present (lineage around split)).mp undeclared

/-- If no meaning is found on the way up, no tree around the name that reaches it declares it. -/
theorem of_declarationAround_eq_none (distinct : (birthsOf [tree]).Nodup)
    (present : place ∈ tree.occurrences)
    (none : table.declarationAround name place place.tree place.ancestors = none)
    (above : element ∈ place.ancestors) (reaches : table.Reaches element place.tree) :
    ∀ symbol ∈ element.localizedSymbols (table.classify element), symbol.text ≠ name := by
  -- The search comes to the element from the tree in front of it in the lineage.
  obtain ⟨early, late, split⟩ := List.append_of_mem above
  obtain ⟨before, inner, last⟩ : ∃ before inner, place.tree :: early = before ++ [inner] :=
    ⟨_, _, (List.dropLast_concat_getLast (List.cons_ne_nil _ _)).symm⟩
  have lineage : place.lineage = before ++ inner :: element :: late := by
    rw [Occurrence.lineage, split, ← List.cons_append, last, List.append_assoc]
    rfl
  have undeclared := declares?_eq_none_of_around none lineage
  exact (declares?_eq_none_iff distinct present lineage).mp undeclared reaches

/-- What an element declares stands where its declarations hold. -/
theorem reaches_of_mem_localizedSymbols (distinct : (birthsOf [element]).Nodup)
    (proper : element.Everywhere Tree.IsProper) (construct : table.classify element ≠ .null)
    (declared : symbol ∈ element.localizedSymbols (table.classify element)) :
    table.Reaches element symbol := by
  refine ⟨construct, fun call head first inHead => ?_, fun initializes value among => ?_⟩
  · have within := (Tree.isSelection_of_call proper call table).ordered.subset declared
    obtain ⟨argument, among, inside⟩ := List.mem_flatMap.mp within
    refine ne_of_expressions distinct first among ?_
    exact eq_of_mem_walk (distinct_expressions distinct) (List.mem_of_head? first)
      (List.mem_of_mem_tail among) inHead inside
  · exact not_mem_walk_of_mem_initialValues distinct initializes declared among

/-- A symbol that a construct declares is local to it, or to a construct in it and around the
symbol. -/
theorem resolve_of_mem_localizedSymbols (distinct : (birthsOf [tree]).Nodup)
    (proper : tree.Everywhere Tree.IsProper) (present : place ∈ tree.occurrences)
    (held : element ∈ tree.walk) (construct : table.classify element ≠ .null)
    (declared : place.tree ∈ element.localizedSymbols (table.classify element)) :
    ∃ definition scope,
      table.resolve place = some ⟨definition, some (scope, table.classify scope)⟩ ∧
        table.classify scope ≠ .null ∧ scope ∈ element.walk ∧ scope ∈ place.ancestors := by
  have own : (birthsOf [element]).Nodup := distinct_node distinct (nodesOf_singleton tree ▸ held)
  have reaches := reaches_of_mem_localizedSymbols own (proper.within held) construct declared
  have below := (Tree.isSelection_localizedSymbols (proper.within held) _).ordered.subset declared
  have around := Tree.mem_ancestors_of_below distinct present held below
  unfold resolve
  cases found : table.declarationAround place.tree.text place place.tree place.ancestors with
  | none =>
    exact absurd rfl
      (of_declarationAround_eq_none distinct present found around reaches place.tree declared)
  | some resolution =>
    obtain ⟨between, scope, above, definition, split, rfl, scopeReaches, _, _, silent⟩ :=
      of_declarationAround_eq_some distinct present found
    refine ⟨definition, scope, rfl, scopeReaches.construct, ?_, ?_⟩
    · have lineage : place.lineage = (place.tree :: between) ++ scope :: above := by
        rw [Occurrence.lineage, split]
        rfl
      have occurs := Tree.mem_occurrences_of_lineage_eq present lineage
      refine Tree.tree_mem_walk_of_mem_lineage occurs ?_
      rw [split] at around
      refine (List.mem_append.mp around).resolve_left fun inside => ?_
      exact silent element inside reaches place.tree declared rfl
    · rw [split]
      exact List.mem_append_right _ List.mem_cons_self

/-- Whatever a name is resolved to is a symbol of the tree with that name. If it is local, it is
declared by the innermost tree around the name that reaches it and declares it. -/
theorem of_resolve_eq_some (distinct : (birthsOf [tree]).Nodup)
    (proper : tree.Everywhere Tree.IsProper) (present : place ∈ tree.occurrences)
    {resolution : Resolution} (found : table.resolve place = some resolution) :
    resolution.definition ∈ tree.walk ∧ resolution.definition.kind = .symbol ∧
      resolution.definition.text = place.tree.text ∧
      ∀ scope construct, resolution.scope = some (scope, construct) →
        construct = table.classify scope ∧ table.Reaches scope place.tree ∧
        resolution.definition ∈ scope.localizedSymbols construct ∧
        resolution.definition ∈ scope.children.flatMap Tree.walk ∧
        ∃ below above, place.ancestors = below ++ scope :: above ∧
          ∀ between ∈ below, table.Reaches between place.tree →
            ∀ symbol ∈ between.localizedSymbols (table.classify between),
              symbol.text ≠ place.tree.text := by
  unfold resolve at found
  cases around : table.declarationAround place.tree.text place place.tree place.ancestors with
  | none =>
    rw [around, Option.none_or, Tree.root_of_mem_occurrences present] at found
    obtain ⟨definition, global, rfl⟩ := Option.map_eq_some_iff.mp found
    have symbol := Tree.isSymbolIn_of_globalDefinition? global
    refine ⟨symbol.inside, symbol.kind proper, Tree.text_of_globalDefinition? global, ?_⟩
    intro scope construct isScope
    cases isScope
  | some meaning =>
    rw [around, Option.some_or] at found
    cases found
    obtain ⟨below, scope, above, definition, split, rfl, reaches, declared, text, silent⟩ :=
      of_declarationAround_eq_some distinct present around
    have held : scope ∈ tree.walk := by
      refine (Tree.mem_walk_of_mem_lineage present ?_).resolve_right List.not_mem_nil
      rw [Occurrence.lineage, split]
      exact List.mem_cons_of_mem _ (List.mem_append_right _ List.mem_cons_self)
    have selection := Tree.isSelection_localizedSymbols (proper.within held) (table.classify scope)
    have inside := selection.ordered.subset declared
    refine ⟨?_, selection.kind definition declared, text, ?_⟩
    · refine Tree.mem_walk_trans held ?_
      rw [Tree.walk_eq]
      exact List.mem_cons_of_mem _ inside
    · intro _ _ isScope
      cases isScope
      exact ⟨rfl, reaches, declared, inside, below, above, split, silent⟩

end ConstructTable

/-! ## Trees that were read -/

namespace SyntaxTree

/-- A node that conforms holds only what it may hold. -/
theorem isProper_of_conforms {node : SyntaxTree} (conforms : node.Conforms) : node.IsProper := by
  intro child among
  unfold NodeKind.mayHold
  split
  · next leaf =>
    obtain ⟨token, rfl⟩ := conforms.leaf leaf
    cases among
  split
  · next symbol =>
    obtain ⟨token, _, children⟩ := conforms.atom .identifier (by rw [symbol]; rfl)
    rw [children] at among
    rw [List.mem_singleton.mp among]
    exact isLeaf_leaf token
  split
  · next blank =>
    cases leaf : child.isLeaf with
    | true => exact Bool.or_eq_true_iff.mpr (.inl leaf)
    | false =>
      have operand : child ∈ node.expressions := List.mem_filter.mpr ⟨among, by simp [leaf]⟩
      obtain ⟨number, found⟩ := List.mem_iff_getElem?.mp operand
      have holds := conforms.operands number child found
      refine Bool.or_eq_true_iff.mpr (.inr ?_)
      generalize node.kind = kind at blank holds
      cases kind <;> first | exact holds | cases blank
  · rfl

theorem kind_stampFrom (tree : SyntaxTree) (clock : Nat) :
    (tree.stampFrom clock).1.kind = tree.kind := by
  cases tree
  rfl

/-- A condition on nodes that does not depend on their stamps holds everywhere in a stamped tree. -/
theorem everywhere_stampFrom {condition : SyntaxTree → Prop} {stamped : StampedTree → Prop}
    (keeps : ∀ node clock, condition node → stamped (stampFrom clock node).1) {tree : SyntaxTree}
    (everywhere : tree.Everywhere condition) (clock : Nat) :
    (tree.stampFrom clock).1.Everywhere stamped := by
  induction tree using Tree.induct generalizing clock with
  | node label content children ih =>
    have root := keeps _ clock everywhere.root
    rw [stampFrom] at root ⊢
    refine Tree.everywhere_node.mpr ⟨root, fun child present => ?_⟩
    obtain ⟨original, among, before, rfl⟩ := exists_of_mem_stampAllFrom present
    exact ih original among (everywhere.child among) before

theorem everywhere_isProper_stampFrom {tree : SyntaxTree} (proper : tree.Everywhere Tree.IsProper)
    (clock : Nat) : (tree.stampFrom clock).1.Everywhere Tree.IsProper := by
  refine everywhere_stampFrom (fun node clock proper => ?_) proper clock
  obtain ⟨label, content, children⟩ := node
  intro child present
  rw [stampFrom] at present
  obtain ⟨original, among, before, rfl⟩ := exists_of_mem_stampAllFrom present
  rw [kind_stampFrom, kind_stampFrom]
  exact proper original among

end SyntaxTree

namespace Classifier

/-- What a construct of a tree declares are symbols below it, in document order. Each of them is
local to the construct, or to one in it and around the symbol. Whatever a name of the tree is
resolved to is a symbol of the tree with that name. If it is local to a construct, the construct is
the innermost one around the name that reaches it and declares the name, and what it declares is
the definition. -/
theorem resolves_as_declared {grammar : Grammar} {tokens : List Token} {tree : SyntaxTree}
    (parsed : parseTokens grammar tokens = .ok tree) (table : ConstructTable) :
    (∀ scope ∈ tree.stamped.walk, table.classify scope ≠ .null →
      (scope.localizedSymbols (table.classify scope)).Sublist (scope.children.flatMap Tree.walk) ∧
      ∀ symbol ∈ scope.localizedSymbols (table.classify scope), symbol.kind = .symbol ∧
        ∀ place ∈ tree.stamped.occurrences, place.tree = symbol →
          ∃ definition inner, ((ofTable table).resolve place).1
              = some ⟨definition, some (inner, table.classify inner)⟩ ∧
            table.classify inner ≠ .null ∧ inner ∈ scope.walk ∧ inner ∈ place.ancestors) ∧
    ∀ place ∈ tree.stamped.occurrences, place.tree.kind = .symbol →
      ∀ resolution, ((ofTable table).resolve place).1 = some resolution →
        resolution.definition ∈ tree.stamped.walk ∧ resolution.definition.kind = .symbol ∧
        resolution.definition.text = place.tree.text ∧
        ∀ scope construct, resolution.scope = some (scope, construct) →
          construct = table.classify scope ∧ table.Reaches scope place.tree ∧
          resolution.definition ∈ scope.localizedSymbols construct ∧
          resolution.definition ∈ scope.children.flatMap Tree.walk ∧
          ∃ below above, place.ancestors = below ++ scope :: above ∧
            ∀ between ∈ below, table.Reaches between place.tree →
              ∀ symbol ∈ between.localizedSymbols (table.classify between),
                symbol.text ≠ place.tree.text := by
  have distinct : (StampedTree.birthsOf [tree.stamped]).Nodup :=
    (SyntaxTree.isDated_plant tree).distinct
  have proper : tree.stamped.Everywhere Tree.IsProper :=
    SyntaxTree.everywhere_isProper_stampFrom
      ((everywhere_conforms_of_parseTokens parsed).mono fun _ => SyntaxTree.isProper_of_conforms) 0
  refine ⟨fun scope inside construct => ?_, fun place present _ resolution found => ?_⟩
  · have selection := Tree.isSelection_localizedSymbols (proper.within inside)
      (table.classify scope)
    refine ⟨selection.ordered, fun symbol declared => ⟨selection.kind symbol declared, ?_⟩⟩
    rintro place present rfl
    rw [resolve_ofTable table present]
    exact table.resolve_of_mem_localizedSymbols distinct proper present inside construct declared
  · rw [resolve_ofTable table present] at found
    exact table.of_resolve_eq_some distinct proper present found

/-- The variable of a call is declared with an initial value that has its name. -/
theorem resolves_as_declared_by_module :
    let source := "Module[{x := x + y}, f[x, y_ :> y]]"
    parseTokens .standard (tokenize source) = .ok (parseSource .standard source) ∧
      ∃ scope ∈ (parseSource .standard source).stamped.walk,
        ConstructTable.standard.classify scope = .localVariables ∧
        ∃ symbol ∈ scope.localizedSymbols .localVariables, symbol.text = "x" ∧
          symbol.kind = .symbol ∧
          ∃ place ∈ (parseSource .standard source).stamped.occurrences, place.tree = symbol ∧
            ∃ definition inner, ((ofTable .standard).resolve place).1
                = some ⟨definition, some (inner, ConstructTable.standard.classify inner)⟩ ∧
              inner ∈ scope.walk := by
  intro source
  have parsed := parseTokens_tokenize .standard source
  have exists_variable : ∃ scope ∈ (parseSource .standard source).stamped.walk,
      ConstructTable.standard.classify scope = .localVariables ∧
      ∃ symbol ∈ scope.localizedSymbols .localVariables, symbol.text = "x" := by
    decide +kernel
  obtain ⟨scope, inside, construct, symbol, declared, text⟩ := exists_variable
  obtain ⟨ordered, each⟩ := (resolves_as_declared parsed .standard).1 scope inside
    (by rw [construct]; exact Construct.noConfusion)
  rw [construct] at ordered each
  obtain ⟨kind, local'⟩ := each symbol declared
  have below : symbol ∈ scope.walk := by
    rw [Tree.walk_eq]
    exact List.mem_cons_of_mem _ (ordered.subset declared)
  obtain ⟨place, present, same⟩ := Tree.exists_occurrence [] (Tree.mem_walk_trans inside below)
  obtain ⟨definition, inner, resolves, _, within, _⟩ := local' place present same
  exact ⟨parsed, scope, inside, construct, symbol, declared, text, kind, place, present, same,
    definition, inner, resolves, within⟩

end Classifier

end WolframSyntax
