import WolframSyntax.Proofs.Rearranging
import WolframSyntax.Resolve.Symbol

/-!
# What a classifier answers

A classifier whose remembered answers are right for the nodes of a forest (`Classifier.Knows`)
replies as its table says, and it only works out what it does not remember. The replies are given
here as functions of the table, together with the nodes that have to be classified for them, in
order (`Query.asks`). A classifier replies with them and has classified these nodes afterwards
(`Classifier.Knows.reply`).
-/

namespace WolframSyntax

namespace ConstructTable

/-- Whether the search for a declaration goes up from `last` to `element`, and not from the head of
a call. -/
def leadsUp (element : StampedTree) (last : Occurrence Stamp) : Bool :=
  last.parent?.any (fun parent => parent.sameNode element) &&
    !(element.kind == .functionCall &&
      element.firstExpression.any fun head => head.sameNode last.tree)

/-- The symbols that a construct declares for a place in it. -/
def declaredIn (element : StampedTree) (construct : Construct) (place : Occurrence Stamp) :
    List StampedTree :=
  if construct = .null then []
  else if construct.initializes && Classifier.isInInitialValue element place then []
  else element.localizedSymbols construct

variable (table : ConstructTable)

/-- The symbols that `element` declares for `place`. -/
def declarations (element : StampedTree) (last place : Occurrence Stamp) : List StampedTree :=
  if leadsUp element last then declaredIn element (table.classify element) place else []

/-- The nodes that are classified for it. -/
def declarationAsks (element : StampedTree) (last : Occurrence Stamp) : List StampedTree :=
  if leadsUp element last then [element] else []

/-- The first symbol with the given name that `element` declares for `place`. -/
def declares? (name : String) (element : StampedTree) (last place : Occurrence Stamp) :
    Option StampedTree :=
  (table.declarations element last place).find? fun symbol => symbol.text == name

/-- The declaration of `name` for `place` by the trees around `last`. -/
def declarationAround (name : String) (place : Occurrence Stamp) :
    StampedTree → List StampedTree → Option Resolution
  | _, [] => none
  | last, element :: outer =>
    match table.declares? name element ⟨last, element :: outer⟩ place with
    | some definition => some ⟨definition, some (element, table.classify element)⟩
    | none => declarationAround name place element outer

/-- The nodes that are classified for it. The construct that declares the name is asked again. -/
def aroundAsks (name : String) (place : Occurrence Stamp) :
    StampedTree → List StampedTree → List StampedTree
  | _, [] => []
  | last, element :: outer =>
    declarationAsks element ⟨last, element :: outer⟩ ++
      match table.declares? name element ⟨last, element :: outer⟩ place with
      | some _ => [element]
      | none => aroundAsks name place element outer

/-- Where the name of an occurrence gets its meaning. -/
def resolve (place : Occurrence Stamp) : Option Resolution :=
  (table.declarationAround place.tree.text place place.tree place.ancestors).or <|
    (place.root.globalDefinition? place.tree.text).map fun definition => ⟨definition, none⟩

/-- The nodes that are classified for it. -/
def resolveAsks (place : Occurrence Stamp) : List StampedTree :=
  table.aroundAsks place.tree.text place place.tree place.ancestors

end ConstructTable

/-- What is said about the meaning of a name. -/
def Resolution.description (place : Occurrence Stamp) (name : String)
    (resolution? : Option Resolution) : String :=
  let subject := name ++ " at " ++ Classifier.placeText place.tree.position ++ ": "
  match resolution? with
  | none => subject ++ "no definition found"
  | some resolution =>
    let definition := Classifier.placeText resolution.definition.position
    match resolution.scope with
    | some (_, construct) =>
      subject ++ "local to " ++ construct.name ++ ", declared at " ++ definition
    | none => subject ++ "defined at " ++ definition

/-- What can be asked about nodes. -/
inductive Query (Place : Type) where
  | classify (node : Place)
  | isConstruct (node : Place)
  | declarations (element last place : Place)
  | resolve (place : Place)
  | describe (node : Place) (name : String)

/-- The answer to a query. -/
inductive Reply where
  | construct (construct : Construct)
  | verdict (isConstruct : Bool)
  | symbols (symbols : List StampedTree)
  | resolution (resolution : Option Resolution)
  | description (text : String)

/-- The answer of a classifier, and the classifier after it has been asked. -/
def Classifier.reply (classifier : Classifier) : Query (Occurrence Stamp) → Reply × Classifier
  | .classify node => (classifier.classify node.tree).map .construct id
  | .isConstruct node =>
    (classifier.classify node.tree).map (fun construct => .verdict (construct != .null)) id
  | .declarations element last place =>
    (classifier.declarations element.tree last place).map .symbols id
  | .resolve place => (classifier.resolve place).map .resolution id
  | .describe node name => (classifier.describe node name).map .description id

namespace Query

/-- The nodes that a query is about. -/
def nodes {Place : Type} : Query Place → List Place
  | .classify node | .isConstruct node | .resolve node | .describe node _ => [node]
  | .declarations element last place => [element, last, place]

/-- The query about the nodes with the given stamps of birth, if they are all in the forest. -/
def locate? (forest : Forest) : Query Nat → Option (Query (Occurrence Stamp))
  | .classify node => (forest.find? node).map .classify
  | .isConstruct node => (forest.find? node).map .isConstruct
  | .declarations element last place =>
    match forest.find? element, forest.find? last, forest.find? place with
    | some element, some last, some place => some (.declarations element last place)
    | _, _, _ => none
  | .resolve place => (forest.find? place).map .resolve
  | .describe node name => (forest.find? node).map fun node => .describe node name

/-- The nodes that are classified to answer a query, in order. -/
def asks (table : ConstructTable) : Query (Occurrence Stamp) → List StampedTree
  | .classify node | .isConstruct node => [node.tree]
  | .declarations element last _ => ConstructTable.declarationAsks element.tree last
  | .resolve place => table.resolveAsks place
  | .describe node name =>
    match node.findSymbol? name with
    | some place => table.resolveAsks place
    | none => []

/-- The answer to a query by the table alone. -/
def answer (table : ConstructTable) : Query (Occurrence Stamp) → Reply
  | .classify node => .construct (table.classify node.tree)
  | .isConstruct node => .verdict (table.classify node.tree != .null)
  | .declarations element last place => .symbols (table.declarations element.tree last place)
  | .resolve place => .resolution (table.resolve place)
  | .describe node name =>
    match node.findSymbol? name with
    | some place => .description (Resolution.description place name (table.resolve place))
    | none => .description (name ++ ": no such symbol")

end Query

/-! ## What is seen of a forest -/

namespace Tree

/-- What is visible of a list is visible of one of its trees. -/
theorem exists_of_mem_visibleAll {trees : List StampedTree} {tree : StampedTree}
    (present : tree ∈ visibleAll trees) : ∃ inner ∈ trees, inner.visible = tree := by
  rw [visibleAll_eq_map] at present
  obtain ⟨inner, among, same⟩ := List.mem_map.mp present
  exact ⟨inner, (List.mem_filter.mp among).1, same⟩

/-- What is seen below a tree are nodes below it as they are seen. -/
theorem exists_of_mem_walk_visible {tree node : StampedTree} (inside : node ∈ tree.visible.walk) :
    ∃ inner ∈ tree.walk, inner.visible = node := by
  induction tree using Tree.induct with
  | node label content children ih =>
    rw [visible, walk_node] at inside
    rcases List.mem_cons.mp inside with rfl | below
    · exact ⟨_, mem_walk_self _, rfl⟩
    · obtain ⟨shown, among, inner⟩ := List.mem_flatMap.mp below
      obtain ⟨child, present, rfl⟩ := exists_of_mem_visibleAll among
      obtain ⟨inner, below, same⟩ := ih child present inner
      refine ⟨inner, ?_, same⟩
      rw [walk_node]
      exact List.mem_cons_of_mem _ (List.mem_flatMap.mpr ⟨child, present, below⟩)

end Tree

/-- Whether a tree is a node of the forest as it is seen. -/
def Forest.Shows (forest : Forest) (tree : StampedTree) : Prop :=
  ∃ node ∈ forest.nodes, node.visible = tree

/-- Whether an occurrence and all that is around it are nodes of the forest as it is seen. -/
def Forest.Shown (forest : Forest) (place : Occurrence Stamp) : Prop :=
  ∀ tree ∈ place.lineage, forest.Shows tree

namespace Forest

variable {forest : Forest} {tree : StampedTree} {place inner : Occurrence Stamp} {birth : Nat}

/-- In what a dated forest shows the stamp of birth tells the node. -/
theorem IsDated.eq_of_shows (dated : forest.IsDated) {other : StampedTree}
    (first : forest.Shows tree) (second : forest.Shows other) (same : tree.birth = other.birth) :
    tree = other := by
  obtain ⟨node, among, rfl⟩ := first
  obtain ⟨otherNode, present, rfl⟩ := second
  rw [Tree.birth_visible, Tree.birth_visible] at same
  rw [dated.eq_of_birth_eq among present same]

/-- An occurrence that is found is shown, with all around it. -/
theorem shown_of_find? (found : forest.find? birth = some place) : forest.Shown place := by
  obtain ⟨occurrence, held, rfl⟩ := Option.map_eq_some_iff.mp found
  obtain ⟨present, _⟩ := of_place?_eq_some held
  intro tree above
  have above : tree ∈ occurrence.lineage.map Tree.visible := above
  obtain ⟨node, among, rfl⟩ := List.mem_map.mp above
  exact ⟨node, mem_nodes_of_mem_lineage present among, rfl⟩

/-- All nodes of a query that is located are shown. -/
theorem shown_of_locate? {query : Query Nat} {located : Query (Occurrence Stamp)}
    (found : query.locate? forest = some located) : ∀ node ∈ located.nodes, forest.Shown node := by
  cases query with
  | classify node | isConstruct node | resolve node | describe node name =>
    obtain ⟨place, held, rfl⟩ := Option.map_eq_some_iff.mp found
    exact List.forall_mem_singleton.mpr (shown_of_find? held)
  | declarations element last place =>
    dsimp only [Query.locate?] at found
    split at found
    · next element last place first second third =>
      cases found
      exact List.forall_mem_cons.mpr ⟨shown_of_find? first, List.forall_mem_cons.mpr
        ⟨shown_of_find? second, List.forall_mem_singleton.mpr (shown_of_find? third)⟩⟩
    · cases found

/-- What is below a shown node is shown. -/
theorem Shows.below (shown : forest.Shows tree) {node : StampedTree} (inside : node ∈ tree.walk) :
    forest.Shows node := by
  obtain ⟨outer, present, rfl⟩ := shown
  obtain ⟨inner, below, rfl⟩ := Tree.exists_of_mem_walk_visible inside
  exact ⟨inner, StampedTree.mem_nodesOf_trans present below, rfl⟩

/-- A symbol found below a shown occurrence is shown. -/
theorem Shown.findSymbol? (shown : forest.Shown place) {name : String}
    (found : place.findSymbol? name = some inner) : forest.Shown inner := by
  intro tree above
  rcases Tree.mem_walk_of_mem_lineage (List.mem_of_find?_eq_some found) above with below | outer
  · exact (shown place.tree List.mem_cons_self).below below
  · exact shown tree (List.mem_cons_of_mem _ outer)

end Forest

/-! ## Asking a classifier -/

namespace Classifier

variable {classifier before middle after : Classifier} {tree other : StampedTree}
  {construct : Construct} {forest : Forest} {table : ConstructTable}

/-- The classifier with an empty journal. -/
def forget (classifier : Classifier) : Classifier := { classifier with journal := [] }

/-- The classifier after some nodes have been classified one after another. -/
def classifyAll (classifier : Classifier) (trees : List StampedTree) : Classifier :=
  trees.foldl (fun classifier tree => (classifier.classify tree).2) classifier

/-- A classifier that remembers an answer has it, and those about other nodes as before. -/
theorem answer?_remember (classifier : Classifier) (tree : StampedTree) (construct : Construct)
    (birth : Nat) :
    (classifier.remember tree construct).answer? birth
      = if tree.birth = birth then some ⟨tree.birth, tree.version, construct⟩
        else classifier.answer? birth := by
  by_cases same : tree.birth = birth
  · rw [if_pos same]
    exact List.find?_cons_of_pos (by simpa using same)
  · rw [if_neg same]
    change List.find? _ (_ :: _) = _
    rw [List.find?_cons_of_neg (by simpa using same), List.find?_filter]
    apply congrArg (List.find? · classifier.answers)
    funext answer
    by_cases own : answer.birth = birth
    · simp [own, Ne.symm same]
    · simp [own]

/-- What a classifier says of a node depends on its answer about the node alone. -/
theorem current?_of_answer?_eq {left right : Classifier}
    (same : left.answer? tree.birth = right.answer? tree.birth) :
    left.current? tree = right.current? tree := by
  rw [current?, current?, same]

/-- A node that has just been classified need not be classified again. -/
theorem current?_classify_self (classifier : Classifier) (tree : StampedTree) :
    (classifier.classify tree).2.current? tree = some (classifier.classify tree).1 := by
  unfold classify
  cases known : classifier.current? tree with
  | some construct => exact known
  | none =>
    change (classifier.remember tree _).current? tree = _
    rw [current?, answer?_remember, if_pos rfl]
    exact if_pos rfl

/-- To classify one node changes nothing about another one. -/
theorem current?_classify_of_ne (classifier : Classifier) (apart : tree.birth ≠ other.birth) :
    (classifier.classify tree).2.current? other = classifier.current? other := by
  unfold classify
  cases classifier.current? tree with
  | some construct => rfl
  | none =>
    apply current?_of_answer?_eq
    change (classifier.remember tree _).answer? other.birth = _
    rw [answer?_remember, if_neg apart]

theorem table_classify (classifier : Classifier) (tree : StampedTree) :
    (classifier.classify tree).2.table = classifier.table := by
  unfold classify
  cases classifier.current? tree <;> rfl

/-- What a classifier remembers of the nodes of a forest is right. -/
structure Knows (forest : Forest) (table : ConstructTable) (classifier : Classifier) : Prop where
  tabled : classifier.table = table
  right : ∀ tree, forest.Shows tree → ∀ construct, classifier.current? tree = some construct →
    construct = table.classify tree

/-- A new classifier remembers nothing wrong. -/
theorem knows_ofTable (forest : Forest) (table : ConstructTable) :
    (ofTable table).Knows forest table :=
  ⟨rfl, fun _ _ _ held => by cases held⟩

/-- A classifier that knows a forest gives the answer of the table. -/
theorem Knows.classify_fst (knows : classifier.Knows forest table) (shown : forest.Shows tree) :
    (classifier.classify tree).1 = table.classify tree := by
  unfold classify
  cases known : classifier.current? tree with
  | some construct => exact knows.right tree shown construct known
  | none => exact congrArg (fun table : ConstructTable => table.classify tree) knows.tabled

/-- A classifier knows the forest after it has classified one of its nodes. -/
theorem Knows.classify (knows : classifier.Knows forest table) (dated : forest.IsDated)
    (shown : forest.Shows tree) : (classifier.classify tree).2.Knows forest table := by
  refine ⟨(classifier.table_classify tree).trans knows.tabled, ?_⟩
  intro other present construct held
  by_cases same : tree.birth = other.birth
  · obtain rfl := dated.eq_of_shows shown present same
    rw [current?_classify_self] at held
    cases held
    exact knows.classify_fst shown
  · rw [current?_classify_of_ne classifier same] at held
    exact knows.right other present construct held

/-- A classifier knows the forest whatever its journal says. -/
theorem Knows.of_forget_eq (knows : before.Knows forest table)
    (same : after.forget = before.forget) : after.Knows forest table := by
  cases before
  cases after
  simp only [forget, Classifier.mk.injEq] at same
  obtain ⟨rfl, rfl, rfl, _⟩ := same
  exact ⟨knows.tabled, knows.right⟩

/-- After some nodes have been classified, only the journal may say more than that. -/
def Asked (before : Classifier) (trees : List StampedTree) (after : Classifier) : Prop :=
  after.forget = (before.classifyAll trees).forget

/-- What a classifier remembers does not depend on its journal. -/
theorem forget_classify {left right : Classifier} (same : left.forget = right.forget)
    (tree : StampedTree) : (left.classify tree).2.forget = (right.classify tree).2.forget := by
  obtain ⟨table, answers, recomputations, journal⟩ := left
  obtain ⟨_, _, _, other⟩ := right
  simp only [forget, Classifier.mk.injEq] at same
  obtain ⟨rfl, rfl, rfl, _⟩ := same
  have seen : current? ⟨table, answers, recomputations, other⟩ tree
      = current? ⟨table, answers, recomputations, journal⟩ tree := rfl
  unfold classify
  rw [seen]
  cases current? ⟨table, answers, recomputations, journal⟩ tree <;> rfl

/-- What a classifier remembers after some nodes does not depend on its journal. -/
theorem forget_classifyAll {left right : Classifier} (same : left.forget = right.forget)
    (trees : List StampedTree) :
    (left.classifyAll trees).forget = (right.classifyAll trees).forget := by
  induction trees generalizing left right with
  | nil => exact same
  | cons tree trees ih => exact ih (forget_classify same tree)

/-- Two lists of nodes that are asked for one after the other are asked for as one. -/
theorem Asked.append {first second : List StampedTree} (asked : before.Asked first middle)
    (later : middle.Asked second after) : before.Asked (first ++ second) after := by
  rw [Asked, classifyAll, List.foldl_append]
  exact later.trans (forget_classifyAll asked second)

/-- A classifier knows the forest after it has classified some of its nodes. -/
theorem Knows.classifyAll (knows : classifier.Knows forest table) (dated : forest.IsDated)
    {trees : List StampedTree} (shown : ∀ tree ∈ trees, forest.Shows tree) :
    (classifier.classifyAll trees).Knows forest table := by
  induction trees generalizing classifier with
  | nil => exact knows
  | cons tree trees ih =>
    obtain ⟨first, rest⟩ := List.forall_mem_cons.mp shown
    exact ih (knows.classify dated first) rest

/-- A classifier knows the forest after some of its nodes are asked for. -/
theorem Knows.of_asked (knows : before.Knows forest table) (dated : forest.IsDated)
    {trees : List StampedTree} (shown : ∀ tree ∈ trees, forest.Shows tree)
    (asked : before.Asked trees after) : after.Knows forest table :=
  (knows.classifyAll dated shown).of_forget_eq asked

/-! ## The answers of a classifier -/

variable {element last : StampedTree} {place inner : Occurrence Stamp} {name : String}

/-- A declaration is looked for by one classification or none. -/
theorem declarations_eq (classifier : Classifier) (element : StampedTree)
    (inner place : Occurrence Stamp) :
    classifier.declarations element inner place =
      if ConstructTable.leadsUp element inner then
        (ConstructTable.declaredIn element (classifier.classify element).1 place,
          (classifier.classify element).2)
      else ([], classifier) := by
  unfold declarations ConstructTable.leadsUp ConstructTable.declaredIn
  dsimp only
  cases inner.parent?.any fun parent => parent.sameNode element with
  | false => rfl
  | true =>
    cases element.kind == .functionCall &&
        element.firstExpression.any fun head => head.sameNode inner.tree with
    | true => rfl
    | false =>
      simp only [Bool.not_true, Bool.or_self, Bool.false_eq_true, if_false, Bool.not_false,
        Bool.and_self, if_true]
      split
      · rfl
      · split <;> rfl

/-- A classifier that knows the forest finds the declarations of the table. -/
theorem Knows.declarations (knows : classifier.Knows forest table) (shown : forest.Shows element)
    (inner place : Occurrence Stamp) :
    (classifier.declarations element inner place).1 = table.declarations element inner place ∧
      classifier.Asked (ConstructTable.declarationAsks element inner)
        (classifier.declarations element inner place).2 := by
  rw [declarations_eq, ConstructTable.declarations, ConstructTable.declarationAsks]
  split
  · rw [knows.classify_fst shown]
    exact ⟨rfl, rfl⟩
  · exact ⟨rfl, rfl⟩

/-- What is asked for about declarations is shown. -/
theorem shows_of_mem_declarationAsks (shown : forest.Shows element) :
    ∀ tree ∈ ConstructTable.declarationAsks element inner, forest.Shows tree := by
  unfold ConstructTable.declarationAsks
  split
  · exact List.forall_mem_singleton.mpr shown
  · exact List.forall_mem_nil _

/-- A classifier that knows the forest finds the declaration around an occurrence. -/
theorem Knows.declarationAround (knows : classifier.Knows forest table) (dated : forest.IsDated)
    (name : String) (place : Occurrence Stamp) {outer : List StampedTree} (last : StampedTree)
    (shown : ∀ tree ∈ outer, forest.Shows tree) :
    (classifier.declarationAround name place last outer).1
        = table.declarationAround name place last outer ∧
      classifier.Asked (table.aroundAsks name place last outer)
        (classifier.declarationAround name place last outer).2 := by
  induction outer generalizing classifier last with
  | nil => exact ⟨rfl, rfl⟩
  | cons element outer ih =>
    obtain ⟨first, rest⟩ := List.forall_mem_cons.mp shown
    obtain ⟨same, asked⟩ := knows.declarations first ⟨last, element :: outer⟩ place
    have later := knows.of_asked dated (shows_of_mem_declarationAsks first) asked
    unfold Classifier.declarationAround ConstructTable.declarationAround ConstructTable.aroundAsks
      ConstructTable.declares?
    dsimp only
    rw [same]
    cases (table.declarations element ⟨last, element :: outer⟩ place).find? _ with
    | some definition =>
      dsimp only
      rw [later.classify_fst first]
      exact ⟨rfl, asked.append rfl⟩
    | none =>
      obtain ⟨same, more⟩ := ih later element rest
      exact ⟨same, asked.append more⟩

/-- What is asked for around an occurrence is shown. -/
theorem shows_of_mem_aroundAsks {outer : List StampedTree} (last : StampedTree)
    (shown : ∀ tree ∈ outer, forest.Shows tree) :
    ∀ tree ∈ table.aroundAsks name place last outer, forest.Shows tree := by
  induction outer generalizing last with
  | nil => exact List.forall_mem_nil _
  | cons element outer ih =>
    obtain ⟨first, rest⟩ := List.forall_mem_cons.mp shown
    rw [ConstructTable.aroundAsks]
    refine List.forall_mem_append.mpr ⟨shows_of_mem_declarationAsks first, ?_⟩
    split
    · exact List.forall_mem_singleton.mpr first
    · exact ih element rest

/-- A classifier that knows the forest resolves a name as the table does. -/
theorem Knows.resolve (knows : classifier.Knows forest table) (dated : forest.IsDated)
    (shown : forest.Shown place) :
    (classifier.resolve place).1 = table.resolve place ∧
      classifier.Asked (table.resolveAsks place) (classifier.resolve place).2 := by
  obtain ⟨same, asked⟩ := knows.declarationAround dated place.tree.text place place.tree
    (List.forall_mem_cons.mp shown).2
  unfold Classifier.resolve ConstructTable.resolve ConstructTable.resolveAsks
  dsimp only
  rw [← same]
  generalize classifier.declarationAround _ _ _ _ = result at asked ⊢
  obtain ⟨found, after⟩ := result
  cases found with
  | some resolution => exact ⟨rfl, asked⟩
  | none =>
    cases place.root.globalDefinition? place.tree.text with
    | some definition => exact ⟨rfl, asked⟩
    | none => exact ⟨rfl, asked⟩

/-- A description is that of the resolution. -/
theorem describe_of_findSymbol? (classifier : Classifier)
    (found : place.findSymbol? name = some inner) :
    classifier.describe place name
      = ((classifier.resolve inner).map (Resolution.description inner name) id) := by
  unfold describe Resolution.description
  rw [found]
  dsimp only
  cases classifier.resolve inner with
  | mk resolution? after =>
    cases resolution? with
    | none => rfl
    | some resolution =>
      obtain ⟨definition, scope⟩ := resolution
      cases scope <;> rfl

/-- A classifier that knows the forest replies as its table says, and it classifies the nodes for
that which are needed. -/
theorem Knows.reply (knows : classifier.Knows forest table) (dated : forest.IsDated)
    {query : Query (Occurrence Stamp)} (shown : ∀ node ∈ query.nodes, forest.Shown node) :
    (classifier.reply query).1 = query.answer table ∧
      classifier.Asked (query.asks table) (classifier.reply query).2 := by
  have first : ∀ node ∈ query.nodes, forest.Shows node.tree :=
    fun node among => shown node among node.tree List.mem_cons_self
  cases query with
  | classify node =>
    exact ⟨congrArg Reply.construct (knows.classify_fst (first node List.mem_cons_self)), rfl⟩
  | isConstruct node =>
    have same := knows.classify_fst (first node List.mem_cons_self)
    exact ⟨congrArg (fun construct => Reply.verdict (construct != Construct.null)) same, rfl⟩
  | declarations element last place =>
    obtain ⟨same, asked⟩ := knows.declarations (first element List.mem_cons_self) last place
    exact ⟨congrArg Reply.symbols same, asked⟩
  | resolve place =>
    obtain ⟨same, asked⟩ := knows.resolve dated (shown place List.mem_cons_self)
    exact ⟨congrArg Reply.resolution same, asked⟩
  | describe node name =>
    unfold Classifier.reply Query.answer Query.asks
    dsimp only
    cases found : node.findSymbol? name with
    | none =>
      unfold describe
      rw [found]
      exact ⟨rfl, rfl⟩
    | some place =>
      obtain ⟨same, asked⟩ :=
        knows.resolve dated ((shown node List.mem_cons_self).findSymbol? found)
      have text : Resolution.description place name (classifier.resolve place).1
          = Resolution.description place name (table.resolve place) := by rw [same]
      rw [describe_of_findSymbol? classifier found]
      exact ⟨congrArg Reply.description text, asked⟩

/-- What a query asks for is shown. -/
theorem shows_of_mem_asks {query : Query (Occurrence Stamp)}
    (shown : ∀ node ∈ query.nodes, forest.Shown node) :
    ∀ tree ∈ query.asks table, forest.Shows tree := by
  have around : ∀ place, forest.Shown place →
      ∀ tree ∈ table.resolveAsks place, forest.Shows tree :=
    fun place shown => shows_of_mem_aroundAsks place.tree (List.forall_mem_cons.mp shown).2
  have first := fun node (among : node ∈ query.nodes) => List.forall_mem_cons.mp (shown node among)
  cases query with
  | classify node | isConstruct node =>
    exact List.forall_mem_singleton.mpr (first node List.mem_cons_self).1
  | declarations element last place =>
    exact shows_of_mem_declarationAsks (first element List.mem_cons_self).1
  | resolve place => exact around place (shown place List.mem_cons_self)
  | describe node name =>
    unfold Query.asks
    dsimp only
    split
    · next place found => exact around place ((shown node List.mem_cons_self).findSymbol? found)
    · exact List.forall_mem_nil _

end Classifier

end WolframSyntax
