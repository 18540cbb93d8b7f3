import WolframSyntax.Proofs.Declaring
import WolframSyntax.Proofs.Strays

/-!
# What a local meaning depends on

A name that is local to a construct has its meaning from there, whatever is around the construct. So
the meaning lasts as long as neither the construct nor a node below it is edited: the construct may
be moved or detached, and everything around it may change (`Inquiry.resolve_run_append`). An edit
elsewhere leaves the part of the forest below the construct as it is (`Forest.Keeps`), hence also
the way up from the name to the construct. The search looks beyond the construct in one place only,
when it asks whether the name stands in an initial value, and nothing around a construct is an
initial value of it.
-/

namespace WolframSyntax

open StampedTree

/-! ## The part of a forest below a node -/

namespace Forest

variable {forest after : Forest} {place outer : Occurrence Stamp} {tree value around : StampedTree}
  {node parent scope site : Nat}

/-- The part of a forest below a node is still there: its nodes look as before, and what belonged to
a node of it belongs to it still. -/
structure Keeps (before after : Forest) (scope : Nat) : Prop where
  shows : ∀ tree, before.Shows tree → before.holds scope tree.birth → after.Shows tree
  links : ∀ node parent, before.holds scope parent → before.parentOf? node = some parent →
    after.parentOf? node = some parent

namespace IsDated

/-- What a node of the part holds is in the part. -/
theorem holds_of_contains (dated : forest.IsDated) (present : tree ∈ forest.nodes)
    (held : forest.holds scope tree.birth) (inside : tree.contains site) :
    forest.holds scope site := by
  obtain ⟨place, found, within⟩ := (Option.any_eq_true _ _).mp held
  obtain ⟨_, whole, _⟩ := of_place?_eq_some found
  obtain ⟨other, below, same⟩ := List.any_eq_true.mp within
  obtain rfl := dated.eq_of_birth_eq (mem_nodesOf_trans whole below) present (eq_of_beq same)
  obtain ⟨inner, among, isSite⟩ := List.any_eq_true.mp inside
  rw [holds, found, Option.any_some]
  exact List.any_eq_true.mpr ⟨inner, Tree.mem_walk_trans below among, isSite⟩

/-- An edit that is done leaves the nodes as they are that do not hold the edited one. -/
theorem mem_nodes_after (dated : forest.IsDated) {edit : Edit}
    (done : forest.apply edit = .ok after) (present : tree ∈ forest.nodes)
    (apart : tree.contains edit.parent = false) :
    tree ∈ after.nodes := by
  have births := dated.birthsOf_perm_of_apply done
  obtain ⟨later, stays, same⟩ := List.mem_map.mp (births.mem_iff.mpr (birth_mem_birthsOf present))
  rcases mem_nodes_of_apply dated done stays with ⟨old, _⟩ | ⟨_, before, old, sameBirth, held⟩
  · rwa [← dated.eq_of_birth_eq old present same]
  · rw [dated.eq_of_birth_eq old present (sameBirth.trans same), apart] at held
    cases held

/-- If the nodes of the part are still there, the part is. -/
theorem keeps_of_mem (dated : forest.IsDated) (later : after.IsDated)
    (stays : ∀ tree ∈ forest.nodes, forest.holds scope tree.birth → tree ∈ after.nodes) :
    forest.Keeps after scope := by
  constructor
  · rintro _ ⟨tree, present, rfl⟩ held
    rw [Tree.birth_visible] at held
    exact ⟨tree, stays tree present held, rfl⟩
  · intro node parent held belongs
    obtain ⟨owner, present, rfl, child, below, same⟩ := dated.parentOf?_eq_some_iff.mp belongs
    exact later.parentOf?_eq_some_iff.mpr ⟨owner, stays owner present held, rfl, child, below, same⟩

/-- An edit that is done elsewhere keeps the part. -/
theorem keeps_apply (dated : forest.IsDated) {edit : Edit} (done : forest.apply edit = .ok after)
    (spared : forest.holds scope edit.parent = false) : forest.Keeps after scope := by
  refine dated.keeps_of_mem (dated.apply done) fun tree present held => ?_
  refine dated.mem_nodes_after done present (Bool.eq_false_iff.mpr fun inside => ?_)
  rw [dated.holds_of_contains present held inside] at spared
  cases spared

theorem keeps_plant (dated : forest.IsDated) (tree : SyntaxTree) (scope : Nat) :
    forest.Keeps (forest.plant tree).1 scope := by
  refine dated.keeps_of_mem (dated.grows_plant tree).dated fun node present _ => ?_
  have joined : (forest.plant tree).1.nodes
      = forest.nodes ++ nodesOf [(tree.stampFrom forest.clock).1] :=
    nodesOf_append _ _
  rw [joined]
  exact List.mem_append_left _ present

theorem keeps_make (dated : forest.IsDated) (content : Content) (children : List Nat)
    (scope : Nat) : forest.Keeps (forest.make content children).1 scope := by
  refine dated.keeps_of_mem (dated.grows_make content children).dated fun node present _ => ?_
  obtain ⟨rest, taken, split, made⟩ := dated.exists_make_eq content children
  have among := (nodesOf_perm split).mem_iff.mp present
  rw [nodesOf_append] at among
  rw [made, nodes, nodesOf_append]
  rcases List.mem_append.mp among with kept | moved
  · exact List.mem_append_left _ kept
  · refine List.mem_append_right _ ?_
    rw [nodesOf_singleton]
    exact mem_walk_of_mem_children moved

end IsDated

/-- An edit that is refused keeps all parts. -/
theorem IsRooted.keeps_refused (rooted : forest.IsRooted) {edit : Edit}
    (refused : (forest.edit edit).2.isSome) (scope : Nat) :
    forest.Keeps (forest.edit edit).1 scope := by
  constructor
  · rintro _ ⟨tree, present, rfl⟩ _
    obtain ⟨place, found, seen⟩ := rooted.dated.exists_find?_eq_some present
    have same := rooted.dated.tree_find?_afterRefusal edit tree.birth
    rw [found, Option.map_some, ← fst_edit_of_refused refused] at same
    obtain ⟨later, foundLater, seenLater⟩ := Option.map_eq_some_iff.mp same
    rw [← seen, ← seenLater]
    exact shown_of_find? foundLater _ List.mem_cons_self
  · intro node parent _ belongs
    exact ((rooted.of_refused refused node).2.2 parent).mpr (.inl belongs)

/-! ## The way up to a node -/

/-- An occurrence that is found is that of a node with everything that belongs to it. -/
theorem exists_of_find?_eq_some (found : forest.find? node = some place) :
    ∃ full ∈ forest.occurrences, full.tree.birth = node ∧
      place.lineage = full.lineage.map Tree.visible := by
  obtain ⟨full, held, rfl⟩ := Option.map_eq_some_iff.mp found
  obtain ⟨present, _, same⟩ := of_place?_eq_some held
  exact ⟨full, present, same, rfl⟩

theorem birth_of_find? (found : forest.find? node = some place) : place.tree.birth = node := by
  obtain ⟨full, _, rfl, lineage⟩ := exists_of_find?_eq_some found
  rw [(List.cons.inj lineage).1, Tree.birth_visible]

/-- Each tree of a lineage is found with the trees behind it around it. -/
theorem IsDated.find?_outer (dated : forest.IsDated) (found : forest.find? node = some place)
    {before above : List StampedTree} (split : place.lineage = before ++ tree :: above) :
    forest.find? tree.birth = some ⟨tree, above⟩ := by
  obtain ⟨full, present, _, lineage⟩ := exists_of_find?_eq_some found
  rw [split] at lineage
  obtain ⟨front, rest, whole, _, behind⟩ := List.map_eq_append_iff.mp lineage.symm
  obtain ⟨inner, back, rfl, rfl, rfl⟩ := List.map_eq_cons_iff.mp behind
  obtain ⟨root, among, inside⟩ := List.mem_flatMap.mp present
  have occurs := Tree.mem_occurrences_of_lineage_eq inside whole
  rw [Tree.birth_visible, find?, dated.place?_eq_some_iff.mpr
    ⟨List.mem_flatMap.mpr ⟨root, among, occurs⟩, rfl⟩]
  rfl

theorem IsDated.find?_owner (dated : forest.IsDated) {owner : StampedTree}
    {above : List StampedTree} (found : forest.find? node = some ⟨tree, owner :: above⟩) :
    forest.find? owner.birth = some ⟨owner, above⟩ := by
  have split : Occurrence.lineage ⟨tree, owner :: above⟩ = [tree] ++ owner :: above := rfl
  exact dated.find?_outer found split

/-- What belongs to a node that is found is found below it. -/
theorem IsDated.find?_child (dated : forest.IsDated) (belongs : forest.parentOf? node = some parent)
    (found : forest.find? parent = some outer) :
    ∃ tree, forest.find? node = some (outer.child tree) := by
  obtain ⟨⟨tree, ancestors⟩, foundChild, above⟩ := Option.bind_eq_some_iff.mp belongs
  obtain ⟨owner, first, rfl⟩ := Option.map_eq_some_iff.mp above
  obtain ⟨rest, rfl⟩ := List.head?_eq_some_iff.mp first
  have same := dated.find?_owner foundChild
  rw [found] at same
  cases same
  exact ⟨tree, foundChild⟩

/-- The trees around a node hold it. -/
theorem IsDated.holds_of_mem_lineage (dated : forest.IsDated)
    (found : forest.find? node = some place) (above : tree ∈ place.lineage) :
    forest.holds tree.birth node := by
  obtain ⟨full, present, rfl, lineage⟩ := exists_of_find?_eq_some found
  rw [lineage] at above
  obtain ⟨whole, among, rfl⟩ := List.mem_map.mp above
  obtain ⟨root, _, inside⟩ := List.mem_flatMap.mp present
  rw [Tree.birth_visible, dated.holds_birth (mem_nodes_of_mem_lineage present among)]
  exact List.any_eq_true.mpr
    ⟨full.tree, Tree.tree_mem_walk_of_mem_lineage inside among, beq_self_eq_true _⟩

/-- If the part below a node is kept, everything in it is found at the same place in the part. -/
theorem Keeps.find?_eq_some {top : StampedTree} (keeps : forest.Keeps after top.birth)
    (dated : forest.IsDated) (later : after.IsDated) {ancestors below above : List StampedTree}
    (found : forest.find? node = some ⟨tree, ancestors⟩)
    (split : tree :: ancestors = below ++ top :: above) :
    ∃ outside beyond, after.find? node = some ⟨tree, outside⟩ ∧
      tree :: outside = below ++ top :: beyond := by
  have seen : after.Shows tree := by
    refine keeps.shows tree (shown_of_find? found tree List.mem_cons_self) ?_
    rw [birth_of_find? found]
    refine dated.holds_of_mem_lineage found ?_
    rw [Occurrence.lineage, split]
    exact List.mem_append_right _ List.mem_cons_self
  induction below generalizing node tree ancestors with
  | nil =>
    obtain ⟨rfl, rfl⟩ := List.cons.inj split
    obtain ⟨whole, present, rfl⟩ := seen
    obtain ⟨⟨_, outside⟩, foundLater, rfl⟩ := later.exists_find?_eq_some present
    rw [← birth_of_find? found, Tree.birth_visible]
    exact ⟨outside, outside, foundLater, rfl⟩
  | cons first below ih =>
    obtain ⟨rfl, behind⟩ := List.cons.inj split
    obtain ⟨owner, rest, rfl⟩ : ∃ owner rest, ancestors = owner :: rest :=
      List.exists_cons_of_ne_nil
        (behind ▸ List.append_ne_nil_of_right_ne_nil _ (List.cons_ne_nil _ _))
    have foundOwner := dated.find?_owner found
    have held : forest.holds top.birth owner.birth := by
      refine dated.holds_of_mem_lineage foundOwner ?_
      rw [Occurrence.lineage, behind]
      exact List.mem_append_right _ List.mem_cons_self
    have seenOwner := keeps.shows owner (shown_of_find? foundOwner owner List.mem_cons_self) held
    obtain ⟨outside, beyond, foundLater, same⟩ := ih foundOwner behind seenOwner
    have belongs : forest.parentOf? node = some owner.birth := by
      rw [parentOf?, found]
      rfl
    obtain ⟨other, foundOther⟩ := later.find?_child (keeps.links _ _ held belongs) foundLater
    have whole : other = tree := by
      refine later.eq_of_shows (shown_of_find? foundOther other List.mem_cons_self) seen ?_
      rw [birth_of_find? found]
      exact birth_of_find? foundOther
    subst whole
    exact ⟨owner :: outside, beyond, foundOther, congrArg (List.cons other) same⟩

/-- Nothing around a node is in it. -/
theorem IsDated.sameNode_eq_false (dated : forest.IsDated) (found : forest.find? node = some place)
    (inside : value ∈ place.tree.walk) (above : around ∈ place.ancestors) :
    value.sameNode around = false := by
  obtain ⟨full, held, rfl⟩ := Option.map_eq_some_iff.mp found
  obtain ⟨present, _, _⟩ := of_place?_eq_some held
  obtain ⟨inner, within, rfl⟩ := Tree.exists_of_mem_walk_visible inside
  obtain ⟨owner, among, rfl⟩ := List.mem_map.mp above
  obtain ⟨root, _, occurs⟩ := List.mem_flatMap.mp present
  have below : full.tree ∈ nodesOf owner.children :=
    (Tree.mem_flatMap_walk_of_mem_ancestors occurs among).resolve_right List.not_mem_nil
  have ownerPresent := mem_nodes_of_mem_lineage present (List.mem_cons_of_mem _ among)
  apply beq_false_of_ne
  rw [Tree.birth_visible, Tree.birth_visible]
  intro same
  apply birth_not_mem_children (distinct_node dated.distinct ownerPresent)
  rw [← same]
  exact birth_mem_birthsOf (mem_nodesOf_trans below within)

/-- To see whether a node is in an initial value of a construct around it, the way up to the
construct is enough. -/
theorem IsDated.isInInitialValue_eq (dated : forest.IsDated)
    (found : forest.find? node = some place) {before above : List StampedTree}
    (split : place.lineage = before ++ tree :: above) :
    Classifier.isInInitialValue tree place
      = tree.initialValues.any fun value => (before ++ [tree]).any value.sameNode := by
  have foundTree := dated.find?_outer found split
  rw [Classifier.isInInitialValue, Bool.eq_iff_iff, List.any_eq_true, List.any_eq_true]
  refine exists_congr fun value => and_congr_right fun initial => ?_
  have outside : above.any value.sameNode = false := by
    refine List.any_eq_false.mpr fun around beyond => ?_
    rw [dated.sameNode_eq_false foundTree (Tree.mem_walk_of_mem_initialValues initial) beyond]
    exact Bool.false_ne_true
  rw [split, List.append_cons, List.any_append, outside, Bool.or_false]

end Forest

/-! ## The search up to a construct -/

namespace ConstructTable

variable {table : ConstructTable} {name : String} {place other : Occurrence Stamp}
  {last scope definition : StampedTree} {outer : List StampedTree} {construct : Construct}

/-- What a tree declares for two occurrences is the same if both are in an initial value of it or
neither is, whatever is around the tree. -/
theorem declares?_congr (table : ConstructTable) (name : String) {element : StampedTree}
    (last : StampedTree)
    (agree : Classifier.isInInitialValue element place
      = Classifier.isInInitialValue element other)
    (above beyond : List StampedTree) :
    table.declares? name element ⟨last, element :: above⟩ place
      = table.declares? name element ⟨last, element :: beyond⟩ other := by
  unfold declares? declarations declaredIn
  rw [agree]
  rfl

/-- The search for a declaration that is found does not go beyond the construct that makes it. -/
theorem exists_split_of_declarationAround
    (found : table.declarationAround name place last outer
      = some ⟨definition, some (scope, construct)⟩) :
    ∃ below above, outer = below ++ scope :: above ∧ ∀ other beyond,
      (∀ element ∈ below ++ [scope], Classifier.isInInitialValue element place
        = Classifier.isInInitialValue element other) →
      table.declarationAround name other last (below ++ scope :: beyond)
        = some ⟨definition, some (scope, construct)⟩ := by
  induction outer generalizing last with
  | nil => cases found
  | cons element outer ih =>
    rw [declarationAround] at found
    split at found
    · next declared declares =>
      cases found
      refine ⟨[], outer, rfl, fun other beyond agree => ?_⟩
      have same := declares?_congr table name last (agree scope List.mem_cons_self) outer beyond
      rw [List.nil_append, declarationAround, ← same, declares]
    · next undeclared =>
      obtain ⟨below, above, rfl, rest⟩ := ih found
      refine ⟨element :: below, above, rfl, fun other beyond agree => ?_⟩
      obtain ⟨first, later⟩ := List.forall_mem_cons.mp agree
      have same := declares?_congr table name last first (below ++ scope :: above)
        (below ++ scope :: beyond)
      rw [List.cons_append, declarationAround, ← same, undeclared]
      exact rest other beyond later

theorem declarationAround_of_resolve
    (bound : table.resolve place = some ⟨definition, some (scope, construct)⟩) :
    table.declarationAround place.tree.text place place.tree place.ancestors
      = some ⟨definition, some (scope, construct)⟩ := by
  unfold resolve at bound
  cases found : table.declarationAround place.tree.text place place.tree place.ancestors with
  | some resolution => rwa [found, Option.some_or] at bound
  | none =>
    rw [found, Option.none_or] at bound
    obtain ⟨_, _, same⟩ := Option.map_eq_some_iff.mp bound
    cases same

end ConstructTable

/-- A name that is local to a construct keeps its meaning if the part below the construct is
kept. -/
theorem Forest.Keeps.resolve {forest after : Forest} {table : ConstructTable} {node : Nat}
    {place : Occurrence Stamp} {definition scope : StampedTree} {construct : Construct}
    (keeps : forest.Keeps after scope.birth) (dated : forest.IsDated) (later : after.IsDated)
    (found : forest.find? node = some place)
    (bound : table.resolve place = some ⟨definition, some (scope, construct)⟩) :
    ∃ other, after.find? node = some other ∧ other.tree = place.tree ∧
      table.resolve other = some ⟨definition, some (scope, construct)⟩ := by
  obtain ⟨tree, ancestors⟩ := place
  obtain ⟨below, above, rfl, search⟩ := ConstructTable.exists_split_of_declarationAround
    (ConstructTable.declarationAround_of_resolve bound)
  have split : tree :: (below ++ scope :: above) = (tree :: below) ++ scope :: above := rfl
  obtain ⟨outside, beyond, foundLater, same⟩ := keeps.find?_eq_some dated later found split
  obtain rfl : outside = below ++ scope :: beyond := (List.cons.inj same).2
  have agree : ∀ element ∈ below ++ [scope],
      Classifier.isInInitialValue element ⟨tree, below ++ scope :: above⟩
        = Classifier.isInInitialValue element ⟨tree, below ++ scope :: beyond⟩ := by
    intro element among
    obtain ⟨early, late, split⟩ := List.append_of_mem among
    have lineage : ∀ behind, tree :: (below ++ scope :: behind)
        = (tree :: early) ++ element :: (late ++ behind) := by
      intro behind
      rw [List.append_cons, split, List.append_assoc]
      rfl
    rw [dated.isInInitialValue_eq found (lineage above),
      later.isInInitialValue_eq foundLater (lineage beyond)]
  have meaning := search ⟨tree, below ++ scope :: beyond⟩ beyond agree
  dsimp only at meaning
  refine ⟨_, foundLater, rfl, ?_⟩
  rw [ConstructTable.resolve, meaning, Option.some_or]

/-! ## Any number of steps -/

namespace Inquiry

variable {table : ConstructTable} {inquiry : Inquiry} {steps more : List Step} {scope : Nat}

/-- Whether a step is no edit of a node or of one below it. An edit that is refused is none. -/
def sparesInStep (inquiry : Inquiry) (scope : Nat) : Step → Bool
  | .edit edit => (inquiry.forest.edit edit).2.isSome || !inquiry.forest.holds scope edit.parent
  | _ => true

/-- Whether none of some steps is an edit of a node or of one that is below it at that time. -/
def spares (inquiry : Inquiry) (scope : Nat) : List Step → Bool
  | [] => true
  | step :: more => inquiry.sparesInStep scope step && (inquiry.step step).spares scope more

/-- A step that spares a node keeps the part below it. -/
theorem keeps_step (rooted : inquiry.forest.IsRooted) {step : Step}
    (spared : inquiry.sparesInStep scope step) :
    inquiry.forest.Keeps (inquiry.step step).forest scope := by
  cases step with
  | plant tree => exact rooted.dated.keeps_plant tree scope
  | make content children => exact rooted.dated.keeps_make content children scope
  | edit edit =>
    rw [forest_step_edit]
    rcases Bool.or_eq_true_iff.mp spared with refused | elsewhere
    · exact rooted.keeps_refused refused scope
    · by_cases refused : (inquiry.forest.edit edit).2.isSome
      · exact rooted.keeps_refused refused scope
      · unfold Forest.edit at refused ⊢
        cases done : inquiry.forest.apply edit with
        | error error =>
          rw [done] at refused
          exact absurd rfl refused
        | ok after => exact rooted.dated.keeps_apply done (Bool.not_eq_true' _ ▸ elsewhere)
  | ask query =>
    rw [forest_step_ask]
    exact ⟨fun _ shown _ => shown, fun _ _ _ belongs => belongs⟩

/-- As long as a construct is spared, a name that is local to it can be found and means the same. -/
theorem resolve_of_spares (tracks : inquiry.Tracks table) (rooted : inquiry.forest.IsRooted)
    {node : Nat} {place : Occurrence Stamp} {definition top : StampedTree} {construct : Construct}
    (found : inquiry.forest.find? node = some place)
    (bound : table.resolve place = some ⟨definition, some (top, construct)⟩)
    (spared : inquiry.spares top.birth more) :
    ∃ later, (more.foldl step inquiry).forest.find? node = some later ∧ later.tree = place.tree ∧
      table.resolve later = some ⟨definition, some (top, construct)⟩ := by
  induction more generalizing inquiry place with
  | nil => exact ⟨place, found, rfl, bound⟩
  | cons first more ih =>
    obtain ⟨now, then'⟩ := Bool.and_eq_true_iff.mp spared
    have trackedLater := tracks.step first
    have rootedLater := (isRooted_step rooted first).1
    obtain ⟨between, foundBetween, sameTree, boundBetween⟩ :=
      (keeps_step rooted now).resolve rooted.dated rootedLater.dated found bound
    obtain ⟨later, foundLater, same, boundLater⟩ :=
      ih trackedLater rootedLater foundBetween boundBetween then'
    exact ⟨later, foundLater, same.trans sameTree, boundLater⟩

/-- A local meaning depends on nothing outside its construct. Whatever trees have been planted and
nodes made and edited, and whatever the classifier has been asked: if it finds a name local to a
construct, then it finds the same definition, construct and kind of construct after any number of
steps more, if only no edit of the construct or of a node below it is among them. -/
theorem resolve_run_append (table : ConstructTable) (steps more : List Step) {node : Nat}
    {place : Occurrence Stamp} {definition top : StampedTree} {construct : Construct}
    (found : (run table steps).forest.find? node = some place)
    (bound : ((run table steps).classifier.resolve place).1
      = some ⟨definition, some (top, construct)⟩)
    (spared : (run table steps).spares top.birth more) :
    ∃ later, (run table (steps ++ more)).forest.find? node = some later ∧
      later.tree = place.tree ∧
      ((run table (steps ++ more)).classifier.resolve later).1
        = some ⟨definition, some (top, construct)⟩ := by
  have tracks := Tracks.run table steps
  have tracksLater := Tracks.run table (steps ++ more)
  have shown := Forest.shown_of_find? found
  rw [(tracks.knows.resolve tracks.dated shown).1] at bound
  obtain ⟨later, foundLater, same, boundLater⟩ :=
    resolve_of_spares tracks (isRooted_run table steps).1 found bound spared
  have joined : run table (steps ++ more) = more.foldl step (run table steps) :=
    List.foldl_append
  rw [← joined] at foundLater
  have shownLater := Forest.shown_of_find? foundLater
  refine ⟨later, foundLater, same, ?_⟩
  rw [(tracksLater.knows.resolve tracksLater.dated shownLater).1]
  exact boundLater

open SyntaxTree in
/-- The file `Module[{x}, x]` is planted, and a block `Block[{x}, 1]` beside it. -/
def moduleAndBlock : List Step :=
  [.plant (ofKind .file [ofKind .functionCall
      [ofName "Module", ofKind .list [ofName "x"], ofName "x"]]),
    .plant (ofKind .functionCall [ofName "Block", ofKind .list [ofName "x"]])]

/-- The call of `Module` is detached and moved into the block, while the classifier is asked. -/
def move : List Step :=
  [.ask (.resolve 7), .edit (.remove 9 8), .ask (.resolve 7), .edit (.append 15 8)]

/-- The name is still local to the module, though a block that declares it is around that now. -/
theorem resolve_run_append_move :
    ∃ later definition top, (run .standard (moduleAndBlock ++ move)).forest.find? 7 = some later ∧
      later.root.birth = 15 ∧
      ((run .standard (moduleAndBlock ++ move)).classifier.resolve later).1
        = some ⟨definition, some (top, .localVariables)⟩ := by
  have moved : ((run .standard (moduleAndBlock ++ move)).forest.find? 7).map
      (fun place => place.root.birth) = some 15 := by
    decide
  have before : ((run .standard moduleAndBlock).forest.find? 7).any fun place =>
      ((run .standard moduleAndBlock).classifier.resolve place).1.any fun resolution =>
        resolution.scope.any fun scope => scope.2 = .localVariables &&
          (run .standard moduleAndBlock).spares scope.1.birth move := by
    decide
  obtain ⟨place, found, resolves⟩ := (Option.any_eq_true _ _).mp before
  obtain ⟨⟨definition, scope⟩, bound, isLocal⟩ := (Option.any_eq_true _ _).mp resolves
  obtain ⟨⟨top, construct⟩, rfl, facts⟩ := (Option.any_eq_true _ _).mp isLocal
  obtain ⟨kind, spared⟩ := Bool.and_eq_true_iff.mp facts
  obtain rfl : construct = .localVariables := of_decide_eq_true kind
  obtain ⟨later, foundLater, _, boundLater⟩ :=
    resolve_run_append .standard moduleAndBlock move found bound spared
  rw [foundLater] at moved
  exact ⟨later, definition, top, foundLater, Option.some.inj moved, boundLater⟩

end Inquiry

end WolframSyntax
