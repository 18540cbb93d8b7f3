import WolframSyntax.Proofs.Versions

/-!
# Making nodes

A node that is made of others takes them for its children one by one, up to the first one that
belongs to a node already, be it to another one or to the new one. That one is refused, and the
children in front of it stay with the new node. Nothing else changes, so a making that is refused
leaves all nodes as they are if the very first child is refused, and only then
(`Inquiry.make_run`). The others leave children behind (`Inquiry.not_makesWhole`).
-/

namespace WolframSyntax

open StampedTree

namespace Forest

variable {forest made : Forest} {content : Content} {children later : List Nat}
  {rest taken : List StampedTree} {refused : Option EditError} {node parent : Nat}

namespace IsDated

/-- What is seen of a node is the same in two forests that have the same node. -/
theorem tree_find?_congr (dated : forest.IsDated) (datedMade : made.IsDated)
    (same : ∀ tree, tree.birth = node → (tree ∈ made.nodes ↔ tree ∈ forest.nodes)) :
    (made.find? node).map Occurrence.tree = (forest.find? node).map Occurrence.tree := by
  by_cases present : node ∈ birthsOf forest.trees
  · obtain ⟨tree, held, rfl⟩ := List.mem_map.mp present
    obtain ⟨place, found, seen⟩ := dated.exists_find?_eq_some held
    obtain ⟨placeMade, foundMade, seenMade⟩ :=
      datedMade.exists_find?_eq_some ((same tree rfl).mpr held)
    rw [found, foundMade, Option.map_some, Option.map_some, seen, seenMade]
  · have absent : node ∉ birthsOf made.trees := by
      intro other
      obtain ⟨tree, held, rfl⟩ := List.mem_map.mp other
      exact present (birth_mem_birthsOf ((same tree rfl).mp held))
    rw [← dated.isSome_find?_iff, Option.not_isSome_iff_eq_none] at present
    rw [← datedMade.isSome_find?_iff, Option.not_isSome_iff_eq_none] at absent
    rw [present, absent]

/-- A stamp that has not been handed out is the birth of no node. -/
theorem ne_clock_succ (dated : forest.IsDated) {tree : StampedTree}
    (present : tree ∈ forest.nodes) : tree.birth ≠ forest.clock + 1 := by
  have bound := dated.births tree present
  omega

/-- The stamp that comes next is that of no node yet. -/
theorem find?_clock_succ (dated : forest.IsDated) : forest.find? (forest.clock + 1) = none := by
  rw [← Option.not_isSome_iff_eq_none, dated.isSome_find?_iff]
  intro present
  obtain ⟨tree, held, same⟩ := List.mem_map.mp present
  exact dated.ne_clock_succ held same

end IsDated

/-! ## What a new node changes -/

/-- A node that has just been made with the roots `taken` for its children, next to the roots `rest`
of the forest. -/
structure Makes (forest made : Forest) (content : Content) (rest taken : List StampedTree) :
    Prop where
  split : forest.trees.Perm (rest ++ taken)
  made : made = ⟨rest ++ [.node ⟨forest.clock + 1, forest.clock + 1, true⟩ content taken],
    forest.clock + 1⟩

namespace Makes

variable {tree : StampedTree}

/-- A node that is made is the only new one. -/
theorem mem_nodes_iff (makes : forest.Makes made content rest taken) :
    tree ∈ made.nodes ↔ tree ∈ forest.nodes ∨
      tree = .node ⟨forest.clock + 1, forest.clock + 1, true⟩ content taken := by
  have before := (nodesOf_perm makes.split).mem_iff (a := tree)
  rw [makes.made, nodes, nodesOf_append, nodesOf_singleton, Tree.walk_eq, nodes, before,
    nodesOf_append]
  change tree ∈ nodesOf rest ++ _ :: nodesOf taken ↔ tree ∈ nodesOf rest ++ nodesOf taken ∨ _
  rw [List.mem_append, List.mem_cons, List.mem_append, or_left_comm, or_comm]

theorem new_mem (makes : forest.Makes made content rest taken) :
    .node ⟨forest.clock + 1, forest.clock + 1, true⟩ content taken ∈ made.nodes :=
  makes.mem_nodes_iff.mpr (.inr rfl)

theorem taken_mem (makes : forest.Makes made content rest taken) (among : tree ∈ taken) :
    tree ∈ forest.trees :=
  makes.split.mem_iff.mpr (List.mem_append_right _ among)

/-- A node belongs to the new one if it has been taken, and to another one if it did so before. -/
theorem parentOf?_eq_some_iff (makes : forest.Makes made content rest taken)
    (dated : forest.IsDated) (datedMade : made.IsDated) :
    made.parentOf? node = some parent ↔
      node ∈ taken.map Tree.birth ∧ parent = forest.clock + 1 ∨
        forest.parentOf? node = some parent := by
  rw [datedMade.parentOf?_eq_some_iff, dated.parentOf?_eq_some_iff]
  constructor
  · rintro ⟨owner, held, same, child, below, whole⟩
    rcases makes.mem_nodes_iff.mp held with old | rfl
    · exact .inr ⟨owner, old, same, child, below, whole⟩
    · exact .inl ⟨List.mem_map.mpr ⟨child, below, whole⟩, same.symm⟩
  · rintro (⟨among, rfl⟩ | ⟨owner, held, same, below⟩)
    · obtain ⟨child, below, whole⟩ := List.mem_map.mp among
      exact ⟨_, makes.new_mem, rfl, child, below, whole⟩
    · exact ⟨owner, makes.mem_nodes_iff.mpr (.inl held), same, below⟩

/-- What has been taken belonged to no node. -/
theorem parentOf?_eq_none (makes : forest.Makes made content rest taken)
    (dated : forest.IsDated) (datedMade : made.IsDated) (among : node ∈ taken.map Tree.birth) :
    forest.parentOf? node = none := by
  refine Option.eq_none_iff_forall_ne_some.mpr fun parent belongs => ?_
  have own := (makes.parentOf?_eq_some_iff dated datedMade).mpr (.inl ⟨among, rfl⟩)
  have other := (makes.parentOf?_eq_some_iff dated datedMade).mpr (.inr belongs)
  cases own.symm.trans other
  obtain ⟨owner, held, same, _⟩ := dated.parentOf?_eq_some_iff.mp belongs
  exact dated.ne_clock_succ held same

/-- What is taken in belongs to the new node, and all others to whom they did. -/
theorem parentOf?_eq (makes : forest.Makes made content rest taken) (dated : forest.IsDated)
    (datedMade : made.IsDated) (node : Nat) :
    made.parentOf? node = if node ∈ taken.map Tree.birth then some (forest.clock + 1)
      else forest.parentOf? node := by
  split
  · next among => exact (makes.parentOf?_eq_some_iff dated datedMade).mpr (.inl ⟨among, rfl⟩)
  · next other =>
    refine Option.ext fun parent => ?_
    rw [makes.parentOf?_eq_some_iff dated datedMade, or_iff_right fun own => other own.1]

/-- Only the new node is seen with children and a version that it did not have before. -/
theorem seen_eq (makes : forest.Makes made content rest taken) (dated : forest.IsDated)
    (datedMade : made.IsDated) (listed : ∀ tree ∈ forest.trees, tree.listed) (node : Nat) :
    made.childrenOf node = (if node = forest.clock + 1 then taken.map Tree.birth
      else forest.childrenOf node) ∧
    made.versionOf? node = if node = forest.clock + 1 then some (forest.clock + 1)
      else forest.versionOf? node := by
  by_cases own : node = forest.clock + 1
  · rw [if_pos own, if_pos own, own]
    have all : taken.filter Tree.listed = taken :=
      List.filter_eq_self.mpr fun tree among => listed tree (makes.taken_mem among)
    refine ⟨(datedMade.childrenOf_birth makes.new_mem).trans ?_,
      datedMade.versionOf?_birth makes.new_mem⟩
    exact congrArg (List.map Tree.birth) all
  · rw [if_neg own, if_neg own]
    have same : (made.find? node).map Occurrence.tree = (forest.find? node).map Occurrence.tree :=
      dated.tree_find?_congr datedMade fun tree named => by
        rw [makes.mem_nodes_iff, or_iff_left]
        rintro rfl
        exact own named.symm
    rw [childrenOf_eq_map, childrenOf_eq_map, versionOf?_eq_map, versionOf?_eq_map, same]
    exact ⟨rfl, rfl⟩

/-- A node that is there already is refused only because it belongs to some node. -/
theorem exists_belongs (makes : forest.Makes made content rest taken) (dated : forest.IsDated)
    (datedMade : made.IsDated) (known : (forest.find? node).isSome) {error : EditError}
    (refused : made.adoptable (forest.clock + 1) node = .error error) :
    ∃ child owner, error = .belongs child owner ∧ child.birth = node ∧
      made.parentOf? node = some owner.birth := by
  obtain ⟨tree, held, rfl⟩ := List.mem_map.mp (dated.isSome_find?_iff.mp known)
  obtain ⟨place, present, rfl⟩ := List.mem_map.mp
    (map_tree_occurrences made ▸ makes.mem_nodes_iff.mpr (.inl held))
  have found := datedMade.place?_eq_some_iff.mpr ⟨present, rfl⟩
  unfold adoptable at refused
  rw [found] at refused
  dsimp only at refused
  cases above : place.parent? with
  | some owner =>
    rw [above] at refused
    cases refused
    refine ⟨_, _, rfl, Tree.birth_visible _, ?_⟩
    rw [parentOf?_eq_map, found, Option.bind_some, above, Option.map_some, Tree.birth_visible]
  | none =>
    -- A node does not hold one that is made after it, so nothing else speaks against it.
    rw [above] at refused
    dsimp only at refused
    split at refused
    · next holds =>
      obtain ⟨inner, below, same⟩ := List.any_eq_true.mp holds
      exact (dated.ne_clock_succ (mem_nodesOf_trans held below) (eq_of_beq same)).elim
    · cases refused

end Makes

/-- A new node has the nodes `taken` for its children, which belonged to no node before. All other
nodes belong to the nodes that they belonged to, and all have the children and the versions that
they had. -/
structure Adopts (before after : Forest) (new : Nat) (taken : List Nat) : Prop where
  fresh : before.find? new = none
  free : ∀ node ∈ taken, before.parentOf? node = none
  parents : ∀ node, after.parentOf? node = if node ∈ taken then some new else before.parentOf? node
  children : ∀ node, after.childrenOf node = if node = new then taken else before.childrenOf node
  versions : ∀ node,
    after.versionOf? node = if node = new then some new else before.versionOf? node

/-- The parents stay the same exactly if nothing is taken. -/
theorem Adopts.parents_eq_iff {new : Nat} {taken : List Nat} (adopts : forest.Adopts made new taken)
    (known : ∀ node ∈ taken, (forest.find? node).isSome) :
    (∀ node, (forest.find? node).isSome → made.parentOf? node = forest.parentOf? node) ↔
      taken = [] := by
  constructor
  · intro same
    refine List.eq_nil_iff_forall_not_mem.mpr fun node among => ?_
    have kept := same node (known node among)
    rw [adopts.parents, if_pos among, adopts.free node among] at kept
    cases kept
  · rintro rfl node _
    rw [adopts.parents, if_neg List.not_mem_nil]

/-- A new node adopts some of the nodes that it is to be made of, in their order, up to the first
one that belongs to a node by then. -/
theorem IsRooted.exists_adopts (rooted : forest.IsRooted) (content : Content) (children : List Nat)
    (known : ∀ child ∈ children, (forest.find? child).isSome) :
    ∃ taken later, children = taken ++ later ∧ taken.Nodup ∧
      forest.Adopts (forest.make content children).1 (forest.make content children).2.1 taken ∧
      ((forest.make content children).2.2 = none ∧ later = [] ∨
        ∃ held owner rest, (forest.make content children).2.2 = some (.belongs held owner) ∧
          later = held.birth :: rest ∧
          (forest.make content children).1.parentOf? held.birth = some owner.birth) := by
  obtain ⟨rest, taken, later, split, listed, made, stops⟩ :=
    rooted.dated.exists_make_stops content children
  have dated := rooted.dated
  have datedMade := (dated.grows_make content children).dated
  have makes : forest.Makes (forest.make content children).1 content rest taken := ⟨split, made⟩
  have adopts : forest.Adopts (forest.make content children).1 (forest.clock + 1)
      (taken.map Tree.birth) := by
    have seen := makes.seen_eq dated datedMade rooted.listed
    exact ⟨dated.find?_clock_succ, fun _ => makes.parentOf?_eq_none dated datedMade,
      makes.parentOf?_eq dated datedMade, fun node => (seen node).1, fun node => (seen node).2⟩
  have distinct := datedMade.nodup_childrenOf (forest.clock + 1)
  rw [adopts.children, if_pos rfl] at distinct
  refine ⟨taken.map Tree.birth, later, listed, distinct, adopts, ?_⟩
  generalize (forest.make content children).2.2 = refused at stops
  cases stops with
  | complete => exact .inl ⟨rfl, rfl⟩
  | @refused child more error refused =>
    have isKnown := known child (by rw [listed]; simp)
    obtain ⟨held, owner, rfl, rfl, belongs⟩ := makes.exists_belongs dated datedMade isKnown refused
    exact .inr ⟨held, owner, more, rfl, rfl, belongs⟩

end Forest

namespace Inquiry

/-- Whatever has been done before, a new node adopts the nodes that it is to be made of in their
order, up to the first one that belongs to a node by then, which is reported with that node. There
is such a one exactly if a node of the list belonged to some node before or is in the list twice,
and then every node belongs to the same node as before exactly if the first one of the list is
refused. -/
theorem make_run (table : ConstructTable) (steps : List Step) (content : Content)
    (children : List Nat)
    (known : ∀ child ∈ children, ((run table steps).forest.find? child).isSome) :
    let forest := (run table steps).forest
    let made := (forest.make content children).1
    let refused := (forest.make content children).2.2
    (∃ taken later, children = taken ++ later ∧
      forest.Adopts made (forest.make content children).2.1 taken ∧
      (refused = none ∧ later = [] ∨
        ∃ held owner rest, refused = some (.belongs held owner) ∧ later = held.birth :: rest ∧
          made.parentOf? held.birth = some owner.birth)) ∧
    (refused.isSome ↔ (∃ child ∈ children, (forest.parentOf? child).isSome) ∨ ¬children.Nodup) ∧
    (refused.isSome →
      ((∀ node, (forest.find? node).isSome → made.parentOf? node = forest.parentOf? node) ↔
        ∃ first ∈ children.head?, (forest.parentOf? first).isSome)) := by
  obtain ⟨rooted, _⟩ := isRooted_run table steps
  obtain ⟨taken, later, rfl, distinct, adopts, comes⟩ := rooted.exists_adopts content children known
  have refusal : ((run table steps).forest.make content (taken ++ later)).2.2.isSome →
      ∃ (held owner : StampedTree) (rest : List Nat), later = held.birth :: rest ∧
        ((run table steps).forest.make content (taken ++ later)).1.parentOf? held.birth
          = some owner.birth := by
    intro some
    rcases comes with ⟨none, _⟩ | ⟨held, owner, rest, _, stopped⟩
    · rw [none] at some
      cases some
    · exact ⟨held, owner, rest, stopped⟩
  refine ⟨⟨taken, later, rfl, adopts, comes⟩, ?_, ?_⟩
  · constructor
    · intro some
      obtain ⟨held, owner, rest, rfl, belongs⟩ := refusal some
      rw [adopts.parents] at belongs
      split at belongs
      · next twice =>
        exact .inr fun nodup => (List.nodup_append.mp nodup).2.2 _ twice _ List.mem_cons_self rfl
      · exact .inl ⟨held.birth, by simp, by rw [belongs]; rfl⟩
    · intro unfit
      by_contra complete
      obtain ⟨_, rfl⟩ := comes.resolve_right fun ⟨_, _, _, refused, _⟩ =>
        complete (by rw [refused]; rfl)
      rw [List.append_nil] at unfit
      rcases unfit with ⟨child, among, owned⟩ | twice
      · rw [adopts.free child among] at owned
        cases owned
      · exact twice distinct
  · intro some
    obtain ⟨held, owner, rest, rfl, belongs⟩ := refusal some
    rw [adopts.parents_eq_iff fun node among => known node (List.mem_append_left _ among)]
    constructor
    · rintro rfl
      rw [adopts.parents, if_neg List.not_mem_nil] at belongs
      exact ⟨held.birth, rfl, by rw [belongs]; rfl⟩
    · rintro ⟨first, head, owned⟩
      cases taken with
      | nil => rfl
      | cons node taken =>
        cases head
        rw [adopts.free _ List.mem_cons_self] at owned
        cases owned

/-- What a list has in it before its parts are there. -/
def pairContent : Content := ⟨.list, none, none, none⟩

/-- When the list `{y, a}` is made while `a` is in a call, `a` is refused and `y` stays with the
list. -/
theorem make_run_pair :
    ((run .standard callAndSymbol).forest.make pairContent [8, 4]).2.2.isSome ∧
      ¬∀ node, ((run .standard callAndSymbol).forest.find? node).isSome →
        ((run .standard callAndSymbol).forest.make pairContent [8, 4]).1.parentOf? node
          = (run .standard callAndSymbol).forest.parentOf? node := by
  obtain ⟨_, refused, unchanged⟩ :=
    make_run .standard callAndSymbol pairContent [8, 4] (by decide)
  have owned : ((run .standard callAndSymbol).forest.parentOf? 4).isSome := by decide
  have stopped := refused.mpr (.inl ⟨4, by decide, owned⟩)
  refine ⟨stopped, fun kept => ?_⟩
  obtain ⟨first, head, holds⟩ := (unchanged stopped).mp kept
  cases head
  have free : (run .standard callAndSymbol).forest.parentOf? 8 = none := by decide
  rw [free] at holds
  cases holds

/-- The rule without exceptions: a making that is refused changes no node that was there. -/
def MakesWhole (table : ConstructTable) (steps : List Step) : Prop :=
  ∀ content children, (∀ child ∈ children, ((run table steps).forest.find? child).isSome) →
    ((run table steps).forest.make content children).2.2.isSome →
      ∀ node, ((run table steps).forest.find? node).isSome →
        ((run table steps).forest.make content children).1.parentOf? node
            = (run table steps).forest.parentOf? node ∧
          ((run table steps).forest.make content children).1.childrenOf node
            = (run table steps).forest.childrenOf node ∧
          ((run table steps).forest.make content children).1.versionOf? node
            = (run table steps).forest.versionOf? node

/-- The list `{y, a}` is not made whole, since `y` belongs to it afterwards. -/
theorem not_makesWhole : ¬∀ steps, MakesWhole .standard steps := by
  intro whole
  have unchanged := (whole callAndSymbol pairContent [8, 4] (by decide) (by decide) 8 (by decide)).1
  have before : (run .standard callAndSymbol).forest.parentOf? 8 = none := by decide
  have after : ((run .standard callAndSymbol).forest.make pairContent [8, 4]).1.parentOf? 8
      = some 9 := by
    decide
  rw [before, after] at unchanged
  cases unchanged

end Inquiry

end WolframSyntax
