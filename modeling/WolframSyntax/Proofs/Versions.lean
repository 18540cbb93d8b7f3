import WolframSyntax.Proofs.Locality

/-!
# Versions

An edit that is done gives one new stamp to the edited node and to the nodes around it, and all
other nodes keep the one they have (`Forest.IsDated.versionOf?_apply`). The clock only moves
forward, so the new stamp is greater than all that were ever carried, and no edit gives the stamp of
another one. What is seen below a node was never changed after the node: a new node is the youngest,
and an edit below the node dates it too (`Forest.IsCurrent`). Strays are not seen, and an edit of a
stray dates its owner nevertheless.
-/

namespace WolframSyntax

open StampedTree

/-- An edited tree still contains the edited node. -/
theorem StampedTree.IsEdited.contains_after {date : Stamp → Stamp}
    {change : List StampedTree → List StampedTree} {site old new : StampedTree}
    (edited : IsEdited date change site old new)
    (keeps : ∀ label, (date label).birth = label.birth) : new.contains site.birth := by
  rw [contains_iff]
  induction edited with
  | here =>
    rw [birthsOf_node, keeps]
    exact List.mem_cons_self
  | inside _ ih =>
    rw [birthsOf_node, birthsOf_split]
    exact List.mem_cons_of_mem _ (List.mem_append_right _ (List.mem_append_left _ ih))

namespace Forest

variable {forest after : Forest} {edit : Edit} {node site version : Nat}

/-- An edit that is done is applied. -/
theorem apply_of_done (done : (forest.edit edit).2 = none) :
    forest.apply edit = .ok (forest.edit edit).1 := by
  unfold Forest.edit at done ⊢
  cases applied : forest.apply edit with
  | ok after => rfl
  | error error =>
    rw [applied] at done
    cases done

namespace IsDated

/-- A node of the forest is held by itself and by the nodes around it. -/
theorem holds_iff (dated : forest.IsDated) (present : site ∈ birthsOf forest.trees) :
    forest.holds node site ↔ node = site ∨ node ∈ forest.ancestorsOf site := by
  constructor
  · intro held
    obtain ⟨place, found, within⟩ := (Option.any_eq_true _ _).mp held
    obtain ⟨among, _, rfl⟩ := of_place?_eq_some found
    obtain ⟨inner, below, same⟩ := List.any_eq_true.mp within
    obtain ⟨occurrence, inside, rfl⟩ := Tree.exists_occurrence place.ancestors below
    obtain ⟨root, isRoot, occurs⟩ := List.mem_flatMap.mp among
    have whole : forest.place? site = some occurrence := dated.place?_eq_some_iff.mpr
      ⟨List.mem_flatMap.mpr ⟨root, isRoot, Tree.mem_occurrencesWithin_trans occurs inside⟩,
        eq_of_beq same⟩
    rcases Tree.mem_occurrencesWithin inside with rfl | ⟨between, above⟩
    · exact .inl (eq_of_beq same)
    · refine .inr ?_
      rw [ancestorsOf, find?, whole]
      change _ ∈ (occurrence.ancestors.map Tree.visible).map Tree.birth
      rw [above, ← place.tree.birth_visible]
      exact List.mem_map_of_mem (List.mem_map_of_mem (List.mem_append_right _ List.mem_cons_self))
  · rintro (rfl | around)
    · obtain ⟨tree, held, rfl⟩ := List.mem_map.mp present
      rw [dated.holds_birth held]
      exact List.any_eq_true.mpr ⟨tree, tree.mem_walk_self, beq_self_eq_true _⟩
    · unfold ancestorsOf at around
      cases found : forest.find? site with
      | none =>
        rw [found] at around
        cases around
      | some place =>
        rw [found] at around
        obtain ⟨owner, above, rfl⟩ := List.mem_map.mp around
        exact dated.holds_of_mem_lineage found (List.mem_cons_of_mem _ above)

/-- A node that is not there holds nothing. -/
theorem holds_eq_false (absent : node ∉ birthsOf forest.trees) :
    forest.holds node site = false := by
  refine Bool.eq_false_iff.mpr fun held => absent ?_
  obtain ⟨place, found, _⟩ := (Option.any_eq_true _ _).mp held
  obtain ⟨_, present, rfl⟩ := of_place?_eq_some found
  exact birth_mem_birthsOf present

/-- A node that is there has its version. -/
theorem versionOf?_birth (dated : forest.IsDated) {tree : StampedTree}
    (present : tree ∈ forest.nodes) : forest.versionOf? tree.birth = some tree.version := by
  obtain ⟨place, found, seen⟩ := dated.exists_find?_eq_some present
  rw [versionOf?, found, Option.map_some, seen, Tree.version_visible]

/-- A node that is not there has no version. -/
theorem versionOf?_eq_none (dated : forest.IsDated) (absent : node ∉ birthsOf forest.trees) :
    forest.versionOf? node = none := by
  rw [← dated.isSome_find?_iff, Option.not_isSome_iff_eq_none] at absent
  rw [versionOf?, absent, Option.map_none]

/-- No node carries a stamp that has not been handed out. -/
theorem version_le (dated : forest.IsDated) (carried : forest.versionOf? node = some version) :
    version ≤ forest.clock := by
  by_cases present : node ∈ birthsOf forest.trees
  · obtain ⟨tree, held, rfl⟩ := List.mem_map.mp present
    rw [dated.versionOf?_birth held] at carried
    cases carried
    exact dated.versions tree held
  · rw [dated.versionOf?_eq_none present] at carried
    cases carried

/-- There is the node that an edit is meant for if the edit is done. -/
theorem parent_mem_of_apply (dated : forest.IsDated) (done : forest.apply edit = .ok after) :
    edit.parent ∈ birthsOf forest.trees := by
  obtain ⟨split, found, _, _, _⟩ := dated.rearranges done
  obtain ⟨site, same, before, old, _, _, rest, _, inner⟩ := exists_isEdited_of_editAll? found
  rw [(birthsOf_perm split).mem_iff, birthsOf_append, rest, ← same]
  exact List.mem_append_left _
    (birth_mem_birthsOf (List.mem_flatMap.mpr ⟨old, by simp, inner.site_mem⟩))

/-- The nodes that hold the edited one are the same after an edit that is done. -/
theorem holds_apply (dated : forest.IsDated) (done : forest.apply edit = .ok after) (node : Nat) :
    after.holds node edit.parent = forest.holds node edit.parent := by
  have births := dated.birthsOf_perm_of_apply done
  have later := dated.apply done
  by_cases present : node ∈ birthsOf after.trees
  · obtain ⟨tree, held, rfl⟩ := List.mem_map.mp present
    rw [later.holds_birth held]
    obtain ⟨split, found, outside, moved, _⟩ := dated.rearranges done
    rcases mem_nodesOf_of_editAll? dated.distinct split found outside moved held
      with ⟨stays, apart⟩ | ⟨site, same, before, old, inner⟩
    · rw [dated.holds_birth stays]
    · have sameBirth : before.birth = tree.birth := by
        rw [Tree.birth, Tree.birth, inner.label_eq]
      have isAfter := inner.contains_after fun _ => rfl
      rw [← sameBirth, dated.holds_birth old, ← same, isAfter, inner.contains]
  · rw [holds_eq_false present, holds_eq_false fun old => present (births.mem_iff.mpr old)]

/-- The nodes around the edited one are the same after an edit that is done. -/
theorem mem_ancestorsOf_apply (dated : forest.IsDated) (done : forest.apply edit = .ok after) :
    node ∈ after.ancestorsOf edit.parent ↔ node ∈ forest.ancestorsOf edit.parent := by
  have later := dated.apply done
  have present := dated.parent_mem_of_apply done
  have stays := (dated.birthsOf_perm_of_apply done).mem_iff.mpr present
  have same : (node = edit.parent ∨ node ∈ after.ancestorsOf edit.parent) ↔
      node = edit.parent ∨ node ∈ forest.ancestorsOf edit.parent := by
    rw [← later.holds_iff stays, ← dated.holds_iff present, dated.holds_apply done]
  by_cases own : node = edit.parent
  · subst own
    exact iff_of_false (later.not_mem_ancestorsOf _) (dated.not_mem_ancestorsOf _)
  · rwa [or_iff_right own, or_iff_right own] at same

/-- An edit that is done gives the next stamp to the nodes that hold the edited one, and the others
keep theirs. -/
theorem versionOf?_apply (dated : forest.IsDated) (done : forest.apply edit = .ok after)
    (node : Nat) :
    after.versionOf? node
      = if forest.holds node edit.parent then some (forest.clock + 1)
        else forest.versionOf? node := by
  have births := dated.birthsOf_perm_of_apply done
  have later := dated.apply done
  by_cases present : node ∈ birthsOf after.trees
  · obtain ⟨tree, held, rfl⟩ := List.mem_map.mp present
    rw [later.versionOf?_birth held]
    rcases mem_nodes_of_apply dated done held with ⟨stays, apart⟩ | ⟨new, before, old, same, inside⟩
    · rw [dated.holds_birth stays, apart, dated.versionOf?_birth stays]
      rfl
    · rw [new, ← same, dated.holds_birth old, if_pos inside]
  · have absent : node ∉ birthsOf forest.trees := fun old => present (births.mem_iff.mpr old)
    rw [later.versionOf?_eq_none present, holds_eq_false absent, dated.versionOf?_eq_none absent]
    rfl

end IsDated

/-! ## What is seen below a node -/

/-- No child that is seen was changed after the node that it is seen below. -/
def IsCurrent (forest : Forest) : Prop :=
  ∀ tree, forest.Shows tree → ∀ child ∈ tree.children, child.version ≤ tree.version

theorem isCurrent_empty : empty.IsCurrent := by
  rintro _ ⟨node, none, _⟩
  cases none

/-- A node that is seen with a child is there with the child, which is listed. -/
theorem IsCurrent.of_nodes (current : ∀ node ∈ forest.nodes, ∀ child ∈ node.children,
    child.listed → child.version ≤ node.version) : forest.IsCurrent := by
  rintro _ ⟨node, present, rfl⟩ child below
  rw [Tree.children_visible] at below
  obtain ⟨inner, among, rfl⟩ := List.mem_map.mp below
  obtain ⟨held, listed⟩ := List.mem_filter.mp among
  rw [Tree.version_visible, Tree.version_visible]
  exact current node present inner held listed

/-- In a current forest no listed child was changed after its parent. -/
theorem IsCurrent.version_le (current : forest.IsCurrent) {node child : StampedTree}
    (present : node ∈ forest.nodes) (below : child ∈ node.children) (listed : child.listed) :
    child.version ≤ node.version := by
  rw [← child.version_visible, ← node.version_visible]
  refine current _ ⟨node, present, rfl⟩ _ ?_
  rw [Tree.children_visible]
  exact List.mem_map_of_mem (List.mem_filter.mpr ⟨below, listed⟩)

/-- A tree that is new was made from its leaves to its root. -/
theorem version_le_stampFrom (tree : SyntaxTree) (clock : Nat) :
    (tree.stampFrom clock).1.Everywhere fun node =>
      ∀ child ∈ node.children, child.version ≤ node.version := by
  induction tree using Tree.induct generalizing clock with
  | node label content children ih =>
    rw [SyntaxTree.stampFrom]
    refine Tree.everywhere_node.mpr ⟨fun child present => ?_, fun child present => ?_⟩
    · have fresh := isFresh_stampAllFrom children clock
      have held := mem_nodesOf present
      rw [fresh.versions child held]
      exact Nat.le_succ_of_le (fresh.births child held).2
    · obtain ⟨original, among, before, rfl⟩ := SyntaxTree.exists_of_mem_stampAllFrom present
      exact ih original among before

/-- A forest stays current when a tree is planted, since its stamps rise from the leaves to the
root. -/
theorem IsCurrent.plant (current : forest.IsCurrent) (tree : SyntaxTree) :
    (forest.plant tree).1.IsCurrent := by
  have joined : (forest.plant tree).1.nodes
      = forest.nodes ++ nodesOf [(tree.stampFrom forest.clock).1] :=
    nodesOf_append _ _
  refine .of_nodes fun node present child below listed => ?_
  rw [joined, nodesOf_singleton] at present
  rcases List.mem_append.mp present with old | new
  · exact current.version_le old below listed
  · exact version_le_stampFrom tree forest.clock node new child below

namespace IsDated

/-- A forest stays current when a node is made, since it is newer than its children. -/
theorem isCurrent_make (dated : forest.IsDated) (current : forest.IsCurrent) (content : Content)
    (children : List Nat) : (forest.make content children).1.IsCurrent := by
  obtain ⟨rest, taken, split, made⟩ := dated.exists_make_eq content children
  have earlier : ∀ node ∈ nodesOf (rest ++ taken), node ∈ forest.nodes := fun node among =>
    (nodesOf_perm split).mem_iff.mpr among
  rw [nodesOf_append] at earlier
  obtain ⟨kept, moved⟩ := List.forall_mem_append.mp earlier
  rw [made]
  refine .of_nodes fun node present child below listed => ?_
  rw [nodes, nodesOf_append, nodesOf_singleton, Tree.walk_eq] at present
  rcases List.mem_append.mp present with other | own
  · exact current.version_le (kept node other) below listed
  rcases List.mem_cons.mp own with rfl | inner
  · exact Nat.le_succ_of_le (dated.versions child (moved child (mem_nodesOf below)))
  · exact current.version_le (moved node inner) below listed

/-- A forest stays current with an edit that is done, since all nodes around the edited one are
dated anew. -/
theorem isCurrent_apply (dated : forest.IsDated) (current : forest.IsCurrent)
    (done : forest.apply edit = .ok after) : after.IsCurrent := by
  have later := dated.apply done
  refine .of_nodes fun node present child below listed => ?_
  rcases mem_nodes_of_apply dated done present with ⟨old, _⟩ | ⟨new, _⟩
  · exact current.version_le old below listed
  · -- The clock stands at the version that the node has got.
    rw [new, ← clock_of_apply dated done]
    exact later.versions child (mem_nodes_of_mem_children present below)

/-- A forest stays current with an edit, whether it is done or refused. -/
theorem isCurrent_edit (dated : forest.IsDated) (current : forest.IsCurrent) (edit : Edit) :
    (forest.edit edit).1.IsCurrent := by
  unfold Forest.edit
  cases done : forest.apply edit with
  | ok after => exact dated.isCurrent_apply current done
  | error error => exact fun tree shown => current tree (shows_of_refused dated edit shown)

end IsDated

/-- Nothing that is seen in a tree was changed after its root. -/
theorem IsCurrent.version_le_of_mem_walk (current : forest.IsCurrent) {tree inner : StampedTree}
    (shown : forest.Shows tree) (inside : inner ∈ tree.walk) : inner.version ≤ tree.version := by
  induction tree using Tree.induct with
  | node label content children ih =>
    rw [Tree.walk_node] at inside
    rcases List.mem_cons.mp inside with rfl | below
    · exact Nat.le_refl _
    · obtain ⟨child, present, within⟩ := List.mem_flatMap.mp below
      have isShown : forest.Shows child := shown.below <| by
        rw [Tree.walk_node]
        exact List.mem_cons_of_mem _ (List.mem_flatMap.mpr ⟨child, present, child.mem_walk_self⟩)
      calc
        inner.version ≤ child.version := ih child present isShown within
        _ ≤ _ := current _ shown child present

/-- An edit does not turn back the clock. -/
theorem clock_edit (dated : forest.IsDated) (edit : Edit) :
    forest.clock ≤ (forest.edit edit).1.clock := by
  unfold Forest.edit
  cases done : forest.apply edit with
  | ok after =>
    rw [clock_of_apply dated done]
    exact Nat.le_succ _
  | error error => exact Nat.le_of_eq (clock_afterRefusal forest edit).symm

end Forest

/-! ## Any number of steps -/

namespace Inquiry

variable {table : ConstructTable} {steps : List Step} {stamp first last : Nat}

/-- Some node had the stamp for its version after the steps, or at some time before. -/
def Carried (table : ConstructTable) (steps : List Step) (stamp : Nat) : Prop :=
  ∃ before, before <+: steps ∧ ∃ node, (run table before).forest.versionOf? node = some stamp

/-- The last step is an edit that is done, and the edited node has the stamp for its version. -/
def Gives (table : ConstructTable) (steps : List Step) (stamp : Nat) : Prop :=
  ∃ before edit, steps = before ++ [.edit edit] ∧
    ((run table before).forest.edit edit).2 = none ∧
    (run table steps).forest.versionOf? edit.parent = some stamp

/-- A step leaves the forest current, and does not turn back the clock. -/
theorem step_isCurrent {inquiry : Inquiry} (dated : inquiry.forest.IsDated)
    (current : inquiry.forest.IsCurrent) (step : Step) :
    (inquiry.step step).forest.IsCurrent ∧
      inquiry.forest.clock ≤ (inquiry.step step).forest.clock := by
  cases step with
  | plant tree => exact ⟨current.plant tree, (dated.grows_plant tree).clock⟩
  | make content children =>
    exact ⟨dated.isCurrent_make current content children, (dated.grows_make content children).clock⟩
  | edit edit =>
    rw [forest_step_edit]
    exact ⟨dated.isCurrent_edit current edit, Forest.clock_edit dated edit⟩
  | ask query =>
    rw [forest_step_ask]
    exact ⟨current, Nat.le_refl _⟩

/-- After any steps the forest is current. -/
theorem isCurrent_run (table : ConstructTable) (steps : List Step) :
    (run table steps).forest.IsCurrent := by
  induction steps using List.reverseRecOn with
  | nil => exact Forest.isCurrent_empty
  | append_singleton steps step ih =>
    rw [run_concat]
    exact (step_isCurrent (isRooted_run table steps).1.dated ih step).1

/-- A stamp that was ever carried has been handed out by the clock. -/
theorem Carried.le_clock (carried : Carried table steps stamp) :
    stamp ≤ (run table steps).forest.clock := by
  obtain ⟨before, earlier, node, version⟩ := carried
  induction steps using List.reverseRecOn with
  | nil =>
    obtain rfl := List.prefix_nil.mp earlier
    exact (isRooted_run table []).1.dated.version_le version
  | append_singleton steps step ih =>
    have dated := (isRooted_run table steps).1.dated
    rcases List.prefix_concat_iff.mp earlier with rfl | within
    · exact (isRooted_run table _).1.dated.version_le version
    · rw [run_concat]
      exact (ih within).trans (step_isCurrent dated (isCurrent_run table steps) step).2

/-- After an edit that is done the edited node and the nodes around it, which are the same as
before, have one stamp that no node ever had, and all other nodes have the one they had. Nothing
that is seen in a tree has a later stamp than its root, and of two edits that were done the later
one gave the greater stamp. -/
theorem versions_run (table : ConstructTable) (steps : List Step) :
    let forest := (run table steps).forest
    (∀ edit, (forest.edit edit).2 = none → ∃ stamp,
      (∀ earlier, Carried table steps earlier → earlier < stamp) ∧
      (∀ node, node ∈ (forest.edit edit).1.ancestorsOf edit.parent ↔
        node ∈ forest.ancestorsOf edit.parent) ∧
      ∀ node, (forest.edit edit).1.versionOf? node
        = if node = edit.parent ∨ node ∈ forest.ancestorsOf edit.parent then some stamp
          else forest.versionOf? node) ∧
    (∀ tree, forest.Shows tree → ∀ node ∈ tree.walk, node.version ≤ tree.version) ∧
    ∀ earlier, earlier <+: steps → earlier ≠ steps → ∀ first last,
      Gives table earlier first → Gives table steps last → first < last := by
  refine ⟨fun edit done => ?_, fun tree shown node inside => ?_, ?_⟩
  · have dated := (isRooted_run table steps).1.dated
    have applied := Forest.apply_of_done done
    refine ⟨_, fun earlier carried => Nat.lt_succ_of_le carried.le_clock,
      fun node => dated.mem_ancestorsOf_apply applied, fun node => ?_⟩
    rw [dated.versionOf?_apply applied]
    exact if_congr (dated.holds_iff (dated.parent_mem_of_apply applied)) rfl rfl
  · exact (isCurrent_run table steps).version_le_of_mem_walk shown inside
  · rintro earlier within proper first last given ⟨before, edit, rfl, done, version⟩
    have dated := (isRooted_run table before).1.dated
    have applied := Forest.apply_of_done done
    have carried : Carried table before first := by
      obtain ⟨_, edited, _, _, carriedBy⟩ := given
      exact ⟨earlier, (List.prefix_concat_iff.mp within).resolve_left proper, _, carriedBy⟩
    rw [run_concat, forest_step_edit, dated.versionOf?_apply applied,
      if_pos ((dated.holds_iff (dated.parent_mem_of_apply applied)).mpr (.inl rfl))] at version
    cases version
    exact Nat.lt_succ_of_le carried.le_clock

/-- The symbol `y` becomes an argument of the call `f[a]`, and `a` is taken away. -/
def exchange : List Step := callAndSymbol ++ [.edit (.append 5 8), .edit (.remove 5 4)]

/-- When `a` is put into the file behind the call, the file gets the next stamp, and the call and
both symbols keep theirs. -/
theorem versions_run_exchange :
    (∃ stamp, (∀ earlier, Carried .standard exchange earlier → earlier < stamp) ∧
      ((run .standard exchange).forest.edit (.append 6 4)).1.versionOf? 6 = some stamp ∧
      ((run .standard exchange).forest.edit (.append 6 4)).1.versionOf? 4 = some 4) ∧
    (∃ tree, (run .standard exchange).forest.Shows tree ∧ tree.birth = 6 ∧
      ∀ node ∈ tree.walk, node.version ≤ tree.version) ∧
    ∀ first last, Gives .standard (callAndSymbol ++ [.edit (.append 5 8)]) first →
      Gives .standard exchange last → first < last := by
  obtain ⟨edits, below, order⟩ := versions_run .standard exchange
  refine ⟨?_, ?_, order _ ?_ (by simp [exchange])⟩
  · obtain ⟨stamp, greater, _, versions⟩ := edits (.append 6 4) (by decide)
    refine ⟨stamp, greater, versions 6, ?_⟩
    rw [versions 4, if_neg (by decide)]
    decide
  · have found : ((run .standard exchange).forest.find? 6).isSome := by decide
    obtain ⟨place, found⟩ := Option.isSome_iff_exists.mp found
    have shown := Forest.shown_of_find? found place.tree List.mem_cons_self
    exact ⟨place.tree, shown, Forest.birth_of_find? found, below place.tree shown⟩
  · exact ⟨[.edit (.remove 5 4)], rfl⟩

end Inquiry

end WolframSyntax
