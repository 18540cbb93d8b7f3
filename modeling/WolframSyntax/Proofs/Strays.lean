import WolframSyntax.Proofs.Inquiry

/-!
# Strays

A root that is inserted into a node at a number that is no index gets the node for its owner before
the insertion is refused, and it keeps it: it is a stray. Nothing else makes a stray, and a stray
remains one (`Inquiry.isRooted_run`). To see this, the strays of a list of trees are listed with
their owners, and followed through all edits: the roots that an edit moves are no strays, so it
leaves the list as it is (`StampedTree.straysOf_perm_of_editAll?`). Apart from the strays the nodes
and their children form a forest (`Inquiry.links_run`).
-/

namespace WolframSyntax

/-! ## The strays of trees under an edit -/

namespace StampedTree

variable {trees rest taken freed edited : List StampedTree} {site old new tree : StampedTree}
  {birth parent : Nat} {date : Stamp → Stamp} {change : List StampedTree → List StampedTree}

@[simp] theorem straysOf_nil : straysOf [] = [] := rfl

/-- The strays of two lists follow one another. -/
theorem straysOf_append (left right : List StampedTree) :
    straysOf (left ++ right) = straysOf left ++ straysOf right := by
  simp only [straysOf, nodesOf_append, List.flatMap_append]

/-- The strays of a list are the hidden children of each node, with the node as their owner. -/
theorem straysOf_cons (tree : StampedTree) (trees : List StampedTree) :
    straysOf (tree :: trees)
      = straysAmong tree.birth tree.children ++ straysOf tree.children ++ straysOf trees := by
  simp only [straysOf, nodesOf_cons, Tree.walk_eq, List.cons_append, List.flatMap_cons,
    List.flatMap_append, List.append_assoc]
  rfl

/-- The strays below a node are its own hidden children and those further down. -/
theorem straysOf_node (label : Stamp) (content : Content) (children : List StampedTree) :
    straysOf [.node label content children]
      = straysAmong label.birth children ++ straysOf children := by
  rw [straysOf_cons, straysOf_nil, List.append_nil]
  rfl

/-- The order of the trees does not change which strays there are. -/
theorem straysOf_perm {left right : List StampedTree} (same : left.Perm right) :
    (straysOf left).Perm (straysOf right) :=
  (nodesOf_perm same).flatMap_right _

/-- The order of the children does not change which of them are strays. -/
theorem straysAmong_perm {left right : List StampedTree} (parent : Nat) (same : left.Perm right) :
    (straysAmong parent left).Perm (straysAmong parent right) :=
  (same.filter _).map _

theorem straysAmong_append (parent : Nat) (left right : List StampedTree) :
    straysAmong parent (left ++ right) = straysAmong parent left ++ straysAmong parent right := by
  rw [straysAmong, List.filter_append, List.map_append]
  rfl

/-- Where all children are listed, there is no stray among them. -/
theorem straysAmong_eq_nil (parent : Nat) (listed : ∀ tree ∈ trees, tree.listed) :
    straysAmong parent trees = [] := by
  rw [straysAmong, List.filter_eq_nil_iff.mpr fun tree among => by simp [listed tree among]]
  rfl

/-- Dating a node anew neither makes it another one nor changes whether it is listed. -/
def KeepsLinks (date : Stamp → Stamp) : Prop :=
  ∀ label, (date label).birth = label.birth ∧ (date label).listed = label.listed

namespace IsEdited

/-- An edited tree is listed as before. -/
theorem listed_eq (edited : IsEdited date change site old new) (keeps : KeepsLinks date) :
    new.listed = old.listed := by
  rw [Tree.listed, edited.label_eq, (keeps old.label).2]
  rfl

/-- A tree stays the same node when it is edited. -/
theorem birth_eq (edited : IsEdited date change site old new) (keeps : KeepsLinks date) :
    new.birth = old.birth := by
  rw [Tree.birth, edited.label_eq, (keeps old.label).1]
  rfl

/-- Apart from what belongs to the edited node, the strays stay the same. -/
theorem exists_strays (edited : IsEdited date change site old new) (keeps : KeepsLinks date) :
    ∃ others,
      (straysOf [old]).Perm (straysAmong site.birth site.children ++ straysOf site.children
        ++ others) ∧
      (straysOf [new]).Perm (straysAmong site.birth (change site.children)
        ++ straysOf (change site.children) ++ others) := by
  induction edited with
  | here =>
    refine ⟨[], ?_, ?_⟩
    · rw [straysOf_cons, straysOf_nil]
    · rw [straysOf_cons, straysOf_nil, Tree.birth, Tree.label, (keeps site.label).1]
      exact .refl _
  | @inside label content before after old new edited ih =>
    obtain ⟨others, first, second⟩ := ih
    -- The edited child is the same node and listed as before, so it is a stray if it was one.
    have around : straysAmong label.birth (before ++ new :: after)
        = straysAmong label.birth (before ++ old :: after) := by
      simp only [straysAmong, List.filter_append, List.filter_cons, List.map_append,
        edited.listed_eq keeps]
      split
      · rw [List.map_cons, List.map_cons, edited.birth_eq keeps]
      · rfl
    have whole : ∀ (label : Stamp) (inner : StampedTree),
        straysOf [Tree.node label content (before ++ inner :: after)]
          = straysAmong label.birth (before ++ inner :: after)
            ++ (straysOf before ++ (straysOf [inner] ++ straysOf after)) := fun label inner => by
      rw [straysOf_node, ← straysOf_append, List.singleton_append, ← straysOf_append]
    refine ⟨straysAmong label.birth (before ++ old :: after)
      ++ (straysOf before ++ (straysOf after ++ others)), ?_, ?_⟩
    all_goals
      rw [List.perm_iff_count]
      intro pair
      have first := first.count_eq pair
      have second := second.count_eq pair
      simp only [whole, (keeps label).1, around, List.count_append] at first second ⊢
      omega

end IsEdited

/-- An edit by which roots are taken in and others set free has the strays that it takes in for new
ones, and those that it sets free are strays no more. -/
theorem straysOf_perm_of_editAll? (split : trees.Perm (rest ++ taken))
    (found : editAll? birth date change rest = some edited) (keeps : KeepsLinks date)
    (moved : ∀ site ∈ nodesOf rest, site.birth = birth →
      (change site.children ++ freed).Perm (site.children ++ taken)) :
    (straysOf (edited ++ freed) ++ straysAmong birth freed).Perm
      (straysOf trees ++ straysAmong birth taken) := by
  obtain ⟨site, rfl, before, old, new, after, rfl, rfl, inner⟩ := exists_isEdited_of_editAll? found
  obtain ⟨others, first, second⟩ := inner.exists_strays keeps
  have moved := moved site (List.mem_flatMap.mpr ⟨old, by simp, inner.site_mem⟩) rfl
  have whole : ∀ inner, straysOf (before ++ inner :: after)
      = straysOf before ++ (straysOf [inner] ++ straysOf after) := fun inner => by
    rw [← straysOf_append, List.singleton_append, ← straysOf_append]
  rw [List.perm_iff_count]
  intro pair
  have split := (straysOf_perm split).count_eq pair
  have first := first.count_eq pair
  have second := second.count_eq pair
  have below := (straysOf_perm moved).count_eq pair
  have among := (straysAmong_perm site.birth moved).count_eq pair
  simp only [straysOf_append, straysAmong_append, whole, List.count_append]
    at split first second below among ⊢
  omega

/-- The roots that an edit leaves are listed if all were. -/
theorem listed_of_editAll? (found : editAll? birth date change rest = some edited)
    (keeps : KeepsLinks date) (listed : ∀ tree ∈ rest, tree.listed) :
    ∀ tree ∈ edited, tree.listed := by
  obtain ⟨site, _, before, old, new, after, rfl, rfl, inner⟩ := exists_isEdited_of_editAll? found
  obtain ⟨early, rest⟩ := List.forall_mem_append.mp listed
  obtain ⟨own, late⟩ := List.forall_mem_cons.mp rest
  refine List.forall_mem_append.mpr ⟨early, List.forall_mem_cons.mpr ⟨?_, late⟩⟩
  rwa [inner.listed_eq keeps]

mutual

/-- An edit finds the node that it is meant for. -/
theorem isSome_edit? : ∀ {tree : StampedTree}, birth ∈ birthsOf [tree] →
    (edit? birth date change tree).isSome
  | .node label content children, present => by
    unfold edit?
    split
    · rfl
    · next other =>
      rw [birthsOf_node] at present
      rw [Option.isSome_map]
      exact isSome_editAll? ((List.mem_cons.mp present).resolve_left (Ne.symm other))

/-- A node that is there can be edited. -/
theorem isSome_editAll? : ∀ {trees : List StampedTree}, birth ∈ birthsOf trees →
    (editAll? birth date change trees).isSome
  | [], present => (List.not_mem_nil present).elim
  | tree :: trees, present => by
    unfold editAll?
    split
    · rfl
    · next absent =>
      rw [Option.isSome_map]
      rw [← List.singleton_append, birthsOf_append] at present
      refine isSome_editAll? ((List.mem_append.mp present).resolve_left fun own => ?_)
      have found : (edit? birth date change tree).isSome := isSome_edit? own
      rw [absent] at found
      cases found

end

end StampedTree

/-! ## The strays of a forest -/

namespace Forest

open StampedTree

variable {forest after : Forest} {parent child node : Nat}

/-- The nodes of a forest are dated, and its roots are listed. -/
structure IsRooted (forest : Forest) : Prop where
  dated : forest.IsDated
  listed : ∀ tree ∈ forest.trees, tree.listed

/-- The nodes that belong to a node that does not list them, each with its owner. -/
def strays (forest : Forest) : List (Nat × Nat) := straysOf forest.trees

/-- An insertion by which a root becomes a stray: there is the node to insert it into, and all that
speaks against it is the index. -/
def Slips (forest : Forest) (edit : Edit) (parent child : Nat) : Prop :=
  (∃ index, edit = .insert parent index child) ∧ (forest.find? parent).isSome ∧
    (forest.edit edit).2 = some .noIndex

theorem isRooted_empty : empty.IsRooted := ⟨isDated_empty, List.forall_mem_nil _⟩

namespace IsRooted

/-- A tree that is planted has no strays. -/
theorem plant (rooted : forest.IsRooted) (tree : SyntaxTree) :
    (forest.plant tree).1.IsRooted ∧ (forest.plant tree).1.strays = forest.strays := by
  refine ⟨⟨(rooted.dated.grows_plant tree).dated, ?_⟩, ?_⟩
  · refine List.forall_mem_append.mpr ⟨rooted.listed, List.forall_mem_singleton.mpr ?_⟩
    cases tree
    rfl
  · change straysOf (forest.trees ++ [(tree.stampFrom forest.clock).1]) = _
    have listed := List.forall_mem_singleton.mpr (SyntaxTree.listed_stampFrom tree forest.clock)
    rw [straysOf_append, straysOf_eq_nil listed, List.append_nil]
    rfl

/-- To make a node neither hides a node nor lists a stray. -/
theorem make (rooted : forest.IsRooted) (content : Content) (children : List Nat) :
    (forest.make content children).1.IsRooted ∧
      (forest.make content children).1.strays.Perm forest.strays := by
  refine ⟨⟨(rooted.dated.grows_make content children).dated, ?_⟩, ?_⟩
  all_goals
    obtain ⟨rest, taken, split, made⟩ := rooted.dated.exists_make_eq content children
    have listed : ∀ tree ∈ rest ++ taken, tree.listed := fun tree among =>
      rooted.listed tree (split.mem_iff.mpr among)
    obtain ⟨kept, moved⟩ := List.forall_mem_append.mp listed
    rw [made]
  · exact List.forall_mem_append.mpr ⟨kept, List.forall_mem_singleton.mpr rfl⟩
  · have same := straysOf_perm split
    change (straysOf (rest ++ [.node _ content taken])).Perm _
    rw [straysOf_append, straysOf_node, straysAmong_eq_nil _ moved, List.nil_append]
    rw [straysOf_append] at same
    exact same.symm

/-- An edit that is done neither hides a node nor lists a stray. -/
theorem apply (rooted : forest.IsRooted) {edit : Edit} (done : forest.apply edit = .ok after) :
    after.IsRooted ∧ after.strays.Perm forest.strays := by
  have dated := rooted.dated.apply done
  obtain ⟨split, found, _, moved, freed⟩ := rooted.dated.rearranges done
  have keeps : KeepsLinks fun label => { label with version := forest.clock + 1 } :=
    fun _ => ⟨rfl, rfl⟩
  have listed := fun tree among => rooted.listed tree (split.mem_iff.mpr among)
  obtain ⟨kept, taken⟩ := List.forall_mem_append.mp listed
  refine ⟨⟨dated, List.forall_mem_append.mpr ⟨listed_of_editAll? found keeps kept, freed⟩⟩, ?_⟩
  have same := straysOf_perm_of_editAll? split found keeps moved
  rwa [straysAmong_eq_nil _ freed, straysAmong_eq_nil _ taken, List.append_nil, List.append_nil]
    at same

/-- A root that is held without being listed becomes a stray. -/
theorem hold (rooted : forest.IsRooted) (held : forest.hold parent child = .ok after) :
    after.IsRooted ∧ after.strays.Perm (forest.strays ++ [(parent, child)]) := by
  have dated := rooted.dated.hold held
  obtain ⟨tree, root, rfl, _, edited, found, rfl⟩ := of_hold_eq_ok held
  have keeps : KeepsLinks id := fun _ => ⟨rfl, rfl⟩
  have split := rooted.dated.perm_uproot root
  refine ⟨⟨dated, listed_of_editAll? found keeps fun other among => ?_⟩, ?_⟩
  · exact rooted.listed other (split.mem_iff.mpr (List.mem_append_left _ among))
  · -- The root is no longer listed when it is taken in, so it is taken in as a stray.
    have same : (straysOf (edited ++ []) ++ straysAmong parent []).Perm
        (straysOf ((forest.uproot tree.birth).trees ++ [withListed false tree])
          ++ straysAmong parent [withListed false tree]) :=
      straysOf_perm_of_editAll? (.refl _) found keeps fun site _ _ => by rw [List.append_nil]
    have whole := straysOf_perm split
    have own : straysOf [withListed false tree] = straysOf [tree] := by
      cases tree
      rw [withListed, straysOf_node, straysOf_node]
    have stray : straysAmong parent [withListed false tree] = [(parent, tree.birth)] := by
      cases tree
      rfl
    rw [List.append_nil, stray, straysOf_append, own, ← straysOf_append] at same
    have none : straysAmong parent [] = [] := rfl
    rw [none, List.append_nil] at same
    exact same.trans (whole.symm.append_right _)

end IsRooted

/-! ## Insertions that slip -/

/-- A node that cannot be adopted is refused for another reason than an index. -/
theorem adoptable_ne_noIndex (forest : Forest) (parent child : Nat) :
    forest.adoptable parent child ≠ .error .noIndex := by
  unfold adoptable
  intro refused
  split at refused
  · cases refused
  · split at refused
    · cases refused
    · split at refused <;> cases refused

/-- A change of the children is refused for another reason than an index. -/
theorem change_ne_noIndex (forest : Forest) (parent : Nat)
    (change : List StampedTree → List StampedTree) :
    forest.change parent change ≠ .error .noIndex := by
  unfold Forest.change
  intro refused
  dsimp only at refused
  split at refused <;> cases refused

/-- The index of an insertion is reported if there is nothing else to report. -/
theorem insert_eq_noIndex_iff {index : Int} :
    forest.insert parent index child = .error .noIndex ↔
      isIndex index = false ∧ ∃ tree, forest.adoptable parent child = .ok tree := by
  unfold Forest.insert
  cases adopted : forest.adoptable parent child with
  | error error =>
    constructor
    · intro refused
      cases refused
      exact (adoptable_ne_noIndex forest parent child adopted).elim
    · rintro ⟨_, tree, done⟩
      cases done
  | ok tree =>
    change (if !isIndex index then _ else _) = _ ↔ _
    cases isIndex index with
    | false => exact ⟨fun _ => ⟨rfl, tree, rfl⟩, fun _ => rfl⟩
    | true =>
      constructor
      · intro refused
        exact (change_ne_noIndex _ _ _ refused).elim
      · rintro ⟨beyond, _⟩
        cases beyond

/-- An edit is refused for its index if and only if it does nothing because of it. -/
theorem edit_eq_noIndex_iff {edit : Edit} :
    (forest.edit edit).2 = some .noIndex ↔ forest.apply edit = .error .noIndex := by
  unfold Forest.edit
  cases forest.apply edit with
  | ok after => constructor <;> intro done <;> cases done
  | error error => constructor <;> intro refused <;> cases refused <;> rfl

/-- A node is found in a dated forest just in case its stamp is there. -/
theorem IsDated.isSome_find?_iff (dated : forest.IsDated) :
    (forest.find? node).isSome ↔ node ∈ birthsOf forest.trees := by
  rw [find?, Option.isSome_map]
  constructor
  · intro found
    obtain ⟨place, found⟩ := Option.isSome_iff_exists.mp found
    obtain ⟨_, held, rfl⟩ := of_place?_eq_some found
    exact birth_mem_birthsOf held
  · intro present
    obtain ⟨tree, held, rfl⟩ := List.mem_map.mp present
    obtain ⟨place, found, _⟩ := dated.exists_find?_eq_some held
    rw [find?] at found
    rw [← Option.isSome_map (f := Occurrence.visible), found]
    rfl

/-- A root may come to belong to a node without being listed if it could become a child of it. -/
theorem IsDated.exists_hold_iff (dated : forest.IsDated) :
    (∃ after, forest.hold parent child = .ok after) ↔
      (forest.find? parent).isSome ∧ ∃ tree, forest.adoptable parent child = .ok tree := by
  rw [dated.isSome_find?_iff]
  constructor
  · rintro ⟨after, held⟩
    obtain ⟨tree, adopted, _⟩ := exists_of_bind_eq_ok held
    obtain ⟨_, root, rfl, _, edited, found, rfl⟩ := of_hold_eq_ok held
    obtain ⟨site, rfl, before, old, _, after, split, _, inner⟩ := exists_isEdited_of_editAll? found
    refine ⟨birth_mem_birthsOf ((nodesOf_perm (dated.perm_uproot root)).mem_iff.mpr ?_), tree,
      adopted⟩
    rw [nodesOf_append, split]
    exact List.mem_append_left _ (List.mem_flatMap.mpr ⟨old, by simp, inner.site_mem⟩)
  · rintro ⟨present, tree, adopted⟩
    obtain ⟨root, rfl, outside⟩ := of_adoptable_eq_ok adopted
    have within := (birthsOf_perm (dated.perm_uproot root)).mem_iff.mp present
    rw [birthsOf_append] at within
    have rest := (List.mem_append.mp within).resolve_right outside
    cases held : forest.hold parent tree.birth with
    | ok after => exact ⟨after, rfl⟩
    | error error =>
      unfold Forest.hold at held
      rw [adopted] at held
      dsimp only [bind, Except.bind] at held
      split at held
      · cases held
      · next absent =>
        have found : (editAll? parent id (· ++ [withListed false tree])
            (forest.uproot tree.birth).trees).isSome := isSome_editAll? rest
        rw [absent] at found
        cases found

/-- An insertion slips if its index is none and the root can belong to the node. -/
theorem IsDated.slips_iff (dated : forest.IsDated) {edit : Edit} :
    forest.Slips edit parent child ↔ ∃ index, edit = .insert parent index child ∧
      isIndex index = false ∧ ∃ after, forest.hold parent child = .ok after := by
  constructor
  · rintro ⟨⟨index, rfl⟩, present, refused⟩
    obtain ⟨beyond, adopted⟩ := insert_eq_noIndex_iff.mp (edit_eq_noIndex_iff.mp refused)
    exact ⟨index, rfl, beyond, dated.exists_hold_iff.mpr ⟨present, adopted⟩⟩
  · rintro ⟨index, rfl, beyond, held⟩
    obtain ⟨present, adopted⟩ := dated.exists_hold_iff.mp held
    exact ⟨⟨index, rfl⟩, present,
      edit_eq_noIndex_iff.mpr (insert_eq_noIndex_iff.mpr ⟨beyond, adopted⟩)⟩

/-- An edit that is done does not slip. -/
theorem not_slips_of_done {edit : Edit} (done : forest.apply edit = .ok after) :
    ¬forest.Slips edit parent child := by
  rintro ⟨_, _, refused⟩
  rw [edit_eq_noIndex_iff, done] at refused
  cases refused

/-- What an edit leaves that is refused has one more stray if it slipped, and no others. -/
theorem IsRooted.afterRefusal (rooted : forest.IsRooted) (edit : Edit) :
    (forest.afterRefusal edit).IsRooted ∧ ∀ parent child,
      (parent, child) ∈ (forest.afterRefusal edit).strays ↔
        (parent, child) ∈ forest.strays ∨ forest.Slips edit parent child := by
  by_cases slip : ∃ parent child, forest.Slips edit parent child
  · obtain ⟨parent, child, slips⟩ := slip
    obtain ⟨index, rfl, beyond, after, held⟩ := rooted.dated.slips_iff.mp slips
    have left : forest.afterRefusal (.insert parent index child)
        = (forest.hold parent child).toOption.getD forest := if_neg (ne_true_of_eq_false beyond)
    obtain ⟨isRooted, same⟩ := rooted.hold held
    rw [left, held]
    change after.IsRooted ∧ ∀ owner node, (owner, node) ∈ after.strays ↔ _
    refine ⟨isRooted, fun owner node => ?_⟩
    rw [same.mem_iff, List.mem_append, List.mem_singleton, Prod.mk.injEq]
    refine or_congr .rfl ⟨?_, ?_⟩
    · rintro ⟨rfl, rfl⟩
      exact slips
    · rintro ⟨⟨_, other⟩, _⟩
      cases other
      exact ⟨rfl, rfl⟩
  · have unchanged : forest.afterRefusal edit = forest := by
      cases edit with
      | insert parent index child =>
        unfold Forest.afterRefusal
        dsimp only
        split
        · rfl
        · next beyond =>
          cases held : forest.hold parent child with
          | error error => rfl
          | ok after =>
            refine absurd ⟨parent, child, rooted.dated.slips_iff.mpr ?_⟩ slip
            exact ⟨index, rfl, Bool.not_eq_true _ ▸ beyond, after, held⟩
      | append | remove | replace => rfl
    rw [unchanged]
    refine ⟨rooted, fun parent child => (or_iff_left fun slips => ?_).symm⟩
    exact slip ⟨parent, child, slips⟩

/-- An edit leaves one more stray if it slips, and no others. -/
theorem IsRooted.edit (rooted : forest.IsRooted) (edit : Edit) :
    (forest.edit edit).1.IsRooted ∧ ∀ parent child,
      (parent, child) ∈ (forest.edit edit).1.strays ↔
        (parent, child) ∈ forest.strays ∨ forest.Slips edit parent child := by
  unfold Forest.edit
  cases done : forest.apply edit with
  | error error => exact rooted.afterRefusal edit
  | ok after =>
    obtain ⟨isRooted, same⟩ := rooted.apply done
    refine ⟨isRooted, fun parent child => ?_⟩
    rw [or_iff_left (not_slips_of_done done)]
    exact same.mem_iff

/-! ## What a refused edit leaves -/

/-- A node belongs to the one that lists it, or it is a stray of it. -/
theorem IsDated.parentOf?_eq_some_iff_or (dated : forest.IsDated) :
    forest.parentOf? node = some parent ↔
      node ∈ forest.childrenOf parent ∨ (parent, node) ∈ forest.strays := by
  rw [dated.mem_childrenOf_iff]
  constructor
  · intro belongs
    by_cases stray : (parent, node) ∈ forest.strays
    · exact .inr stray
    · exact .inl ⟨belongs, stray⟩
  · rintro (⟨belongs, _⟩ | stray)
    · exact belongs
    · obtain ⟨owner, held, same, child, below, whole, _⟩ := mem_straysOf.mp stray
      exact dated.parentOf?_eq_some_iff.mpr ⟨owner, held, same, child, below, whole⟩

/-- What is seen of a node is as before when an edit is refused. -/
theorem IsDated.tree_find?_afterRefusal (dated : forest.IsDated) (edit : Edit) (node : Nat) :
    ((forest.afterRefusal edit).find? node).map Occurrence.tree
      = (forest.find? node).map Occurrence.tree := by
  have same : (birthsOf (forest.afterRefusal edit).trees).Perm (birthsOf forest.trees) := by
    rcases forest.afterRefusal_eq_or_hold edit with same | ⟨parent, child, held⟩
    · rw [same]
    · exact dated.birthsOf_perm_of_hold held
  have datedAfter := dated.afterRefusal edit
  by_cases present : node ∈ birthsOf (forest.afterRefusal edit).trees
  · obtain ⟨tree, held, rfl⟩ := List.mem_map.mp present
    obtain ⟨before, old, seen⟩ := exists_visible_of_refused dated edit held
    obtain ⟨place, found, whole⟩ := datedAfter.exists_find?_eq_some held
    obtain ⟨earlier, foundBefore, wholeBefore⟩ := dated.exists_find?_eq_some old
    rw [← Tree.birth_visible before, seen, Tree.birth_visible] at foundBefore
    rw [found, foundBefore, Option.map_some, Option.map_some, whole, wholeBefore, seen]
  · have absent := present
    rw [same.mem_iff, ← dated.isSome_find?_iff, Option.not_isSome_iff_eq_none] at absent
    rw [← datedAfter.isSome_find?_iff, Option.not_isSome_iff_eq_none] at present
    rw [absent, present]

/-- The children of a node are those of the node that is found. -/
theorem childrenOf_eq_map (forest : Forest) (node : Nat) :
    forest.childrenOf node
      = ((forest.find? node).map Occurrence.tree).elim [] fun tree =>
        tree.children.map Tree.birth := by
  unfold childrenOf
  cases forest.find? node <;> rfl

/-- The version of a node is that of the node that is found. -/
theorem versionOf?_eq_map (forest : Forest) (node : Nat) :
    forest.versionOf? node = ((forest.find? node).map Occurrence.tree).map Tree.version := by
  unfold versionOf?
  cases forest.find? node <;> rfl

theorem fst_edit_of_refused {edit : Edit} (refused : (forest.edit edit).2.isSome) :
    (forest.edit edit).1 = forest.afterRefusal edit := by
  unfold Forest.edit at refused ⊢
  cases done : forest.apply edit with
  | ok after =>
    rw [done] at refused
    cases refused
  | error error => rfl

/-- An edit that is refused leaves all nodes with their children and versions, and with their
parents, but that a root that slips gets one. -/
theorem IsRooted.of_refused (rooted : forest.IsRooted) {edit : Edit}
    (refused : (forest.edit edit).2.isSome) (node : Nat) :
    (forest.edit edit).1.childrenOf node = forest.childrenOf node ∧
      (forest.edit edit).1.versionOf? node = forest.versionOf? node ∧
      ∀ parent, (forest.edit edit).1.parentOf? node = some parent ↔
        forest.parentOf? node = some parent ∨ forest.Slips edit parent node := by
  obtain ⟨later, strays⟩ := rooted.edit edit
  have children : ∀ node, (forest.edit edit).1.childrenOf node = forest.childrenOf node ∧
      (forest.edit edit).1.versionOf? node = forest.versionOf? node := by
    intro node
    have same := rooted.dated.tree_find?_afterRefusal edit node
    rw [fst_edit_of_refused refused, childrenOf_eq_map, versionOf?_eq_map, same,
      ← childrenOf_eq_map, ← versionOf?_eq_map]
    exact ⟨rfl, rfl⟩
  refine ⟨(children node).1, (children node).2, fun parent => ?_⟩
  rw [later.dated.parentOf?_eq_some_iff_or, rooted.dated.parentOf?_eq_some_iff_or, strays,
    (children parent).1, or_assoc]

end Forest

/-! ## Any number of steps -/

namespace Inquiry

variable {table : ConstructTable} {steps : List Step} {parent node : Nat}

/-- An insertion among the steps slipped, and `node` has been a stray of `parent` since then. -/
def Slipped (table : ConstructTable) (steps : List Step) (parent node : Nat) : Prop :=
  ∃ before edit after, steps = before ++ .edit edit :: after ∧
    (run table before).forest.Slips edit parent node

theorem run_concat (table : ConstructTable) (steps : List Step) (step : Step) :
    run table (steps ++ [step]) = (run table steps).step step :=
  List.foldl_concat _ _ _ _

theorem slipped_nil : ¬Slipped table [] parent node := by
  rintro ⟨before, edit, after, none, _⟩
  cases before <;> cases none

/-- After one more step the same insertions have slipped, and the last step if it is one. -/
theorem slipped_concat {step : Step} :
    Slipped table (steps ++ [step]) parent node ↔ Slipped table steps parent node ∨
      ∃ edit, step = .edit edit ∧ (run table steps).forest.Slips edit parent node := by
  constructor
  · rintro ⟨before, edit, after, split, slips⟩
    rcases List.eq_nil_or_concat after with rfl | ⟨earlier, last, rfl⟩
    · obtain ⟨rfl, same⟩ := List.append_inj' split rfl
      cases same
      exact .inr ⟨edit, rfl, slips⟩
    · rw [List.concat_eq_append, ← List.cons_append, ← List.append_assoc] at split
      obtain ⟨rfl, _⟩ := List.append_inj' split rfl
      exact .inl ⟨before, edit, earlier, rfl, slips⟩
  · rintro (⟨before, edit, after, rfl, slips⟩ | ⟨edit, rfl, slips⟩)
    · exact ⟨before, edit, after ++ [step], by simp, slips⟩
    · exact ⟨steps, edit, [], rfl, slips⟩

/-- An edit changes the forest of an inquiry as it changes any. -/
theorem forest_step_edit (inquiry : Inquiry) (edit : Edit) :
    (inquiry.step (.edit edit)).forest = (inquiry.forest.edit edit).1 := by
  unfold Inquiry.step
  dsimp only
  split
  all_goals
    next result =>
      rw [result]

/-- A question changes no forest. -/
theorem forest_step_ask (inquiry : Inquiry) (query : Query Nat) :
    (inquiry.step (.ask query)).forest = inquiry.forest := by
  unfold Inquiry.step
  dsimp only
  split <;> rfl

/-- One step keeps the roots of a forest listed, and a node becomes a stray only by an insertion
that slips. -/
theorem isRooted_step {inquiry : Inquiry} (rooted : inquiry.forest.IsRooted) (step : Step) :
    (inquiry.step step).forest.IsRooted ∧ ∀ parent node,
      (parent, node) ∈ (inquiry.step step).forest.strays ↔
        (parent, node) ∈ inquiry.forest.strays ∨
          ∃ edit, step = .edit edit ∧ inquiry.forest.Slips edit parent node := by
  have kept : ∀ {after : Forest}, (∀ edit, step ≠ .edit edit) →
      after.strays.Perm inquiry.forest.strays → ∀ parent node,
        (parent, node) ∈ after.strays ↔ (parent, node) ∈ inquiry.forest.strays ∨
          ∃ edit, step = .edit edit ∧ inquiry.forest.Slips edit parent node := by
    intro after other same parent node
    rw [same.mem_iff, or_iff_left]
    rintro ⟨edit, isEdit, _⟩
    exact other edit isEdit
  cases step with
  | plant tree =>
    obtain ⟨later, same⟩ := rooted.plant tree
    exact ⟨later, kept (fun _ => Step.noConfusion) (.of_eq same)⟩
  | make content children =>
    obtain ⟨later, same⟩ := rooted.make content children
    exact ⟨later, kept (fun _ => Step.noConfusion) same⟩
  | edit edit =>
    obtain ⟨later, strays⟩ := rooted.edit edit
    rw [forest_step_edit]
    refine ⟨later, fun parent node => (strays parent node).trans (or_congr .rfl ?_)⟩
    constructor
    · exact fun slips => ⟨edit, rfl, slips⟩
    · rintro ⟨_, same, slips⟩
      cases same
      exact slips
  | ask query =>
    rw [forest_step_ask]
    exact ⟨rooted, kept (fun _ => Step.noConfusion) (.refl _)⟩

/-- After any steps the strays are the nodes that have slipped. -/
theorem isRooted_run (table : ConstructTable) (steps : List Step) :
    (run table steps).forest.IsRooted ∧ ∀ parent node,
      (parent, node) ∈ (run table steps).forest.strays ↔ Slipped table steps parent node := by
  induction steps using List.reverseRecOn with
  | nil => exact ⟨Forest.isRooted_empty, fun _ _ => iff_of_false List.not_mem_nil slipped_nil⟩
  | append_singleton steps step ih =>
    obtain ⟨rooted, same⟩ := ih
    obtain ⟨later, strays⟩ := isRooted_step rooted step
    rw [run_concat]
    exact ⟨later, fun parent node => by rw [strays, slipped_concat, same]⟩

/-- Whatever trees have been planted and nodes made and edited, a node lists those that belong to
it, each once, except for the strays: roots that were inserted into it at a number that is no index.
They belong to it from then on. The nodes around a node are found by going from each to the one it
belongs to, and the node is none of them. An edit that is refused leaves all nodes with their
children, their versions and their parents, but that a root that slips gets one. -/
theorem links_run (table : ConstructTable) (steps : List Step) :
    let forest := (run table steps).forest
    (∀ parent node, node ∈ forest.childrenOf parent ↔
      forest.parentOf? node = some parent ∧ ¬Slipped table steps parent node) ∧
    (∀ parent node, Slipped table steps parent node → forest.parentOf? node = some parent) ∧
    (∀ parent, (forest.childrenOf parent).Nodup) ∧
    (∀ node, node ∉ forest.ancestorsOf node ∧ forest.ancestorsOf node
      = (forest.parentOf? node).elim [] fun parent => parent :: forest.ancestorsOf parent) ∧
    ∀ edit, (forest.edit edit).2.isSome → ∀ node,
      (forest.edit edit).1.childrenOf node = forest.childrenOf node ∧
      (forest.edit edit).1.versionOf? node = forest.versionOf? node ∧
      ∀ parent, (forest.edit edit).1.parentOf? node = some parent ↔
        forest.parentOf? node = some parent ∨ forest.Slips edit parent node := by
  obtain ⟨rooted, strays⟩ := isRooted_run table steps
  refine ⟨fun parent node => ?_, fun parent node slipped => ?_, rooted.dated.nodup_childrenOf,
    fun node => ⟨rooted.dated.not_mem_ancestorsOf node, rooted.dated.ancestorsOf_eq node⟩,
    fun _ => rooted.of_refused⟩
  · rw [← strays]
    exact rooted.dated.mem_childrenOf_iff
  · exact rooted.dated.parentOf?_eq_some_iff_or.mpr (.inr ((strays parent node).mpr slipped))

/-- The rule without exceptions: a node belongs to the one that lists it, once, no node is around
itself, and an edit that is refused changes nothing. -/
structure KeepsLinks (table : ConstructTable) (steps : List Step) : Prop where
  parents : ∀ parent node, (run table steps).forest.parentOf? node = some parent ↔
    node ∈ (run table steps).forest.childrenOf parent
  once : ∀ parent, ((run table steps).forest.childrenOf parent).Nodup
  around : ∀ node, node ∉ (run table steps).forest.ancestorsOf node
  refused : ∀ edit, ((run table steps).forest.edit edit).2.isSome → ∀ node,
    ((run table steps).forest.edit edit).1.parentOf? node
        = (run table steps).forest.parentOf? node ∧
      ((run table steps).forest.edit edit).1.childrenOf node
        = (run table steps).forest.childrenOf node ∧
      ((run table steps).forest.edit edit).1.versionOf? node
        = (run table steps).forest.versionOf? node

open SyntaxTree in
/-- The call `f[a]` and the symbol `y`, which are planted as roots. -/
def callAndSymbol : List Step :=
  [.plant (ofKind .file [ofKind .functionCall [ofName "f", ofName "a"]]), .plant (ofName "y")]

/-- The symbol is inserted at the end of all integers that have 64 bits and a sign. -/
def farInsertion : Edit := .insert 6 indexBound 8

/-- An insertion that is refused for its index gives the root an owner, which does not list it. -/
theorem not_keepsLinks : ¬∀ steps, KeepsLinks .standard steps := by
  intro keeps
  have unchanged := (keeps callAndSymbol).refused farInsertion (by decide) 8
  have before : (run .standard callAndSymbol).forest.parentOf? 8 = none := by decide
  have after : ((run .standard callAndSymbol).forest.edit farInsertion).1.parentOf? 8 = some 6 := by
    decide
  rw [before, after] at unchanged
  cases unchanged.1

end Inquiry

end WolframSyntax
