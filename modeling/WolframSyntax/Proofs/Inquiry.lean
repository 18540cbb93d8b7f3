import WolframSyntax.Proofs.Answers
import WolframSyntax.Proofs.Links

/-!
# One classifier for changing trees

Trees are planted, nodes are made and edited, and all the time one classifier is asked about them
(`Inquiry.run`). It replies as a classifier that was never asked before, and it works out what
construct a node is only with cause: when the node was never asked about, or when since then an edit
was done of the node or of one that it held at that time (`Event.isDue`). The invariant is
`Inquiry.Tracks`, and the main result `Inquiry.reply_run`.
-/

namespace WolframSyntax

/-- Whether a node is another one or above it, when the tree has the nodes of this forest. -/
def Forest.holds (forest : Forest) (node site : Nat) : Bool :=
  (forest.place? node).any fun place => place.tree.contains site

/-- A node was asked about, or an edit of a node was done in a forest. -/
inductive Event where
  | asked (node : Nat)
  | edited (forest : Forest) (site : Nat)

namespace Event

/-- Whether the node was asked about. -/
def asks (node : Nat) : Event → Bool
  | asked other => other == node
  | edited _ _ => false

/-- Whether the node was edited, or one that it held. -/
def touches (node : Nat) : Event → Bool
  | asked _ => false
  | edited forest site => forest.holds node site

/-- Whether there is cause to work out what a node is: it was never asked about, or it was touched
since then. The latest event comes first. -/
def isDue (history : List Event) (node : Nat) : Bool :=
  !history.any (asks node) ||
    (history.takeWhile fun event => !event.asks node).any (touches node)

/-- The history after nodes have been asked about one after another. -/
def record (history : List Event) (trees : List StampedTree) : List Event :=
  trees.foldl (fun history tree => .asked tree.birth :: history) history

variable {history : List Event} {node other : Nat}

/-- A node that has just been asked about is not due. -/
theorem isDue_asked_self (history : List Event) (node : Nat) :
    isDue (.asked node :: history) node = false := by
  simp [isDue, asks]

/-- A question about one node makes no other one due. -/
theorem isDue_asked_of_ne (apart : other ≠ node) :
    isDue (.asked other :: history) node = isDue history node := by
  have unasked : (asked other).asks node = false := beq_false_of_ne apart
  simp [isDue, unasked, touches]

/-- An edit makes those nodes due that hold the edited one. -/
theorem isDue_edited (forest : Forest) (site : Nat) (history : List Event) (node : Nat) :
    isDue (.edited forest site :: history) node
      = (forest.holds node site || isDue history node) := by
  simp [isDue, asks, touches, Bool.or_left_comm]

/-- A node that was never asked about is due. -/
theorem isDue_of_not_mem (never : .asked node ∉ history) : isDue history node := by
  have unasked : history.any (asks node) = false := by
    rw [List.any_eq_false]
    intro event among asked
    cases event with
    | asked other => exact never (by rwa [← eq_of_beq asked])
    | edited forest site => cases asked
  rw [isDue, unasked]
  rfl

end Event

namespace Forest

variable {forest after : Forest} {tree node : StampedTree}

/-- In a dated forest a node holds those that its tree contains. -/
theorem IsDated.holds_birth (dated : forest.IsDated) (present : node ∈ forest.nodes) (site : Nat) :
    forest.holds node.birth site = node.contains site := by
  obtain ⟨place, among, rfl⟩ := List.mem_map.mp (map_tree_occurrences forest ▸ present)
  rw [holds, dated.place?_eq_some_iff.mpr ⟨among, rfl⟩, Option.any_some]

/-- After an edit that is done, what is seen of a node is either the same, and the node did not hold
the edited one, or it is new, and the node did. -/
theorem shows_of_apply (dated : forest.IsDated) {edit : Edit} (done : forest.apply edit = .ok after)
    (shown : after.Shows tree) :
    (forest.Shows tree ∧ forest.holds tree.birth edit.parent = false) ∨
      (forest.clock < tree.version ∧ forest.holds tree.birth edit.parent) := by
  obtain ⟨node, present, rfl⟩ := shown
  rw [Tree.birth_visible, Tree.version_visible]
  rcases mem_nodes_of_apply dated done present with ⟨old, apart⟩ | ⟨new, before, old, same, held⟩
  · exact .inl ⟨⟨node, old, rfl⟩, (dated.holds_birth old _).trans apart⟩
  · rw [← same, dated.holds_birth old]
    exact .inr ⟨by omega, held⟩

/-- What is shown after a forest has grown was shown before, or is newer than the clock. -/
theorem Grows.shows (grows : forest.Grows after) (shown : after.Shows tree) :
    forest.Shows tree ∨ forest.clock < tree.birth := by
  obtain ⟨node, present, rfl⟩ := shown
  rcases grows.nodes node present with old | new
  · exact .inl ⟨node, old, rfl⟩
  · exact .inr (by rwa [Tree.birth_visible])

/-- A refused edit shows no new trees. -/
theorem shows_of_refused (dated : forest.IsDated) (edit : Edit)
    (shown : (forest.afterRefusal edit).Shows tree) : forest.Shows tree := by
  obtain ⟨node, present, rfl⟩ := shown
  exact exists_visible_of_refused dated edit present

end Forest

namespace Classifier

variable {classifier : Classifier} {tree : StampedTree} {clock : Nat}

/-- Whether all that a classifier remembers is from the time before the clock struck. -/
def IsBefore (clock : Nat) (classifier : Classifier) : Prop :=
  ∀ answer ∈ classifier.answers, answer.birth ≤ clock ∧ answer.version ≤ clock

/-- A classifier remembers nothing of a node that is newer than all it remembers. -/
theorem IsBefore.current?_eq_none (past : classifier.IsBefore clock)
    (later : clock < tree.birth ∨ clock < tree.version) : classifier.current? tree = none := by
  unfold current?
  cases held : classifier.answer? tree.birth with
  | none => rfl
  | some answer =>
    have bounds := past answer (List.mem_of_find?_eq_some held)
    have same := List.find?_some held
    rw [beq_iff_eq] at same
    apply if_neg
    omega

/-- A classifier that classifies a node of the past still remembers only the past. -/
theorem IsBefore.classify (past : classifier.IsBefore clock) (birth : tree.birth ≤ clock)
    (version : tree.version ≤ clock) : (classifier.classify tree).2.IsBefore clock := by
  unfold Classifier.classify
  cases classifier.current? tree with
  | some construct => exact past
  | none =>
    refine List.forall_mem_cons.mpr ⟨⟨birth, version⟩, fun answer among => ?_⟩
    exact past answer (List.mem_filter.mp among).1

/-- A construct is worked out once more if the classifier does not remember it. -/
theorem recomputations_classify (classifier : Classifier) (tree : StampedTree) :
    (classifier.classify tree).2.recomputations
      = classifier.recomputations + (classifier.current? tree).isNone.toNat := by
  unfold classify
  cases classifier.current? tree <;> rfl

end Classifier

/-- A forest, the classifier that is asked about it, and what has happened, latest event first. -/
structure Inquiry where
  forest : Forest
  classifier : Classifier
  history : List Event

namespace Inquiry

/-- A tree is planted, a node is made of roots, an edit is tried or a question is asked. -/
inductive Step where
  | plant (tree : SyntaxTree)
  | make (content : Content) (children : List Nat)
  | edit (edit : Edit)
  | ask (query : Query Nat)

/-- What a step leads to. An edit that is refused is no event, and neither is a question about nodes
that do not exist. -/
def step (inquiry : Inquiry) : Step → Inquiry
  | .plant tree => { inquiry with forest := (inquiry.forest.plant tree).1 }
  | .make content children =>
    { inquiry with forest := (inquiry.forest.make content children).1 }
  | .edit edit =>
    match inquiry.forest.edit edit with
    | (forest, none) =>
      { inquiry with forest, history := .edited inquiry.forest edit.parent :: inquiry.history }
    | (forest, some _) => { inquiry with forest }
  | .ask query =>
    match query.locate? inquiry.forest with
    | some located =>
      { inquiry with
        classifier := (inquiry.classifier.reply located).2
        history := Event.record inquiry.history (located.asks inquiry.classifier.table) }
    | none => inquiry

/-- What some steps lead to with a classifier that has not been asked anything. -/
def run (table : ConstructTable) (steps : List Step) : Inquiry :=
  steps.foldl step ⟨.empty, .ofTable table, []⟩

/-- The classifier knows the forest, and it remembers the construct of a node unless the history
says that it is due. -/
structure Tracks (table : ConstructTable) (inquiry : Inquiry) : Prop where
  dated : inquiry.forest.IsDated
  knows : inquiry.classifier.Knows inquiry.forest table
  past : inquiry.classifier.IsBefore inquiry.forest.clock
  asked : ∀ node, .asked node ∈ inquiry.history → node ≤ inquiry.forest.clock
  due : ∀ tree, inquiry.forest.Shows tree →
    (inquiry.classifier.current? tree).isNone = Event.isDue inquiry.history tree.birth

namespace Tracks

variable {table : ConstructTable} {inquiry : Inquiry} {tree : StampedTree} {forest : Forest}

theorem start (table : ConstructTable) : Tracks table ⟨.empty, .ofTable table, []⟩ :=
  ⟨Forest.isDated_empty, Classifier.knows_ofTable _ _, List.forall_mem_nil _,
    fun _ none => (List.not_mem_nil none).elim, fun _ _ => rfl⟩

/-- A node that is shown was born before the clock. -/
theorem birth_le (tracks : inquiry.Tracks table) (shown : inquiry.forest.Shows tree) :
    tree.birth ≤ inquiry.forest.clock := by
  obtain ⟨node, present, rfl⟩ := shown
  rw [Tree.birth_visible]
  exact tracks.dated.births node present

theorem version_le (tracks : inquiry.Tracks table) (shown : inquiry.forest.Shows tree) :
    tree.version ≤ inquiry.forest.clock := by
  obtain ⟨node, present, rfl⟩ := shown
  rw [Tree.version_visible]
  exact tracks.dated.versions node present

/-- The construct of a node is worked out once more just in case it is due. -/
theorem recomputations (tracks : inquiry.Tracks table) (shown : inquiry.forest.Shows tree) :
    (inquiry.classifier.classify tree).2.recomputations
      = inquiry.classifier.recomputations + (Event.isDue inquiry.history tree.birth).toNat := by
  rw [Classifier.recomputations_classify, tracks.due tree shown]

/-- A classifier keeps track when it classifies a node. -/
theorem classify (tracks : inquiry.Tracks table) (shown : inquiry.forest.Shows tree) :
    Tracks table { inquiry with
      classifier := (inquiry.classifier.classify tree).2
      history := .asked tree.birth :: inquiry.history } := by
  refine ⟨tracks.dated, tracks.knows.classify tracks.dated shown,
    tracks.past.classify (tracks.birth_le shown) (tracks.version_le shown), ?_, ?_⟩
  · intro node among
    rcases List.mem_cons.mp among with new | old
    · cases new
      exact tracks.birth_le shown
    · exact tracks.asked node old
  · intro other present
    dsimp only
    by_cases same : tree.birth = other.birth
    · obtain rfl := tracks.dated.eq_of_shows shown present same
      rw [Classifier.current?_classify_self, Event.isDue_asked_self]
      rfl
    · rw [Classifier.current?_classify_of_ne _ same, Event.isDue_asked_of_ne same]
      exact tracks.due other present

theorem classifyAll (tracks : inquiry.Tracks table) {trees : List StampedTree}
    (shown : ∀ tree ∈ trees, inquiry.forest.Shows tree) :
    Tracks table { inquiry with
      classifier := inquiry.classifier.classifyAll trees
      history := Event.record inquiry.history trees } := by
  induction trees generalizing inquiry with
  | nil => exact tracks
  | cons tree trees ih =>
    obtain ⟨first, rest⟩ := List.forall_mem_cons.mp shown
    exact ih (tracks.classify first) rest

/-- A classifier keeps track whatever its journal says. -/
theorem of_forget_eq (tracks : inquiry.Tracks table) {classifier : Classifier}
    (same : classifier.forget = inquiry.classifier.forget) :
    Tracks table { inquiry with classifier } := by
  have answers : classifier.forget.answers = inquiry.classifier.forget.answers := by rw [same]
  refine ⟨tracks.dated, tracks.knows.of_forget_eq same, ?_, tracks.asked, ?_⟩
  · intro answer among
    have among : answer ∈ classifier.forget.answers := among
    rw [answers] at among
    exact tracks.past answer among
  · intro tree shown
    rw [← tracks.due tree shown]
    apply congrArg Option.isNone
    apply Classifier.current?_of_answer?_eq
    exact congrArg (List.find? _) answers

/-- Nodes that are new are due, and the others are as before. -/
theorem grow (tracks : inquiry.Tracks table) (dated : forest.IsDated)
    (clock : inquiry.forest.clock ≤ forest.clock)
    (shows : ∀ tree, forest.Shows tree →
      inquiry.forest.Shows tree ∨ inquiry.forest.clock < tree.birth) :
    Tracks table { inquiry with forest } := by
  have unknown : ∀ tree, inquiry.forest.clock < tree.birth →
      inquiry.classifier.current? tree = none :=
    fun tree new => tracks.past.current?_eq_none (.inl new)
  refine ⟨dated, ⟨tracks.knows.tabled, ?_⟩, ?_, ?_, ?_⟩
  · intro tree shown construct held
    rcases shows tree shown with old | new
    · exact tracks.knows.right tree old construct held
    · rw [unknown tree new] at held
      cases held
  · intro answer among
    have bounds := tracks.past answer among
    dsimp only
    omega
  · intro node among
    exact Nat.le_trans (tracks.asked node among) clock
  · intro tree shown
    rcases shows tree shown with old | new
    · exact tracks.due tree old
    · have never : .asked tree.birth ∉ inquiry.history := fun among => by
        have bound := tracks.asked _ among
        omega
      rw [unknown tree new, Event.isDue_of_not_mem never]
      rfl

/-- An edit makes due what it touches, and no other node. -/
theorem apply (tracks : inquiry.Tracks table) {edit : Edit}
    (done : inquiry.forest.apply edit = .ok forest) :
    Tracks table { inquiry with
      forest, history := .edited inquiry.forest edit.parent :: inquiry.history } := by
  have shows := fun tree (shown : forest.Shows tree) =>
    Forest.shows_of_apply tracks.dated done shown
  have clock := Forest.clock_of_apply tracks.dated done
  refine ⟨tracks.dated.apply done, ⟨tracks.knows.tabled, ?_⟩, ?_, ?_, ?_⟩
  · intro tree shown construct held
    rcases shows tree shown with ⟨old, _⟩ | ⟨new, _⟩
    · exact tracks.knows.right tree old construct held
    · rw [tracks.past.current?_eq_none (.inr new)] at held
      cases held
  · intro answer among
    have bounds := tracks.past answer among
    dsimp only
    omega
  · intro node among
    rcases List.mem_cons.mp among with edit | old
    · cases edit
    · have bound := tracks.asked node old
      dsimp only
      omega
  · intro tree shown
    dsimp only
    rw [Event.isDue_edited]
    rcases shows tree shown with ⟨old, apart⟩ | ⟨new, held⟩
    · rw [apart]
      exact tracks.due tree old
    · rw [held, tracks.past.current?_eq_none (.inr new)]
      rfl

/-- A classifier keeps track with every step. -/
theorem step (tracks : inquiry.Tracks table) (step : Step) : Tracks table (inquiry.step step) := by
  cases step with
  | plant tree =>
    have grows := tracks.dated.grows_plant tree
    exact tracks.grow grows.dated grows.clock fun _ => grows.shows
  | make content children =>
    have grows := tracks.dated.grows_make content children
    exact tracks.grow grows.dated grows.clock fun _ => grows.shows
  | edit edit =>
    unfold Inquiry.step Forest.edit
    dsimp only
    cases done : inquiry.forest.apply edit with
    | ok forest => exact tracks.apply done
    | error error =>
      exact tracks.grow (tracks.dated.afterRefusal edit)
        (Nat.le_of_eq (inquiry.forest.clock_afterRefusal edit).symm)
        fun _ shown => .inl (Forest.shows_of_refused tracks.dated edit shown)
  | ask query =>
    unfold Inquiry.step
    dsimp only
    split
    · next located found =>
      have shown := Forest.shown_of_locate? found
      obtain ⟨_, asked⟩ := tracks.knows.reply tracks.dated shown
      rw [tracks.knows.tabled]
      exact (tracks.classifyAll (Classifier.shows_of_mem_asks shown)).of_forget_eq asked
    · exact tracks

/-- A classifier keeps track over any steps. -/
theorem run (table : ConstructTable) (steps : List Step) : Tracks table (run table steps) := by
  have kept : ∀ inquiry : Inquiry, Tracks table inquiry →
      Tracks table (steps.foldl Inquiry.step inquiry) := by
    induction steps with
    | nil => exact fun _ tracks => tracks
    | cons step steps ih => exact fun _ tracks => ih _ (tracks.step step)
  exact kept _ (start table)

end Tracks

/-- Whatever has been done before, a question is answered as by a classifier that was never asked
before, and the nodes that are classified for the answer are worked out when they are due and only
then. -/
theorem reply_run (table : ConstructTable) (steps : List Step) {query : Query Nat}
    {located : Query (Occurrence Stamp)}
    (found : query.locate? (run table steps).forest = some located) :
    ((run table steps).classifier.reply located).1 = ((Classifier.ofTable table).reply located).1 ∧
      (run table steps).classifier.Asked (located.asks table)
        ((run table steps).classifier.reply located).2 ∧
      ∀ before node after, located.asks table = before ++ node :: after →
        (((run table steps).classifier.classifyAll before).classify node).2.recomputations
          = ((run table steps).classifier.classifyAll before).recomputations
            + (Event.isDue (Event.record (run table steps).history before) node.birth).toNat := by
  have tracks := Tracks.run table steps
  have shown := Forest.shown_of_locate? found
  obtain ⟨same, asked⟩ := tracks.knows.reply tracks.dated shown
  obtain ⟨fresh, _⟩ := (Classifier.knows_ofTable _ table).reply tracks.dated shown
  refine ⟨same.trans fresh.symm, asked, fun before node after split => ?_⟩
  have among : ∀ tree ∈ located.asks table, (run table steps).forest.Shows tree :=
    Classifier.shows_of_mem_asks shown
  rw [split] at among
  obtain ⟨early, late⟩ := List.forall_mem_append.mp among
  exact (tracks.classifyAll early).recomputations (List.forall_mem_cons.mp late).1

open SyntaxTree in
/-- The call `Module[{x}, x]` is planted, its last symbol is resolved and the variable removed. -/
def removal : List Step :=
  [.plant (ofKind .functionCall [ofName "Module", ofKind .list [ofName "x"], ofName "x"]),
    .ask (.resolve 7), .edit (.remove 5 4)]

theorem reply_run_removal :
    ∃ located, (Query.resolve 7).locate? (run .standard removal).forest = some located ∧
      ((run .standard removal).classifier.reply located).1
        = ((Classifier.ofTable .standard).reply located).1 ∧
      (run .standard removal).classifier.Asked (located.asks .standard)
        ((run .standard removal).classifier.reply located).2 := by
  have exists_place : ((Query.resolve 7).locate? (run .standard removal).forest).isSome := by decide
  obtain ⟨located, found⟩ := Option.isSome_iff_exists.mp exists_place
  obtain ⟨same, asked, _⟩ := reply_run .standard removal found
  exact ⟨located, found, same, asked⟩

/-- The call is worked out once for the first answer and once more after the edit. -/
example : (run .standard (removal ++ [.ask (.resolve 7)])).classifier.recomputations = 2 := by
  decide

end Inquiry

end WolframSyntax
