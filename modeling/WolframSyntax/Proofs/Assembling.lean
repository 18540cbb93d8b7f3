import Mathlib.Data.List.Nodup
import WolframSyntax.Proofs.Marks
import WolframSyntax.Proofs.Tree

/-!
# What is built from a production

A production is built to a tree that keeps all tokens and has one node for each mark that has not
been dropped, with what the mark says. A mark that was put around another one becomes a node
around the node of that one (`Production.build_run`). Otherwise the building is refused.

The nodes of marks are named in a copy of the tree that carries labels. While the tree is being
made, its open marks are a scaffold, and what is known of a finished node is known of it from the
moment when its mark is opened: which nodes are around it (`Scaffold.lineages`) does not change when
a mark is closed.
-/

namespace WolframSyntax

/-- A tree in which the node of a mark carries its name. -/
abbrev MarkedTree := Tree (Option MarkId)

namespace Tree

mutual

/-- A tree without its labels. -/
def unlabelled {Label : Type} : Tree Label → SyntaxTree
  | node _ content children => node () content (unlabelledAll children)

/-- Trees without their labels. -/
def unlabelledAll {Label : Type} : List (Tree Label) → List SyntaxTree
  | [] => []
  | tree :: trees => tree.unlabelled :: unlabelledAll trees

end

theorem unlabelledAll_eq_map {Label : Type} (trees : List (Tree Label)) :
    unlabelledAll trees = trees.map unlabelled := by
  induction trees with
  | nil => rfl
  | cons tree trees ih => rw [unlabelledAll, ih, List.map_cons]

theorem unlabelled_node {Label : Type} (label : Label) (content : Content)
    (children : List (Tree Label)) :
    unlabelled (node label content children) = node () content (children.map unlabelled) := by
  rw [unlabelled, unlabelledAll_eq_map]

@[simp] theorem tokens_unlabelled {Label : Type} (tree : Tree Label) :
    tree.unlabelled.tokens = tree.tokens := by
  induction tree with
  | node label content children ih =>
    rw [unlabelled_node, tokens_node, tokens_node, List.flatMap_map]
    congr 1
    exact List.flatMap_congr ih

/-- The names of the nodes in document order. -/
def names (tree : MarkedTree) : List MarkId := tree.walk.filterMap label

/-- The node of one mark has the node of another one below it. -/
def Surrounds (tree : MarkedTree) (outer inner : MarkId) : Prop :=
  ∃ node ∈ tree.walk, node.label = some outer ∧
    ∃ child ∈ node.children, ∃ below ∈ child.walk, below.label = some inner

mutual

/-- For every named node, in document order, its name and the names around it, those of `above`
included, innermost first. -/
def lineages (above : List MarkId) : MarkedTree → List (List MarkId)
  | node none _ children => lineagesAll above children
  | node (some id) _ children => (id :: above) :: lineagesAll (id :: above) children

/-- The same for the trees of a list. -/
def lineagesAll (above : List MarkId) : List MarkedTree → List (List MarkId)
  | [] => []
  | tree :: trees => tree.lineages above ++ lineagesAll above trees

end

theorem lineagesAll_eq_flatMap (above : List MarkId) (trees : List MarkedTree) :
    lineagesAll above trees = trees.flatMap (lineages above) := by
  induction trees with
  | nil => rfl
  | cons tree trees ih => rw [lineagesAll, ih, List.flatMap_cons]

/-- A mark's node has its own lineage, and is in those of everything under it. -/
theorem lineages_mark (above : List MarkId) (id : MarkId) (content : Content)
    (children : List MarkedTree) :
    lineages above (node (some id) content children)
      = (id :: above) :: children.flatMap (lineages (id :: above)) := by
  rw [lineages, lineagesAll_eq_flatMap]

/-- A token's leaf is in no lineage. -/
theorem lineages_plain (above : List MarkId) (content : Content) (children : List MarkedTree) :
    lineages above (node none content children) = children.flatMap (lineages above) := by
  rw [lineages, lineagesAll_eq_flatMap]

/-- The names of the nodes are the first ones of their lineages. -/
theorem heads_lineages (tree : MarkedTree) (above : List MarkId) :
    (tree.lineages above).filterMap List.head? = tree.names := by
  induction tree using induct generalizing above with
  | node label content children ih =>
    have below : ∀ above, (children.flatMap (lineages above)).filterMap List.head?
        = (children.flatMap walk).filterMap Tree.label := by
      intro above
      rw [List.filterMap_flatMap, List.filterMap_flatMap]
      exact List.flatMap_congr fun child present => ih child present above
    rw [names, walk_node]
    cases label with
    | none =>
      rw [lineages_plain, below]
      rfl
    | some id =>
      simp only [lineages_mark, List.filterMap_cons, List.head?_cons, below, Tree.label]

/-- A lineage belongs to a node of the tree that has the mark. -/
theorem exists_of_mem_lineages {tree : MarkedTree} {above lineage : List MarkId} {inner : MarkId}
    (present : lineage ∈ tree.lineages above) (head : lineage.head? = some inner) :
    ∃ node ∈ tree.walk, node.label = some inner := by
  have named : inner ∈ tree.names := by
    rw [← heads_lineages tree above]
    exact List.mem_filterMap.mpr ⟨lineage, present, head⟩
  exact List.mem_filterMap.mp named

/-- What a lineage names behind its first name is around the node or above the tree. -/
theorem surrounds_of_mem_lineages {tree : MarkedTree} {above lineage : List MarkId}
    {outer inner : MarkId} (present : lineage ∈ tree.lineages above)
    (head : lineage.head? = some inner) (around : outer ∈ lineage.tail) :
    outer ∈ above ∨ tree.Surrounds outer inner := by
  induction tree using induct generalizing above with
  | node label content children ih =>
    have inside : ∀ child ∈ children, child.Surrounds outer inner →
        (node label content children).Surrounds outer inner := by
      rintro child held ⟨node, below, found⟩
      refine ⟨node, ?_, found⟩
      rw [walk_node]
      exact .tail _ (List.mem_flatMap.mpr ⟨child, held, below⟩)
    cases label with
    | none =>
      rw [lineages_plain] at present
      obtain ⟨child, held, present⟩ := List.mem_flatMap.mp present
      exact (ih child held present).imp_right (inside child held)
    | some id =>
      rw [lineages_mark] at present
      rcases List.mem_cons.mp present with rfl | present
      · exact .inl around
      · obtain ⟨child, held, present⟩ := List.mem_flatMap.mp present
        rcases ih child held present with above | surrounds
        · rcases List.mem_cons.mp above with rfl | above
          · obtain ⟨below, below', named⟩ := exists_of_mem_lineages present head
            exact .inr ⟨_, mem_walk_self _, rfl, child, held, below, below', named⟩
          · exact .inl above
        · exact .inr (inside child held surrounds)

/-- The leaf for a token, which is the node of no mark. -/
def markedLeaf (token : Token) : MarkedTree :=
  node none ⟨if token.isTrivia then .whitespace else .token, some token, none, none⟩ []

theorem unlabelled_markedLeaf (token : Token) :
    (markedLeaf token).unlabelled = SyntaxTree.leaf token := rfl

end Tree

/-- The open marks of a tree that is being made, innermost first, each with its finished
children. -/
abbrev Scaffold := List (MarkId × List MarkedTree)

namespace Scaffold

open WolframSyntax.Tree

/-- The names of the open marks. -/
def spine (scaffold : Scaffold) : List MarkId := scaffold.map Prod.fst

/-- The lineages of all nodes, with those of the open marks. -/
def lineages : Scaffold → List (List MarkId)
  | [] => []
  | (id, children) :: outer =>
    lineages outer ++
      (id :: spine outer) :: children.flatMap (Tree.lineages (id :: spine outer))

/-- The tokens that have become leaves. -/
def tokens : Scaffold → List Token
  | [] => []
  | (_, children) :: outer => tokens outer ++ children.flatMap Tree.tokens

/-- The lineages of marks that are opened one inside the other. -/
def opening (above : List MarkId) : List MarkId → List (List MarkId)
  | [] => []
  | id :: ids => (id :: above) :: opening (id :: above) ids

/-- The scaffold with marks opened, the last of which becomes the innermost. -/
def openAll (ids : List MarkId) (scaffold : Scaffold) : Scaffold :=
  ids.foldl (fun scaffold id => (id, []) :: scaffold) scaffold

/-- Marks that open add their own lineages, below the ones that are open. -/
theorem lineages_openAll (ids : List MarkId) (scaffold : Scaffold) :
    lineages (openAll ids scaffold) = lineages scaffold ++ opening (spine scaffold) ids := by
  induction ids generalizing scaffold with
  | nil => exact (List.append_nil _).symm
  | cons id ids ih =>
    change lineages (openAll ids ((id, []) :: scaffold)) = _
    rw [ih, lineages, opening, List.flatMap_nil, List.append_assoc]
    rfl

/-- Marks that open hold no tokens yet. -/
theorem tokens_openAll (ids : List MarkId) (scaffold : Scaffold) :
    tokens (openAll ids scaffold) = tokens scaffold := by
  induction ids generalizing scaffold with
  | nil => rfl
  | cons id ids ih =>
    change tokens (openAll ids ((id, []) :: scaffold)) = _
    rw [ih, tokens, List.flatMap_nil, List.append_nil]

/-- Marks that open are the innermost ones. -/
theorem spine_openAll (ids : List MarkId) (scaffold : Scaffold) :
    spine (openAll ids scaffold) = ids.reverse ++ spine scaffold := by
  induction ids generalizing scaffold with
  | nil => rfl
  | cons id ids ih =>
    change spine (openAll ids ((id, []) :: scaffold)) = _
    rw [ih, List.reverse_cons, List.append_assoc]
    rfl

/-- Each mark that opens has one lineage. -/
theorem heads_opening (above ids : List MarkId) :
    (opening above ids).filterMap List.head? = ids := by
  induction ids generalizing above with
  | nil => rfl
  | cons id ids ih => simp only [opening, List.filterMap_cons, List.head?_cons, ih]

/-- A mark that opens is under every mark that is open already. -/
theorem exists_mem_opening_of_mem {above ids : List MarkId} {inner : MarkId}
    (present : inner ∈ ids) :
    ∃ lineage ∈ opening above ids, lineage.head? = some inner ∧
      ∀ outer ∈ above, outer ∈ lineage.tail := by
  induction ids generalizing above with
  | nil => cases present
  | cons id ids ih =>
    rcases List.mem_cons.mp present with rfl | later
    · exact ⟨_, List.mem_cons_self, rfl, fun _ present => present⟩
    · obtain ⟨lineage, held, head, around⟩ := ih later
      exact ⟨lineage, .tail _ held, head, fun outer present => around outer (.tail _ present)⟩

/-- A mark that is opened earlier is around the one that is opened later. -/
theorem exists_mem_opening {above ids : List MarkId} {outer inner : MarkId}
    (pair : [outer, inner].Sublist ids) :
    ∃ lineage ∈ opening above ids, lineage.head? = some inner ∧ outer ∈ lineage.tail := by
  induction ids generalizing above with
  | nil => cases pair
  | cons id ids ih =>
    cases pair with
    | cons _ pair =>
      obtain ⟨lineage, held, found⟩ := ih pair
      exact ⟨lineage, .tail _ held, found⟩
    | cons_cons _ pair =>
      have later : inner ∈ ids := pair.subset List.mem_cons_self
      obtain ⟨lineage, held, head, around⟩ := exists_mem_opening_of_mem later
      exact ⟨lineage, .tail _ held, head, around outer List.mem_cons_self⟩

/-- A mark that opens has no children yet. -/
theorem mem_openAll {ids : List MarkId} {scaffold : Scaffold} {entry : MarkId × List MarkedTree}
    (present : entry ∈ openAll ids scaffold) : entry.2 = [] ∨ entry ∈ scaffold := by
  induction ids generalizing scaffold with
  | nil => exact .inr present
  | cons id ids ih =>
    rcases ih present with none | held
    · exact .inl none
    · rcases List.mem_cons.mp held with rfl | held
      · exact .inl rfl
      · exact .inr held

/-- The open marks with the children they have so far, as they are without labels. -/
def unlabelled (scaffold : Scaffold) : List (MarkId × List SyntaxTree) :=
  scaffold.map fun entry => (entry.1, entry.2.map Tree.unlabelled)

/-- Marks that open are put on the stack one by one. -/
theorem unlabelled_openAll (ids : List MarkId) (scaffold : Scaffold) :
    unlabelled (openAll ids scaffold)
      = ids.foldl (fun stack id => (id, []) :: stack) (unlabelled scaffold) := by
  induction ids generalizing scaffold with
  | nil => rfl
  | cons id ids ih => exact ih ((id, []) :: scaffold)

end Scaffold

/-- The mark that an entry of the record is about. -/
def ProductionEvent.subject : ProductionEvent → MarkId
  | opened id | closed id => id

/-- Whether a refusal means that the tokens or the record cannot make a tree. -/
def ProductionError.isCritical : ProductionError → Bool
  | alreadyDone _ | unknownMark | beforeStart | noIndex => false
  | unended _ | pastEnd _ | nothingParsed | rootNotLast | unbalanced _ | unclosed => true

namespace Production

open WolframSyntax.Tree

/-- Whether a mark has not been dropped. -/
def stands (production : Production) (id : MarkId) : Bool :=
  production.marks[id]?.any fun mark => !mark.dropped

/-- The marks that an entry of the record opens, outermost first. -/
def openedBy (production : Production) : ProductionEvent → List MarkId
  | .opened id => (production.marks[id]?.map fun mark => production.standing mark.chain).getD []
  | .closed _ => []

/-- What a node of the tree of a production is: the leaf for a token, or the node of a mark, which
holds what the mark says. -/
inductive Shows (production : Production) : MarkedTree → Prop where
  | token (token : Token) : Shows production (markedLeaf token)
  | mark {id : MarkId} {mark : Mark} {kind : NodeKind} {children : List MarkedTree}
      (found : production.marks[id]? = some mark) (closed : mark.kind = some kind) :
      Shows production (.node (some id) ⟨kind, none, mark.message, mark.position⟩ children)

/-- What a scaffold says about an assembly after some entries of the record. -/
structure Tells (production : Production) (events : List ProductionEvent) (assembly : Assembly)
    (scaffold : Scaffold) : Prop where
  stack : assembly.stack = scaffold.unlabelled
  tokens : scaffold.tokens
    = (production.tokens.take assembly.next).filter fun token => !token.isEnd
  nodes : ∀ entry ∈ scaffold, ∀ child ∈ entry.2, child.Everywhere production.Shows
  names : scaffold.lineages.filterMap List.head? = events.flatMap production.openedBy
  around : ∀ event ∈ events, ∀ outer inner,
    [outer, inner].Sublist (production.openedBy event) →
      ∃ lineage ∈ scaffold.lineages, lineage.head? = some inner ∧ outer ∈ lineage.tail

variable {production : Production} {events : List ProductionEvent} {assembly next : Assembly}
  {scaffold : Scaffold} {root : MarkId}

/-- An opened mark opens with all the marks of its chain that have not been dropped. -/
theorem openedBy_opened {id : MarkId} {mark : Mark} (found : production.marks[id]? = some mark) :
    production.openedBy (.opened id) = mark.chain.reverse.filter production.stands := by
  rw [openedBy, found]
  rfl

theorem everywhere_shows_markedLeaf (token : Token) :
    (markedLeaf token).Everywhere production.Shows :=
  everywhere_node.mpr ⟨.token token, List.forall_mem_nil _⟩

theorem flatMap_lineages_markedLeaf (above : List MarkId) (tokens : List Token) :
    (tokens.map markedLeaf).flatMap (lineages above) = [] := by
  rw [List.flatMap_map]
  exact List.flatMap_eq_nil_iff.mpr fun _ _ => rfl

/-- The tokens up to one place and those from there to another one. -/
theorem take_append_drop_take (tokens : List Token) (first second : Nat) :
    tokens.take first ++ (tokens.take second).drop first = tokens.take (max first second) := by
  rcases Nat.le_total first second with before | after
  · rw [Nat.max_eq_right before]
    conv_rhs => rw [← List.take_append_drop first (tokens.take second)]
    rw [List.take_take, Nat.min_eq_left before]
  · have nothing : (tokens.take second).drop first = [] :=
      List.drop_eq_nil_of_le (Nat.le_trans (List.length_take_le _ _) after)
    rw [nothing, List.append_nil, Nat.max_eq_left after]

/-- New leaves change nothing but the tokens. -/
theorem Tells.flush (tells : production.Tells events assembly scaffold) (stop : Nat) :
    ∃ later, production.Tells events (assembly.flush production.tokens stop) later ∧
      later.spine = scaffold.spine := by
  cases scaffold with
  | nil =>
    have stack := tells.stack
    refine ⟨[], ?_, rfl⟩
    unfold Assembly.flush
    rw [stack]
    exact tells
  | cons entry outer =>
    obtain ⟨id, children⟩ := entry
    have stack : assembly.stack
        = (id, children.map Tree.unlabelled) :: Scaffold.unlabelled outer := tells.stack
    let pending := ((production.tokens.take stop).drop assembly.next).filter
      fun token => !token.isEnd
    have flushed : assembly.flush production.tokens stop = { assembly with
        next := max assembly.next stop
        stack := (id, children.map Tree.unlabelled ++ pending.map SyntaxTree.leaf)
          :: Scaffold.unlabelled outer } := by
      unfold Assembly.flush
      rw [stack]
    have same : Scaffold.lineages ((id, children ++ pending.map markedLeaf) :: outer)
        = Scaffold.lineages ((id, children) :: outer) := by
      simp only [Scaffold.lineages, List.flatMap_append, flatMap_lineages_markedLeaf,
        List.append_nil]
    refine ⟨(id, children ++ pending.map markedLeaf) :: outer, ⟨?_, ?_, ?_, ?_, ?_⟩, rfl⟩
    · rw [flushed]
      simp [Scaffold.unlabelled, unlabelled_markedLeaf]
    · have before := tells.tokens
      rw [Scaffold.tokens] at before
      have kept : (pending.map markedLeaf).flatMap Tree.tokens = pending := by
        rw [List.flatMap_map]
        exact List.flatMap_singleton' pending
      rw [flushed, Scaffold.tokens, List.flatMap_append, ← List.append_assoc, before, kept,
        ← List.filter_append, take_append_drop_take]
    · intro entry present child held
      rcases List.mem_cons.mp present with rfl | present
      · rcases List.mem_append.mp held with old | new
        · exact tells.nodes _ List.mem_cons_self child old
        · obtain ⟨token, _, rfl⟩ := List.mem_map.mp new
          exact everywhere_shows_markedLeaf token
      · exact tells.nodes entry (.tail _ present) child held
    · rw [same]
      exact tells.names
    · rw [same]
      exact tells.around

/-- An entry that opens nothing changes nothing. -/
theorem Tells.note (tells : production.Tells events assembly scaffold) {event : ProductionEvent}
    (nothing : production.openedBy event = []) :
    production.Tells (events ++ [event]) assembly scaffold where
  stack := tells.stack
  tokens := tells.tokens
  nodes := tells.nodes
  names := by
    rw [tells.names, List.flatMap_append, List.flatMap_singleton, nothing, List.append_nil]
  around other present outer inner pair := by
    rcases List.mem_append.mp present with before | last
    · exact tells.around other before outer inner pair
    · rw [List.mem_singleton.mp last, nothing] at pair
      cases pair

/-- The marks of an entry open both in the assembly and in its scaffold. -/
theorem Tells.openAll (tells : production.Tells events assembly scaffold)
    (event : ProductionEvent) :
    production.Tells (events ++ [event]) (assembly.openAll (production.openedBy event))
      (scaffold.openAll (production.openedBy event)) where
  stack := by
    rw [Scaffold.unlabelled_openAll, ← tells.stack]
    rfl
  tokens := (Scaffold.tokens_openAll _ _).trans tells.tokens
  nodes entry present child held := by
    rcases Scaffold.mem_openAll present with none | before
    · rw [none] at held
      cases held
    · exact tells.nodes entry before child held
  names := by
    rw [Scaffold.lineages_openAll, List.filterMap_append, Scaffold.heads_opening, tells.names,
      List.flatMap_append, List.flatMap_singleton]
  around other present outer inner pair := by
    rw [Scaffold.lineages_openAll]
    rcases List.mem_append.mp present with before | last
    · obtain ⟨lineage, held, found⟩ := tells.around other before outer inner pair
      exact ⟨lineage, List.mem_append_left _ held, found⟩
    · rw [List.mem_singleton.mp last] at pair
      obtain ⟨lineage, held, found⟩ := Scaffold.exists_mem_opening pair
      exact ⟨lineage, List.mem_append_right _ held, found⟩

/-- The scaffold has the same open marks as the stack. -/
theorem Tells.spine_eq_cons (tells : production.Tells events assembly scaffold) {id : MarkId}
    {children : List SyntaxTree} {outer : List (MarkId × List SyntaxTree)}
    (stack : assembly.stack = (id, children) :: outer) :
    scaffold.spine = id :: outer.map Prod.fst := by
  have spine : scaffold.spine = scaffold.unlabelled.map Prod.fst := by
    rw [Scaffold.unlabelled, List.map_map]
    rfl
  rw [spine, ← tells.stack, stack, List.map_cons]

/-- Closing a mark inside of another one makes a node of it, around which is what was around the
mark. -/
theorem Tells.close {id : MarkId} {children : List MarkedTree} {entry : MarkId × List MarkedTree}
    {outer : Scaffold} (tells : production.Tells events assembly ((id, children) :: entry :: outer))
    {mark : Mark} {kind : NodeKind} (found : production.marks[id]? = some mark)
    (closed : mark.kind = some kind) :
    production.Tells (events ++ [.closed id])
      (assembly.close ⟨kind, none, mark.message, mark.position⟩)
      ((entry.1, entry.2 ++ [.node (some id) ⟨kind, none, mark.message, mark.position⟩ children])
        :: outer) := by
  obtain ⟨parent, siblings⟩ := entry
  have stack : assembly.stack = (id, children.map Tree.unlabelled)
      :: (parent, siblings.map Tree.unlabelled) :: Scaffold.unlabelled outer := tells.stack
  have made : assembly.close ⟨kind, none, mark.message, mark.position⟩ = { assembly with
      stack := (parent, siblings.map Tree.unlabelled ++
        [.node () ⟨kind, none, mark.message, mark.position⟩ (children.map Tree.unlabelled)])
          :: Scaffold.unlabelled outer } := by
    unfold Assembly.close
    rw [stack]
  have same : Scaffold.lineages ((parent, siblings ++
      [.node (some id) ⟨kind, none, mark.message, mark.position⟩ children]) :: outer)
        = Scaffold.lineages ((id, children) :: (parent, siblings) :: outer) := by
    simp only [Scaffold.lineages, List.flatMap_append, List.flatMap_singleton, lineages_mark,
      List.append_assoc, List.cons_append]
    rfl
  refine Tells.note ⟨?_, ?_, ?_, ?_, ?_⟩ rfl
  · rw [made]
    simp [Scaffold.unlabelled, unlabelled_node]
  · rw [made, ← tells.tokens]
    simp [Scaffold.tokens, tokens_node]
  · intro entry present child held
    rcases List.mem_cons.mp present with rfl | present
    · rcases List.mem_append.mp held with old | new
      · exact tells.nodes _ (.tail _ List.mem_cons_self) child old
      · rw [List.mem_singleton.mp new]
        exact everywhere_node.mpr ⟨.mark found closed, tells.nodes _ List.mem_cons_self⟩
    · exact tells.nodes entry (.tail _ (.tail _ present)) child held
  · rw [same]
    exact tells.names
  · rw [same]
    exact tells.around

/-- An entry that opens a mark takes the tokens before the mark and opens its chain. -/
theorem assemble_opened {id : MarkId} {mark : Mark} (found : production.marks[id]? = some mark) :
    production.assemble assembly (.opened id)
      = .ok ((assembly.flush production.tokens mark.start).openAll
          (production.openedBy (.opened id))) := by
  simp only [assemble, mark?, openedBy, found]
  rfl

/-- The end of a dropped mark closes nothing. -/
theorem assemble_closed_of_dropped {id : MarkId} {mark : Mark}
    (found : production.marks[id]? = some mark) (dropped : mark.dropped) :
    production.assemble assembly (.closed id) = .ok assembly := by
  simp only [assemble, mark?, found, bind, Except.bind, dropped, if_true]
  rfl

/-- A mark that has not been dropped is closed if it is the innermost one that is open. -/
theorem assemble_closed_cases {id : MarkId} {mark : Mark}
    (found : production.marks[id]? = some mark) (kept : mark.dropped = false) :
    production.assemble assembly (.closed id) = .error (.unbalanced mark) ∨
      ∃ children outer stop kind, assembly.stack = (id, children) :: outer ∧
        mark.stop = some stop ∧ mark.kind = some kind ∧
        production.assemble assembly (.closed id)
          = .ok ((assembly.flush production.tokens stop).close
            ⟨kind, none, mark.message, mark.position⟩) := by
  simp only [assemble, mark?, found, bind, Except.bind, kept, Bool.false_eq_true, if_false]
  split
  · next top children outer stop kind stack hasStop hasKind =>
    by_cases same : top = id
    · rw [if_pos same]
      exact .inr ⟨children, outer, stop, kind, by rw [stack, same], hasStop, hasKind, rfl⟩
    · rw [if_neg same]
      exact .inl rfl
  · exact .inl rfl

/-- An entry of the record that does not close the root is refused or leaves the root open. -/
theorem Tells.assemble (tells : production.Tells events assembly scaffold)
    (held : root ∈ scaffold.spine) {event : ProductionEvent} (other : event ≠ .closed root)
    {mark : Mark} (found : production.marks[event.subject]? = some mark) :
    (∃ error, production.assemble assembly event = .error error ∧ error.isCritical) ∨
      ∃ next later, production.assemble assembly event = .ok next ∧
        production.Tells (events ++ [event]) next later ∧ root ∈ later.spine := by
  cases event with
  | opened id =>
    obtain ⟨flushed, told, spine⟩ := tells.flush mark.start
    refine .inr ⟨_, _, assemble_opened found, told.openAll (.opened id), ?_⟩
    rw [Scaffold.spine_openAll, spine]
    exact List.mem_append_right _ held
  | closed id =>
    cases dropped : mark.dropped with
    | true =>
      exact .inr ⟨_, _, assemble_closed_of_dropped found dropped, tells.note rfl, held⟩
    | false =>
      rcases assemble_closed_cases found dropped with refused |
        ⟨children, outer, stop, kind, stack, _, hasKind, ok⟩
      · exact .inl ⟨_, refused, rfl⟩
      · obtain ⟨flushed, told, spine⟩ := tells.flush stop
        rw [tells.spine_eq_cons stack] at spine held
        have inner : root ∈ outer.map Prod.fst :=
          (List.mem_cons.mp held).resolve_left fun same => other (congrArg _ same.symm)
        match flushed, told, spine with
        | (_, _) :: [], _, spine =>
          rw [← (List.cons.inj spine).2] at inner
          cases inner
        | (top, _) :: entry :: rest, told, spine =>
          have same : top = id := (List.cons.inj spine).1
          have around : Scaffold.spine (entry :: rest) = outer.map Prod.fst :=
            (List.cons.inj spine).2
          subst same
          rw [← around] at inner
          exact .inr ⟨_, _, ok, told.close found hasKind, inner⟩

/-- The entries of the record between the opening and the closing of the root. -/
theorem Tells.foldlM (tells : production.Tells events assembly scaffold)
    (held : root ∈ scaffold.spine) {more : List ProductionEvent}
    (others : ∀ event ∈ more, event ≠ .closed root)
    (known : ∀ event ∈ more, ∃ mark : Mark, production.marks[event.subject]? = some mark) :
    (∃ error, more.foldlM production.assemble assembly = .error error ∧ error.isCritical) ∨
      ∃ next later, more.foldlM production.assemble assembly = .ok next ∧
        production.Tells (events ++ more) next later ∧ root ∈ later.spine := by
  induction more generalizing events assembly scaffold with
  | nil => exact .inr ⟨assembly, scaffold, rfl, by rwa [List.append_nil], held⟩
  | cons event more ih =>
    obtain ⟨other, others⟩ := List.forall_mem_cons.mp others
    obtain ⟨⟨mark, found⟩, known⟩ := List.forall_mem_cons.mp known
    rw [List.foldlM_cons]
    rcases tells.assemble held other found with ⟨error, refused, critical⟩ |
      ⟨next, later, ok, told, heldLater⟩
    · exact .inl ⟨error, by rw [refused]; rfl, critical⟩
    · rw [ok]
      have goesOn := ih told heldLater others known
      rw [List.append_assoc] at goesOn
      exact goesOn

/-- An assembly with no entries has an empty scaffold. -/
theorem tells_initial (production : Production) : production.Tells [] ⟨0, [], none⟩ [] where
  stack := rfl
  tokens := rfl
  nodes := List.forall_mem_nil _
  names := rfl
  around _ present := by cases present

/-- Tokens are taken up to a stop, and never given back. -/
theorem next_flush {entry : MarkId × List SyntaxTree} {outer : List (MarkId × List SyntaxTree)}
    (stack : assembly.stack = entry :: outer) (tokens : List Token) (stop : Nat) :
    (assembly.flush tokens stop).next = max assembly.next stop := by
  unfold Assembly.flush
  rw [stack]

/-- What is to be known of a tree with the names of the marks after some entries of the record. -/
structure Makes (production : Production) (events : List ProductionEvent) (marked : MarkedTree) :
    Prop where
  tokens : marked.tokens = production.tokens.filter fun token => !token.isEnd
  nodes : marked.Everywhere production.Shows
  names : marked.names = events.flatMap production.openedBy
  around : ∀ event ∈ events, ∀ outer inner,
    [outer, inner].Sublist (production.openedBy event) → marked.Surrounds outer inner

/-- When the root is closed after all tokens and no mark remains open, the tree is complete. -/
theorem Tells.finish (tells : production.Tells events assembly scaffold) {mark : Mark}
    (found : production.marks[root]? = some mark) (kept : mark.dropped = false)
    (whole : mark.stop = some production.tokens.length) :
    production.assemble assembly (.closed root) = .error (.unbalanced mark) ∨
      ∃ last, production.assemble assembly (.closed root) = .ok last ∧
        (last.stack = [] → ∃ marked, last.root = some marked.unlabelled ∧
          production.Makes events marked) := by
  rcases assemble_closed_cases found kept with refused |
    ⟨children, outer, stop, kind, stack, hasStop, hasKind, ok⟩
  · exact .inl refused
  · refine .inr ⟨_, ok, ?_⟩
    obtain rfl : stop = production.tokens.length := Option.some.inj (hasStop.symm.trans whole)
    obtain ⟨flushed, told, spine⟩ := tells.flush production.tokens.length
    rw [tells.spine_eq_cons stack] at spine
    match flushed, told, spine with
    | [(top, trees)], told, spine =>
      have same : top = root := (List.cons.inj spine).1
      subst same
      have open' : (assembly.flush production.tokens production.tokens.length).stack
          = [(top, trees.map Tree.unlabelled)] := told.stack
      intro _
      refine ⟨.node (some top) ⟨kind, none, mark.message, mark.position⟩ trees, ?_, ?_, ?_, ?_, ?_⟩
      · rw [Assembly.close, open', unlabelled_node]
      · have kept := told.tokens
        rw [next_flush stack, List.take_of_length_le (Nat.le_max_right _ _)] at kept
        rw [tokens_node, ← kept]
        rfl
      · exact everywhere_node.mpr ⟨.mark found hasKind, told.nodes _ List.mem_cons_self⟩
      · rw [← told.names, ← heads_lineages _ [], lineages_mark]
        rfl
      · intro event present outer inner pair
        obtain ⟨lineage, held, head, around⟩ := told.around event present outer inner pair
        rw [Scaffold.lineages, Scaffold.lineages, List.nil_append] at held
        have inside : lineage ∈ Tree.lineages []
            (.node (some top) ⟨kind, none, mark.message, mark.position⟩ trees) := by
          rw [lineages_mark]
          exact held
        exact (surrounds_of_mem_lineages inside head around).resolve_left List.not_mem_nil
    | (_, trees) :: entry :: rest, told, _ =>
      intro none
      have open' : (assembly.flush production.tokens production.tokens.length).stack
          = (_, trees.map Tree.unlabelled) :: (entry.1, entry.2.map Tree.unlabelled)
            :: Scaffold.unlabelled rest := told.stack
      rw [Assembly.close, open'] at none
      cases none

/-- The root is one of the marks that its opening opens. -/
theorem IsOrderly.mem_openedBy_root (orderly : production.IsOrderly)
    (opened : .opened root ∈ production.record) (stands : production.stands root) :
    root ∈ production.openedBy (.opened root) := by
  obtain ⟨mark, found, anchor⟩ := orderly.opened root opened
  have member : root ∈ mark.chain := ((orderly.chained root mark found).2 root).mpr
    ⟨mark, found, anchor⟩
  rw [openedBy_opened found]
  exact List.mem_filter.mpr ⟨List.mem_reverse.mpr member, stands⟩

/-- Each entry of the record is about a mark that has been made. -/
theorem IsOrderly.exists_mark (orderly : production.IsOrderly) {event : ProductionEvent}
    (present : event ∈ production.record) :
    ∃ mark : Mark, production.marks[event.subject]? = some mark := by
  cases event with
  | opened id => exact (orderly.opened id present).imp fun _ found => found.1
  | closed id => exact (orderly.closed id present).imp fun _ found => found.1

/-- A record that begins and ends with the root is built to a complete tree or refused. -/
theorem IsOrderly.assembleAll (orderly : production.IsOrderly)
    {between : List ProductionEvent}
    (record : production.record = .closed root :: (between ++ [.opened root])) {mark : Mark}
    (found : production.marks[root]? = some mark) (kept : mark.dropped = false)
    (whole : mark.stop = some production.tokens.length) :
    (∃ error, production.assembleAll = .error error ∧ error.isCritical) ∨
      ∃ marked : MarkedTree, production.assembleAll = .ok marked.unlabelled ∧
        production.Makes (.opened root :: between.reverse) marked := by
  have nodup := orderly.nodup
  rw [record] at nodup
  have stands : production.stands root := by
    rw [Production.stands, found]
    simp [kept]
  have opened : .opened root ∈ production.record := by
    rw [record]
    simp
  obtain ⟨flushed, told, spine⟩ := (tells_initial production).flush mark.start
  have others : ∀ event ∈ between.reverse, event ≠ .closed root := by
    rintro event present rfl
    exact (List.nodup_cons.mp nodup).1 (List.mem_append_left _ (List.mem_reverse.mp present))
  have known : ∀ event ∈ between.reverse,
      ∃ mark : Mark, production.marks[event.subject]? = some mark := by
    intro event present
    refine orderly.exists_mark ?_
    rw [record]
    exact .tail _ (List.mem_append_left _ (List.mem_reverse.mp present))
  have held : root ∈ (flushed.openAll (production.openedBy (.opened root))).spine := by
    rw [Scaffold.spine_openAll]
    exact List.mem_append_left _
      (List.mem_reverse.mpr (orderly.mem_openedBy_root opened stands))
  have steps : production.record.reverse
      = .opened root :: (between.reverse ++ [.closed root]) := by
    rw [record]
    simp
  have folds : production.record.reverse.foldlM production.assemble ⟨0, [], none⟩
      = between.reverse.foldlM production.assemble
          ((Assembly.flush production.tokens mark.start ⟨0, [], none⟩).openAll
            (production.openedBy (.opened root))) >>=
        fun assembly => production.assemble assembly (.closed root) := by
    rw [steps, List.foldlM_cons, assemble_opened found]
    change List.foldlM _ _ (between.reverse ++ _) = _
    rw [List.foldlM_append]
    refine congrArg _ (funext fun assembly => ?_)
    rw [List.foldlM_cons]
    exact bind_pure _
  unfold Production.assembleAll
  rw [folds]
  rcases (told.openAll (.opened root)).foldlM held others known with ⟨error, refused, critical⟩ |
    ⟨next, later, ok, told, _⟩
  · exact .inl ⟨error, by rw [refused]; rfl, critical⟩
  rw [ok]
  change (∃ error, (production.assemble next (.closed root) >>= _) = _ ∧ _) ∨
    ∃ marked : MarkedTree, (production.assemble next (.closed root) >>= _) = _ ∧ _
  rcases told.finish found kept whole with refused | ⟨last, closed, complete⟩
  · exact .inl ⟨_, by rw [refused]; rfl, rfl⟩
  rw [closed]
  cases stack : last.stack with
  | nil =>
    obtain ⟨marked, made, makes⟩ := complete stack
    refine .inr ⟨marked, ?_, makes⟩
    simp only [bind, Except.bind, stack, made]
    rfl
  | cons entry outer =>
    refine .inl ⟨.unclosed, ?_, rfl⟩
    simp only [bind, Except.bind, stack]
    rfl

/-- A mark is opened with its anchor unless it has been dropped. -/
theorem IsOrderly.mem_openedBy (orderly : production.IsOrderly) {event : ProductionEvent}
    (present : event ∈ production.record) {id : MarkId} :
    id ∈ production.openedBy event ↔ production.stands id ∧
      ∃ member : Mark, production.marks[id]? = some member ∧ event = .opened member.anchor := by
  cases event with
  | opened anchor =>
    obtain ⟨mark, found, _⟩ := orderly.opened anchor present
    rw [openedBy_opened found, List.mem_filter, List.mem_reverse,
      (orderly.chained anchor mark found).2, and_comm]
    simp only [ProductionEvent.opened.injEq, eq_comm]
  | closed id =>
    constructor
    · intro member
      cases member
    · rintro ⟨_, _, _, same⟩
      cases same

/-- No mark opens twice with one entry. -/
theorem IsOrderly.nodup_openedBy (orderly : production.IsOrderly) (event : ProductionEvent) :
    (production.openedBy event).Nodup := by
  cases event with
  | opened id =>
    cases found : production.marks[id]? with
    | none =>
      rw [openedBy, found]
      exact List.nodup_nil
    | some mark =>
      rw [openedBy_opened found]
      exact (List.nodup_reverse.mpr (orderly.chained id mark found).1).filter _
  | closed id => exact List.nodup_nil

/-- All entries of the record together open every mark once that has not been dropped. -/
theorem IsOrderly.flatMap_openedBy_perm (orderly : production.IsOrderly) :
    (production.record.flatMap production.openedBy).Perm
      ((List.range production.marks.length).filter production.stands) := by
  have once : (production.record.flatMap production.openedBy).Nodup := by
    refine List.nodup_flatMap.mpr ⟨fun event _ => orderly.nodup_openedBy event, ?_⟩
    refine orderly.nodup.pairwise_of_forall_ne fun first held second present apart => ?_
    intro id inFirst inSecond
    obtain ⟨_, member, found, rfl⟩ := (orderly.mem_openedBy held).mp inFirst
    obtain ⟨_, other, foundOther, rfl⟩ := (orderly.mem_openedBy present).mp inSecond
    cases found.symm.trans foundOther
    exact apart rfl
  refine (List.perm_ext_iff_of_nodup once (List.nodup_range.filter _)).mpr fun id => ?_
  rw [List.mem_flatMap, List.mem_filter, List.mem_range]
  constructor
  · rintro ⟨event, present, member⟩
    obtain ⟨stands, mark, found, _⟩ := (orderly.mem_openedBy present).mp member
    exact ⟨(List.getElem?_eq_some_iff.mp found).1, stands⟩
  · rintro ⟨inside, stands⟩
    have found := List.getElem?_eq_getElem inside
    have opened := orderly.anchored id _ found
    exact ⟨_, opened, (orderly.mem_openedBy opened).mpr ⟨stands, _, found, rfl⟩⟩

/-- A mark that is to be put around another one is opened before it. -/
theorem IsOrderly.exists_openedBy_of_isAround (orderly : production.IsOrderly)
    {outer inner : MarkId} (around : production.IsAround outer inner)
    (outerStands : production.stands outer) (innerStands : production.stands inner) :
    ∃ event ∈ production.record, [outer, inner].Sublist (production.openedBy event) := by
  obtain ⟨anchor, mark, found, pair⟩ := around
  obtain ⟨member, memberFound, rfl⟩ :=
    ((orderly.chained anchor mark found).2 inner).mp (pair.subset List.mem_cons_self)
  refine ⟨.opened member.anchor, orderly.anchored inner member memberFound, ?_⟩
  have kept : [outer, inner].filter production.stands = [outer, inner] := by
    simp [outerStands, innerStands]
  rw [openedBy_opened found, ← kept]
  exact (List.reverse_sublist.mpr pair).filter _

/-- Extending the root changes neither which marks stand nor what the nodes of marks hold. -/
theorem stands_update {id : MarkId} {change : Mark → Mark}
    (kept : ∀ mark, (change mark).dropped = mark.dropped) :
    (production.update id change).stands = production.stands := by
  funext other
  unfold stands
  cases found : production.marks[other]? with
  | none =>
    cases after : (production.update id change).marks[other]? with
    | none => rfl
    | some mark =>
      obtain ⟨before, held, _⟩ := exists_of_getElem?_update after
      cases found.symm.trans held
  | some mark =>
    rw [getElem?_update found]
    change (!(if id = other then change mark else mark).dropped) = !mark.dropped
    split
    · rw [kept]
    · rfl

/-- A change that keeps what a mark says keeps what its node shows. -/
theorem Shows.of_update {id : MarkId} {change : Mark → Mark} {node : MarkedTree}
    (kept : ∀ mark, (change mark).kind = mark.kind ∧ (change mark).message = mark.message ∧
      (change mark).position = mark.position)
    (shows : (production.update id change).Shows node) : production.Shows node := by
  cases shows with
  | token token => exact .token token
  | @mark other mark kind children found closed =>
    obtain ⟨before, held, rfl⟩ := exists_of_getElem?_update found
    have same : (if id = other then change before else before).kind = before.kind ∧
        (if id = other then change before else before).message = before.message ∧
        (if id = other then change before else before).position = before.position := by
      split
      · exact kept before
      · exact ⟨rfl, rfl, rfl⟩
    rw [same.2.1, same.2.2]
    exact .mark held (same.1.symm.trans closed)

/-- A production whose record and marks fit together, and whose first mark has not been dropped, is
built to a tree that keeps its tokens and its marks, or the building is refused. -/
theorem IsOrderly.build (orderly : production.IsOrderly)
    (kept : ∀ root, production.record.getLast? = some (.opened root) → production.stands root) :
    (∃ error, production.build.2 = .error error ∧ error.isCritical) ∨
      ∃ marked : MarkedTree, production.build.2 = .ok marked.unlabelled ∧
        marked.tokens = (production.tokens.filter fun token => !token.isEnd) ∧
        marked.Everywhere production.Shows ∧
        marked.names.Perm ((List.range production.marks.length).filter production.stands) ∧
        ∀ outer inner, production.IsAround outer inner → production.stands outer →
          production.stands inner → marked.Surrounds outer inner := by
  unfold Production.build
  split
  · next root last first latest =>
    split
    · next same =>
      subst same
      obtain ⟨between, record⟩ : ∃ between,
          production.record = .closed root :: (between ++ [.opened root]) := by
        obtain ⟨front, record⟩ := List.getLast?_eq_some_iff.mp first
        rw [record] at latest
        cases front with
        | nil => cases latest
        | cons event between =>
          cases latest
          exact ⟨between, record⟩
      let extend (mark : Mark) : Mark := { mark with stop := some production.tokens.length }
      have extended : (production.update root extend).IsOrderly :=
        orderly.update fun _ => ⟨rfl, rfl, fun _ => rfl, fun held => held⟩
      have stands : (production.update root extend).stands = production.stands :=
        stands_update fun _ => rfl
      obtain ⟨mark, found, _⟩ := orderly.opened root (by rw [record]; simp)
      have rootKept := kept root first
      rw [Production.stands, found] at rootKept
      have dropped : mark.dropped = false := by simpa using rootKept
      have foundAfter : (production.update root extend).marks[root]? = some (extend mark) :=
        (getElem?_update found).trans (by rw [if_pos rfl])
      rcases extended.assembleAll record foundAfter dropped rfl with refused |
        ⟨marked, built, makes⟩
      · exact .inl refused
      have content : ∀ mark, (extend mark).kind = mark.kind ∧ (extend mark).message = mark.message ∧
          (extend mark).position = mark.position := fun _ => ⟨rfl, rfl, rfl⟩
      have reversed : (between ++ [ProductionEvent.opened root]).reverse
          = .opened root :: between.reverse := by simp
      refine .inr ⟨marked, built, makes.tokens,
        makes.nodes.mono fun _ shows => Shows.of_update content shows, ?_, ?_⟩
      · have all := extended.flatMap_openedBy_perm
        rw [length_update, stands] at all
        refine List.Perm.trans ?_ all
        change marked.names.Perm (production.record.flatMap _)
        rw [makes.names, record, ← reversed]
        exact (List.reverse_perm _).flatMap_right _
      · intro outer inner around outerStands innerStands
        obtain ⟨event, present, pair⟩ :=
          extended.exists_openedBy_of_isAround (around.update fun _ => .refl _)
            (stands ▸ outerStands) (stands ▸ innerStands)
        refine makes.around event ?_ outer inner pair
        rw [← reversed, List.mem_reverse]
        change event ∈ production.record at present
        rw [record] at present
        rcases List.mem_cons.mp present with rfl | held
        · cases pair
        · exact held
    · exact .inl ⟨_, rfl, rfl⟩
  · exact .inl ⟨_, rfl, rfl⟩

/-- After any calls that do not drop the first mark, the building is refused as critical, or the
tree holds the tokens in their order and has one node for each mark that has not been dropped, with
what the mark says. The node of a mark that was put around another one is around the node of that
one, and of two marks that were put around the same one, the node of the earlier one is around that
of the later one. -/
theorem build_run (tokens : List Token) (steps : List ProductionStep)
    (kept : ∀ root, (run tokens steps).record.getLast? = some (.opened root) →
      (run tokens steps).stands root) :
    (∃ error, (run tokens steps).build.2 = .error error ∧ error.isCritical) ∨
      ∃ (tree : SyntaxTree) (marked : MarkedTree), (run tokens steps).build.2 = .ok tree ∧
        marked.unlabelled = tree ∧
        tree.tokens = (tokens.filter fun token => !token.isEnd) ∧
        marked.Everywhere (run tokens steps).Shows ∧
        marked.names.Perm
          ((List.range (run tokens steps).marks.length).filter (run tokens steps).stands) ∧
        (∀ before id after, steps = before ++ .precede id :: after →
          let wrapper := (run tokens before).marks.length
          id < wrapper → (run tokens steps).stands id → (run tokens steps).stands wrapper →
            marked.Surrounds wrapper id) ∧
        ∀ before id between after,
          steps = before ++ .precede id :: (between ++ .precede id :: after) →
          let earlier := (run tokens before).marks.length
          let later := (run tokens (before ++ .precede id :: between)).marks.length
          id < earlier → (run tokens steps).stands earlier → (run tokens steps).stands later →
            marked.Surrounds earlier later := by
  rcases (isOrderly_run tokens steps).build kept with refused |
    ⟨marked, built, leaves, nodes, names, around⟩
  · exact .inl refused
  refine .inr ⟨_, marked, built, rfl, ?_, nodes, names, ?_, ?_⟩
  · rw [tokens_unlabelled, leaves, tokens_run]
  · rintro before id after rfl wrapper known innerStands outerStands
    exact around _ _ (isAround_of_precede known) outerStands innerStands
  · rintro before id between after rfl earlier later known earlierStands laterStands
    exact around _ _ (isAround_of_precede_twice known) earlierStands laterStands

/-- A symbol with two nodes put around it after it was closed, the later one inside. -/
theorem build_run_two_wrappers :
    let tokens : List Token := [⟨.identifier, "a", 1, 1⟩, ⟨.identifier, "b", 1, 3⟩,
      ⟨.endOfFile, "", 1, 4⟩]
    let steps : List ProductionStep := [.mark, .mark, .advance, .done 1 .symbol, .precede 1,
      .precede 1, .done 3 .functionCall, .advance, .done 2 .times, .done 0 .file]
    (∀ root, (run tokens steps).record.getLast? = some (.opened root) →
      (run tokens steps).stands root) ∧
    ∃ (tree : SyntaxTree) (marked : MarkedTree), (run tokens steps).build.2 = .ok tree ∧
      marked.unlabelled = tree ∧ marked.names.Perm [0, 1, 2, 3] ∧ marked.Surrounds 3 1 ∧
      marked.Surrounds 2 3 := by
  intro tokens steps
  have kept : ∀ root, (run tokens steps).record.getLast? = some (.opened root) →
      (run tokens steps).stands root := by
    intro root first
    have same : (run tokens steps).record.getLast? = some (.opened 0) := by decide +kernel
    cases same.symm.trans first
    decide +kernel
  have succeeds : (run tokens steps).build.2.isOk := by decide +kernel
  refine ⟨kept, ?_⟩
  rcases build_run tokens steps kept with ⟨_, refused, _⟩ |
    ⟨tree, marked, built, same, _, _, names, around, twice⟩
  · rw [refused] at succeeds
    cases succeeds
  · refine ⟨tree, marked, built, same, ?_, ?_, ?_⟩
    · have all : (List.range (run tokens steps).marks.length).filter (run tokens steps).stands
          = [0, 1, 2, 3] := by decide +kernel
      rwa [all] at names
    · exact around (steps.take 5) 1 (steps.drop 6) rfl (by decide +kernel) (by decide +kernel)
        (by decide +kernel)
    · exact twice (steps.take 4) 1 [] (steps.drop 6) rfl (by decide +kernel) (by decide +kernel)
        (by decide +kernel)

end Production

end WolframSyntax
