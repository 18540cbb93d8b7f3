import WolframSyntax.Proofs.Climbing
import WolframSyntax.Proofs.Streams

/-!
# Factors without a sign

Where the factors of a product stand side by side, with no multiplication sign between them
(`Tree.joints`). Such a place comes about in one way only: a word that begins an expression is read
while a complete one could be multiplied (`Reading.Joins`). Every other move of a reading leaves the
places as they are (`Reading.Passes.joints`, `Reading.Takes.joints`).
-/

namespace WolframSyntax

open SyntaxTree

namespace Tree

variable {Label : Type}

/-- Whether the root holds a multiplication sign. -/
def isTimesSign (tree : Tree Label) : Bool :=
  tree.content.token.any fun token => token.kind == .operator .times

/-- Whether an operand would be a factor without a sign if it stood behind a tree, when it is known
whether it would be one in place of the tree. -/
def awaitsAfter (product awaits : Bool) (tree : Tree Label) : Bool :=
  if tree.isLeaf then awaits && !tree.isTimesSign else product

mutual

/-- For each factor that stands behind another one without a sign between them, the number of tokens
in front of it. -/
def joints : Tree Label → List Nat
  | node _ content children => jointsOfAll (content.kind == .times) false children

/-- The same for children of a construct that is a product or not; `awaits` tells whether an operand
in front of them would be such a factor. -/
def jointsOfAll (product awaits : Bool) : List (Tree Label) → List Nat
  | [] => []
  | tree :: trees =>
    (if awaits && !tree.isLeaf then [0] else []) ++ tree.joints
      ++ (jointsOfAll product (awaitsAfter product awaits tree) trees).map
        (· + tree.tokens.length)

end

/-- The joints of a node are those of its children, of which only a product's may be factors. -/
theorem joints_node (label : Label) (content : Content) (children : List (Tree Label)) :
    joints (node label content children)
      = jointsOfAll (content.kind == .times) false children := by
  rw [joints]

/-- The joints of the first child come first, and those of the others count the tokens in front of
them. -/
theorem jointsOfAll_cons (product awaits : Bool) (tree : Tree Label) (trees : List (Tree Label)) :
    jointsOfAll product awaits (tree :: trees)
      = (if awaits && !tree.isLeaf then [0] else []) ++ tree.joints
        ++ (jointsOfAll product (awaitsAfter product awaits tree) trees).map
          (· + tree.tokens.length) := by
  rw [jointsOfAll]

/-- The joints of more children count the tokens of those in front. -/
theorem jointsOfAll_append (product awaits : Bool) (left right : List (Tree Label)) :
    jointsOfAll product awaits (left ++ right)
      = jointsOfAll product awaits left
        ++ (jointsOfAll product (left.foldl (awaitsAfter product) awaits) right).map
          (· + (left.flatMap tokens).length) := by
  induction left generalizing awaits with
  | nil => simp [jointsOfAll]
  | cons tree left ih =>
    simp only [List.cons_append, List.foldl_cons, jointsOfAll_cons, ih, List.map_append,
      List.map_map, List.append_assoc, List.flatMap_cons, List.length_append, Function.comp_def,
      Nat.add_assoc, Nat.add_comm tree.tokens.length]

/-- What is no product awaits no factor. -/
theorem foldl_awaitsAfter_false (trees : List (Tree Label)) :
    trees.foldl (awaitsAfter false) false = false := by
  induction trees with
  | nil => rfl
  | cons tree trees ih =>
    have still : awaitsAfter false false tree = false := by simp [awaitsAfter]
    rw [List.foldl_cons, still, ih]

end Tree

namespace SyntaxTree

open WolframSyntax.Tree

@[simp] theorem joints_leaf (token : Token) : (leaf token).joints = [] := rfl

/-- Tokens alone have no joints. -/
theorem jointsOfAll_map_leaf (product awaits : Bool) (tokens : List Token) :
    jointsOfAll product awaits (tokens.map leaf) = [] := by
  induction tokens generalizing awaits with
  | nil => rfl
  | cons token tokens ih =>
    rw [List.map_cons, jointsOfAll_cons, ih]
    simp

/-- Leaves without multiplication signs change nothing. -/
theorem foldl_awaitsAfter_map_leaf (product awaits : Bool) (tokens : List Token) :
    (tokens.map leaf).foldl (awaitsAfter product) awaits
      = (awaits && tokens.all fun token => token.kind != .operator .times) := by
  induction tokens generalizing awaits with
  | nil => simp
  | cons token tokens ih =>
    have after : awaitsAfter product awaits (leaf token)
        = (awaits && token.kind != .operator .times) := by
      rw [awaitsAfter, if_pos (isLeaf_leaf token)]
      rfl
    rw [List.map_cons, List.foldl_cons, after, ih, List.all_cons, Bool.and_assoc]

@[simp] theorem joints_ofKind (kind : NodeKind) (children : List SyntaxTree) :
    (ofKind kind children).joints = jointsOfAll (kind == .times) false children :=
  joints_node _ _ _

@[simp] theorem joints_error (message : String) (children : List SyntaxTree) :
    (error message children).joints = jointsOfAll false false children :=
  joints_node _ _ _

@[simp] theorem joints_absent (kind : NodeKind) (message : Option String) (next : Token) :
    (absent kind message next).joints = [] := rfl

end SyntaxTree

/-! ## Frames -/

/-- Whether a construct is a product. -/
def Role.isProduct : Role → Bool
  | .chain kind _ => kind == .times
  | _ => false

/-- A construct is a product if and only if it waits for factors behind multiplication signs. -/
def Role.IsProper : Role → Prop
  | .operand kind => kind ≠ .times
  | .chain kind sign => kind = .times ↔ sign = .times
  | _ => True

/-- No prefix operator makes a product. -/
theorem Opening.ne_times_of_ofKind? {kind : TokenKind} {made : NodeKind} {precedence : Int}
    (opens : Opening.ofKind? kind = some (.operator made precedence)) : made ≠ .times := by
  unfold Opening.ofKind? at opens
  split at opens
  case h_6 sign => cases sign <;> cases opens <;> exact NodeKind.noConfusion
  all_goals cases opens

/-- What an operator makes is a product for the multiplication sign only. -/
theorem Continuation.eq_times_of_makes {sign : Operator} {continuation : Continuation}
    (form : Continuation.ofOperator? sign = some continuation)
    (makes : (∃ nestsRight, continuation = .binary .times nestsRight) ∨
      continuation = .flat .times) : False := by
  cases sign <;> cases form <;> simp at makes

/-- Where a construct agrees with the grammar, it is a product just in case it waits for factors. -/
theorem Frame.Agrees.isProper {grammar : Grammar} {outer : Int} {frame : Frame}
    (agrees : frame.Agrees grammar outer) : frame.role.IsProper := by
  cases agrees.stands with
  | bracket first role => rcases role with role | role <;> rw [role] <;> trivial
  | opened first role opens =>
    rw [role]
    exact Opening.ne_times_of_ofKind? opens
  | @made sign continuation left made follows weak =>
    cases role : frame.role with
    | operand kind =>
      rw [role] at follows
      rintro rfl
      rcases follows with ⟨nestsRight, binary, _⟩ | ⟨_, other | other, _⟩
      · exact Continuation.eq_times_of_makes made.form (.inl ⟨nestsRight, binary⟩)
      · cases other
      · cases other
    | chain kind own =>
      rw [role] at follows
      obtain ⟨rfl, flat | ⟨product, rfl⟩, _⟩ := follows
      · constructor
        · rintro rfl
          exact (Continuation.eq_times_of_makes made.form (.inr flat)).elim
        · rintro rfl
          rw [flat] at made
          cases made.form
      · refine iff_of_true rfl ?_
        have form := made.form
        rw [product] at form
        cases own <;> first | rfl | cases form
    | _ => trivial

/-- The leaves of a word are those of its tokens. -/
theorem Word.leaves_eq_map_leaf (word : Word) : word.leaves = word.tokens.map SyntaxTree.leaf := by
  simp [Word.leaves, Word.leadLeaves, Word.leaf, Word.tokens]

namespace Frame

variable {frame : Frame} {word : Word}

/-- The factors without a sign among the children of a frame. -/
def joints (frame : Frame) : List Nat :=
  Tree.jointsOfAll frame.role.isProduct false frame.children

/-- Whether the next operand of a frame would be a factor without a sign. -/
def awaitsFactor (frame : Frame) : Bool :=
  frame.children.foldl (Tree.awaitsAfter frame.role.isProduct) false

/-- The factors without a sign in a frame and in the operand that stands in it, of which those of
the operand are given. -/
def jointsWith (frame : Frame) (inner : List Nat) : List Nat :=
  frame.joints
    ++ ((if frame.awaitsFactor then [0] else []) ++ inner).map (· + frame.tokens.length)

theorem awaitsFactor_of_isProduct_eq_false (plain : frame.role.isProduct = false) :
    frame.awaitsFactor = false := by
  rw [awaitsFactor, plain]
  exact Tree.foldl_awaitsAfter_false frame.children

/-- A construct that is no product gains no joint with an operand that has none. -/
theorem jointsWith_of_isProduct_eq_false (plain : frame.role.isProduct = false) :
    frame.jointsWith [] = frame.joints := by
  simp [jointsWith, awaitsFactor_of_isProduct_eq_false plain]

/-- An operand adds its own joints, and one more if its construct awaits a factor. -/
theorem joints_add {outcome : Outcome} (inner : outcome.tree.isLeaf = false) :
    (frame.add outcome).joints = frame.jointsWith outcome.tree.joints := by
  have last : ∀ awaits, Tree.jointsOfAll frame.role.isProduct awaits [outcome.tree]
      = (if awaits then [0] else []) ++ outcome.tree.joints := by
    intro awaits
    simp [Tree.jointsOfAll, inner]
  change Tree.jointsOfAll frame.role.isProduct false (frame.children ++ [outcome.tree]) = _
  rw [Tree.jointsOfAll_append, last]
  rfl

/-- A word that is taken is no factor. -/
theorem joints_take : (frame.take word).joints = frame.joints := by
  change Tree.jointsOfAll frame.role.isProduct false (frame.children ++ word.leaves) = _
  rw [Tree.jointsOfAll_append, word.leaves_eq_map_leaf, jointsOfAll_map_leaf, List.map_nil,
    List.append_nil]
  rfl

theorem joints_takeLead : (frame.takeLead word).joints = frame.joints := by
  change Tree.jointsOfAll frame.role.isProduct false (frame.children ++ word.leadLeaves) = _
  rw [Tree.jointsOfAll_append, Word.leadLeaves, jointsOfAll_map_leaf, List.map_nil,
    List.append_nil]
  rfl

/-- Outside of products nothing that is missing is taken for a factor. -/
theorem joints_fail (plain : frame.role.isProduct = false) (diagnostics : List Diagnostic) :
    (frame.fail diagnostics word).joints = frame.joints := by
  have absent : Tree.jointsOfAll false false (diagnostics.map fun diagnostic =>
      SyntaxTree.absent .error (some diagnostic.message) word.token) = [] := by
    induction diagnostics with
    | nil => rfl
    | cons diagnostic diagnostics ih =>
      rw [List.map_cons, Tree.jointsOfAll_cons]
      exact congrArg (List.map _) ih
  change Tree.jointsOfAll frame.role.isProduct false (frame.children ++ _) = Tree.jointsOfAll _ _ _
  rw [plain, Tree.jointsOfAll_append, Tree.foldl_awaitsAfter_false, absent, List.map_nil,
    List.append_nil]

/-- A complete construct keeps the places if it is what its frame was. -/
theorem joints_outcome {given : List Nat} (kept : frame.joints = given) {kind : NodeKind}
    (same : (kind == .times) = frame.role.isProduct) :
    (frame.outcome kind).tree.joints = given := by
  change (ofKind kind frame.children).joints = _
  rw [joints_ofKind, same]
  exact kept

/-- A tag is kept with its places. -/
theorem joints_tagOutcome (outcome : Outcome) :
    (tagOutcome outcome).1.tree.joints = outcome.tree.joints := by
  obtain ⟨⟨label, content, children⟩, succeeded⟩ := outcome
  unfold tagOutcome
  split
  · rfl
  · next symbol =>
    have isSymbol : content.kind = .symbol := symbol
    rw [joints_ofKind, Tree.joints_node, isSymbol]
    rfl
  · rfl
  · simp [Tree.jointsOfAll]

/-- A frame begins another operand only with a word that goes on as a factor. -/
theorem link?_of_receive_eq_begins {bracketed : Bool} {outcome : Outcome} {next : Frame}
    {opening : Opening} (begun : frame.receive bracketed outcome word = .begins next opening) :
    word.link? bracketed = some (.factor opening) := by
  obtain ⟨role, floor, children, succeeded⟩ := frame
  unfold receive at begun
  cases role with
  | group => exact (close_ne_begins begun).elim
  | items enclosure =>
    dsimp only at begun
    split at begun
    · cases begun
    · exact (closeItems_ne_begins begun).elim
  | operand kind => cases begun
  | chain kind sign =>
    dsimp only at begun
    split at begun
    · cases begun
    split at begun
    · split at begun <;> cases begun
    · next link =>
      split at begun
      · cases begun
        exact link
      · cases begun
    · cases begun
  | compound | tag =>
    dsimp only at begun
    split at begun <;> cases begun
  | tagPattern =>
    dsimp only at begun
    split at begun
    · cases begun
    split at begun
    · cases begun
    split at begun <;> cases begun

/-- The leaf of a multiplication sign ends the wait for a factor without one. -/
theorem awaitsFactor_take_of_times (times : word.isOperator .times) :
    (frame.take word).awaitsFactor = false := by
  change (frame.children ++ (word.leadLeaves ++ [word.leaf])).foldl _ _ = _
  have last : word.leaf = leaf word.token := rfl
  rw [List.foldl_append, List.foldl_append, last, ← List.map_singleton,
    foldl_awaitsAfter_map_leaf]
  simp [show (word.token.kind == .operator .times) = true from times, bne]

end Frame

/-- Where a construct that has taken a word waits for what follows. -/
def Focus.joints : Focus → List Nat
  | .complete outcome => outcome.tree.joints
  | .blankName _ _ named => named.toList.flatMap Tree.joints
  | _ => []

/-- A reaction that leaves given places, where a construct that waits for more does not await a
factor without a sign. -/
def Reaction.Joins (given : List Nat) : Reaction → Prop
  | .waits frame focus => frame.joints = given ∧ frame.awaitsFactor = false ∧ focus.joints = []
  | .begins frame _ => frame.joints = given
  | .closes outcome | .ends outcome => outcome.tree.joints = given

namespace Frame

variable {frame : Frame} {word : Word}

/-- A bracketed construct gains no joint with its close, nor with the error in place of it. -/
theorem joins_close (plain : frame.role.isProduct = false) {given : List Nat}
    (kept : frame.joints = given) {kind : NodeKind} (other : (kind == .times) = false)
    (closing : Operator) (unclosed : List Diagnostic) :
    (frame.close kind closing unclosed word).Joins given := by
  unfold close
  split
  · exact joints_outcome (joints_take.trans kept) (other.trans plain.symm)
  · exact joints_outcome ((joints_fail plain unclosed).trans kept) (other.trans plain.symm)

/-- Items gain no joint with what closes or separates them. -/
theorem joins_closeItems (plain : frame.role.isProduct = false) {given : List Nat}
    (kept : frame.joints = given) (enclosure : Enclosure) :
    (frame.closeItems enclosure word).Joins given := by
  unfold closeItems
  split
  · exact ⟨joints_take.trans kept, awaitsFactor_of_isProduct_eq_false plain, rfl⟩
  · refine joins_close plain kept ?_ _ _
    cases enclosure <;> rfl

/-- What a frame does with an operand keeps the places in both. -/
theorem joins_receive (proper : frame.role.IsProper) (bracketed : Bool) {outcome : Outcome}
    (operand : outcome.tree.IsOperand) :
    (frame.receive bracketed outcome word).Joins (frame.jointsWith outcome.tree.joints) := by
  have fed : (frame.add outcome).joints = frame.jointsWith outcome.tree.joints :=
    joints_add operand.inner
  have taken : ∀ focus : Focus, focus.joints = [] → frame.role.isProduct = false →
      Reaction.Joins (frame.jointsWith outcome.tree.joints)
        (.waits ((frame.add outcome).take word) focus) :=
    fun focus none plain =>
      ⟨joints_take.trans fed, awaitsFactor_of_isProduct_eq_false plain, none⟩
  obtain ⟨role, floor, children, succeeded⟩ := frame
  unfold receive
  cases role with
  | group => exact joins_close rfl fed rfl _ _
  | items enclosure =>
    dsimp only
    split
    · exact taken _ rfl rfl
    · exact joins_closeItems rfl fed enclosure
  | operand kind => exact joints_outcome fed (beq_false_of_ne proper)
  | chain kind sign =>
    dsimp only
    split
    · exact joints_outcome fed rfl
    split
    · next next _ link =>
      split
      · next repeats =>
        refine ⟨joints_take.trans fed, ?_, rfl⟩
        by_cases product : kind = .times
        · apply awaitsFactor_take_of_times
          rw [Word.isOperator, (Word.of_link?_eq_sign link).1, repeats, proper.mp product]
          exact beq_self_eq_true _
        · exact awaitsFactor_of_isProduct_eq_false (beq_false_of_ne product)
      · exact joints_outcome fed rfl
    · split
      · exact fed
      · exact joints_outcome fed rfl
    · exact joints_outcome fed rfl
  | compound =>
    dsimp only
    split
    · exact taken _ rfl rfl
    · exact joints_outcome fed rfl
  | tag last =>
    have kept : (add ⟨.tag last, floor, children, succeeded⟩ (tagOutcome outcome).1).joints
        = jointsWith ⟨.tag last, floor, children, succeeded⟩ outcome.tree.joints := by
      rw [joints_add (tagOutcome_isOperand operand).inner, joints_tagOutcome]
    dsimp only
    split
    · exact ⟨joints_take.trans kept, awaitsFactor_of_isProduct_eq_false rfl, rfl⟩
    · exact joints_outcome kept rfl
  | tagPattern =>
    dsimp only
    split
    · exact joints_outcome fed rfl
    split
    · exact ⟨joints_take.trans fed, awaitsFactor_of_isProduct_eq_false rfl, rfl⟩
    split
    · exact ⟨joints_take.trans fed, awaitsFactor_of_isProduct_eq_false rfl, rfl⟩
    · exact joints_outcome ((joints_fail rfl _).trans fed) rfl

end Frame

/-! ## Readings -/

/-- The factors without a sign in the constructs around an operand and in the operand itself, of
which those of the operand are given. -/
def Frame.jointsWithin (frames : List Frame) (inner : List Nat) : List Nat :=
  frames.foldl (fun inner frame => frame.jointsWith inner) inner

/-- The number of tokens in front of each factor that stands behind another one without a sign. -/
def Reading.joints (reading : Reading) : List Nat :=
  Frame.jointsWithin reading.frames reading.focus.joints

/-- The number of tokens that a list of frames holds. -/
def Frame.width (frames : List Frame) : Nat := (frames.reverse.flatMap Frame.tokens).length

namespace Frame

/-- The joints of an operand are carried through the innermost frame first. -/
theorem jointsWithin_cons (frame : Frame) (frames : List Frame) (inner : List Nat) :
    jointsWithin (frame :: frames) inner = jointsWithin frames (frame.jointsWith inner) := rfl

/-- The width of several frames is that of the outer ones and of the tokens of the innermost one. -/
theorem width_cons (frame : Frame) (frames : List Frame) :
    width (frame :: frames) = width frames + frame.tokens.length := by
  simp [width]

/-- Joints further on in an operand count the tokens of its frame. -/
theorem jointsWith_append (frame : Frame) (left right : List Nat) :
    frame.jointsWith (left ++ right)
      = frame.jointsWith left ++ right.map (· + frame.tokens.length) := by
  simp [jointsWith]

/-- Joints further on in an operand count the tokens of all frames around it. -/
theorem jointsWithin_append (frames : List Frame) (left right : List Nat) :
    jointsWithin frames (left ++ right)
      = jointsWithin frames left ++ right.map (· + width frames) := by
  induction frames generalizing left right with
  | nil => simp [jointsWithin, width]
  | cons frame frames ih =>
    rw [jointsWithin_cons, jointsWith_append, ih, jointsWithin_cons, width_cons, List.map_map]
    refine congrArg _ (List.map_congr_left fun index _ => ?_)
    simp only [Function.comp_apply]
    omega

end Frame

namespace Reading

variable {surroundings : Surroundings} {word : Word} {before after : Reading}

/-- A word that begins an expression is read as a factor of a product in front of it. -/
inductive Joins (surroundings : Surroundings) (word : Word) : Reading → Reading → Prop where
  /-- The word makes a complete expression the first factor. -/
  | multiplies {frames : List Frame} {outcome : Outcome} {opening : Opening}
      (link : word.link? (surroundings.isBracketed frames) = some (.factor opening))
      (weak : surroundings.floorOf frames < surroundings.grammar.precedence .times) :
      Joins surroundings word ⟨frames, .complete outcome⟩
        (multiply surroundings.grammar frames outcome.tree opening word)
  /-- The product in front of the word has another factor. -/
  | goesOn {frame fed : Frame} {frames : List Frame} {outcome : Outcome} {opening : Opening}
      (link : word.link? (surroundings.isBracketed (frame :: frames)) = some (.factor opening))
      (stays : extend? surroundings (frame :: frames) outcome.tree word = none)
      (begins : frame.receive (surroundings.isBracketed (frame :: frames)) outcome word
        = .begins fed opening) :
      Joins surroundings word ⟨frame :: frames, .complete outcome⟩
        (beginOperand fed frames opening word)

/-- A construct that waits for an operand does not await a factor without a sign. -/
def IsReady (reading : Reading) : Prop :=
  reading.focus.hasOperand = false → ∀ frame ∈ reading.frames.head?, frame.awaitsFactor = false

theorem joints_mk (frames : List Frame) (focus : Focus) :
    joints ⟨frames, focus⟩ = Frame.jointsWithin frames focus.joints := rfl

/-- A reading's joints go through its innermost frame first. -/
theorem joints_cons (frame : Frame) (frames : List Frame) (focus : Focus) :
    joints ⟨frame :: frames, focus⟩
      = Frame.jointsWithin frames (frame.jointsWith focus.joints) := rfl

/-- A frame that awaits no factor gains no joint with an operand that has none. -/
theorem jointsWith_of_awaitsFactor_eq_false {frame : Frame} (none : frame.awaitsFactor = false) :
    frame.jointsWith [] = frame.joints := by
  simp [Frame.jointsWith, none]

/-- An expression that begins with a token has no places yet. -/
theorem joints_begin (frames : List Frame) (opening : Opening) (token : Token) :
    (begin frames opening token).joints = Frame.jointsWithin frames [] ∧
      (begin frames opening token).IsReady := by
  have waits : ∀ role floor focus, Focus.joints focus = [] →
      (⟨⟨role, floor, [leaf token], true⟩ :: frames, focus⟩ : Reading).joints
          = Frame.jointsWithin frames [] ∧
        IsReady ⟨⟨role, floor, [leaf token], true⟩ :: frames, focus⟩ := by
    intro role floor focus none
    have ready : Frame.awaitsFactor ⟨role, floor, [leaf token], true⟩ = false :=
      foldl_awaitsAfter_map_leaf role.isProduct false [token]
    refine ⟨?_, fun _ frame same => by cases same; exact ready⟩
    rw [joints_cons, none, jointsWith_of_awaitsFactor_eq_false ready]
    exact congrArg _ (jointsOfAll_map_leaf role.isProduct false [token])
  cases opening with
  | atom kind =>
    refine ⟨congrArg (Frame.jointsWithin frames) ?_, fun none => by cases none⟩
    exact (joints_ofKind kind _).trans (jointsOfAll_map_leaf _ _ [token])
  | blank kind => exact ⟨rfl, fun none => by cases none⟩
  | group | list | operator => exact waits _ _ _ rfl

/-- An operand that begins with a word has a place if and only if its frame awaits a factor. -/
theorem joints_beginOperand (frame : Frame) (frames : List Frame) (opening : Opening) :
    (beginOperand frame frames opening word).joints
        = Frame.jointsWithin frames ((frame.takeLead word).jointsWith []) ∧
      (beginOperand frame frames opening word).IsReady :=
  joints_begin (frame.takeLead word :: frames) opening word.token

/-- A construct that begins with a complete expression has the places in the expression. -/
theorem joints_left_leaves (left : SyntaxTree) (product : Bool) (word : Word) :
    Tree.jointsOfAll product false (left :: word.leaves) = left.joints := by
  rw [Tree.jointsOfAll_cons, word.leaves_eq_map_leaf, jointsOfAll_map_leaf]
  simp

/-- An operator that goes on from an operand makes no joint. -/
theorem joints_continueWith {grammar : Grammar} {frames : List Frame} {left : SyntaxTree}
    {sign : Operator} {continuation : Continuation}
    (form : Continuation.ofOperator? sign = some continuation)
    (kind : word.token.kind = .operator sign) :
    (continueWith grammar frames left sign continuation word).joints
        = Frame.jointsWithin frames left.joints ∧
      (continueWith grammar frames left sign continuation word).IsReady := by
  have waits : ∀ {role : Role} {floor : Int} {focus : Focus}, focus.joints = [] →
      role.isProduct = false ∨ word.isOperator .times →
      (⟨⟨role, floor, left :: word.leaves, true⟩ :: frames, focus⟩ : Reading).joints
          = Frame.jointsWithin frames left.joints ∧
        IsReady ⟨⟨role, floor, left :: word.leaves, true⟩ :: frames, focus⟩ := by
    intro role floor focus none signed
    have ready : Frame.awaitsFactor ⟨role, floor, left :: word.leaves, true⟩ = false := by
      rcases signed with plain | times
      · exact Frame.awaitsFactor_of_isProduct_eq_false plain
      · change (Frame.take ⟨role, floor, [left], true⟩ word).awaitsFactor = false
        exact Frame.awaitsFactor_take_of_times times
    refine ⟨?_, fun _ frame same => by cases same; exact ready⟩
    rw [joints_cons, none, jointsWith_of_awaitsFactor_eq_false ready]
    exact congrArg _ (joints_left_leaves left role.isProduct word)
  cases continuation with
  | flat kind =>
    refine waits rfl (.inl (beq_false_of_ne ?_))
    rintro rfl
    exact Continuation.eq_times_of_makes form (.inr rfl)
  | product =>
    have times : sign = .times := by cases sign <;> first | rfl | cases form
    refine waits rfl (.inr ?_)
    rw [Word.isOperator, kind, times]
    exact beq_self_eq_true _
  | suffix kind =>
    refine ⟨congrArg (Frame.jointsWithin frames) ?_, fun none => by cases none⟩
    exact (joints_ofKind kind _).trans (joints_left_leaves left _ word)
  | pattern mark =>
    refine ⟨congrArg (Frame.jointsWithin frames) ?_, fun none => by cases none⟩
    exact List.flatMap_singleton _ _
  | binary | call | messageName | compound | tagSet => exact waits rfl (.inl rfl)

/-- A blank has the joints of the name in front of it. -/
theorem joints_blankTree {kind : NodeKind} {children : List SyntaxTree}
    (none : Tree.jointsOfAll (kind == .times) false children = []) (named : Option SyntaxTree) :
    (blankTree kind named children).joints = named.toList.flatMap Tree.joints := by
  cases named with
  | none => exact (joints_ofKind kind children).trans none
  | some left =>
    have pattern : (NodeKind.pattern == .times) = false := rfl
    have blank : (ofKind kind children).joints = [] := (joints_ofKind kind children).trans none
    have behind : Tree.awaitsAfter false false left = false := by simp [Tree.awaitsAfter]
    rw [blankTree, joints_ofKind, pattern, Tree.jointsOfAll_cons, behind, Tree.jointsOfAll_cons,
      blank]
    simp [Tree.jointsOfAll]

/-- How a construct reacts to a word keeps the places. -/
theorem Reacts.joins {frames : List Frame} {reaction : Reaction}
    (reacts : Reacts surroundings word before frames reaction) (fits : before.Fits)
    (awaits : before.Awaits surroundings word) :
    ∃ given, before.joints = Frame.jointsWithin frames given ∧ reaction.Joins given := by
  obtain ⟨stack, _, suits⟩ := awaits
  cases reacts with
  | complete stays => exact ⟨_, rfl, Frame.joins_receive stack.1.isProper _ fits.focus⟩
  | @missing frame frames focus wants unopened =>
    refine ⟨_, ?_, Frame.joins_receive stack.1.isProper _ (isOperand_absent _ _ rfl)⟩
    rw [joints_cons]
    cases focus <;> first | rfl | cases wants
  | absent unopened =>
    exact ⟨_, rfl, Frame.joins_receive stack.1.isProper _ (isOperand_absent _ _ rfl)⟩
  | @empty frame frames focus enclosure begins role closing =>
    have plain : frame.role.isProduct = false := by rw [role]; rfl
    refine ⟨frame.joints, ?_, Frame.joins_closeItems plain rfl enclosure⟩
    rw [joints_cons, ← Frame.jointsWith_of_isProduct_eq_false plain]
    cases focus <;> first | rfl | cases begins
  | @partEnd frame frames =>
    have plain : frame.role.isProduct = false := by rw [suits frame rfl]; rfl
    refine ⟨frame.joints, ?_, Frame.joins_close plain rfl rfl _ _⟩
    rw [joints_cons, ← Frame.jointsWith_of_isProduct_eq_false plain]
    rfl

/-- A construct begins another operand with a word only if it is a product that could be multiplied
by it. -/
theorem Reacts.joins_of_begins {frames : List Frame} {fed : Frame} {opening : Opening}
    (reacts : Reacts surroundings word before frames (.begins fed opening))
    (awaits : before.Awaits surroundings word) :
    Joins surroundings word before (beginOperand fed frames opening word) := by
  generalize begun : Reaction.begins fed opening = reaction at reacts
  cases reacts with
  | complete stays => exact .goesOn (Frame.link?_of_receive_eq_begins begun.symm) stays begun.symm
  | missing wants unopened =>
    have opens := Frame.opening?_of_receive_eq_begins begun.symm
    rw [unopened] at opens
    cases opens
  | absent unopened =>
    have compound : Frame.role _ = .compound := awaits.suits _ rfl
    unfold Frame.receive at begun
    rw [compound] at begun
    dsimp only at begun
    split at begun <;> cases begun
  | empty begins role closing => exact (Frame.closeItems_ne_begins begun.symm).elim
  | partEnd => exact (Frame.close_ne_begins begun.symm).elim

/-- A reading keeps its places when it passes on. -/
theorem Passes.joints (passes : Passes surroundings word before after) (fits : before.Fits)
    (awaits : before.Awaits surroundings word) : after.joints = before.joints := by
  cases passes with
  | ends reacts =>
    obtain ⟨given, split, joins⟩ := reacts.joins fits awaits
    rw [split, joints_mk]
    exact congrArg _ joins
  | @unnamed frames kind blank named apart =>
    exact congrArg (Frame.jointsWithin frames)
      (joints_blankTree (jointsOfAll_map_leaf _ _ [blank]) named)

/-- A construct that goes on waiting for an operand is ready, and it has the places that were
left. -/
theorem joints_of_waits {frames : List Frame} {frame : Frame} {focus : Focus} {given : List Nat}
    (joins : Reaction.Joins given (.waits frame focus)) :
    (⟨frame :: frames, focus⟩ : Reading).joints = Frame.jointsWithin frames given ∧
      IsReady ⟨frame :: frames, focus⟩ := by
  obtain ⟨kept, ready, none⟩ := joins
  refine ⟨?_, fun _ other same => by cases same; exact ready⟩
  rw [joints_cons, none, jointsWith_of_awaitsFactor_eq_false ready, kept]

/-- The operand that begins with a word has a place in its frame at the end of the trivia in front
of the word, or none. -/
theorem joints_beginOperand_cases (frame : Frame) (frames : List Frame) (opening : Opening)
    (word : Word) :
    (beginOperand frame frames opening word).joints = Frame.jointsWithin frames frame.joints ∨
      (beginOperand frame frames opening word).joints
        = Frame.jointsWithin frames frame.joints
          ++ [(frames.reverse.flatMap Frame.tokens ++ frame.tokens ++ word.lead).length] := by
  rw [(joints_beginOperand frame frames opening).1, Frame.jointsWith, Frame.joints_takeLead]
  cases (frame.takeLead word).awaitsFactor with
  | false => exact .inl (by simp)
  | true =>
    refine .inr ?_
    rw [Frame.jointsWithin_append]
    simp [Frame.width, Nat.add_comm]

/-- An operand that is waited for has no place of its own. -/
theorem joints_beginOperand_of_ready {frame : Frame} (ready : frame.awaitsFactor = false)
    (frames : List Frame) (opening : Opening) :
    (beginOperand frame frames opening word).joints
      = Frame.jointsWithin frames (frame.jointsWith []) := by
  have still : (frame.takeLead word).awaitsFactor = false := by
    change (frame.children ++ word.lead.map leaf).foldl _ false = false
    rw [List.foldl_append, foldl_awaitsAfter_map_leaf]
    exact congrArg (· && _) ready
  rw [(joints_beginOperand frame frames opening).1, jointsWith_of_awaitsFactor_eq_false still,
    Frame.joints_takeLead, jointsWith_of_awaitsFactor_eq_false ready]

/-- A reading that takes a word keeps its places. If the word becomes a factor without a sign in
front of it, its place is new. -/
theorem Takes.joints (takes : Takes surroundings word before after) (fits : before.Fits)
    (awaits : before.Awaits surroundings word) (begun : before.IsBegun) (ready : before.IsReady) :
    after.IsReady ∧ (after.joints = before.joints ∨
      Joins surroundings word before after ∧
        after.joints = before.joints ++ [(before.tokens ++ word.lead).length]) := by
  cases takes with
  | alone unfinished opens => exact absurd (begun rfl) (by simp [unfinished])
  | @operand frame frames focus opening wants opens =>
    have unfinished : focus.hasOperand = false := by cases focus <;> first | rfl | cases wants
    have bare : focus.joints = [] := by cases focus <;> first | rfl | cases wants
    refine ⟨(joints_beginOperand frame frames opening).2, .inl ?_⟩
    rw [joints_beginOperand_of_ready (ready unfinished frame rfl), joints_cons, bare]
  | @statement frame frames opening opens =>
    refine ⟨(joints_beginOperand frame frames opening).2, .inl ?_⟩
    rw [joints_beginOperand_of_ready (ready rfl frame rfl)]
    rfl
  | @continues frames outcome next goesOn =>
    rcases eq_of_extend?_eq_some goesOn with ⟨sign, continuation, link, _, rfl⟩ |
        ⟨opening, link, weak, rfl⟩
    · obtain ⟨kind, form, _⟩ := Word.of_link?_eq_sign link
      exact ⟨(joints_continueWith form kind).2, .inl (joints_continueWith form kind).1⟩
    · refine ⟨(joints_beginOperand _ frames opening).2, ?_⟩
      have first : Frame.joints
          ⟨.chain .times .times, surroundings.grammar.precedence .times, [outcome.tree], true⟩
          = outcome.tree.joints := by
        simp [Frame.joints, Tree.jointsOfAll]
      have places := joints_beginOperand_cases
        ⟨.chain .times .times, surroundings.grammar.precedence .times, [outcome.tree], true⟩
        frames opening word
      rw [first] at places
      refine places.imp id fun place => ⟨.multiplies link weak, place.trans ?_⟩
      simp [tokens_mk, joints_mk, Frame.tokens, Focus.tokens, Focus.joints]
  | @reacts _ _ frames reaction reacts taken =>
    obtain ⟨given, split, joins⟩ := reacts.joins fits awaits
    cases reaction with
    | waits frame focus =>
      cases taken
      exact ⟨(joints_of_waits joins).2, .inl ((joints_of_waits joins).1.trans split.symm)⟩
    | begins frame opening =>
      cases taken
      refine ⟨(joints_beginOperand frame frames opening).2, ?_⟩
      have places := joints_beginOperand_cases frame frames opening word
      rw [show frame.joints = given from joins, ← split] at places
      refine places.imp id fun place => ⟨reacts.joins_of_begins awaits, place.trans ?_⟩
      rw [reacts.tokens_of_begins fits]
    | closes outcome =>
      cases taken
      refine ⟨(fun none => by cases none), .inl ?_⟩
      rw [split]
      exact congrArg (Frame.jointsWithin frames) joins
    | ends outcome => cases taken
  | @part frame frames bracket touches =>
    have role : frame.role = .items .call := awaits.suits frame rfl
    have plain : frame.role.isProduct = false := by rw [role]; rfl
    have part : Frame.joints { frame.take word with role := .items .part } = frame.joints := by
      refine Eq.trans ?_ (Frame.joints_take : (frame.take word).joints = frame.joints)
      exact congrArg (Tree.jointsOfAll · false (frame.take word).children) plain.symm
    have readyAfter :
        Frame.awaitsFactor { frame.take word with role := .items .part } = false :=
      Frame.awaitsFactor_of_isProduct_eq_false rfl
    refine ⟨fun _ other same => by cases same; exact readyAfter, .inl ?_⟩
    rw [joints_cons, joints_cons]
    refine congrArg (Frame.jointsWithin frames) ?_
    rw [show Focus.joints .firstItem = [] from rfl, show Focus.joints .arguments = [] from rfl,
      jointsWith_of_awaitsFactor_eq_false readyAfter, part,
      Frame.jointsWith_of_isProduct_eq_false plain]
  | @name frames kind blank named identifier touches =>
    refine ⟨(fun none => by cases none), .inl ?_⟩
    refine congrArg (Frame.jointsWithin frames) (joints_blankTree ?_ named)
    have behind : Tree.awaitsAfter (kind == .times) false (leaf blank) = false := by
      simp [Tree.awaitsAfter]
    simp [Tree.jointsOfAll, behind, Word.leaf]

/-- Reading a word keeps the places, unless the word becomes a factor without a sign. -/
theorem joints_read (surroundings : Surroundings) (word : Word) {reading : Reading}
    (fits : reading.Fits) (rests : reading.Rests surroundings) (begun : reading.IsBegun)
    (ready : reading.IsReady) :
    (∀ next, reading.read surroundings word = .reading next →
        next.IsReady ∧ (next.joints = reading.joints ∨
          (∃ settled, Settles surroundings word reading settled ∧
              Joins surroundings word settled next) ∧
            next.joints = reading.joints ++ [(reading.tokens ++ word.lead).length])) ∧
      ∀ outcome, reading.read surroundings word = .finished outcome →
        outcome.toList.flatMap (fun finished => finished.tree.joints) = reading.joints := by
  obtain ⟨settled, settles, decides⟩ := exists_settles_decides surroundings reading word
  have kept : (settled.Fits ∧ settled.Awaits surroundings word ∧ settled.IsBegun ∧
      settled.IsReady) ∧ settled.tokens = reading.tokens ∧ settled.joints = reading.joints := by
    refine settles.keeps (fun settled => (settled.Fits ∧ settled.Awaits surroundings word ∧
      settled.IsBegun ∧ settled.IsReady) ∧ settled.tokens = reading.tokens ∧
      settled.joints = reading.joints) ?_ ⟨⟨fits, rests.awaits word, begun, ready⟩, rfl, rfl⟩
    rintro before after passes ⟨⟨fits, awaits, _, _⟩, tokens, joints⟩
    have readyAfter : after.IsReady := by
      cases passes <;> exact fun none => by cases none
    exact ⟨⟨passes.fits fits, passes.awaits fits awaits, passes.isBegun, readyAfter⟩,
      (passes.tokens fits).trans tokens, (passes.joints fits awaits).trans joints⟩
  obtain ⟨⟨fits, awaits, begun, ready⟩, tokens, joints⟩ := kept
  constructor
  · intro next progress
    rw [progress] at decides
    cases decides with
    | takes taken =>
      obtain ⟨readyAfter, places⟩ := taken.joints fits awaits begun ready
      rw [tokens, joints] at places
      exact ⟨readyAfter, places.imp_right fun place => ⟨⟨settled, settles, place.1⟩, place.2⟩⟩
  · intro outcome progress
    rw [progress] at decides
    cases decides with
    | finishes stays => simpa [joints_mk, Focus.joints, Frame.jointsWithin] using joints
    | unbegun unfinished unopened => exact absurd (begun rfl) (by simp [unfinished])

end Reading

/-! ## Files -/

/-- Outside products the joints of two lists of trees follow one another. -/
theorem SyntaxTree.jointsOfAll_append_of_not_product (left right : List SyntaxTree) :
    Tree.jointsOfAll false false (left ++ right)
      = Tree.jointsOfAll false false left
        ++ (Tree.jointsOfAll false false right).map (· + (left.flatMap Tree.tokens).length) := by
  rw [Tree.jointsOfAll_append, Tree.foldl_awaitsAfter_false]

namespace FileReading

variable {grammar : Grammar} {file : FileReading}

/-- The number of tokens in front of each factor that stands behind another one without a sign. -/
def joints (file : FileReading) : List Nat :=
  Tree.jointsOfAll false false file.children
    ++ (file.current.toList.flatMap Reading.joints).map
      (· + (file.children.flatMap Tree.tokens).length)

/-- What is known of a file between two words. -/
structure IsSteady (grammar : Grammar) (file : FileReading) : Prop where
  sound : file.IsSound
  agrees : file.Agrees grammar
  ready : ∀ reading ∈ file.current, reading.IsReady
  inside : ∀ index ∈ file.joints, index < file.tokens.length

theorem isSteady_empty (grammar : Grammar) : empty.IsSteady grammar :=
  ⟨isSound_empty, agrees_empty grammar, (fun _ none => by cases none), List.forall_mem_nil _⟩

/-- A word that begins an expression, or is skipped, adds no joint. -/
theorem joints_beginWith (children : List SyntaxTree) (word : Word) :
    (beginWith children word).joints = Tree.jointsOfAll false false children ∧
      ∀ reading ∈ (beginWith children word).current, reading.IsReady := by
  have lead : Tree.jointsOfAll false false word.leadLeaves = [] :=
    jointsOfAll_map_leaf false false word.lead
  unfold beginWith
  dsimp only
  split
  · next opening opens =>
    obtain ⟨none, ready⟩ := Reading.joints_begin [] opening word.token
    refine ⟨?_, fun reading same => by cases same; exact ready⟩
    simp [joints, jointsOfAll_append_of_not_product, none, lead, Frame.jointsWithin]
  · refine ⟨?_, fun reading none => by cases none⟩
    have skippedJoints : (skipped word).joints = [] := by
      simp [skipped, Tree.jointsOfAll, Word.leaf]
    simp [joints, jointsOfAll_append_of_not_product, lead, Tree.jointsOfAll, skippedJoints]

/-- A word is read as a factor without a sign. -/
def Joins (grammar : Grammar) (file : FileReading) (word : Word) : Prop :=
  ∃ reading next settled, file.current = some reading ∧
    reading.read (surroundings grammar) word = .reading next ∧
    Reading.Settles (surroundings grammar) word reading settled ∧
    Reading.Joins (surroundings grammar) word settled next

/-- A finished expression keeps its joints in the file. -/
theorem jointsOfAll_finished (outcome : Option Outcome) :
    Tree.jointsOfAll false false (outcome.map Outcome.tree).toList
      = outcome.toList.flatMap fun finished => finished.tree.joints := by
  cases outcome <;> simp [Tree.jointsOfAll]

/-- Reading a word keeps the places in a file, unless the word becomes a factor without a sign. -/
theorem IsSteady.joints_read (steady : file.IsSteady grammar) (word : Word) :
    (∀ reading ∈ (file.read grammar word).current, reading.IsReady) ∧
      ((file.read grammar word).joints = file.joints ∨
        file.Joins grammar word ∧
          (file.read grammar word).joints
            = file.joints ++ [(file.tokens ++ word.lead).length]) := by
  obtain ⟨sound, agrees, ready, _⟩ := steady
  unfold FileReading.read
  split
  · next none =>
    obtain ⟨kept, readyAfter⟩ := joints_beginWith file.children word
    refine ⟨readyAfter, .inl (kept.trans ?_)⟩
    simp [joints, none]
  · next reading current =>
    obtain ⟨goesOn, ends⟩ := Reading.joints_read (surroundings grammar) word
      (sound.fits.current reading current) (agrees.current reading current)
      (sound.begun reading current) (ready reading current)
    split
    · next next progress =>
      obtain ⟨readyAfter, places⟩ := goesOn next progress
      refine ⟨fun reading same => by cases same; exact readyAfter, ?_⟩
      refine places.imp (fun kept => by simp [joints, current, kept]) ?_
      rintro ⟨⟨settled, settles, joins⟩, place⟩
      refine ⟨⟨reading, next, settled, current, progress, settles, joins⟩, ?_⟩
      simp [joints, tokens, current, place, Nat.add_comm]
    · next outcome progress =>
      obtain ⟨kept, readyAfter⟩ :=
        joints_beginWith (file.children ++ (outcome.map Outcome.tree).toList) word
      refine ⟨readyAfter, .inl (kept.trans ?_)⟩
      rw [jointsOfAll_append_of_not_product, jointsOfAll_finished, ends outcome progress]
      simp [joints, current]

/-- A file stays steady with every word. -/
theorem IsSteady.read (steady : file.IsSteady grammar) (word : Word) :
    (file.read grammar word).IsSteady grammar := by
  obtain ⟨sound, grown⟩ := steady.sound.read grammar word
  obtain ⟨ready, places⟩ := steady.joints_read word
  refine ⟨sound, steady.agrees.read steady.sound.fits word, ready, fun index place => ?_⟩
  rw [grown, List.length_append]
  rcases places with kept | ⟨_, added⟩
  · rw [kept] at place
    exact Nat.lt_add_right _ (steady.inside index place)
  · rw [added] at place
    rcases List.mem_append.mp place with before | last
    · exact Nat.lt_add_right _ (steady.inside index before)
    · rw [List.mem_singleton.mp last]
      simp [Word.tokens]

/-- The end of a file keeps the places. -/
theorem IsSteady.joints_childrenAtEnd (steady : file.IsSteady grammar) {ending : Word}
    (ends : ending.token.isEnd) (beyond : List Token) :
    (ofKind .file (childrenAtEnd grammar file ending beyond)).joints = file.joints := by
  have finished : Tree.jointsOfAll false false (file.finish grammar ending) = file.joints := by
    unfold FileReading.finish
    split
    · next none => simp [joints, none]
    · next reading current =>
      split
      · next next progress =>
        exact absurd (Reading.isEnd_eq_false_of_read progress) (by simp [ends])
      · next outcome progress =>
        obtain ⟨_, kept⟩ := Reading.joints_read (surroundings grammar) ending
          (steady.sound.fits.current reading current) (steady.agrees.current reading current)
          (steady.sound.begun reading current) (steady.ready reading current)
        rw [jointsOfAll_append_of_not_product, jointsOfAll_finished, kept outcome progress]
        simp [joints, current]
  have file' : (NodeKind.file == .times) = false := rfl
  rw [joints_ofKind, file', childrenAtEnd, jointsOfAll_append_of_not_product, finished,
    jointsOfAll_append_of_not_product, Word.leadLeaves, jointsOfAll_map_leaf, jointsOfAll_map_leaf]
  simp

/-- A word behind its trivia adds as many tokens to those that have been read. -/
theorem IsSteady.length_tokens_read (steady : file.IsSteady grammar) (lead : List Token)
    (token : Token) :
    ((file.read grammar ⟨lead, token⟩).tokens ++ []).length
      = (file.tokens ++ lead).length + 1 := by
  rw [(steady.sound.read grammar ⟨lead, token⟩).2]
  simp [Word.tokens, Nat.add_assoc]

/-- The places that are not in a file yet come about in what is read of it later. -/
theorem IsSteady.mem_joints_of_readToEnd? (steady : file.IsSteady grammar)
    {lead tokens : List Token} {tree : SyntaxTree}
    (ended : file.readToEnd? grammar (WordStream.after lead tokens) = some tree) {index : Nat}
    (place : index ∈ tree.joints) :
    index ∈ file.joints ∨ (file.tokens ++ lead).length ≤ index := by
  induction tokens generalizing file lead with
  | nil => cases ended
  | cons token tokens ih =>
    cases blank : token.isTrivia with
    | true =>
      rw [WordStream.after_of_isTrivia blank] at ended
      refine (ih steady ended).imp_right fun later => ?_
      simp only [List.length_append, List.length_singleton] at later ⊢
      omega
    | false =>
      cases ends : token.isEnd with
      | true =>
        rw [readToEnd?_of_isEnd ends] at ended
        cases ended
        rw [steady.joints_childrenAtEnd ends] at place
        exact .inl place
      | false =>
        rw [readToEnd?_of_plain blank ends] at ended
        rcases ih (steady.read ⟨lead, token⟩) ended with before | later
        · rcases (steady.joints_read ⟨lead, token⟩).2 with kept | ⟨_, added⟩
          · rw [kept] at before
            exact .inl before
          · rw [added] at before
            refine (List.mem_append.mp before).imp_right fun last => ?_
            exact Nat.le_of_eq (List.mem_singleton.mp last).symm
        · refine .inr ?_
          rw [steady.length_tokens_read] at later
          exact Nat.le_of_succ_le later

end FileReading

end WolframSyntax
