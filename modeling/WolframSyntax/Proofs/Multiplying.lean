import WolframSyntax.Proofs.Factors
import WolframSyntax.Proofs.Signs

/-!
# Factors and multiplication signs

To write two factors side by side is to write a multiplication sign between them: in front of a word
that would become a factor without a sign, a sign is taken by the same construct, and the word then
begins the same operand (`Reading.Joins.signBefore`). So the signs that a text leaves out can be put
in at any of the places without changing what it means (`parseTokens_insertSigns`).
-/

namespace WolframSyntax

open SyntaxTree

namespace Word

variable {word : Word} {sign : Token} {opening : Opening}

/-- A sign in front of a word, behind the trivia of the word. -/
def signBefore (word : Word) (sign : Token) : Word := ⟨word.lead, sign⟩

/-- The word directly behind what is in front of it. -/
def attached (word : Word) : Word := ⟨[], word.token⟩

/-- A word that is a factor inside of brackets is one outside of them, if it begins no line. -/
theorem link?_of_factor (factor : word.link? true = some (.factor opening)) (bracketed : Bool) :
    word.link? bracketed
      = if bracketed || !word.beginsLine then some (.factor opening) else none := by
  unfold link? at factor ⊢
  simp only [Bool.not_true, Bool.false_and, Bool.false_eq_true, if_false] at factor
  rw [factor]
  cases bracketed <;> cases word.beginsLine <;> rfl

/-- A factor without a sign is one in brackets too. -/
theorem link?_true_of_factor {bracketed : Bool}
    (factor : word.link? bracketed = some (.factor opening)) :
    word.link? true = some (.factor opening) := by
  unfold link? at factor ⊢
  split at factor
  · cases factor
  · simpa using factor

/-- A multiplication sign goes on wherever a factor without a sign would. -/
theorem link?_signBefore (times : sign.kind = .operator .times) (bracketed : Bool) :
    (word.signBefore sign).link? bracketed
      = if bracketed || !word.beginsLine then some (.sign .times .product) else none := by
  have line : (word.signBefore sign).beginsLine = word.beginsLine := rfl
  have kind : (word.signBefore sign).token.kind = .operator .times := times
  unfold link?
  rw [line, kind]
  cases bracketed <;> cases word.beginsLine <;> rfl

/-- A multiplication sign is no other operator. -/
theorem isOperator_signBefore (times : sign.kind = .operator .times) (other : Operator)
    (differs : other ≠ .times) : (word.signBefore sign).isOperator other = false := by
  have kind : (word.signBefore sign).token.kind = .operator .times := times
  rw [isOperator, kind]
  apply beq_false_of_ne
  rintro ⟨⟩
  exact differs rfl

/-- A multiplication sign begins nothing. -/
theorem opening?_signBefore (times : sign.kind = .operator .times) :
    (word.signBefore sign).opening? = none := by
  rw [opening?, signBefore, times]
  rfl

/-- A multiplication sign begins nothing within a line. -/
theorem openingInLine?_signBefore (times : sign.kind = .operator .times) (bracketed : Bool) :
    (word.signBefore sign).openingInLine? bracketed = none := by
  unfold openingInLine?
  rw [opening?_signBefore times]
  exact ite_self _

end Word

/-- The bracket that ends an enclosure begins no expression. -/
theorem Enclosure.opens_closing (enclosure : Enclosure) :
    Opening.ofOperator? enclosure.closing = none := by
  cases enclosure <;> rfl

/-! ## What a construct does with a factor and with a sign -/

/-- What a construct does with a sign where it would do something else with a factor. -/
inductive Reaction.Signs (sign : Word) : Reaction → Reaction → Prop where
  | ends {outcome twin : Outcome} (outcomes : outcome.Respells twin) :
      Signs sign (.ends outcome) (.ends twin)
  | begins {frame twin : Frame} {opening : Opening} (frames : frame.Respells twin) :
      Signs sign (.begins frame opening) (.waits (twin.take sign) .operand)

namespace Frame.Respells

variable {frame twin : Frame} {held kept : Outcome} {word : Word} {sign : Token}
  {opening : Opening}

/-- A multiplication sign and the word behind it meet a bracketed construct as the word alone does.
-/
theorem close_sign (frames : frame.Respells twin) (opens : word.opening? = some opening)
    (times : sign.kind = .operator .times) (kind : NodeKind) {closing : Operator}
    (closed : Opening.ofOperator? closing = none) (differs : closing ≠ .times)
    (unclosed : List Diagnostic) :
    Reaction.Signs (word.signBefore sign) (frame.close kind closing unclosed word)
      (twin.close kind closing unclosed (word.signBefore sign)) := by
  rw [Frame.close, Frame.close, Word.isOperator_of_opening? opens closed,
    Word.isOperator_signBefore times _ differs]
  exact .ends ((frames.fail unclosed _ _).outcome kind)

/-- A multiplication sign and the word behind it meet items as the word alone does. -/
theorem closeItems_sign (frames : frame.Respells twin) (opens : word.opening? = some opening)
    (times : sign.kind = .operator .times) (enclosure : Enclosure) :
    Reaction.Signs (word.signBefore sign) (frame.closeItems enclosure word)
      (twin.closeItems enclosure (word.signBefore sign)) := by
  have closed := enclosure.opens_closing
  have differs : enclosure.closing ≠ .times := by cases enclosure <;> decide
  rw [Frame.closeItems, Frame.closeItems, Word.isOperator_of_opening? opens closed,
    Word.isOperator_signBefore times _ differs]
  simp only [Bool.false_eq_true, and_false, if_false]
  exact frames.close_sign opens times _ closed differs _

/-- A construct takes a sign where it would begin another operand with a factor, and is complete
where it would be complete in front of the factor. -/
theorem receive_sign (frames : frame.Respells twin) (outcomes : held.Respells kept)
    (factor : word.link? true = some (.factor opening)) (times : sign.kind = .operator .times)
    (bracketed : Bool) :
    Reaction.Signs (word.signBefore sign) (frame.receive bracketed held word)
      (twin.receive bracketed kept (word.signBefore sign)) := by
  have opens := (Word.of_link?_eq_factor factor).1
  have begins : ∀ other : Operator, Opening.ofOperator? other = none →
      word.isOperator other = false := fun _ => Word.isOperator_of_opening? opens
  have signs : ∀ other : Operator, other ≠ .times →
      (word.signBefore sign).isOperator other = false := Word.isOperator_signBefore times
  have fed := frames.add outcomes
  obtain ⟨role, floor, children, succeeded⟩ := frame
  obtain ⟨_, _, others, _⟩ := twin
  obtain ⟨rfl, rfl, trees, rfl⟩ := frames
  unfold Frame.receive
  rw [← outcomes.succeeded]
  cases role with
  | group => exact fed.close_sign opens times _ rfl (by decide) _
  | items enclosure =>
    simp only [begins .comma rfl, signs .comma (by decide)]
    exact fed.closeItems_sign opens times enclosure
  | operand kind => exact .ends (fed.outcome kind)
  | chain kind own =>
    dsimp only
    rw [Word.link?_of_factor factor, Word.link?_signBefore times]
    split
    · exact .ends (fed.outcome kind)
    cases bracketed || !word.beginsLine with
    | false => exact .ends (fed.outcome kind)
    | true =>
      simp only [if_true]
      by_cases product : own = .times
      · rw [if_pos product, if_pos product.symm]
        exact .begins fed
      · rw [if_neg product, if_neg (Ne.symm product)]
        exact .ends (fed.outcome kind)
  | compound =>
    simp only [begins .semicolon rfl, signs .semicolon (by decide)]
    exact .ends (fed.outcome _)
  | tag last =>
    obtain ⟨tags, _⟩ := outcomes.tagOutcome
    simp only [begins .doubleColon rfl, signs .doubleColon (by decide), Bool.and_false]
    have kept : Respells
        ⟨.tag last, floor, children ++ [(tagOutcome held).1.tree], (tagOutcome held).1.succeeded⟩
        ⟨.tag last, floor, others ++ [(tagOutcome kept).1.tree],
          (tagOutcome kept).1.succeeded⟩ :=
      ⟨rfl, rfl, trees.append tags.tree, tags.succeeded⟩
    exact .ends (kept.outcome _)
  | tagPattern =>
    simp only [begins .set rfl, signs .set (by decide), begins .setDelayed rfl,
      signs .setDelayed (by decide)]
    split
    · exact .ends (fed.outcome _)
    · exact .ends ((fed.fail _ _ _).outcome _)

end Frame.Respells

namespace Reading

variable {surroundings : Surroundings} {word : Word} {sign : Token} {opening : Opening}
  {frames twins : List Frame}

/-- A factor without a sign goes on as the multiplication sign allows. -/
theorem extend?_of_factor (factor : word.link? true = some (.factor opening)) (left : SyntaxTree) :
    extend? surroundings frames left word
      = if surroundings.isBracketed frames || !word.beginsLine then
          if surroundings.floorOf frames < surroundings.grammar.precedence .times then
            some (multiply surroundings.grammar frames left opening word)
          else none
        else none := by
  unfold extend?
  rw [Word.link?_of_factor factor]
  cases surroundings.isBracketed frames || !word.beginsLine <;> rfl

/-- A multiplication sign goes on as strongly as a factor without one. -/
theorem extend?_signBefore (times : sign.kind = .operator .times) (left : SyntaxTree) :
    extend? surroundings frames left (word.signBefore sign)
      = if surroundings.isBracketed frames || !word.beginsLine then
          if surroundings.floorOf frames < surroundings.grammar.precedence .times then
            some (continueWith surroundings.grammar frames left .times .product
              (word.signBefore sign))
          else none
        else none := by
  unfold extend?
  rw [Word.link?_signBefore times]
  cases surroundings.isBracketed frames || !word.beginsLine <;> rfl

/-- A sign goes on from an expression if and only if a factor does. -/
theorem extend?_signBefore_eq_none (stack : List.Forall₂ Frame.Respells frames twins)
    (factor : word.link? true = some (.factor opening)) (times : sign.kind = .operator .times)
    {left : SyntaxTree} (stays : extend? surroundings frames left word = none)
    (right : SyntaxTree) :
    extend? surroundings twins right (word.signBefore sign) = none := by
  rw [extend?_of_factor factor] at stays
  rw [extend?_signBefore times, ← Surroundings.floorOf_of_respells stack,
    ← Surroundings.isBracketed_of_respells stack]
  split at stays
  · next inLine =>
    split at stays
    · cases stays
    · next weak => rw [if_pos inLine, if_neg weak]
  · next broken => rw [if_neg broken]

/-- An outcome that the word does not go on from is received by the innermost frame. -/
theorem settle_of_receive {frame : Frame} {outcome : Outcome}
    (stays : extend? surroundings (frame :: frames) outcome.tree word = none) :
    settle surroundings word (frame :: frames) outcome
      = react surroundings frames
          (frame.receive (surroundings.isBracketed (frame :: frames)) outcome word) word := by
  rw [settle_cons, stays]
  rfl

/-- Where a construct reacts to a factor, it reacts to a sign. -/
theorem Reacts.signBefore {before twin : Reading} {reaction : Reaction}
    (reacts : Reacts surroundings word before frames reaction)
    (factor : word.link? true = some (.factor opening)) (times : sign.kind = .operator .times)
    (respells : before.Respells twin) :
    ∃ twins other, List.Forall₂ Frame.Respells frames twins ∧
      Reaction.Signs (word.signBefore sign) reaction other ∧
      twin.read surroundings (word.signBefore sign)
        = react surroundings twins other (word.signBefore sign) := by
  have opens := (Word.of_link?_eq_factor factor).1
  obtain ⟨twins, focus⟩ := twin
  obtain ⟨stack, foci⟩ := respells
  cases reacts with
  | @complete frame frames outcome stays =>
    cases foci with
    | @complete _ kept outcomes =>
      cases stack with
      | @cons _ twin _ twins first stack =>
        have signs := first.receive_sign outcomes factor times
          (surroundings.isBracketed (frame :: frames))
        have twinStays := extend?_signBefore_eq_none (.cons first stack) factor times stays
        refine ⟨twins, _, stack, signs, ?_⟩
        rw [Surroundings.isBracketed_of_respells (.cons first stack)]
        exact settle_of_receive (twinStays _)
    | unfinished unfinished => cases unfinished
  | missing wants unopened =>
    rw [opens] at unopened
    cases unopened
  | @absent frame frames unopened =>
    cases foci with
    | unfinished _ =>
      cases stack with
      | @cons _ twin _ twins first stack =>
        have outcomes : Outcome.Respells ⟨SyntaxTree.absent .null none word.token, true⟩
            ⟨SyntaxTree.absent .null none sign, true⟩ := ⟨.absent _ _ _ _, rfl⟩
        have signs := first.receive_sign outcomes factor times
          (surroundings.isBracketed (frame :: frames))
        refine ⟨twins, _, stack, signs, ?_⟩
        rw [Surroundings.isBracketed_of_respells (.cons first stack)]
        change readStatement surroundings (twin :: twins) (word.signBefore sign) = _
        simp only [readStatement, Word.openingInLine?_signBefore times]
        rfl
  | empty begins role closing =>
    rw [Word.isOperator_of_opening? opens (Enclosure.opens_closing _)] at closing
    cases closing
  | @partEnd frame frames =>
    cases foci with
    | unfinished _ =>
      cases stack with
      | @cons _ twin _ twins first stack =>
        exact ⟨twins, _, stack, first.close_sign opens times _ rfl (by decide) _, rfl⟩

/-- What a reading passes on to in front of a factor, it passes on to in front of a sign. -/
theorem Passes.signBefore {before after twin : Reading}
    (passes : Passes surroundings word before after)
    (factor : word.link? true = some (.factor opening)) (times : sign.kind = .operator .times)
    (respells : before.Respells twin) :
    ∃ other, after.Respells other ∧
      twin.read surroundings (word.signBefore sign)
        = other.read surroundings (word.signBefore sign) := by
  cases passes with
  | ends reacts =>
    obtain ⟨twins, _, stack, signs, read⟩ := reacts.signBefore factor times respells
    cases signs with
    | @ends _ kept outcomes => exact ⟨⟨twins, .complete kept⟩, ⟨stack, .complete outcomes⟩, read⟩
  | @unnamed frames kind blank named apart =>
    obtain ⟨twins, focus⟩ := twin
    obtain ⟨stack, foci⟩ := respells
    cases foci with
    | @blankName _ _ _ twin trees both =>
      refine ⟨⟨twins, .complete ⟨blankTree kind twin [leaf blank], true⟩⟩, ?_, ?_⟩
      · exact ⟨stack, .complete ⟨respells_blankTree trees both kind _, rfl⟩⟩
      · change readBlankName surroundings twins kind blank twin (word.signBefore sign) = _
        have other : ¬((word.signBefore sign).token.kind = .identifier ∧
            (word.signBefore sign).touches) := by
          rintro ⟨identifier, _⟩
          cases times.symm.trans identifier
        rw [readBlankName, if_neg other]
        rfl
    | unfinished unfinished => cases unfinished

/-- A word that is read as a factor without a sign could be one inside of brackets. -/
theorem Joins.exists_factor {before after : Reading}
    (joins : Joins surroundings word before after) :
    ∃ opening, word.link? true = some (.factor opening) := by
  cases joins with
  | multiplies link weak => exact ⟨_, Word.link?_true_of_factor link⟩
  | goesOn link stays begins => exact ⟨_, Word.link?_true_of_factor link⟩

/-- A product with a sign behind it goes on with the operand that would be its next factor. -/
theorem read_attached (surroundings : Surroundings) {frame twin : Frame}
    (first : frame.Respells twin) (stack : List.Forall₂ Frame.Respells frames twins)
    (times : sign.kind = .operator .times) (opens : word.opening? = some opening) :
    ∃ next, read surroundings ⟨twin.take (word.signBefore sign) :: twins, .operand⟩ word.attached
        = .reading next ∧
      (beginOperand frame frames opening word).Respells next := by
  refine ⟨beginOperand (twin.take (word.signBefore sign)) twins opening word.attached, ?_, ?_⟩
  · change readOperand surroundings _ _ = _
    have same : word.attached.opening? = some opening := opens
    simp only [readOperand, same]
  · refine respells_begin (.cons ?_ stack) opening word.token
    refine { first with children := ?_ }
    have signed : SyntaxTree.Respells [] [leaf sign] := .sign times .nil
    have children := (first.children.append (.refl word.leadLeaves)).append signed
    change SyntaxTree.Respells (frame.children ++ word.leadLeaves)
      (twin.children ++ (word.leadLeaves ++ [leaf sign]) ++ [])
    simpa using children

/-- Where a word is read as a factor without a sign, a sign in front of it is taken, and the word is
then read as the same operand. -/
theorem Joins.signBefore {before after twin : Reading}
    (joins : Joins surroundings word before after) (times : sign.kind = .operator .times)
    (respells : before.Respells twin) :
    ∃ middle next, twin.read surroundings (word.signBefore sign) = .reading middle ∧
      middle.read surroundings word.attached = .reading next ∧ after.Respells next := by
  cases joins with
  | @multiplies frames outcome opening link weak =>
    obtain ⟨twins, focus⟩ := twin
    obtain ⟨stack, foci⟩ := respells
    cases foci with
    | @complete _ twin outcomes =>
      have first : Frame.Respells
          ⟨.chain .times .times, surroundings.grammar.precedence .times, [outcome.tree], true⟩
          ⟨.chain .times .times, surroundings.grammar.precedence .times, [twin.tree], true⟩ :=
        ⟨rfl, rfl, outcomes.tree, rfl⟩
      obtain ⟨next, read, respells⟩ :=
        read_attached surroundings first stack times (Word.of_link?_eq_factor link).1
      refine ⟨_, next, settle_of_extend? ?_, read, respells⟩
      have inLine : surroundings.isBracketed frames || !word.beginsLine := by
        rw [Word.link?_of_factor (Word.link?_true_of_factor link)] at link
        split at link
        · assumption
        · cases link
      rw [extend?_signBefore times, ← Surroundings.isBracketed_of_respells stack,
        ← Surroundings.floorOf_of_respells stack, if_pos inLine, if_pos weak]
      rfl
    | unfinished unfinished => cases unfinished
  | @goesOn frame fed frames outcome opening link stays begins =>
    obtain ⟨twins, _, stack, signs, signRead⟩ :=
      (Reacts.complete stays).signBefore (Word.link?_true_of_factor link) times respells
    rw [begins] at signs
    cases signs with
    | @begins _ fedTwin _ fedRespells =>
      obtain ⟨next, read, respells⟩ :=
        read_attached surroundings fedRespells stack times (Word.of_link?_eq_factor link).1
      exact ⟨_, next, signRead, read, respells⟩

/-- The same with what is passed on before the word is read. -/
theorem Settles.signBefore {before settled after twin : Reading}
    (settles : Settles surroundings word before settled)
    (joins : Joins surroundings word settled after) (times : sign.kind = .operator .times)
    (respells : before.Respells twin) :
    ∃ middle next, twin.read surroundings (word.signBefore sign) = .reading middle ∧
      middle.read surroundings word.attached = .reading next ∧ after.Respells next := by
  obtain ⟨opening, factor⟩ := joins.exists_factor
  have kept := settles.keeps (fun reading => ∃ other : Reading, reading.Respells other ∧
    twin.read surroundings (word.signBefore sign)
      = other.read surroundings (word.signBefore sign))
    (fun before after passes held => by
      obtain ⟨other, respells, same⟩ := held
      obtain ⟨next, respells, passed⟩ := passes.signBefore factor times respells
      exact ⟨next, respells, same.trans passed⟩)
    ⟨twin, respells, rfl⟩
  obtain ⟨other, respells, same⟩ := kept
  rw [same]
  exact joins.signBefore times respells

end Reading

/-! ## Files -/

/-- A file reads a sign and then the word as it reads a factor without a sign. -/
theorem FileReading.Joins.signBefore {grammar : Grammar} {file twin : FileReading} {word : Word}
    {sign : Token} (joins : file.Joins grammar word) (times : sign.kind = .operator .times)
    (respells : file.Respells twin) :
    (file.read grammar word).Respells
      ((twin.read grammar (word.signBefore sign)).read grammar word.attached) := by
  obtain ⟨children, current⟩ := file
  obtain ⟨others, twinCurrent⟩ := twin
  obtain ⟨trees, readings⟩ := respells
  obtain ⟨reading, next, settled, rfl, progress, settles, joins⟩ := joins
  cases readings with
  | @some _ twin readings =>
    obtain ⟨middle, other, first, second, respells⟩ := settles.signBefore joins times readings
    simp only [FileReading.read, progress, first, second]
    exact ⟨trees, .some respells⟩

/-- The tokens with signs in front of some of them; tokens are counted from `start`. -/
def insertSigns (signs : Nat → Option Token) (start : Nat) (tokens : List Token) : List Token :=
  (tokens.zipIdx start).flatMap fun (token, index) => (signs index).toList ++ [token]

/-- Each token may have a sign put in front of it. -/
theorem insertSigns_cons (signs : Nat → Option Token) (start : Nat) (token : Token)
    (tokens : List Token) :
    insertSigns signs start (token :: tokens)
      = (signs start).toList ++ token :: insertSigns signs (start + 1) tokens := by
  simp [insertSigns, List.zipIdx_cons]

/-- Where no signs are put in, the tokens stay as they are. -/
theorem insertSigns_eq_self {signs : Nat → Option Token} {start : Nat}
    (none : ∀ index, start ≤ index → signs index = none) (tokens : List Token) :
    insertSigns signs start tokens = tokens := by
  induction tokens generalizing start with
  | nil => rfl
  | cons token tokens ih =>
    rw [insertSigns_cons, none start (Nat.le_refl start),
      ih fun index later => none index (Nat.le_of_succ_le later)]
    rfl

/-- A token without a sign put in front of it is followed by the others. -/
theorem insertSigns_of_none {signs : Nat → Option Token} {start : Nat}
    (none : signs start = none) (token : Token) (tokens : List Token) :
    insertSigns signs start (token :: tokens) = token :: insertSigns signs (start + 1) tokens := by
  rw [insertSigns_cons, none]
  rfl

/-- A token with a sign put in front of it is followed by the others. -/
theorem insertSigns_of_some {signs : Nat → Option Token} {start : Nat} {sign : Token}
    (some : signs start = some sign) (token : Token) (tokens : List Token) :
    insertSigns signs start (token :: tokens)
      = sign :: token :: insertSigns signs (start + 1) tokens := by
  rw [insertSigns_cons, some]
  rfl

namespace FileReading

variable {grammar : Grammar} {file twin : FileReading}

/-- The places of a tree that are still to be read lie behind what has been read, and not in front
of trivia. -/
theorem IsSteady.lt_of_mem_joints (steady : file.IsSteady grammar) {lead tokens : List Token}
    {tree : SyntaxTree} (ended : file.readToEnd? grammar (WordStream.after lead tokens) = some tree)
    {index : Nat} (place : index ∈ tree.joints) (behind : file.tokens.length ≤ index) :
    (file.tokens ++ lead).length ≤ index := by
  refine (steady.mem_joints_of_readToEnd? ended place).resolve_left fun before => ?_
  exact absurd (steady.inside index before) (Nat.not_lt.mpr behind)

/-- If a place of the tree is in front of a word, the word is read as a factor without a sign. -/
theorem IsSteady.joins_of_mem_joints (steady : file.IsSteady grammar) {lead tokens : List Token}
    {token : Token} {tree : SyntaxTree}
    (ended : (file.read grammar ⟨lead, token⟩).readToEnd? grammar (WordStream.after [] tokens)
      = some tree)
    (place : (file.tokens ++ lead).length ∈ tree.joints) : file.Joins grammar ⟨lead, token⟩ := by
  refine (steady.joints_read ⟨lead, token⟩).2.elim (fun kept => ?_) And.left
  rcases (steady.read ⟨lead, token⟩).mem_joints_of_readToEnd? ended place with before | behind
  · rw [kept] at before
    have inside := steady.inside _ before
    rw [List.length_append] at inside
    omega
  · rw [steady.length_tokens_read] at behind
    omega

/-- The signs that stand at places of a tree can be put in front of the words that are read when
the rest of the tree is. -/
theorem IsSteady.readToEnd?_insertSigns (steady : file.IsSteady grammar)
    (respells : file.Respells twin) {lead tokens : List Token} {tree : SyntaxTree}
    (ended : file.readToEnd? grammar (WordStream.after lead tokens) = some tree)
    {signs : Nat → Option Token}
    (chosen : ∀ index sign, (file.tokens ++ lead).length ≤ index → signs index = some sign →
      sign.kind = .operator .times ∧ index ∈ tree.joints) :
    ∃ twinTree, twin.readToEnd? grammar
        (WordStream.after lead (insertSigns signs (file.tokens ++ lead).length tokens))
          = some twinTree ∧
      SyntaxTree.Respells [tree] [twinTree] := by
  induction tokens generalizing file twin lead with
  | nil => cases ended
  | cons token tokens ih =>
    cases blank : token.isTrivia with
    | true =>
      rw [WordStream.after_of_isTrivia blank] at ended
      have next : (file.tokens ++ lead).length + 1 = (file.tokens ++ (lead ++ [token])).length := by
        simp [Nat.add_assoc]
      -- A place is in front of the first token of an operand, which is never trivia.
      have none : signs (file.tokens ++ lead).length = none := by
        refine Option.eq_none_iff_forall_ne_some.mpr fun sign some => ?_
        obtain ⟨_, place⟩ := chosen _ sign (Nat.le_refl _) some
        have later := steady.lt_of_mem_joints ended place (by simp)
        omega
      rw [insertSigns_of_none none, WordStream.after_of_isTrivia blank, next]
      exact ih steady respells ended fun index sign behind => chosen index sign (by omega)
    | false =>
      cases ends : token.isEnd with
      | true =>
        rw [readToEnd?_of_isEnd ends] at ended
        cases ended
        have none : ∀ index, (file.tokens ++ lead).length ≤ index → signs index = none := by
          intro index behind
          refine Option.eq_none_iff_forall_ne_some.mpr fun sign some => ?_
          obtain ⟨_, place⟩ := chosen index sign behind some
          rw [steady.joints_childrenAtEnd ends] at place
          have inside := steady.inside index place
          rw [List.length_append] at behind
          omega
        rw [insertSigns_eq_self none, readToEnd?_of_isEnd ends]
        exact ⟨_, rfl, (respells.childrenAtEnd ⟨lead, token⟩ tokens).ofKind .file⟩
      | false =>
        rw [readToEnd?_of_plain blank ends] at ended
        have later := steady.read ⟨lead, token⟩
        have grown := steady.length_tokens_read lead token
        cases some : signs (file.tokens ++ lead).length with
        | none =>
          rw [insertSigns_of_none some, readToEnd?_of_plain blank ends, ← grown]
          exact ih later (respells.read _) ended fun index sign behind =>
            chosen index sign (by omega)
        | some sign =>
          obtain ⟨times, place⟩ := chosen _ sign (Nat.le_refl _) some
          have joins := steady.joins_of_mem_joints ended place
          -- The sign takes the trivia of the word, so the twin reads two words for this one.
          have signPlain : sign.isTrivia = false := by rw [Token.isTrivia, times]; rfl
          have signInner : sign.isEnd = false := by rw [Token.isEnd, times]; rfl
          rw [insertSigns_of_some some, readToEnd?_of_plain signPlain signInner,
            readToEnd?_of_plain blank ends, ← grown]
          exact ih later (joins.signBefore times respells) ended fun index sign behind =>
            chosen index sign (by omega)

end FileReading

/-- Wherever factors stand side by side, multiplication signs can be put between them: if signs are
put in front of any of the tokens with which such factors begin, the tokens are read to a tree with
the same full form and the same error messages. -/
theorem parseTokens_insertSigns (grammar : Grammar) {tokens : List Token} {tree : SyntaxTree}
    (parsed : parseTokens grammar tokens = .ok tree) {signs : Nat → Option Token}
    (chosen : ∀ index sign, signs index = some sign →
      sign.kind = .operator .times ∧ index ∈ tree.joints) :
    ∃ twin, parseTokens grammar (insertSigns signs 0 tokens) = .ok twin ∧
      twin.fullForm? = tree.fullForm? ∧ twin.messages = tree.messages := by
  obtain ⟨twin, ended, respells⟩ :=
    (FileReading.isSteady_empty grammar).readToEnd?_insertSigns FileReading.respells_empty
      (FileReading.parseTokens_eq_ok_iff.mp parsed) fun index sign _ => chosen index sign
  have twinParsed := FileReading.parseTokens_eq_ok_iff.mpr ended
  refine ⟨twin, twinParsed, ?_⟩
  obtain ⟨children, rfl, fits⟩ := everywhere_fits_of_parseTokens parsed
  obtain ⟨others, rfl, twinFits⟩ := everywhere_fits_of_parseTokens twinParsed
  obtain ⟨content, place, _, _, left, right, below⟩ := respells.exists_of_singleton
  cases left
  cases right
  obtain ⟨forms, messages⟩ := meaning_of_respells below fits twinFits
  constructor
  · rw [ofKind, ofKind, Tree.fullForm?, Tree.fullForm?, forms]
    rfl
  · rw [ofKind, ofKind, Tree.messages_node, Tree.messages_node, messages]

/-- In `a f[2b]`, a sign is put between the factors in the brackets only. -/
theorem parseTokens_insertSigns_call :
    let tokens : List Token := [⟨.identifier, "a", 1, 1⟩, ⟨.whitespace, " ", 1, 2⟩,
      ⟨.identifier, "f", 1, 3⟩, ⟨.operator .leftBracket, "[", 1, 4⟩, ⟨.number, "2", 1, 5⟩,
      ⟨.identifier, "b", 1, 6⟩, ⟨.operator .rightBracket, "]", 1, 7⟩, ⟨.endOfFile, "", 1, 8⟩]
    let signs := fun index => if index = 5 then some ⟨.operator .times, "*", 1, 6⟩ else none
    ∃ tree twin, parseTokens .standard tokens = .ok tree ∧ tree.joints = [2, 5] ∧
      parseTokens .standard (insertSigns signs 0 tokens) = .ok twin ∧
      twin.fullForm? = tree.fullForm? ∧ twin.messages = tree.messages := by
  intro tokens signs
  have chosen : ∀ index sign, signs index = some sign →
      sign.kind = .operator .times ∧ index ∈ [2, 5] := by
    intro index sign some
    by_cases second : index = 5
    · rw [show signs index = _ from if_pos second] at some
      cases some
      exact ⟨rfl, by simp [second]⟩
    · rw [show signs index = _ from if_neg second] at some
      cases some
  have parsed : parseTokens .standard tokens = .ok _ := rfl
  obtain ⟨twin, twinParsed, same⟩ := parseTokens_insertSigns .standard parsed chosen
  exact ⟨_, twin, parsed, rfl, twinParsed, same⟩

end WolframSyntax
