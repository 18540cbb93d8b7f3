import Mathlib.Data.List.Basic
import WolframSyntax.Proofs.Fitting

/-!
# What is read stands in a row

A reading holds the tokens it was read from, and between them the places at which something is
missing (`Site`). Every word adds its own tokens, and in front of them any number of places that are
all that of the word: passing on reports what is missing, and taking the word adds it
(`Reading.Passes.sites`, `Reading.Takes.sites`). So it is with a file as well
(`FileReading.IsSound.sites_read`).
-/

namespace WolframSyntax

open SyntaxTree

/-! ## Tokens and gaps -/

/-- A token, or a place at which something is missing. -/
inductive Site where
  | token (token : Token)
  | gap (position : Position)

/-- The token at a site. -/
def Site.token? : Site → Option Token
  | .token held => some held
  | .gap _ => none

/-- The tokens among some sites. -/
def tokensAmong (sites : List Site) : List Token := sites.filterMap Site.token?

/-- Tokens among sites follow one another as the sites do. -/
@[simp] theorem tokensAmong_append (before after : List Site) :
    tokensAmong (before ++ after) = tokensAmong before ++ tokensAmong after :=
  List.filterMap_append

@[simp] theorem tokensAmong_map_token (tokens : List Token) :
    tokensAmong (tokens.map .token) = tokens := by
  rw [tokensAmong, List.filterMap_map]
  exact List.filterMap_some

@[simp] theorem tokensAmong_replicate (count : Nat) (position : Position) :
    tokensAmong (List.replicate count (.gap position)) = [] := by
  simp [tokensAmong, Site.token?]

/-- What a node holds itself. -/
def Content.sites (content : Content) : List Site :=
  content.token.toList.map .token ++ content.position.toList.map .gap

/-- The tokens of a tree and the places at which something is missing, in document order. -/
def SyntaxTree.sites (tree : SyntaxTree) : List Site :=
  tree.walk.flatMap fun node => node.content.sites

/-- The tokens of a word. -/
def Word.sites (word : Word) : List Site := word.lead.map .token ++ [.token word.token]

namespace SyntaxTree

/-- A node's sites are its own and then those under its children. -/
theorem sites_node (label : Unit) (content : Content) (children : List SyntaxTree) :
    sites (.node label content children) = content.sites ++ children.flatMap sites := by
  rw [sites, Tree.walk_node, List.flatMap_cons, List.flatMap_assoc]
  rfl

@[simp] theorem sites_leaf (token : Token) : (leaf token).sites = [.token token] := rfl

@[simp] theorem sites_ofKind (kind : NodeKind) (children : List SyntaxTree) :
    (ofKind kind children).sites = children.flatMap sites :=
  sites_node _ _ _

@[simp] theorem sites_error (message : String) (children : List SyntaxTree) :
    (error message children).sites = children.flatMap sites :=
  sites_node _ _ _

@[simp] theorem flatMap_sites_map_leaf (tokens : List Token) :
    (tokens.map leaf).flatMap sites = tokens.map .token := by
  rw [List.flatMap_map, List.map_eq_flatMap]
  rfl

end SyntaxTree

/-- The leaves of a word hold its tokens. -/
@[simp] theorem Word.flatMap_sites_leaves (word : Word) :
    word.leaves.flatMap SyntaxTree.sites = word.sites := by
  simp [leaves, leadLeaves, leaf, sites]

/-- `more` is `given` with things that are reported missing in front of a word. -/
def Grows (word : Word) (given more : List Site) : Prop :=
  ∃ count, more = given ++ List.replicate count (.gap word.token.position)

/-- `more` is `given` with things that are reported missing in front of a word, and the word. -/
def Gains (word : Word) (given more : List Site) : Prop :=
  ∃ count, more = given ++ List.replicate count (.gap word.token.position) ++ word.sites

variable {word : Word} {given more most : List Site}

theorem Grows.refl (word : Word) (given : List Site) : Grows word given given :=
  ⟨0, by simp⟩

/-- A word that follows at once is gained with nothing missing in front of it. -/
theorem Gains.of_eq (same : more = given ++ word.sites) : Gains word given more :=
  ⟨0, by simpa using same⟩

/-- More things may be reported missing in front of the same word. -/
theorem Grows.trans (first : Grows word given more) (second : Grows word more most) :
    Grows word given most := by
  obtain ⟨count, rfl⟩ := first
  obtain ⟨other, rfl⟩ := second
  exact ⟨count + other, by rw [List.replicate_add, List.append_assoc]⟩

/-- Things may be reported missing before the word is gained. -/
theorem Grows.gains (first : Grows word given more) (second : Gains word more most) :
    Gains word given most := by
  obtain ⟨count, rfl⟩ := first
  obtain ⟨other, rfl⟩ := second
  exact ⟨count + other, by rw [List.replicate_add, List.append_assoc given]⟩

theorem Grows.append_left (before : List Site) (grows : Grows word given more) :
    Grows word (before ++ given) (before ++ more) := by
  obtain ⟨count, rfl⟩ := grows
  exact ⟨count, by rw [List.append_assoc]⟩

theorem Gains.append_left (before : List Site) (gains : Gains word given more) :
    Gains word (before ++ given) (before ++ more) := by
  obtain ⟨count, rfl⟩ := gains
  exact ⟨count, by simp only [List.append_assoc]⟩

/-! ## Frames -/

/-- The sites of the children of a frame. -/
def Frame.sites (frame : Frame) : List Site := frame.children.flatMap SyntaxTree.sites

/-- The sites that a focus holds. -/
def Focus.sites : Focus → List Site
  | .complete outcome => outcome.tree.sites
  | .blankName _ blank named => named.toList.flatMap SyntaxTree.sites ++ [.token blank]
  | _ => []

/-- The sites of a reading, in the order in which they were read. -/
def Reading.sites (reading : Reading) : List Site :=
  reading.frames.reverse.flatMap Frame.sites ++ reading.focus.sites

/-- A reaction to a word in which the sites `given` are left. -/
def Reaction.Keeps (given : List Site) (word : Word) : Reaction → Prop
  | .waits frame focus => Gains word given (frame.sites ++ focus.sites)
  | .begins frame _ => Grows word given frame.sites
  | .closes outcome => Gains word given outcome.tree.sites
  | .ends outcome => Grows word given outcome.tree.sites

namespace Frame

variable {frame : Frame}

/-- An operand brings its sites. -/
@[simp] theorem sites_add (outcome : Outcome) :
    (frame.add outcome).sites = frame.sites ++ outcome.tree.sites := by
  simp [sites, add]

@[simp] theorem sites_take : (frame.take word).sites = frame.sites ++ word.sites := by
  simp [sites, take]

@[simp] theorem sites_takeLead :
    (frame.takeLead word).sites = frame.sites ++ word.lead.map .token := by
  simp [sites, takeLead, Word.leadLeaves]

/-- A construct that ends has the sites of its frame. -/
@[simp] theorem sites_outcome (kind : NodeKind) : (frame.outcome kind).tree.sites = frame.sites :=
  sites_ofKind kind frame.children

/-- What is reported missing is a gap at the word in front of which it is missing. -/
theorem grows_fail (diagnostics : List Diagnostic) :
    Grows word frame.sites (frame.fail diagnostics word).sites := by
  refine ⟨diagnostics.length, ?_⟩
  rw [sites, sites, fail, List.flatMap_append, List.flatMap_map]
  refine congrArg _ ?_
  induction diagnostics with
  | nil => rfl
  | cons diagnostic diagnostics ih =>
    rw [List.flatMap_cons, ih, List.length_cons, List.replicate_succ]
    rfl

/-- A bracketed construct takes the word as its close or reports gaps in front of it. -/
theorem keeps_close (kind : NodeKind) (closing : Operator) (unclosed : List Diagnostic) :
    (frame.close kind closing unclosed word).Keeps frame.sites word := by
  unfold close
  split
  · exact .of_eq ((sites_outcome kind).trans sites_take)
  · rw [Reaction.Keeps, sites_outcome]
    exact grows_fail unclosed

/-- Items take the word as their close or separator, or report gaps in front of it. -/
theorem keeps_closeItems (enclosure : Enclosure) :
    (frame.closeItems enclosure word).Keeps frame.sites word := by
  unfold closeItems
  split
  · exact .of_eq ((List.append_nil _).trans sites_take)
  · exact keeps_close _ _ _

/-- A tag is kept with its sites. -/
theorem sites_tagOutcome {outcome : Outcome} (operand : outcome.tree.IsOperand) :
    (tagOutcome outcome).1.tree.sites = outcome.tree.sites := by
  unfold tagOutcome
  split
  · rfl
  · next symbol =>
    obtain ⟨tree, succeeded⟩ := outcome
    cases operand.fits.root with
    | leaf token => cases (isLeaf_leaf token).symm.trans operand.inner
    | atom held => rfl
    | @construct content children bare takes =>
      rw [show content.kind = .symbol from symbol] at takes
      cases takes
  · rfl
  · simp

/-- What a frame does with an operand keeps the sites of both. -/
theorem keeps_receive (bracketed : Bool) {outcome : Outcome} (operand : outcome.tree.IsOperand) :
    (frame.receive bracketed outcome word).Keeps (frame.add outcome).sites word := by
  have ended (kind : NodeKind) : Reaction.Keeps (frame.add outcome).sites word
      (.ends ((frame.add outcome).outcome kind)) := by
    rw [Reaction.Keeps, sites_outcome]
    exact .refl _ _
  have taken (focus : Focus) (none : focus.sites = []) :
      Reaction.Keeps (frame.add outcome).sites word
        (.waits ((frame.add outcome).take word) focus) := by
    rw [Reaction.Keeps, none, List.append_nil]
    exact .of_eq sites_take
  unfold receive
  cases frame.role with
  | group => exact keeps_close _ _ _
  | items enclosure =>
    dsimp only
    split
    · exact taken _ rfl
    · exact keeps_closeItems enclosure
  | operand kind => exact ended kind
  | chain kind sign =>
    dsimp only
    split
    · exact ended kind
    split
    · split
      · exact taken _ rfl
      · exact ended kind
    · split
      · exact .refl _ _
      · exact ended kind
    · exact ended kind
  | compound =>
    dsimp only
    split
    · exact taken _ rfl
    · exact ended _
  | tag last =>
    have kept : (frame.add (tagOutcome outcome).1).sites = (frame.add outcome).sites := by
      rw [sites_add, sites_add, sites_tagOutcome operand]
    rw [← kept]
    dsimp only
    split
    · exact .of_eq ((List.append_nil _).trans sites_take)
    · exact ⟨0, by rw [sites_outcome]; simp [sites, add]⟩
  | tagPattern =>
    dsimp only
    split
    · exact ended _
    split
    · exact taken _ rfl
    split
    · exact taken _ rfl
    · rw [Reaction.Keeps, sites_outcome]
      exact grows_fail _

end Frame

/-! ## Readings -/

namespace Reading

variable {surroundings : Surroundings}

/-- A reading's sites are those of its frames, the outermost first, and of its focus. -/
theorem sites_mk (frames : List Frame) (focus : Focus) :
    sites ⟨frames, focus⟩ = frames.reverse.flatMap Frame.sites ++ focus.sites := rfl

/-- The sites of the innermost frame come before those of the focus. -/
theorem sites_cons (frame : Frame) (frames : List Frame) (focus : Focus) :
    sites ⟨frame :: frames, focus⟩
      = frames.reverse.flatMap Frame.sites ++ (frame.sites ++ focus.sites) := by
  simp [sites_mk, List.flatMap_append]

/-- A word that begins an expression is the last site. -/
theorem sites_begin (frames : List Frame) (opening : Opening) (token : Token) :
    (begin frames opening token).sites
      = frames.reverse.flatMap Frame.sites ++ [.token token] := by
  cases opening <;> simp [begin, sites, Focus.sites, Frame.sites]

/-- A word that begins an operand is the last site. -/
theorem sites_beginOperand (frame : Frame) (frames : List Frame) (opening : Opening) :
    (beginOperand frame frames opening word).sites
      = frames.reverse.flatMap Frame.sites ++ (frame.sites ++ word.sites) := by
  simp [beginOperand, sites_begin, Word.sites]

/-- A blank has the sites of its name and its own. -/
@[simp] theorem sites_blankTree (kind : NodeKind) (named : Option SyntaxTree)
    (children : List SyntaxTree) :
    (blankTree kind named children).sites
      = named.toList.flatMap SyntaxTree.sites ++ children.flatMap SyntaxTree.sites := by
  cases named <;> simp [blankTree]

/-- An operator that goes on from an operand stands behind it. -/
theorem sites_continueWith (grammar : Grammar) (frames : List Frame) (left : SyntaxTree)
    (sign : Operator) {continuation : Continuation} (near : continuation.mustTouch → word.touches) :
    (continueWith grammar frames left sign continuation word).sites
      = frames.reverse.flatMap Frame.sites ++ (left.sites ++ word.sites) := by
  cases continuation with
  | pattern mark =>
    have near : word.lead = [] := List.isEmpty_iff.mp (near rfl)
    simp [continueWith, sites, Focus.sites, Word.sites, near]
  | _ => simp [continueWith, sites, Focus.sites, Frame.sites]

/-- What goes on from an operand stands behind it. -/
theorem sites_of_extend? {frames : List Frame} {left : SyntaxTree} {next : Reading}
    (goesOn : extend? surroundings frames left word = some next) :
    next.sites = frames.reverse.flatMap Frame.sites ++ (left.sites ++ word.sites) := by
  rcases eq_of_extend?_eq_some goesOn with ⟨sign, continuation, link, _, rfl⟩ | ⟨_, _, _, rfl⟩
  · exact sites_continueWith _ _ _ _ (Word.of_link?_eq_sign link).2.2.2
  · simp [multiply, sites_beginOperand, Frame.sites]

/-- What a construct reacts to are its sites, with the word reported missing if it is no operand. -/
theorem Reacts.keeps {reading : Reading} {frames : List Frame} {reaction : Reaction}
    (reacts : Reacts surroundings word reading frames reaction) (fits : reading.Fits) :
    ∃ given, Grows word reading.sites (frames.reverse.flatMap Frame.sites ++ given) ∧
      reaction.Keeps given word := by
  have missed (before given : List Site) :
      Grows word (before ++ given) (before ++ (given ++ [.gap word.token.position])) :=
    ⟨1, by simp⟩
  cases reacts with
  | @complete frame frames outcome stays =>
    refine ⟨_, ?_, Frame.keeps_receive _ fits.focus⟩
    rw [sites_cons, Frame.sites_add]
    exact .refl _ _
  | @missing frame frames focus wants unopened =>
    refine ⟨_, ?_, Frame.keeps_receive _ (isOperand_absent _ _ rfl)⟩
    have none : focus.sites = [] := by cases focus <;> first | rfl | cases wants
    rw [sites_cons, none, List.append_nil, Frame.sites_add]
    exact missed _ _
  | @absent frame frames unopened =>
    refine ⟨_, ?_, Frame.keeps_receive _ (isOperand_absent _ _ rfl)⟩
    have none : Focus.statement.sites = [] := rfl
    rw [sites_cons, none, List.append_nil, Frame.sites_add]
    exact missed _ _
  | @empty frame frames focus enclosure begins role closing =>
    refine ⟨_, ?_, Frame.keeps_closeItems enclosure⟩
    have none : focus.sites = [] := by cases focus <;> first | rfl | cases begins
    rw [sites_cons, none, List.append_nil]
    exact .refl _ _
  | @partEnd frame frames =>
    refine ⟨_, ?_, Frame.keeps_close _ _ _⟩
    have none : Focus.partEnd.sites = [] := rfl
    rw [sites_cons, none, List.append_nil]
    exact .refl _ _

/-- A reading that passes on reports what is missing in front of the word. -/
theorem Passes.sites {before after : Reading} (passes : Passes surroundings word before after)
    (fits : before.Fits) : Grows word before.sites after.sites := by
  cases passes with
  | ends reacts =>
    obtain ⟨given, grows, kept⟩ := reacts.keeps fits
    exact grows.trans (Grows.append_left _ kept)
  | unnamed apart =>
    refine ⟨0, ?_⟩
    simp [sites_mk, Focus.sites]

/-- A reading that has been begun gets the word that it takes. -/
theorem Takes.sites {before after : Reading} (takes : Takes surroundings word before after)
    (fits : before.Fits) (begun : before.IsBegun) : Gains word before.sites after.sites := by
  cases takes with
  | alone unfinished opens => exact absurd (begun rfl) (by simp [unfinished])
  | @operand frame frames focus opening wants opens =>
    have none : focus.sites = [] := by cases focus <;> first | rfl | cases wants
    exact .of_eq (by rw [sites_beginOperand, sites_cons, none]; simp)
  | statement opens => exact .of_eq (by simp [sites_beginOperand, sites_cons, Focus.sites])
  | continues goesOn => exact .of_eq (by simp [sites_of_extend? goesOn, sites_mk, Focus.sites])
  | @reacts _ _ frames reaction reacts taken =>
    obtain ⟨given, grows, kept⟩ := reacts.keeps fits
    refine grows.gains ?_
    cases reaction with
    | waits frame focus =>
      cases taken
      rw [sites_cons]
      exact Gains.append_left _ kept
    | begins frame opening =>
      cases taken
      rw [sites_beginOperand]
      obtain ⟨count, same⟩ := kept
      exact ⟨count, by rw [same]; simp⟩
    | closes outcome =>
      cases taken
      exact Gains.append_left _ kept
    | ends outcome => cases taken
  | @part frame frames bracket touches =>
    refine .of_eq ?_
    rw [sites_cons, sites_cons]
    change _ ++ ((frame.take word).sites ++ []) = _ ++ (frame.sites ++ []) ++ word.sites
    simp
  | @name frames kind blank named identifier touches =>
    have near : word.lead = [] := List.isEmpty_iff.mp touches
    exact .of_eq (by simp [sites_mk, Focus.sites, Word.sites, Word.leaf, near])

/-- A word that is read is added behind what is reported missing in front of it, unless the
expression is finished without it. -/
theorem sites_read (surroundings : Surroundings) (word : Word) {reading : Reading}
    (fits : reading.Fits) (begun : reading.IsBegun) :
    (∀ next, reading.read surroundings word = .reading next →
        Gains word reading.sites next.sites ∧ next.IsBegun) ∧
      ∀ outcome, reading.read surroundings word = .finished outcome →
        Grows word reading.sites (outcome.toList.flatMap fun finished => finished.tree.sites) := by
  obtain ⟨settled, settles, decides⟩ := exists_settles_decides surroundings reading word
  obtain ⟨settledFits, settledBegun, grows⟩ := settles.keeps
    (fun settled => settled.Fits ∧ settled.IsBegun ∧ Grows word reading.sites settled.sites)
    (fun _ _ passes held =>
      ⟨passes.fits held.1, passes.isBegun, held.2.2.trans (passes.sites held.1)⟩)
    ⟨fits, begun, .refl _ _⟩
  constructor
  · intro next progress
    rw [progress] at decides
    cases decides with
    | takes taken =>
      exact ⟨grows.gains (taken.sites settledFits settledBegun), taken.isBegun⟩
  · intro outcome progress
    rw [progress] at decides
    cases decides with
    | finishes stays => simpa [sites_mk, Focus.sites] using grows
    | unbegun unfinished unopened => exact absurd (settledBegun rfl) (by simp [unfinished])

end Reading

/-! ## Files -/

namespace FileReading

variable {grammar : Grammar} {file : FileReading}

/-- The sites of a file of which a part has been read. -/
def sites (file : FileReading) : List Site :=
  file.children.flatMap SyntaxTree.sites ++ file.current.toList.flatMap Reading.sites

/-- A file that has been read keeps to the schema, and its current expression has been begun. -/
structure IsSound (file : FileReading) : Prop where
  fits : file.Fits
  begun : ∀ reading ∈ file.current, reading.IsBegun

theorem isSound_empty : empty.IsSound :=
  ⟨fits_empty, fun _ none => by cases none⟩

/-- A word that begins an expression, or is skipped, is the last site of the file. -/
theorem sites_beginWith (children : List SyntaxTree) (word : Word) :
    (beginWith children word).sites = children.flatMap SyntaxTree.sites ++ word.sites := by
  unfold beginWith
  dsimp only
  split <;> simp [sites, Reading.sites_begin, skipped, Word.leaf, Word.leadLeaves, Word.sites]

/-- What a word begins has been begun. -/
theorem begun_beginWith (children : List SyntaxTree) (word : Word) :
    ∀ reading ∈ (beginWith children word).current, reading.IsBegun := by
  unfold beginWith
  dsimp only
  split
  · intro reading same
    cases same
    exact Reading.isBegun_begin _ _ _
  · intro reading none
    cases none

/-- What is finished by a word is left to the file, with what is reported in front of the word. -/
theorem IsSound.grows_finished (sound : file.IsSound) {reading : Reading}
    (current : file.current = some reading) {outcome : Option Outcome}
    (progress : reading.read (surroundings grammar) word = .finished outcome) :
    Grows word file.sites
      ((file.children ++ (outcome.map Outcome.tree).toList).flatMap SyntaxTree.sites) := by
  have grows := (Reading.sites_read (surroundings grammar) word (sound.fits.current reading current)
    (sound.begun reading current)).2 outcome progress
  have same : file.sites = file.children.flatMap SyntaxTree.sites ++ reading.sites := by
    simp [sites, current]
  rw [same, List.flatMap_append]
  refine Grows.append_left _ ?_
  cases outcome <;> simpa using grows

/-- A word that is read is added to a file behind what is reported missing in front of it. -/
theorem IsSound.sites_read (sound : file.IsSound) (grammar : Grammar) (word : Word) :
    (file.read grammar word).IsSound ∧ Gains word file.sites (file.read grammar word).sites := by
  suffices step : (∀ reading ∈ (file.read grammar word).current, reading.IsBegun) ∧
      Gains word file.sites (file.read grammar word).sites from
    ⟨⟨sound.fits.read word, step.1⟩, step.2⟩
  unfold FileReading.read
  split
  · next none =>
    refine ⟨begun_beginWith _ _, .of_eq ?_⟩
    rw [sites_beginWith]
    simp [sites, none]
  · next reading current =>
    split
    · next next progress =>
      obtain ⟨gains, begun⟩ := (Reading.sites_read (surroundings grammar) word
        (sound.fits.current reading current) (sound.begun reading current)).1 next progress
      have same : file.sites = file.children.flatMap SyntaxTree.sites ++ reading.sites := by
        simp [sites, current]
      refine ⟨fun reading same => by cases same; exact begun, ?_⟩
      rw [same]
      simpa [sites] using Gains.append_left _ gains
    · next outcome progress =>
      refine ⟨begun_beginWith _ _, ?_⟩
      rw [sites_beginWith]
      exact (sound.grows_finished current progress).gains (.of_eq rfl)

/-- The end of a file begins and continues nothing, and only adds what is reported missing in front
of it. -/
theorem IsSound.sites_finish (sound : file.IsSound) (grammar : Grammar) {ending : Word}
    (ends : ending.token.isEnd) :
    Grows ending file.sites ((file.finish grammar ending).flatMap SyntaxTree.sites) := by
  unfold FileReading.finish
  split
  · next none =>
    refine ⟨0, ?_⟩
    simp [sites, none]
  · next reading current =>
    split
    · next next progress =>
      exact absurd (Reading.isEnd_eq_false_of_read progress) (by simp [ends])
    · next outcome progress => exact sound.grows_finished current progress

end FileReading

end WolframSyntax
