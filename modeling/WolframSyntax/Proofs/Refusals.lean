import Mathlib.Data.List.Forall2
import WolframSyntax.Proofs.Assembling

/-!
# Refused calls

A call that a production refuses leaves it as it is, so that nothing that is called afterwards shows
that it was made. The one exception is a mark that is closed as an error after it has been closed:
it is not closed a second time, but it keeps the message. What is called afterwards comes out as if
the refused call had not been made, apart from that message where the mark is looked at, and in the
one node that the mark has become (`Production.replies_of_refused`). So a tree that is built later
can have a message that no accepted call gave to it (`Production.not_refusesCleanly`).
-/

namespace WolframSyntax

/-- A call to a production: one that changes it, one that reads it, or the one that makes the tree.
-/
inductive ProductionCall where
  | perform (step : ProductionStep)
  | token
  | lookahead (distance : Int)
  | layout
  | look (id : MarkId)
  | build

/-- What a call replies. -/
inductive ProductionReply where
  | done
  | opened (id : MarkId)
  | token (token : Token)
  | kind (kind : Option TokenKind)
  | layout (blankBefore lineEndBefore : Bool)
  | mark (id : MarkId) (mark : Mark)
  | tree (tree : SyntaxTree)
  | refused (critical : Bool) (report : String)

/-- The reply of a refusal. -/
def ProductionError.reply (error : ProductionError) : ProductionReply :=
  .refused error.isCritical error.message

namespace ProductionReply

/-- Whether the call was refused. -/
def isRefusal : ProductionReply → Bool
  | refused .. => true
  | _ => false

/-- The messages of the tree that is replied. -/
def messages : ProductionReply → List String
  | .tree built => built.walk.filterMap Tree.message
  | _ => []

/-- The reply of a call that may be refused. -/
def ofResult {Result : Type} (result : Except ProductionError Result)
    (reply : Result → ProductionReply) : ProductionReply :=
  match result with
  | .ok value => reply value
  | .error error => error.reply

end ProductionReply

namespace Production

/-- What a production replies to a call. -/
def answer (production : Production) : ProductionCall → ProductionReply
  | .perform .mark => .opened production.mark.2
  | .perform (.precede id) => .ofResult (production.precede id) fun made => .opened made.2
  | .perform (.done id kind) => .ofResult (production.done id kind) fun _ => .done
  | .perform (.fail id message) => (production.fail id message).2.elim .done ProductionError.reply
  | .perform (.drop _) => .done
  | .perform (.empty kind message) =>
    .ofResult (production.empty kind message) fun made => .opened made.2
  | .perform .advance => .ofResult production.advance fun _ => .done
  | .token => .ofResult production.token .token
  | .lookahead distance => .ofResult (production.lookahead distance) .kind
  | .layout => .layout production.blankBefore production.lineEndBefore
  | .look id => .ofResult (production.mark? id) (.mark id)
  | .build => .ofResult production.build.2 .tree

/-- What a production is after a call. -/
def follow (production : Production) : ProductionCall → Production
  | .perform step => production.perform step
  | .build => production.build.1
  | _ => production

/-- A production over a token list after a number of calls. -/
def reached (tokens : List Token) (calls : List ProductionCall) : Production :=
  calls.foldl follow (ofTokens tokens)

/-- What a production replies to calls that are made one after the other. -/
def replies (production : Production) : List ProductionCall → List ProductionReply
  | [] => []
  | call :: calls => production.answer call :: (production.follow call).replies calls

/-- The production with another message for a mark. -/
def captioned (production : Production) (id : MarkId) (message : String) : Production :=
  production.update id fun mark => { mark with message := some message }

end Production

/-! ## One difference -/

/-- Two lists that have related values at one place and the same ones at all others. -/
inductive OneDiffers {Value : Type} (related : Value → Value → Prop) :
    List Value → List Value → Prop where
  | here {value other : Value} (rest : List Value) (first : related value other) :
    OneDiffers related (value :: rest) (other :: rest)
  | there (value : Value) {values others : List Value} (later : OneDiffers related values others) :
    OneDiffers related (value :: values) (value :: others)

namespace OneDiffers

variable {Value : Type} {related : Value → Value → Prop} {values others : List Value}

/-- Two lists that differ at one place differ there with the same values behind them. -/
theorem append (differs : OneDiffers related values others) (last : List Value) :
    OneDiffers related (values ++ last) (others ++ last) := by
  induction differs with
  | here rest first => exact .here _ first
  | there value _ ih => exact .there value ih

/-- Two lists may differ at their last place only. -/
theorem last {value other : Value} (first : List Value) (last : related value other) :
    OneDiffers related (first ++ [value]) (first ++ [other]) := by
  induction first with
  | nil => exact .here _ last
  | cons value first ih => exact .there value ih

end OneDiffers

/-- Two trees of which the second one has the message at one node, whatever the first one has there,
and which are the same apart from that. -/
inductive Tree.Captioned (message : String) : SyntaxTree → SyntaxTree → Prop where
  | root (content : Content) (children : List SyntaxTree) :
    Tree.Captioned message (.node () content children)
      (.node () { content with message := some message } children)
  | inside (content : Content) {children others : List SyntaxTree}
    (one : OneDiffers (Tree.Captioned message) children others) :
    Tree.Captioned message (.node () content children) (.node () content others)

/-- Two replies that are the same but for the message of one mark. -/
inductive ProductionReply.Agrees (id : MarkId) (message : String) :
    ProductionReply → ProductionReply → Prop where
  | same (reply : ProductionReply) : Agrees id message reply reply
  | mark (mark : Mark) :
    Agrees id message (.mark id mark) (.mark id { mark with message := some message })
  | tree {tree other : SyntaxTree} (captioned : tree.Captioned message other) :
    Agrees id message (.tree tree) (.tree other)

/-- Two results of a call that come out alike: both accepted with related values, or both refused
with the same reply. -/
inductive ResultsMatch {Result Other : Type} (related : Result → Other → Prop) :
    Except ProductionError Result → Except ProductionError Other → Prop where
  | ok {value : Result} {other : Other} (both : related value other) :
    ResultsMatch related (.ok value) (.ok other)
  | error {error other : ProductionError} (reply : error.reply = other.reply) :
    ResultsMatch related (.error error) (.error other)

namespace ResultsMatch

variable {Result Other : Type} {related : Result → Other → Prop}
  {result : Except ProductionError Result} {other : Except ProductionError Other}

/-- Two results that match go on to results that match. -/
theorem bind {Next Following : Type} {after : Next → Following → Prop}
    {next : Result → Except ProductionError Next}
    {following : Other → Except ProductionError Following}
    (first : ResultsMatch related result other)
    (second : ∀ value twin, related value twin → ResultsMatch after (next value) (following twin)) :
    ResultsMatch after (result >>= next) (other >>= following) := by
  cases first with
  | ok both => exact second _ _ both
  | error reply => exact .error reply

/-- Two folds over the same entries match when each of their steps does. -/
theorem foldlM {Entry : Type} {entries : List Entry}
    {step : Result → Entry → Except ProductionError Result}
    {twin : Other → Entry → Except ProductionError Other}
    (steps : ∀ entry ∈ entries, ∀ value other, related value other →
      ResultsMatch related (step value entry) (twin other entry))
    {start : Result} {begin : Other} (both : related start begin) :
    ResultsMatch related (entries.foldlM step start) (entries.foldlM twin begin) := by
  induction entries generalizing start begin with
  | nil => exact .ok both
  | cons entry entries ih =>
    rw [List.foldlM_cons, List.foldlM_cons]
    exact (steps entry List.mem_cons_self _ _ both).bind fun _ _ next =>
      ih (fun later present => steps later (.tail _ present)) next

theorem refl (result : Except ProductionError Result) : ResultsMatch Eq result result := by
  cases result with
  | ok value => exact .ok rfl
  | error error => exact .error rfl

/-- Results that match are told in replies that agree. -/
theorem ofResult {id : MarkId} {message : String} {reply : Result → ProductionReply}
    {replyOther : Other → ProductionReply} (both : ResultsMatch related result other)
    (agrees : ∀ value twin, related value twin →
      (reply value).Agrees id message (replyOther twin)) :
    (ProductionReply.ofResult result reply).Agrees id message (.ofResult other replyOther) := by
  cases both with
  | ok both => exact agrees _ _ both
  | @error error other reply =>
    change ProductionReply.Agrees id message error.reply other.reply
    rw [reply]
    exact .same _

end ResultsMatch

namespace Production

variable {production : Production} {id : MarkId} {message : String}

/-! ## Refused calls -/

/-- A call that is refused with a result changes nothing. -/
theorem afterCall_of_refusal {Result : Type} {result : Except ProductionError Result}
    {left : Result → Production} {reply : Result → ProductionReply}
    (accepted : ∀ value, (reply value).isRefusal = false)
    (refused : (ProductionReply.ofResult result reply).isRefusal) :
    production.afterCall result left = production := by
  cases result with
  | ok value =>
    rw [ProductionReply.ofResult, accepted value] at refused
    cases refused
  | error => rfl

/-- A mark is closed if it is there and has not been closed. -/
theorem done_eq (production : Production) (id : MarkId) (kind : NodeKind) :
    production.done id kind = production.mark? id >>= fun mark =>
      if mark.isDone then .error (.alreadyDone mark)
      else .ok ((production.update id fun held =>
        { held with stop := some (max mark.start production.lastEnd), kind := some kind }).note
          (.closed id)) := by
  unfold Production.done
  refine congrArg (production.mark? id >>= ·) (funext fun mark => ?_)
  cases mark.isDone <;> rfl

/-- A failure gives the mark its message, whether or not the mark can be closed then. -/
theorem fail_eq (production : Production) (id : MarkId) (message : String) :
    production.fail id message = match (production.captioned id message).done id .error with
      | .ok closed => (closed, none)
      | .error error => (production.captioned id message, some error) := rfl

/-- Only a mark that has been closed is refused when it is to be closed. -/
theorem isDone_of_done_eq_error {mark : Mark} {kind : NodeKind} {error : ProductionError}
    (found : production.marks[id]? = some mark)
    (refused : production.done id kind = .error error) : mark.isDone := by
  by_contra undone
  rw [done_eq, mark?, found] at refused
  simp only [bind, Except.bind, if_neg undone, reduceCtorEq] at refused

/-- A production is the same after a refused call, unless a mark that has been closed is to be
closed as an error. -/
theorem perform_of_refusal {step : ProductionStep}
    (refused : (production.answer (.perform step)).isRefusal) :
    production.perform step = production ∨ ∃ id message, step = .fail id message ∧
      (∃ mark : Mark, production.marks[id]? = some mark ∧ mark.isDone) ∧
      production.perform step = production.captioned id message := by
  cases step with
  | mark => cases refused
  | precede id => exact .inl (afterCall_of_refusal (fun _ => rfl) refused)
  | done id kind => exact .inl (afterCall_of_refusal (fun _ => rfl) refused)
  | drop id => cases refused
  | empty kind message => exact .inl (afterCall_of_refusal (fun _ => rfl) refused)
  | advance => exact .inl (afterCall_of_refusal (fun _ => rfl) refused)
  | fail id message =>
    simp only [answer, perform, fail_eq] at refused ⊢
    cases result : (production.captioned id message).done id .error with
    | ok =>
      rw [result] at refused
      cases refused
    | error error =>
      dsimp only
      cases found : production.marks[id]? with
      | none =>
        refine .inl ?_
        have beyond := List.getElem?_eq_none_iff.mp found
        rw [captioned, update, List.modify_eq_self beyond]
      | some mark =>
        have named : (production.captioned id message).marks[id]?
            = some { mark with message := some message } :=
          (getElem?_update found).trans (by rw [if_pos rfl])
        have closed := isDone_of_done_eq_error named result
        exact .inr ⟨id, message, rfl, ⟨mark, found, closed⟩, rfl⟩

/-! ## Calls after the refused one -/

/-- A production, and the same one with the message for a mark that has been closed. -/
structure Captions (id : MarkId) (message : String) (production other : Production) : Prop where
  closed : ∃ mark : Mark, production.marks[id]? = some mark ∧ mark.isDone
  other : other = production.captioned id message

/-- An entry in front keeps its place when more are added behind. -/
theorem modify_append_of_lt {change : Mark → Mark} {marks : List Mark} {place : Nat}
    (inside : place < marks.length) (more : List Mark) :
    (marks ++ more).modify place change = marks.modify place change ++ more := by
  induction marks generalizing place with
  | nil => cases inside
  | cons mark marks ih =>
    cases place with
    | zero => rfl
    | succ place =>
      exact congrArg (mark :: ·) (ih (Nat.lt_of_succ_lt_succ inside))

/-- Of two messages given to a mark the later one stays. -/
theorem captioned_captioned (production : Production) (id : MarkId) (first second : String) :
    (production.captioned id first).captioned id second = production.captioned id second :=
  congrArg (fun marks => { production with marks }) (List.modify_modify_eq _ _ _ _)

/-- A mark is opened by adding it and noting that it opens. -/
theorem openAt_eq (production : Production) (start : Nat) (text : Option String)
    (position : Option Position) :
    production.openAt start text position = ((production.add ⟨start, none, none, text, position,
      false, production.marks.length, [production.marks.length]⟩).1.note
        (.opened production.marks.length), production.marks.length) := rfl

namespace Captions

variable {other : Production}

/-- A change that does not look at the message leaves the message the only difference. -/
theorem update (captions : Captions id message production other) (name : MarkId)
    {change : Mark → Mark}
    (keeps : ∀ mark : Mark, mark.isDone → (change mark).isDone)
    (commutes : id = name → ∀ mark : Mark, change { mark with message := some message }
      = { change mark with message := some message }) :
    Captions id message (production.update name change) (other.update name change) where
  closed := by
    obtain ⟨mark, found, done⟩ := captions.closed
    refine ⟨_, getElem?_update found, ?_⟩
    split
    · exact keeps mark done
    · exact done
  other := by
    obtain rfl := captions.other
    refine congrArg (fun marks => { production with marks }) ?_
    change (production.marks.modify id _).modify name _
      = (production.marks.modify name _).modify id _
    by_cases same : id = name
    · rw [← same, List.modify_modify_eq, List.modify_modify_eq]
      exact congrArg _ (funext (commutes same))
    · exact List.modify_modify_ne _ _ _ same

theorem add (captions : Captions id message production other) (new : Mark) :
    Captions id message (production.add new).1 (other.add new).1 where
  closed := by
    obtain ⟨mark, found, done⟩ := captions.closed
    exact ⟨mark, getElem?_add found, done⟩
  other := by
    obtain ⟨mark, found, _⟩ := captions.closed
    obtain ⟨inside, _⟩ := List.getElem?_eq_some_iff.mp found
    obtain rfl := captions.other
    exact congrArg (fun marks => { production with marks }) (modify_append_of_lt inside _).symm

theorem note (captions : Captions id message production other) (event : ProductionEvent) :
    Captions id message (production.note event) (other.note event) where
  closed := captions.closed
  other := by
    rw [captions.other]
    rfl

/-- The mark with a name is the same for both, but for the message. -/
theorem mark? (captions : Captions id message production other) (name : MarkId) :
    ResultsMatch (fun mark twin =>
        twin = if id = name then { mark with message := some message } else mark)
      (production.mark? name) (other.mark? name) := by
  rw [Production.mark?, Production.mark?, captions.other]
  cases found : production.marks[name]? with
  | none =>
    have none : (production.captioned id message).marks[name]? = none := by
      rw [captioned, Production.update, List.getElem?_modify, found, Option.map_eq_map,
        Option.map_none]
    rw [none]
    exact .error rfl
  | some mark =>
    rw [captioned, getElem?_update found]
    exact .ok rfl

theorem length_eq (captions : Captions id message production other) :
    other.marks.length = production.marks.length := by
  rw [captions.other, captioned, length_update]

theorem tokens_eq (captions : Captions id message production other) :
    other.tokens = production.tokens := by
  rw [captions.other]
  rfl

theorem token_eq (captions : Captions id message production other) :
    other.token = production.token := by
  rw [captions.other]
  rfl

theorem lastEnd_eq (captions : Captions id message production other) :
    other.lastEnd = production.lastEnd := by
  rw [captions.other]
  rfl

theorem record_eq (captions : Captions id message production other) :
    other.record = production.record := by
  rw [captions.other]
  rfl

/-- A mark opens with the same name under both messages. -/
theorem openAt (captions : Captions id message production other) (start : Nat)
    (text : Option String) (position : Option Position) :
    Captions id message (production.openAt start text position).1
        (other.openAt start text position).1
      ∧ (other.openAt start text position).2 = (production.openAt start text position).2 := by
  rw [openAt_eq, openAt_eq, captions.length_eq]
  exact ⟨(captions.add _).note _, rfl⟩

/-- Both are closed alike, or refused alike. -/
theorem done (captions : Captions id message production other) (name : MarkId) (kind : NodeKind) :
    ResultsMatch (Captions id message) (production.done name kind) (other.done name kind) := by
  rw [done_eq, done_eq]
  refine (captions.mark? name).bind fun mark twin same => ?_
  have shown : twin.isDone = mark.isDone ∧ twin.start = mark.start
      ∧ twin.display = mark.display := by
    rw [same]
    split <;> exact ⟨rfl, rfl, rfl⟩
  rw [shown.1, shown.2.1]
  cases mark.isDone with
  | true =>
    rw [if_pos rfl, if_pos rfl]
    exact .error (congrArg
      (fun shown => ProductionReply.refused false (shown ++ " is already done")) shown.2.2.symm)
  | false =>
    rw [captions.lastEnd_eq, if_neg Bool.false_ne_true, if_neg Bool.false_ne_true]
    exact .ok ((captions.update name (fun _ _ => rfl) fun _ _ => rfl).note _)

/-- A mark may be preceded under one message if it may under the other, and by the same one. -/
theorem precede (captions : Captions id message production other) (name : MarkId) :
    ResultsMatch (fun made twin => Captions id message made.1 twin.1 ∧ twin.2 = made.2)
      (production.precede name) (other.precede name) := by
  rw [Production.precede, Production.precede]
  refine (captions.mark? name).bind fun mark twin same => ?_
  have shown : twin.start = mark.start ∧ twin.anchor = mark.anchor := by
    rw [same]
    split <;> exact ⟨rfl, rfl⟩
  rw [shown.1, shown.2]
  refine .ok ⟨?_, captions.length_eq⟩
  dsimp only [Production.add]
  rw [captions.length_eq]
  exact (captions.add _).update _ (fun _ done => done) fun _ _ => rfl

/-- Something absent is marked under one message as under the other. -/
theorem empty (captions : Captions id message production other) (kind : NodeKind)
    (text : Option String) :
    ResultsMatch (fun made twin => Captions id message made.1 twin.1 ∧ twin.2 = made.2)
      (production.empty kind text) (other.empty kind text) := by
  rw [Production.empty, Production.empty, captions.token_eq, captions.lastEnd_eq]
  refine (ResultsMatch.refl production.token).bind fun token twin same => ?_
  subst same
  obtain ⟨opened, name⟩ := captions.openAt production.lastEnd text (some token.position)
  dsimp only
  rw [name]
  exact (opened.done _ kind).bind fun _ _ closed => .ok ⟨closed, rfl⟩

/-- The next token may be passed under one message if it may under the other. -/
theorem advance (captions : Captions id message production other) :
    ResultsMatch (Captions id message) production.advance other.advance := by
  rw [Production.advance, Production.advance, captions.token_eq]
  refine (ResultsMatch.refl production.token).bind fun token twin same => ?_
  subst same
  cases token.isEnd with
  | true => exact .error rfl
  | false =>
    refine .ok ⟨captions.closed, ?_⟩
    rw [captions.other]
    rfl

end Captions

/-! ## Trees after the refused call -/

/-- Two assemblies that have at one place two trees of which the second one has the message. -/
inductive AssemblyDiffers (message : String) : Assembly → Assembly → Prop where
  | stack (next : Nat) (root : Option SyntaxTree) {stack other : List (MarkId × List SyntaxTree)}
    (one : OneDiffers (fun entry twin => entry.1 = twin.1 ∧
      OneDiffers (Tree.Captioned message) entry.2 twin.2) stack other) :
    AssemblyDiffers message ⟨next, stack, root⟩ ⟨next, other, root⟩
  | root (next : Nat) (stack : List (MarkId × List SyntaxTree)) {tree other : SyntaxTree}
    (captioned : tree.Captioned message other) :
    AssemblyDiffers message ⟨next, stack, some tree⟩ ⟨next, stack, some other⟩

namespace AssemblyDiffers

variable {assembly other : Assembly}

/-- Tokens are taken the same way in two assemblies that differ in one node's message. -/
theorem flush (differs : AssemblyDiffers message assembly other) (tokens : List Token)
    (stop : Nat) :
    AssemblyDiffers message (assembly.flush tokens stop) (other.flush tokens stop) := by
  cases differs with
  | stack next root one =>
    cases one with
    | @here entry twin rest first =>
      obtain ⟨name, children⟩ := entry
      obtain ⟨_, twins⟩ := twin
      obtain ⟨rfl, one⟩ := first
      exact .stack _ _ (.here _ ⟨rfl, one.append _⟩)
    | there entry later => exact .stack _ _ (.there _ later)
  | root next stack captioned =>
    cases stack with
    | nil => exact .root _ _ captioned
    | cons entry outer => exact .root _ _ captioned

/-- Marks are opened the same way in two assemblies that differ in one node's message. -/
theorem openAll (differs : AssemblyDiffers message assembly other) (marks : List MarkId) :
    AssemblyDiffers message (assembly.openAll marks) (other.openAll marks) := by
  induction marks generalizing assembly other with
  | nil => exact differs
  | cons name marks ih =>
    have opened : AssemblyDiffers message
        ⟨assembly.next, (name, []) :: assembly.stack, assembly.root⟩
        ⟨other.next, (name, []) :: other.stack, other.root⟩ := by
      cases differs with
      | stack next root one => exact .stack _ _ (.there _ one)
      | root next stack captioned => exact .root _ _ captioned
    exact ih opened

/-- The assemblies differ as before after the innermost mark has become a node, or the tree that was
different has been replaced. -/
theorem close (differs : AssemblyDiffers message assembly other) (content : Content) :
    assembly.close content = other.close content ∨
      AssemblyDiffers message (assembly.close content) (other.close content) := by
  cases differs with
  | stack next root one =>
    refine .inr ?_
    cases one with
    | @here entry twin rest first =>
      obtain ⟨name, children⟩ := entry
      obtain ⟨_, twins⟩ := twin
      obtain ⟨rfl, one⟩ := first
      cases rest with
      | nil => exact .root _ _ (.inside content one)
      | cons outer rest => exact .stack _ _ (.here _ ⟨rfl, .last _ (.inside content one)⟩)
    | there entry later =>
      cases later with
      | here rest first => exact .stack _ _ (.here _ ⟨first.1, first.2.append _⟩)
      | there outer later => exact .stack _ _ (.there _ later)
  | root next stack captioned =>
    match stack with
    | [] => exact .inr (.root _ _ captioned)
    | [(name, children)] => exact .inl rfl
    | _ :: _ :: _ => exact .inr (.root _ _ captioned)

/-- The innermost open marks are the same in both assemblies. -/
theorem head_eq (differs : AssemblyDiffers message assembly other) :
    other.stack.head?.map Prod.fst = assembly.stack.head?.map Prod.fst := by
  cases differs with
  | stack next root one =>
    cases one with
    | here rest first => exact congrArg some first.1.symm
    | there entry later => rfl
  | root next stack captioned => rfl

end AssemblyDiffers

/-- Two assemblies that are the same but for one message at most. -/
def AssemblyAgrees (message : String) (assembly other : Assembly) : Prop :=
  assembly = other ∨ AssemblyDiffers message assembly other

/-- A mark that has not been dropped is closed by its entry if it is innermost. -/
theorem assemble_closed_eq {mark : Mark} (found : production.marks[id]? = some mark)
    (kept : mark.dropped = false) (assembly : Assembly) :
    production.assemble assembly (.closed id) =
      match assembly.stack.head?.map Prod.fst, mark.stop, mark.kind with
      | some top, some stop, some kind =>
        if top = id then
          .ok ((assembly.flush production.tokens stop).close
            ⟨kind, none, mark.message, mark.position⟩)
        else .error (.unbalanced mark)
      | _, _, _ => .error (.unbalanced mark) := by
  simp only [assemble, mark?, found, bind, Except.bind, kept, Bool.false_eq_true, if_false]
  cases assembly.stack with
  | nil => rfl
  | cons entry outer =>
    obtain ⟨top, children⟩ := entry
    cases mark.stop with
    | none => rfl
    | some stop => cases mark.kind <;> rfl

/-- An entry about a mark that was never made cannot be assembled. -/
theorem assemble_of_unknown (unknown : production.marks[id]? = none) (assembly : Assembly) :
    production.assemble assembly (.opened id) = .error .unknownMark ∧
      production.assemble assembly (.closed id) = .error .unknownMark := by
  constructor <;> simp only [assemble, mark?, unknown] <;> rfl

/-- An entry of the record keeps what two assemblies have in common. -/
theorem AssemblyAgrees.assemble {assembly other : Assembly}
    (agrees : AssemblyAgrees message assembly other) (event : ProductionEvent) :
    ResultsMatch (AssemblyAgrees message) (production.assemble assembly event)
      (production.assemble other event) := by
  rcases agrees with rfl | differs
  · cases production.assemble assembly event with
    | ok next => exact .ok (.inl rfl)
    | error error => exact .error rfl
  cases event with
  | opened name =>
    cases found : production.marks[name]? with
    | none =>
      rw [(assemble_of_unknown found _).1, (assemble_of_unknown found _).1]
      exact .error rfl
    | some mark =>
      rw [assemble_opened found, assemble_opened found]
      exact .ok (.inr ((differs.flush _ _).openAll _))
  | closed name =>
    cases found : production.marks[name]? with
    | none =>
      rw [(assemble_of_unknown found _).2, (assemble_of_unknown found _).2]
      exact .error rfl
    | some mark =>
      cases kept : mark.dropped with
      | true =>
        rw [assemble_closed_of_dropped found kept, assemble_closed_of_dropped found kept]
        exact .ok (.inr differs)
      | false =>
        rw [assemble_closed_eq found kept, assemble_closed_eq found kept, differs.head_eq]
        split
        · split
          · exact .ok ((differs.flush _ _).close _)
          · exact .error rfl
        · exact .error rfl

/-- Two nodes of one mark differ in the message at most. -/
theorem close_captioned (assembly : Assembly) (content : Content) (message : String) :
    AssemblyAgrees message (assembly.close content)
      (assembly.close { content with message := some message }) := by
  obtain ⟨next, stack, root⟩ := assembly
  match stack with
  | [] => exact .inl rfl
  | [(name, children)] => exact .inr (.root _ _ (.root content children))
  | (name, children) :: (outer, siblings) :: rest =>
    exact .inr (.stack _ _ (.here _ ⟨rfl, .last _ (.root content children)⟩))

namespace Captions

variable {other : Production}

/-- A mark is the same under both messages but for the message itself. -/
theorem getElem?_eq (captions : Captions id message production other) {name : MarkId}
    {mark : Mark} (found : production.marks[name]? = some mark) :
    other.marks[name]?
      = some (if id = name then { mark with message := some message } else mark) := by
  rw [captions.other, captioned, getElem?_update found]

theorem getElem?_eq_none (captions : Captions id message production other) {name : MarkId}
    (unknown : production.marks[name]? = none) : other.marks[name]? = none := by
  rw [List.getElem?_eq_none_iff] at unknown ⊢
  rw [captions.length_eq]
  exact unknown

/-- Which marks of a chain stand does not depend on messages. -/
theorem standing_eq (captions : Captions id message production other) (chain : List MarkId) :
    other.standing chain = production.standing chain := by
  refine List.filter_congr fun name _ => ?_
  cases found : production.marks[name]? with
  | none => rw [captions.getElem?_eq_none found]
  | some mark =>
    rw [captions.getElem?_eq found]
    split <;> rfl

/-- Only the closing of the mark reads its message. -/
theorem assemble_eq (captions : Captions id message production other) {event : ProductionEvent}
    (apart : event ≠ .closed id) (assembly : Assembly) :
    other.assemble assembly event = production.assemble assembly event := by
  cases event with
  | opened name =>
    cases found : production.marks[name]? with
    | none =>
      rw [(assemble_of_unknown found _).1,
        (assemble_of_unknown (captions.getElem?_eq_none found) _).1]
    | some mark =>
      rw [assemble_opened found, assemble_opened (captions.getElem?_eq found), openedBy, openedBy,
        found, captions.getElem?_eq found, captions.tokens_eq]
      simp only [Option.map_some, captions.standing_eq]
      split <;> rfl
  | closed name =>
    have found : other.marks[name]? = production.marks[name]? := by
      have differ : id ≠ name := fun same => apart (congrArg _ same.symm)
      rw [captions.other, captioned, Production.update, List.getElem?_modify_ne _ _ differ]
    rw [assemble, assemble, Production.mark?, Production.mark?, found, captions.tokens_eq]

/-- The closing of the mark makes nodes that differ in the message. -/
theorem assemble_closed (captions : Captions id message production other) (assembly : Assembly) :
    ResultsMatch (AssemblyAgrees message) (production.assemble assembly (.closed id))
      (other.assemble assembly (.closed id)) := by
  obtain ⟨mark, found, _⟩ := captions.closed
  have foundOther := captions.getElem?_eq found
  rw [if_pos rfl] at foundOther
  cases kept : mark.dropped with
  | true =>
    rw [assemble_closed_of_dropped found kept, assemble_closed_of_dropped foundOther kept]
    exact .ok (.inl rfl)
  | false =>
    rw [assemble_closed_eq found kept, assemble_closed_eq foundOther kept,
      captions.tokens_eq]
    dsimp only
    split
    · split
      · exact .ok (close_captioned _ _ message)
      · exact .error rfl
    · exact .error rfl

/-- Both make the same tree but for one message, or are refused alike. -/
theorem assembleAll (captions : Captions id message production other)
    (nodup : production.record.Nodup) :
    ResultsMatch (fun tree twin => tree = twin ∨ tree.Captioned message twin)
      production.assembleAll other.assembleAll := by
  have folded : ResultsMatch (AssemblyAgrees message)
      (production.record.reverse.foldlM production.assemble ⟨0, [], none⟩)
      (production.record.reverse.foldlM other.assemble ⟨0, [], none⟩) := by
    have elsewhere : ∀ events : List ProductionEvent, .closed id ∉ events → ∀ assembly twin,
        AssemblyAgrees message assembly twin → ResultsMatch (AssemblyAgrees message)
          (events.foldlM production.assemble assembly) (events.foldlM other.assemble twin) := by
      intro events absent assembly twin agrees
      refine ResultsMatch.foldlM (fun event present value other agrees => ?_) agrees
      rw [captions.assemble_eq fun closed => absent (closed ▸ present)]
      exact agrees.assemble event
    by_cases present : .closed id ∈ production.record.reverse
    · obtain ⟨front, later, split⟩ := List.append_of_mem present
      have once : (ProductionEvent.closed id :: (front ++ later)).Nodup := by
        rw [← List.nodup_middle, ← split]
        exact List.nodup_reverse.mpr nodup
      have absent := (List.nodup_cons.mp once).1
      rw [List.mem_append, not_or] at absent
      have before : ResultsMatch Eq (front.foldlM production.assemble ⟨0, [], none⟩)
          (front.foldlM other.assemble ⟨0, [], none⟩) := by
        refine ResultsMatch.foldlM (fun event present assembly _ same => ?_) rfl
        rw [← same, captions.assemble_eq fun closed => absent.1 (closed ▸ present)]
        exact .refl _
      rw [split, List.foldlM_append, List.foldlM_append]
      refine before.bind fun assembly _ same => ?_
      rw [← same, List.foldlM_cons, List.foldlM_cons]
      exact (captions.assemble_closed assembly).bind fun _ _ => elsewhere later absent.2 _ _
    · exact elsewhere _ present _ _ (.inl rfl)
  rw [Production.assembleAll, Production.assembleAll, captions.record_eq]
  refine folded.bind fun assembly twin agrees => ?_
  rcases agrees with rfl | differs
  · split
    · exact .ok (.inl rfl)
    · exact .error rfl
  · cases differs with
    | stack next root one => cases one <;> exact .error rfl
    | root next stack captioned =>
      cases stack with
      | nil => exact .ok (.inr captioned)
      | cons entry outer => exact .error rfl

/-- Both productions build trees, equal but for the message in the mark's one node, or both build
none. -/
theorem build (captions : Captions id message production other)
    (nodup : production.record.Nodup) :
    Captions id message production.build.1 other.build.1 ∧
      ResultsMatch (fun tree twin => tree = twin ∨ tree.Captioned message twin)
        production.build.2 other.build.2 := by
  unfold Production.build
  rw [captions.record_eq, captions.tokens_eq]
  split
  · next root last first latest =>
    split
    · have extended : Captions id message
          (production.update root fun mark => { mark with stop := some production.tokens.length })
          (other.update root fun mark => { mark with stop := some production.tokens.length }) :=
        captions.update root (fun _ _ => rfl) fun _ _ => rfl
      exact ⟨extended, extended.assembleAll nodup⟩
    · exact ⟨captions, .error rfl⟩
  · exact ⟨captions, .error rfl⟩

/-- Closing a mark as an error gives it another message, which makes both the same if it is the one
that has been closed. -/
theorem fail (captions : Captions id message production other) (name : MarkId) (text : String) :
    other.fail name text = production.fail name text ∨
      Captions id message (production.fail name text).1 (other.fail name text).1 ∧
        ((other.fail name text).2.elim .done ProductionError.reply : ProductionReply)
          = (production.fail name text).2.elim .done ProductionError.reply := by
  by_cases same : id = name
  · refine .inl ?_
    have named : other.captioned name text = production.captioned name text := by
      rw [captions.other, same, captioned_captioned]
    rw [fail_eq, fail_eq, named]
  · refine .inr ?_
    have named : Captions id message (production.captioned name text)
        (other.captioned name text) :=
      captions.update name (fun _ done => done) fun equal => (same equal).elim
    have both := named.done name .error
    rw [fail_eq, fail_eq]
    generalize (production.captioned name text).done name .error = result at both ⊢
    generalize (other.captioned name text).done name .error = twin at both ⊢
    cases both with
    | ok closed => exact ⟨closed, rfl⟩
    | error reply => exact ⟨named, reply.symm⟩

/-- A call that may be refused leaves the message the only difference, refused or not. -/
theorem afterCall {Result Other : Type} {related : Result → Other → Prop}
    {result : Except ProductionError Result} {twin : Except ProductionError Other}
    {left : Result → Production} {leftOther : Other → Production}
    (captions : Captions id message production other) (both : ResultsMatch related result twin)
    (next : ∀ value twin, related value twin → Captions id message (left value) (leftOther twin)) :
    Captions id message (production.afterCall result left) (other.afterCall twin leftOther) := by
  cases both with
  | ok both => exact next _ _ both
  | error => exact captions

/-- The replies to a call are the same but for the message. -/
theorem answer (captions : Captions id message production other) (nodup : production.record.Nodup)
    (call : ProductionCall) :
    (production.answer call).Agrees id message (other.answer call) := by
  cases call with
  | perform step =>
    cases step with
    | mark =>
      change ProductionReply.Agrees id message (.opened production.marks.length)
        (.opened other.marks.length)
      rw [captions.length_eq]
      exact .same _
    | precede name =>
      exact (captions.precede name).ofResult fun _ _ made => made.2 ▸ .same _
    | done name kind => exact (captions.done name kind).ofResult fun _ _ _ => .same _
    | fail name text =>
      have reply : other.answer (.perform (.fail name text))
          = production.answer (.perform (.fail name text)) := by
        rcases captions.fail name text with same | ⟨_, reply⟩
        · rw [Production.answer, Production.answer, same]
        · exact reply
      rw [reply]
      exact .same _
    | drop name => exact .same _
    | empty kind text => exact (captions.empty kind text).ofResult fun _ _ made => made.2 ▸ .same _
    | advance => exact captions.advance.ofResult fun _ _ _ => .same _
  | token =>
    rw [Production.answer, Production.answer, captions.token_eq]
    exact .same _
  | lookahead distance =>
    rw [captions.other]
    exact .same _
  | layout =>
    rw [captions.other]
    exact .same _
  | look name =>
    refine (captions.mark? name).ofResult fun mark twin same => ?_
    rw [same]
    split
    · next named =>
      rw [named]
      exact .mark mark
    · exact .same _
  | build =>
    refine (captions.build nodup).2.ofResult fun tree twin agrees => ?_
    rcases agrees with rfl | captioned
    · exact .same _
    · exact .tree captioned

/-- A call leaves the difference as it is, or takes it away. -/
theorem follow (captions : Captions id message production other) (nodup : production.record.Nodup)
    (call : ProductionCall) :
    other.follow call = production.follow call ∨
      Captions id message (production.follow call) (other.follow call) := by
  cases call with
  | perform step =>
    cases step with
    | mark =>
      have index : other.index = production.index := by
        rw [captions.other]
        rfl
      refine .inr ?_
      change Captions id message _ (other.openAt other.index none none).1
      rw [index]
      exact (captions.openAt production.index none none).1
    | precede name => exact .inr (captions.afterCall (captions.precede name) fun _ _ made => made.1)
    | done name kind =>
      exact .inr (captions.afterCall (captions.done name kind) fun _ _ closed => closed)
    | fail name text =>
      rcases captions.fail name text with same | ⟨left, _⟩
      · exact .inl (congrArg Prod.fst same)
      · exact .inr left
    | drop name => exact .inr (captions.update name (fun _ done => done) fun _ _ => rfl)
    | empty kind text =>
      exact .inr (captions.afterCall (captions.empty kind text) fun _ _ made => made.1)
    | advance => exact .inr (captions.afterCall captions.advance fun _ _ next => next)
  | build => exact .inr (captions.build nodup).1
  | token | lookahead | layout | look => exact .inr captions

end Captions

/-- A call keeps a production orderly, the one that builds included. -/
theorem isOrderly_follow (orderly : production.IsOrderly) (call : ProductionCall) :
    (production.follow call).IsOrderly := by
  cases call with
  | perform step => exact (grows_perform production step).orderly orderly
  | build =>
    change production.build.1.IsOrderly
    unfold Production.build
    split
    · split
      · exact orderly.update fun _ => ⟨rfl, rfl, fun _ => rfl, fun held => held⟩
      · exact orderly
    · exact orderly
  | token | lookahead | layout | look => exact orderly

theorem isOrderly_foldl (orderly : production.IsOrderly) (calls : List ProductionCall) :
    (calls.foldl follow production).IsOrderly := by
  induction calls generalizing production with
  | nil => exact orderly
  | cons call calls ih => exact ih (isOrderly_follow orderly call)

/-- All calls that are made afterwards have the same replies but for the message. -/
theorem Captions.replies {other : Production} (captions : Captions id message production other)
    (orderly : production.IsOrderly) (calls : List ProductionCall) :
    List.Forall₂ (ProductionReply.Agrees id message) (production.replies calls)
      (other.replies calls) := by
  induction calls generalizing production other with
  | nil => exact .nil
  | cons call calls ih =>
    refine .cons (captions.answer orderly.nodup call) ?_
    rcases captions.follow orderly.nodup call with same | still
    · rw [same]
      exact List.forall₂_same.mpr fun reply _ => .same reply
    · exact ih still (isOrderly_follow orderly call)

/-- Whatever has been called before, a call that is refused changes no reply to any calls that are
made afterwards, unless it is to close a mark as an error that has been closed. Then the replies are
those without the call, but for the message of the mark: the mark is shown with it, and a tree that
is built has it at one node at most. -/
theorem replies_of_refused (tokens : List Token) (earlier : List ProductionCall)
    (step : ProductionStep)
    (refused : ((reached tokens earlier).answer (.perform step)).isRefusal) :
    (∀ later, (reached tokens (earlier ++ [.perform step])).replies later
        = (reached tokens earlier).replies later) ∨
      ∃ id message, step = .fail id message ∧
        (∃ mark : Mark, (reached tokens earlier).marks[id]? = some mark ∧ mark.isDone) ∧
        ∀ later, List.Forall₂ (ProductionReply.Agrees id message)
          ((reached tokens earlier).replies later)
          ((reached tokens (earlier ++ [.perform step])).replies later) := by
  have next : reached tokens (earlier ++ [.perform step])
      = (reached tokens earlier).perform step := List.foldl_concat ..
  rw [next]
  rcases perform_of_refusal refused with same | ⟨id, message, rfl, closed, left⟩
  · rw [same]
    exact .inl fun _ => rfl
  · rw [left]
    exact .inr ⟨id, message, rfl, closed, fun later =>
      Captions.replies ⟨closed, rfl⟩ (isOrderly_foldl (isOrderly_ofTokens tokens) earlier) later⟩

/-- The tokens of the symbol `a`. -/
def symbolTokens : List Token := [⟨.identifier, "a", 1, 1⟩, ⟨.endOfFile, "", 1, 2⟩]

/-- The calls that close a symbol inside of a mark that is still open. -/
def symbolCalls : List ProductionCall :=
  [.perform .mark, .perform .mark, .perform .advance, .perform (.done 1 .symbol)]

/-- When the symbol is to be closed as an error, that is refused, and only its message changes. -/
theorem replies_of_refused_symbol :
    ((reached symbolTokens symbolCalls).answer (.perform (.fail 1 "oops"))).isRefusal ∧
      ∀ later, List.Forall₂ (ProductionReply.Agrees 1 "oops")
        ((reached symbolTokens symbolCalls).replies later)
        ((reached symbolTokens (symbolCalls ++ [.perform (.fail 1 "oops")])).replies later) := by
  have refused :
      ((reached symbolTokens symbolCalls).answer (.perform (.fail 1 "oops"))).isRefusal := by
    decide +kernel
  refine ⟨refused, fun later => ?_⟩
  rcases replies_of_refused symbolTokens symbolCalls _ refused with same |
    ⟨id, message, step, _, agrees⟩
  · rw [same]
    exact List.forall₂_same.mpr fun reply _ => .same reply
  · cases step
    exact agrees later

/-- The rule without exceptions: a call that is refused changes no reply to later calls. -/
def RefusesCleanly (tokens : List Token) : Prop :=
  ∀ earlier step, ((reached tokens earlier).answer (.perform step)).isRefusal →
    ∀ later, (reached tokens (earlier ++ [.perform step])).replies later
      = (reached tokens earlier).replies later

/-- The tree of the symbol has the message of the refused call. -/
theorem not_refusesCleanly : ¬∀ tokens, RefusesCleanly tokens := by
  intro clean
  have same := clean symbolTokens symbolCalls (.fail 1 "oops") (by decide +kernel)
    [.perform (.done 0 .file), .build]
  have messages := congrArg (List.map ProductionReply.messages) same
  exact absurd messages (by decide +kernel)

end Production

end WolframSyntax
