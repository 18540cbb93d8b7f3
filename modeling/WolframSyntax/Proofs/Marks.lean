import Mathlib.Data.List.Nodup
import WolframSyntax.Production.Build

/-!
# Marks and their chains

Whatever is asked of a production, in any order and refused or not, its record and its marks fit
together (`Production.isOrderly_run`): every mark is in exactly one chain, that of its anchor, the
record opens every anchor once and closes only marks that have been closed. A mark that was put
around another one stands behind it in the chain, and marks that were put around the same one later
stand in front of those that were put around it earlier (`Production.isAround_of_precede`,
`Production.isAround_of_precede_twice`).
-/

namespace WolframSyntax

/-- A call of one of the operations of a production. -/
inductive ProductionStep where
  | mark
  | precede (id : MarkId)
  | done (id : MarkId) (kind : NodeKind)
  | fail (id : MarkId) (message : String)
  | drop (id : MarkId)
  | empty (kind : NodeKind) (message : Option String)
  | advance

/-- A change of a mark that leaves it where it is, and closed if it has been closed. -/
structure Mark.Keeps (before after : Mark) : Prop where
  anchor : after.anchor = before.anchor
  chain : after.chain = before.chain
  stop : before.stop.isSome → after.stop.isSome
  kind : before.kind.isSome → after.kind.isSome

namespace Production

/-- What a call that may be refused leaves of a production: `left` of its result, or the production
as it is. -/
def afterCall {Result : Type} (production : Production) (result : Except ProductionError Result)
    (left : Result → Production) : Production :=
  match result with
  | .ok value => left value
  | .error _ => production

/-- What a production is after a call. When an error node is refused, its message stays with the
mark. -/
def perform (production : Production) : ProductionStep → Production
  | .mark => production.mark.1
  | .precede id => production.afterCall (production.precede id) Prod.fst
  | .done id kind => production.afterCall (production.done id kind) fun next => next
  | .fail id message => (production.fail id message).1
  | .drop id => production.drop id
  | .empty kind message => production.afterCall (production.empty kind message) Prod.fst
  | .advance => production.afterCall production.advance fun next => next

/-- A production over a token list after a number of calls. -/
def run (tokens : List Token) (steps : List ProductionStep) : Production :=
  steps.foldl perform (ofTokens tokens)

/-- More steps go on where the first ones end. -/
theorem run_append (tokens : List Token) (first second : List ProductionStep) :
    run tokens (first ++ second) = second.foldl perform (run tokens first) :=
  List.foldl_append

/-! ## Chains -/

section Chains

variable {old new : MarkId} {chain : List MarkId}

/-- A mark that precedes another one is one more mark of the chain. -/
theorem insertAfter_perm (present : old ∈ chain) :
    (insertAfter old new chain).Perm (new :: chain) := by
  induction chain with
  | nil => cases present
  | cons id ids ih =>
    unfold insertAfter
    by_cases same : id = old
    · rw [if_pos same]
      exact .swap _ _ _
    · rw [if_neg same]
      have later : old ∈ ids := (List.mem_cons.mp present).resolve_left (Ne.symm same)
      exact ((ih later).cons id).trans (.swap _ _ _)

/-- A mark that precedes another one leaves the order of the chain. -/
theorem sublist_insertAfter (old new : MarkId) (chain : List MarkId) :
    chain.Sublist (insertAfter old new chain) := by
  induction chain with
  | nil => exact .slnil
  | cons id ids ih =>
    unfold insertAfter
    split
    · exact .cons_cons _ (List.sublist_cons_self _ _)
    · exact .cons_cons _ ih

/-- A mark that precedes another one stands behind it in the chain. -/
theorem pair_sublist_insertAfter (present : old ∈ chain) :
    [old, new].Sublist (insertAfter old new chain) := by
  induction chain with
  | nil => cases present
  | cons id ids ih =>
    unfold insertAfter
    by_cases same : id = old
    · rw [if_pos same, same]
      exact .cons_cons _ (.cons_cons _ (List.nil_sublist _))
    · rw [if_neg same]
      exact .cons _ (ih ((List.mem_cons.mp present).resolve_left (Ne.symm same)))

/-- What is inserted after a mark comes before what was there before. -/
theorem pair_sublist_insertAfter_of_pair {outer : MarkId} (nodup : chain.Nodup)
    (pair : [old, outer].Sublist chain) : [new, outer].Sublist (insertAfter old new chain) := by
  induction chain with
  | nil => cases pair
  | cons id ids ih =>
    obtain ⟨fresh, nodup⟩ := List.nodup_cons.mp nodup
    unfold insertAfter
    by_cases same : id = old
    · rw [if_pos same]
      cases pair with
      | cons _ later =>
        rw [same] at fresh
        exact (fresh (later.subset List.mem_cons_self)).elim
      | cons_cons _ later => exact .cons _ (.cons_cons _ later)
    · rw [if_neg same]
      cases pair with
      | cons _ later => exact .cons _ (ih nodup later)
      | cons_cons _ _ => exact (same rfl).elim

end Chains

/-! ## Record and marks -/

/-- The record and the marks of a production fit together. -/
structure IsOrderly (production : Production) : Prop where
  nodup : production.record.Nodup
  opened : ∀ id, .opened id ∈ production.record →
    ∃ mark : Mark, production.marks[id]? = some mark ∧ mark.anchor = id
  closed : ∀ id, .closed id ∈ production.record →
    ∃ mark : Mark, production.marks[id]? = some mark ∧ mark.stop.isSome ∧ mark.kind.isSome
  anchored : ∀ (id : MarkId) (mark : Mark), production.marks[id]? = some mark →
    .opened mark.anchor ∈ production.record
  chained : ∀ (id : MarkId) (mark : Mark), production.marks[id]? = some mark → mark.chain.Nodup ∧
    ∀ inner : MarkId, inner ∈ mark.chain ↔
      ∃ member : Mark, production.marks[inner]? = some member ∧ member.anchor = id

/-- One mark stands behind another one in a chain, so it is to be put around it. -/
def IsAround (production : Production) (outer inner : MarkId) : Prop :=
  ∃ (anchor : MarkId) (mark : Mark),
    production.marks[anchor]? = some mark ∧ [inner, outer].Sublist mark.chain

variable {production : Production} {id : MarkId} {change : Mark → Mark}

/-- A production with no steps is orderly. -/
theorem isOrderly_ofTokens (tokens : List Token) : (ofTokens tokens).IsOrderly := by
  constructor <;> simp [ofTokens]

/-- A mark after an update, when it is found. -/
theorem getElem?_update {other : MarkId} {mark : Mark}
    (found : production.marks[other]? = some mark) :
    (production.update id change).marks[other]?
      = some (if id = other then change mark else mark) := by
  rw [update, List.getElem?_modify, found]
  split <;> rfl

/-- Every mark after an update was there before. -/
theorem exists_of_getElem?_update {other : MarkId} {mark : Mark}
    (found : (production.update id change).marks[other]? = some mark) :
    ∃ before : Mark, production.marks[other]? = some before ∧
      mark = if id = other then change before else before := by
  rw [update, List.getElem?_modify, Option.map_eq_map, Option.map_eq_some_iff] at found
  obtain ⟨before, held, rfl⟩ := found
  refine ⟨before, held, ?_⟩
  split <;> rfl

theorem length_update : (production.update id change).marks.length = production.marks.length :=
  List.length_modify _ _ _

/-- A change that keeps a mark's place keeps a production orderly. -/
theorem IsOrderly.update (orderly : production.IsOrderly)
    (keeps : ∀ mark, Mark.Keeps mark (change mark)) :
    (production.update id change).IsOrderly := by
  have keepsIf : ∀ other mark, Mark.Keeps mark (if id = other then change mark else mark) := by
    intro other mark
    split
    · exact keeps mark
    · exact ⟨rfl, rfl, fun held => held, fun held => held⟩
  refine ⟨orderly.nodup, fun other opened => ?_, fun other closed => ?_, fun other mark found => ?_,
    fun other mark found => ?_⟩
  · obtain ⟨mark, found, anchor⟩ := orderly.opened other opened
    exact ⟨_, getElem?_update found, (keepsIf other mark).anchor.trans anchor⟩
  · obtain ⟨mark, found, stop, kind⟩ := orderly.closed other closed
    exact ⟨_, getElem?_update found, (keepsIf other mark).stop stop,
      (keepsIf other mark).kind kind⟩
  · obtain ⟨before, held, rfl⟩ := exists_of_getElem?_update found
    rw [(keepsIf other before).anchor]
    exact orderly.anchored other before held
  · obtain ⟨before, held, rfl⟩ := exists_of_getElem?_update found
    obtain ⟨nodup, members⟩ := orderly.chained other before held
    rw [(keepsIf other before).chain]
    refine ⟨nodup, fun inner => (members inner).trans ⟨?_, ?_⟩⟩
    · rintro ⟨member, present, anchor⟩
      exact ⟨_, getElem?_update present, (keepsIf inner member).anchor.trans anchor⟩
    · rintro ⟨member, present, anchor⟩
      obtain ⟨earlier, heldEarlier, rfl⟩ := exists_of_getElem?_update present
      exact ⟨earlier, heldEarlier, (keepsIf inner earlier).anchor.symm.trans anchor⟩

/-- A change that takes no mark out of a chain keeps which marks are around which. -/
theorem IsAround.update {outer inner : MarkId} (around : production.IsAround outer inner)
    (chain : ∀ mark : Mark, mark.chain.Sublist (change mark).chain) :
    (production.update id change).IsAround outer inner := by
  obtain ⟨anchor, mark, found, pair⟩ := around
  refine ⟨anchor, _, getElem?_update found, pair.trans ?_⟩
  split
  · exact chain mark
  · exact .refl _

/-- A mark that is there stays there when another one is added. -/
theorem getElem?_add {other : MarkId} {mark new : Mark}
    (found : production.marks[other]? = some mark) :
    (production.add new).1.marks[other]? = some mark := by
  obtain ⟨inside, _⟩ := List.getElem?_eq_some_iff.mp found
  rw [add, List.getElem?_append_left inside, found]

/-- Every mark is the one that was added or was there before. -/
theorem of_getElem?_add {other : MarkId} {mark new : Mark}
    (found : (production.add new).1.marks[other]? = some mark) :
    production.marks[other]? = some mark ∨ other = production.marks.length ∧ mark = new := by
  rcases Nat.lt_trichotomy other production.marks.length with inside | rfl | beyond
  · rw [add, List.getElem?_append_left inside] at found
    exact .inl found
  · rw [add, List.getElem?_concat_length] at found
    exact .inr ⟨rfl, (Option.some.inj found).symm⟩
  · obtain ⟨inside, _⟩ := List.getElem?_eq_some_iff.mp found
    rw [add, List.length_append] at inside
    exact absurd inside (Nat.not_lt_of_le beyond)

/-- A new mark is found under the number of marks before it. -/
theorem getElem?_add_length {new : Mark} :
    (production.add new).1.marks[production.marks.length]? = some new :=
  List.getElem?_concat_length

/-- An opened mark has been made. -/
theorem IsOrderly.lt_length_of_opened (orderly : production.IsOrderly)
    (opened : .opened id ∈ production.record) : id < production.marks.length := by
  obtain ⟨mark, found, _⟩ := orderly.opened id opened
  exact (List.getElem?_eq_some_iff.mp found).1

/-- The anchor of a mark has been made. -/
theorem IsOrderly.anchor_lt_length (orderly : production.IsOrderly) {mark : Mark}
    (found : production.marks[id]? = some mark) : mark.anchor < production.marks.length :=
  orderly.lt_length_of_opened (orderly.anchored id mark found)

/-- A production stays orderly when a mark is opened: its chain is the mark alone. -/
theorem IsOrderly.openAt (orderly : production.IsOrderly) (start : Nat) (message : Option String)
    (position : Option Position) : (production.openAt start message position).1.IsOrderly := by
  refine ⟨List.nodup_cons.mpr ⟨fun present => ?_, orderly.nodup⟩, fun other opened => ?_,
    fun other closed => ?_, fun other mark found => ?_, fun other mark found => ?_⟩
  · exact absurd (orderly.lt_length_of_opened present) (Nat.lt_irrefl _)
  · rcases List.mem_cons.mp opened with same | before
    · cases same
      exact ⟨_, getElem?_add_length, rfl⟩
    · obtain ⟨mark, found, anchor⟩ := orderly.opened other before
      exact ⟨mark, getElem?_add found, anchor⟩
  · obtain ⟨mark, found, done⟩ :=
      orderly.closed other ((List.mem_cons.mp closed).resolve_left ProductionEvent.noConfusion)
    exact ⟨mark, getElem?_add found, done⟩
  · rcases of_getElem?_add found with before | ⟨rfl, rfl⟩
    · exact List.mem_cons_of_mem _ (orderly.anchored other mark before)
    · exact List.mem_cons_self
  · rcases of_getElem?_add found with before | ⟨rfl, rfl⟩
    · obtain ⟨nodup, members⟩ := orderly.chained other mark before
      refine ⟨nodup, fun inner => (members inner).trans ⟨?_, ?_⟩⟩
      · rintro ⟨member, present, anchor⟩
        exact ⟨member, getElem?_add present, anchor⟩
      · rintro ⟨member, present, rfl⟩
        rcases of_getElem?_add present with earlier | ⟨rfl, rfl⟩
        · exact ⟨member, earlier, rfl⟩
        · obtain ⟨inside, _⟩ := List.getElem?_eq_some_iff.mp before
          exact absurd inside (Nat.lt_irrefl _)
    · refine ⟨List.nodup_singleton _, fun inner => List.mem_singleton.trans ⟨?_, ?_⟩⟩
      · rintro rfl
        exact ⟨_, found, rfl⟩
      · rintro ⟨member, present, anchor⟩
        rcases of_getElem?_add present with earlier | ⟨rfl, _⟩
        · have inside := orderly.anchor_lt_length earlier
          rw [anchor] at inside
          exact absurd inside (Nat.lt_irrefl _)
        · rfl

/-- Only a mark that has not been closed can be closed. -/
theorem of_done_eq_ok {kind : NodeKind} {next : Production}
    (done : production.done id kind = .ok next) :
    ∃ mark : Mark, production.marks[id]? = some mark ∧ mark.stop = none ∧
      next = (production.update id fun held =>
        { held with stop := some (max mark.start production.lastEnd), kind := some kind }).note
          (.closed id) := by
  unfold Production.done mark? at done
  cases found : production.marks[id]? with
  | none =>
    rw [found] at done
    cases done
  | some mark =>
    rw [found] at done
    cases stop : mark.stop with
    | some stop =>
      simp [Mark.isDone, stop, bind, Except.bind, throw, throwThe, MonadExceptOf.throw] at done
    | none =>
      simp only [Mark.isDone, stop, bind, Except.bind, Option.isSome_none, pure, Except.pure,
        Bool.false_eq_true, if_false, Except.ok.injEq] at done
      exact ⟨mark, rfl, stop, done.symm⟩

/-- A production stays orderly when a mark is closed, since the mark has its stop and kind then. -/
theorem IsOrderly.done (orderly : production.IsOrderly) {kind : NodeKind} {next : Production}
    (done : production.done id kind = .ok next) : next.IsOrderly := by
  obtain ⟨mark, found, undone, rfl⟩ := of_done_eq_ok done
  have updated : (production.update id fun held => { held with
      stop := some (max mark.start production.lastEnd), kind := some kind }).IsOrderly :=
    orderly.update fun _ => ⟨rfl, rfl, fun _ => rfl, fun _ => rfl⟩
  refine ⟨List.nodup_cons.mpr ⟨fun present => ?_, updated.nodup⟩, fun other opened => ?_,
    fun other closed => ?_, fun other mark found => ?_, updated.chained⟩
  · obtain ⟨closed, held, stop, _⟩ := orderly.closed id present
    cases found.symm.trans held
    rw [undone] at stop
    cases stop
  · exact updated.opened other ((List.mem_cons.mp opened).resolve_left ProductionEvent.noConfusion)
  · rcases List.mem_cons.mp closed with same | before
    · cases same
      refine ⟨_, getElem?_update found, ?_⟩
      rw [if_pos rfl]
      exact ⟨rfl, rfl⟩
    · exact updated.closed other before
  · exact List.mem_cons_of_mem _ (updated.anchored other mark found)

/-- A mark that is put around another one gets the anchor of that one and a place in its chain. -/
theorem of_precede_eq_ok {next : Production} {new : MarkId}
    (preceded : production.precede id = .ok (next, new)) :
    ∃ mark : Mark, production.marks[id]? = some mark ∧ new = production.marks.length ∧
      next = (production.add ⟨mark.start, none, none, none, none, false, mark.anchor, []⟩).1.update
        mark.anchor fun anchor => { anchor with chain := insertAfter id new anchor.chain } := by
  unfold Production.precede mark? at preceded
  cases found : production.marks[id]? with
  | none =>
    rw [found] at preceded
    cases preceded
  | some mark =>
    rw [found] at preceded
    cases preceded
    exact ⟨mark, rfl, rfl, rfl⟩

/-- The next mark is not yet in any chain. -/
theorem IsOrderly.length_not_mem_chain (orderly : production.IsOrderly) {mark : Mark}
    (found : production.marks[id]? = some mark) : production.marks.length ∉ mark.chain := by
  intro present
  obtain ⟨_, beyond, _⟩ := ((orderly.chained id mark found).2 _).mp present
  obtain ⟨inside, _⟩ := List.getElem?_eq_some_iff.mp beyond
  exact Nat.lt_irrefl _ inside

/-- A mark is in the chain of its anchor. -/
theorem IsOrderly.mem_chain_anchor (orderly : production.IsOrderly) {mark anchor : Mark}
    (found : production.marks[id]? = some mark)
    (anchorFound : production.marks[mark.anchor]? = some anchor) : id ∈ anchor.chain :=
  ((orderly.chained mark.anchor anchor anchorFound).2 id).mpr ⟨mark, found, rfl⟩

/-- A production stays orderly when one mark precedes another: it joins the chain, and the record
stays as it is. -/
theorem IsOrderly.precede (orderly : production.IsOrderly) {next : Production} {new : MarkId}
    (preceded : production.precede id = .ok (next, new)) : next.IsOrderly := by
  obtain ⟨mark, found, rfl, rfl⟩ := of_precede_eq_ok preceded
  have anchorInside := orderly.anchor_lt_length found
  let wrap (anchor : Mark) : Mark :=
    { anchor with chain := insertAfter id production.marks.length anchor.chain }
  have keeps : ∀ other held,
      (if mark.anchor = other then wrap held else held).anchor = held.anchor ∧
        (if mark.anchor = other then wrap held else held).stop = held.stop ∧
        (if mark.anchor = other then wrap held else held).kind = held.kind := by
    intro other held
    split <;> exact ⟨rfl, rfl, rfl⟩
  -- The members of a chain are what they were, and the new mark is one more member of one chain.
  have members : ∀ anchor inner, (∃ member : Mark,
      ((production.add ⟨mark.start, none, none, none, none, false, mark.anchor, []⟩).1.update
        mark.anchor wrap).marks[inner]? = some member ∧ member.anchor = anchor) ↔
      inner = production.marks.length ∧ mark.anchor = anchor ∨
        ∃ member : Mark, production.marks[inner]? = some member ∧ member.anchor = anchor := by
    intro anchor inner
    constructor
    · rintro ⟨member, present, rfl⟩
      obtain ⟨before, held, rfl⟩ := exists_of_getElem?_update present
      rw [(keeps inner before).1]
      rcases of_getElem?_add held with earlier | ⟨rfl, rfl⟩
      · exact .inr ⟨before, earlier, rfl⟩
      · exact .inl ⟨rfl, rfl⟩
    · rintro (⟨rfl, rfl⟩ | ⟨member, present, rfl⟩)
      · exact ⟨_, getElem?_update getElem?_add_length, (keeps _ _).1⟩
      · exact ⟨_, getElem?_update (getElem?_add present), (keeps _ _).1⟩
  refine ⟨orderly.nodup, fun other opened => ?_, fun other closed => ?_, fun other after held => ?_,
    fun other after held => ?_⟩
  · obtain ⟨before, present, anchor⟩ := orderly.opened other opened
    exact ⟨_, getElem?_update (getElem?_add present), (keeps other before).1.trans anchor⟩
  · obtain ⟨before, present, stop, kind⟩ := orderly.closed other closed
    refine ⟨_, getElem?_update (getElem?_add present), ?_⟩
    rw [(keeps other before).2.1, (keeps other before).2.2]
    exact ⟨stop, kind⟩
  · obtain ⟨before, present, rfl⟩ := exists_of_getElem?_update held
    rw [(keeps other before).1]
    rcases of_getElem?_add present with earlier | ⟨rfl, rfl⟩
    · exact orderly.anchored other before earlier
    · exact orderly.anchored id mark found
  · obtain ⟨before, present, rfl⟩ := exists_of_getElem?_update held
    rcases of_getElem?_add present with earlier | ⟨rfl, rfl⟩
    · obtain ⟨nodup, inside⟩ := orderly.chained other before earlier
      by_cases same : mark.anchor = other
      · subst same
        have perm : (insertAfter id production.marks.length before.chain).Perm
            (production.marks.length :: before.chain) :=
          insertAfter_perm (orderly.mem_chain_anchor found earlier)
        rw [if_pos rfl]
        refine ⟨perm.nodup_iff.mpr (List.nodup_cons.mpr
          ⟨orderly.length_not_mem_chain earlier, nodup⟩),
          fun inner => Iff.trans ?_ (members _ inner).symm⟩
        change inner ∈ insertAfter id production.marks.length before.chain ↔ _
        rw [perm.mem_iff, List.mem_cons, inside]
        simp
      · rw [if_neg same]
        refine ⟨nodup, fun inner => Iff.trans (inside inner) (Iff.trans ?_ (members _ inner).symm)⟩
        simp [same]
    · have apart : mark.anchor ≠ production.marks.length := Nat.ne_of_lt anchorInside
      rw [if_neg apart]
      refine ⟨List.nodup_nil, fun inner => Iff.trans ?_ (members _ inner).symm⟩
      have none : ¬∃ member : Mark, production.marks[inner]? = some member ∧
          member.anchor = production.marks.length := by
        rintro ⟨member, present, anchor⟩
        exact absurd (orderly.anchor_lt_length present) (by simp [anchor])
      simp [apart, none]

/-! ## Calls -/

/-- What every call keeps: the tokens, that the record and the marks fit together, and which marks
are around which. -/
structure Grows (before after : Production) : Prop where
  tokens : after.tokens = before.tokens
  orderly : before.IsOrderly → after.IsOrderly
  around : ∀ outer inner, before.IsAround outer inner → after.IsAround outer inner

theorem Grows.refl (production : Production) : Grows production production :=
  ⟨rfl, fun orderly => orderly, fun _ _ around => around⟩

theorem Grows.trans {first second third : Production} (early : Grows first second)
    (late : Grows second third) : Grows first third :=
  ⟨late.tokens.trans early.tokens, fun orderly => late.orderly (early.orderly orderly),
    fun outer inner around => late.around outer inner (early.around outer inner around)⟩

/-- A change that keeps a mark's place is growth. -/
theorem grows_update (keeps : ∀ mark, Mark.Keeps mark (change mark)) :
    Grows production (production.update id change) where
  tokens := rfl
  orderly orderly := orderly.update keeps
  around _ _ around := around.update fun mark => by
    rw [(keeps mark).chain]

/-- A new mark leaves which marks are around which. -/
theorem IsAround.add {outer inner : MarkId} (around : production.IsAround outer inner)
    (new : Mark) : (production.add new).1.IsAround outer inner := by
  obtain ⟨anchor, mark, found, pair⟩ := around
  exact ⟨anchor, mark, getElem?_add found, pair⟩

theorem grows_openAt (start : Nat) (message : Option String) (position : Option Position) :
    Grows production (production.openAt start message position).1 where
  tokens := rfl
  orderly orderly := orderly.openAt start message position
  around _ _ around := around.add _

theorem grows_done {kind : NodeKind} {next : Production}
    (done : production.done id kind = .ok next) : Grows production next where
  tokens := by
    obtain ⟨_, _, _, rfl⟩ := of_done_eq_ok done
    rfl
  orderly orderly := orderly.done done
  around _ _ around := by
    obtain ⟨_, _, _, rfl⟩ := of_done_eq_ok done
    exact around.update fun mark => .refl _

theorem grows_precede {next : Production} {new : MarkId}
    (preceded : production.precede id = .ok (next, new)) : Grows production next where
  tokens := by
    obtain ⟨_, _, _, rfl⟩ := of_precede_eq_ok preceded
    rfl
  orderly orderly := orderly.precede preceded
  around _ _ around := by
    obtain ⟨_, _, _, rfl⟩ := of_precede_eq_ok preceded
    exact (around.add _).update fun mark => sublist_insertAfter _ _ _

/-- A failure only changes the mark's message. -/
theorem grows_fail (message : String) : Grows production (production.fail id message).1 := by
  have named : Grows production
      (production.update id fun mark => { mark with message := some message }) :=
    grows_update fun _ => ⟨rfl, rfl, fun held => held, fun held => held⟩
  unfold Production.fail
  dsimp only
  split
  · next done => exact named.trans (grows_done done)
  · exact named

/-- A mark for something absent is opened and closed at once. -/
theorem grows_empty {kind : NodeKind} {message : Option String} {next : Production} {new : MarkId}
    (made : production.empty kind message = .ok (next, new)) : Grows production next := by
  unfold Production.empty at made
  cases found : production.token with
  | error =>
    rw [found] at made
    cases made
  | ok token =>
    rw [found] at made
    let opened := production.openAt production.lastEnd message (some token.position)
    change (do return (← opened.1.done opened.2 kind, opened.2)) = Except.ok (next, new) at made
    cases done : opened.1.done opened.2 kind with
    | error =>
      rw [done] at made
      cases made
    | ok closed =>
      rw [done] at made
      cases made
      exact (grows_openAt _ _ _).trans (grows_done done)

theorem grows_advance {next : Production} (advanced : production.advance = .ok next) :
    Grows production next := by
  unfold Production.advance at advanced
  cases found : production.token with
  | error =>
    rw [found] at advanced
    cases advanced
  | ok token =>
    rw [found] at advanced
    cases ends : token.isEnd with
    | true => simp [ends, bind, Except.bind, throw, throwThe, MonadExceptOf.throw] at advanced
    | false =>
      simp only [ends, bind, Except.bind, pure, Except.pure, Bool.false_eq_true, if_false,
        Except.ok.injEq] at advanced
      subst advanced
      exact ⟨rfl, fun orderly => ⟨orderly.nodup, orderly.opened, orderly.closed, orderly.anchored,
        orderly.chained⟩, fun _ _ around => around⟩

/-- A call is growth if it is whenever it is not refused, since a refused call leaves the marks
alone. -/
theorem grows_afterCall {Result : Type} {result : Except ProductionError Result}
    {left : Result → Production}
    (grows : ∀ value, result = .ok value → Grows production (left value)) :
    Grows production (production.afterCall result left) := by
  cases result with
  | ok value => exact grows value rfl
  | error => exact .refl _

/-- Each step is growth. -/
theorem grows_perform (production : Production) (step : ProductionStep) :
    Grows production (production.perform step) := by
  cases step with
  | mark => exact grows_openAt _ _ _
  | precede id => exact grows_afterCall fun _ preceded => grows_precede preceded
  | done id kind => exact grows_afterCall fun _ done => grows_done done
  | fail id message => exact grows_fail message
  | drop id => exact grows_update fun _ => ⟨rfl, rfl, fun held => held, fun held => held⟩
  | empty kind message => exact grows_afterCall fun _ made => grows_empty made
  | advance => exact grows_afterCall fun _ advanced => grows_advance advanced

theorem grows_foldl (steps : List ProductionStep) (production : Production) :
    Grows production (steps.foldl perform production) := by
  induction steps generalizing production with
  | nil => exact .refl _
  | cons step steps ih => exact (grows_perform production step).trans (ih _)

/-- After any calls the record and the marks fit together. -/
theorem isOrderly_run (tokens : List Token) (steps : List ProductionStep) :
    (run tokens steps).IsOrderly :=
  (grows_foldl steps _).orderly (isOrderly_ofTokens tokens)

/-- The tokens of a production are those it began with. -/
theorem tokens_run (tokens : List Token) (steps : List ProductionStep) :
    (run tokens steps).tokens = tokens :=
  (grows_foldl steps _).tokens

/-- A mark that is known can be preceded. -/
theorem exists_perform_precede (known : id < production.marks.length) :
    ∃ mark : Mark, production.marks[id]? = some mark ∧
      production.perform (.precede id) = (production.add
        ⟨mark.start, none, none, none, none, false, mark.anchor, []⟩).1.update mark.anchor
          fun anchor => { anchor with
            chain := insertAfter id production.marks.length anchor.chain } := by
  have found := List.getElem?_eq_getElem known
  refine ⟨_, found, ?_⟩
  rw [perform, Production.precede, mark?, found]
  rfl

/-- A mark is put around the one it precedes. -/
theorem isAround_perform_precede (orderly : production.IsOrderly)
    (known : id < production.marks.length) :
    (production.perform (.precede id)).IsAround production.marks.length id := by
  obtain ⟨mark, found, performed⟩ := exists_perform_precede known
  have anchorFound := List.getElem?_eq_getElem (orderly.anchor_lt_length found)
  rw [performed]
  refine ⟨mark.anchor, _, getElem?_update (getElem?_add anchorFound), ?_⟩
  rw [if_pos rfl]
  exact pair_sublist_insertAfter (orderly.mem_chain_anchor found anchorFound)

/-- A mark that precedes another one is put inside of those that preceded it before. -/
theorem isAround_perform_precede_of_isAround (orderly : production.IsOrderly) {outer : MarkId}
    (around : production.IsAround outer id) :
    (production.perform (.precede id)).IsAround outer production.marks.length := by
  obtain ⟨anchor, anchorMark, anchorFound, pair⟩ := around
  obtain ⟨nodup, members⟩ := orderly.chained anchor anchorMark anchorFound
  obtain ⟨member, memberFound, rfl⟩ := (members id).mp (pair.subset List.mem_cons_self)
  obtain ⟨known, _⟩ := List.getElem?_eq_some_iff.mp memberFound
  obtain ⟨mark, found, performed⟩ := exists_perform_precede known
  cases found.symm.trans memberFound
  rw [performed]
  refine ⟨member.anchor, _, getElem?_update (getElem?_add anchorFound), ?_⟩
  rw [if_pos rfl]
  exact pair_sublist_insertAfter_of_pair nodup pair

/-- A mark that was put around another one stays around it, whatever is called afterwards. -/
theorem isAround_of_precede {tokens : List Token} {before after : List ProductionStep}
    (known : id < (run tokens before).marks.length) :
    (run tokens (before ++ .precede id :: after)).IsAround (run tokens before).marks.length id := by
  rw [run_append]
  exact (grows_foldl after _).around _ _ (isAround_perform_precede (isOrderly_run _ _) known)

/-- Of two marks that were put around the same one, the earlier one is around the later one. -/
theorem isAround_of_precede_twice {tokens : List Token}
    {before between after : List ProductionStep} (known : id < (run tokens before).marks.length) :
    (run tokens (before ++ .precede id :: (between ++ .precede id :: after))).IsAround
      (run tokens before).marks.length
      (run tokens (before ++ .precede id :: between)).marks.length := by
  have first : (run tokens (before ++ .precede id :: between)).IsAround
      (run tokens before).marks.length id := isAround_of_precede known
  rw [← List.cons_append, ← List.append_assoc, run_append]
  exact (grows_foldl after _).around _ _
    (isAround_perform_precede_of_isAround (isOrderly_run _ _) first)

end Production

end WolframSyntax
