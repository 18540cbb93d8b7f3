import WolframSyntax.Config.Basic
import WolframSyntax.Proofs.Mappings

/-!
# What a value says to a configuration

What the entries of a value say is the same whenever it is given (`Config.Update.IsOf`); whether the
value is accepted depends on nothing but whether the configuration agrees with that
(`Config.readUpdate_eq_ok_iff`). A value that is refused for its entries is refused with one
conflict for each entry that is at fault (`Config.reports_of_invalid`).
-/

namespace WolframSyntax

namespace Config

variable {config other : Config} {value : Json} {entry : ScalarKey × Json} {conflict : Conflict}
  {override : Override} {given : ScalarKey × Construct}

/-! ## What is configured -/

/-- The configured precedences with the operators as keys. -/
def signs (config : Config) : List (Operator × Int) :=
  config.precedences.map fun entry => (entry.sign, entry.precedence)

/-- The construct that is configured for a key. -/
def constructOf? (config : Config) (key : ScalarKey) : Option Construct :=
  Json.get? ScalarKey.same key config.constructs

/-- What an update says about operators, with the operators as keys. -/
def Update.signs (update : Update) : List (Operator × Int) :=
  update.precedences.map fun entry => (entry.sign, entry.precedence)

theorem precedence?_eq (config : Config) (sign : Operator) :
    config.precedence? sign = Json.get? (· == ·) sign config.signs := by
  unfold precedence? Json.get? signs
  rw [List.find?_map, Option.map_map]
  rfl

/-- An override of an operator is put where the operator's entry is, or behind all others. -/
theorem map_putOverride (override : Override) (entries : List Override) :
    (putOverride override entries).map (fun entry => (entry.sign, entry.precedence))
      = Json.put (· == ·) override.sign override.precedence
          (entries.map fun entry => (entry.sign, entry.precedence)) := by
  induction entries with
  | nil => rfl
  | cons entry entries ih =>
    rw [putOverride, List.map_cons, Json.put]
    by_cases same : entry.sign = override.sign
    · rw [if_pos same, if_pos (beq_iff_eq.mpr same), same]
      rfl
    · rw [if_neg same, if_neg (mt beq_iff_eq.mp same), ← ih]
      rfl

theorem signs_apply (config : Config) (update : Update) :
    (config.apply update).signs
      = update.signs.foldl (fun all entry => Json.put (· == ·) entry.1 entry.2 all)
          config.signs := by
  unfold signs apply Update.signs
  rw [List.foldl_map]
  generalize config.precedences = entries
  induction update.precedences generalizing entries with
  | nil => rfl
  | cons override overrides ih => rw [List.foldl_cons, ih, map_putOverride, List.foldl_cons]

/-! ## What a value says -/

/-- The two sections of a value that has no others. -/
def HasSections (value : Json) (precedences constructs : ConfigSection) : Prop :=
  ∃ entries, value = .obj entries ∧ unknownKeys entries = [] ∧
    sectionOf entries precedenceKey = .ok precedences ∧
    sectionOf entries constructsKey = .ok constructs

/-- An entry gives an operator that continues expressions a positive precedence. -/
def GivesPrecedence (entry : ScalarKey × Json) (override : Override) : Prop :=
  operator? entry.1 = some override.sign ∧ entry.2 = .int override.precedence

/-- An entry names a construct for its key. -/
def GivesConstruct (entry : ScalarKey × Json) (given : ScalarKey × Construct) : Prop :=
  given.1 = entry.1 ∧ construct? entry.2 = some given.2

/-- All entries of a value mean something, and the update says the same. -/
def Update.IsOf (update : Update) (value : Json) : Prop :=
  ∃ precedences constructs, HasSections value precedences constructs ∧
    List.Forall₂ GivesPrecedence precedences update.precedences ∧
    List.Forall₂ GivesConstruct constructs update.constructs

/-- An update contradicts nothing that is configured. -/
structure Agrees (config : Config) (update : Update) : Prop where
  signs : ∀ entry ∈ update.signs, ∀ earlier, config.precedence? entry.1 = some earlier →
    earlier = entry.2
  constructs : ∀ entry ∈ update.constructs, ∀ earlier, config.constructOf? entry.1 = some earlier →
    earlier = entry.2

/-- What is wrong with an entry of the section of precedences. -/
inductive PrecedenceFault (config : Config) : ScalarKey × Json → Conflict → Prop
  | notAnOperator {key : ScalarKey} {value : Json} (unnamed : operator? key = none) :
    PrecedenceFault config (key, value) (.notAnOperator key)
  | notPositive {key : ScalarKey} {value : Json} {sign : Operator}
    (named : operator? key = some sign) (bad : ∀ number, value = .int number → number ≤ 0) :
    PrecedenceFault config (key, value) (.notPositive key value)
  | otherPrecedence {key : ScalarKey} {sign : Operator} {earlier later : Int}
    (named : operator? key = some sign) (positive : 0 < later)
    (found : config.precedence? sign = some earlier) (differs : earlier ≠ later) :
    PrecedenceFault config (key, .int later) (.otherPrecedence key earlier later)

/-- What is wrong with an entry of the section of constructs. -/
inductive ConstructFault (config : Config) : ScalarKey × Json → Conflict → Prop
  | unknownConstruct {key : ScalarKey} {value : Json} (unnamed : construct? value = none) :
    ConstructFault config (key, value) (.unknownConstruct key value)
  | otherConstruct {key : ScalarKey} {value : Json} {earlier later : Construct}
    (named : construct? value = some later) (found : config.constructOf? key = some earlier)
    (differs : earlier ≠ later) :
    ConstructFault config (key, value) (.otherConstruct key earlier later)

/-- An override is read just in case it is one and no other precedence is configured. -/
theorem readPrecedence_eq_ok_iff : config.readPrecedence entry = .ok override ↔
    GivesPrecedence entry override ∧
      ∀ earlier,
        config.precedence? override.sign = some earlier → earlier = override.precedence := by
  unfold readPrecedence GivesPrecedence
  constructor
  · intro read
    split at read
    · cases read
    · next sign value named isInt =>
      split at read
      · split at read
        · next earlier found =>
          split at read
          · next same =>
            cases read
            refine ⟨⟨named, isInt⟩, fun other foundOther => ?_⟩
            rw [found] at foundOther
            cases foundOther
            exact same
          · cases read
        · next absent =>
          cases read
          refine ⟨⟨named, isInt⟩, fun other foundOther => ?_⟩
          rw [absent] at foundOther
          cases foundOther
      · cases read
    · cases read
  · rintro ⟨⟨named, isInt⟩, agrees⟩
    rw [named, isInt]
    dsimp only
    rw [dif_pos override.positive]
    cases found : config.precedence? override.sign with
    | none => rfl
    | some earlier =>
      dsimp only
      rw [if_pos (agrees earlier found)]

/-- An override conflicts for the faults that it has. -/
theorem readPrecedence_eq_error_iff : config.readPrecedence entry = .error conflict ↔
    config.PrecedenceFault entry conflict := by
  obtain ⟨key, value⟩ := entry
  unfold readPrecedence
  dsimp only
  constructor
  · intro read
    split at read
    · next unnamed =>
      cases read
      exact .notAnOperator unnamed
    · next sign number named =>
      split at read
      · next positive =>
        split at read
        · next earlier found =>
          split at read
          · cases read
          · next differs =>
            cases read
            exact .otherPrecedence named positive found differs
        · cases read
      · next nonpositive =>
        cases read
        refine .notPositive named fun other same => ?_
        cases same
        exact Int.not_lt.mp nonpositive
    · next sign named notInt =>
      cases read
      exact .notPositive named fun number same => absurd same (notInt number)
  · intro fault
    cases fault with
    | notAnOperator unnamed => rw [unnamed]
    | notPositive named bad =>
      rw [named]
      cases value with
      | int number =>
        dsimp only
        rw [dif_neg (Int.not_lt.mpr (bad number rfl))]
      | null | bool | float | str | arr | obj => rfl
    | otherPrecedence named positive found differs =>
      rw [named]
      dsimp only
      rw [dif_pos positive, found]
      dsimp only
      rw [if_neg differs]

/-- A construct is read just in case it is one and no other one is configured. -/
theorem readConstruct_eq_ok_iff : config.readConstruct entry = .ok given ↔
    GivesConstruct entry given ∧
      ∀ earlier, config.constructOf? given.1 = some earlier → earlier = given.2 := by
  obtain ⟨key, value⟩ := entry
  obtain ⟨givenKey, construct⟩ := given
  unfold readConstruct GivesConstruct constructOf?
  dsimp only
  constructor
  · intro read
    split at read
    · cases read
    · next named =>
      split at read
      · next earlier found =>
        split at read
        · next same =>
          cases read
          refine ⟨⟨rfl, named⟩, fun other foundOther => ?_⟩
          rw [found] at foundOther
          cases foundOther
          exact same
        · cases read
      · next absent =>
        cases read
        refine ⟨⟨rfl, named⟩, fun other foundOther => ?_⟩
        rw [absent] at foundOther
        cases foundOther
  · rintro ⟨⟨rfl, named⟩, agrees⟩
    rw [named]
    dsimp only
    cases found : Json.get? ScalarKey.same givenKey config.constructs with
    | none => rfl
    | some earlier =>
      dsimp only
      rw [if_pos (agrees earlier found)]

/-- A construct conflicts for the faults that it has. -/
theorem readConstruct_eq_error_iff : config.readConstruct entry = .error conflict ↔
    config.ConstructFault entry conflict := by
  obtain ⟨key, value⟩ := entry
  unfold readConstruct
  dsimp only
  constructor
  · intro read
    split at read
    · next unnamed =>
      cases read
      exact .unknownConstruct unnamed
    · next named =>
      split at read
      · next earlier found =>
        split at read
        · cases read
        · next differs =>
          cases read
          exact .otherConstruct named found differs
      · cases read
  · intro fault
    cases fault with
    | unknownConstruct unnamed => rw [unnamed]
    | otherConstruct named found differs =>
      unfold constructOf? at found
      rw [named]
      dsimp only
      rw [found]
      dsimp only
      rw [if_neg differs]

/-! ## What is reported -/

/-- One conflict for each entry that is at fault, in the order of the entries, and none for the
others. -/
inductive Reports (isFine : ScalarKey × Json → Prop)
    (isFault : ScalarKey × Json → Conflict → Prop) : List (ScalarKey × Json) → List Conflict → Prop
  | nil : Reports isFine isFault [] []
  | fine {entry : ScalarKey × Json} {entries : List (ScalarKey × Json)} {conflicts : List Conflict}
    (fine : isFine entry) (rest : Reports isFine isFault entries conflicts) :
    Reports isFine isFault (entry :: entries) conflicts
  | fault {entry : ScalarKey × Json} {entries : List (ScalarKey × Json)} {conflict : Conflict}
    {conflicts : List Conflict} (fault : isFault entry conflict)
    (rest : Reports isFine isFault entries conflicts) :
    Reports isFine isFault (entry :: entries) (conflict :: conflicts)

theorem reports_failures {Value : Type} {read : ScalarKey × Json → Except Conflict Value}
    {isFine : ScalarKey × Json → Prop} {isFault : ScalarKey × Json → Conflict → Prop}
    (fine : ∀ entry value, read entry = .ok value → isFine entry)
    (fault : ∀ entry conflict, read entry = .error conflict → isFault entry conflict)
    (entries : List (ScalarKey × Json)) :
    Reports isFine isFault entries (failures (entries.map read)) := by
  induction entries with
  | nil => exact .nil
  | cons entry entries ih =>
    cases result : read entry with
    | ok value =>
      have same : failures ((entry :: entries).map read) = failures (entries.map read) := by
        rw [failures, List.map_cons, List.filterMap_cons, result]
        rfl
      rw [same]
      exact .fine (fine entry value result) ih
    | error conflict =>
      have same : failures ((entry :: entries).map read)
          = conflict :: failures (entries.map read) := by
        rw [failures, List.map_cons, List.filterMap_cons, result]
        rfl
      rw [same]
      exact .fault (fault entry conflict result) ih

/-- There are no failures if all entries give a value, and these are the successes. -/
theorem forall₂_iff {Value : Type} {read : ScalarKey × Json → Except Conflict Value}
    {entries : List (ScalarKey × Json)} {values : List Value} :
    failures (entries.map read) = [] ∧ successes (entries.map read) = values ↔
      List.Forall₂ (fun entry value => read entry = .ok value) entries values := by
  induction entries generalizing values with
  | nil =>
    cases values with
    | nil => exact iff_of_true ⟨rfl, rfl⟩ .nil
    | cons value values =>
      exact iff_of_false (fun both => by cases both.2) (fun all => by cases all)
  | cons entry entries ih =>
    rw [failures, successes, List.map_cons, List.filterMap_cons, List.filterMap_cons]
    cases result : read entry with
    | error conflict =>
      refine iff_of_false (fun both => by cases both.1) fun all => ?_
      cases all with
      | cons first rest =>
        rw [result] at first
        cases first
    | ok value =>
      cases values with
      | nil => exact iff_of_false (fun both => by cases both.2) (fun all => by cases all)
      | cons other values =>
        rw [List.forall₂_cons, ← ih, result, Except.ok.injEq]
        constructor
        · rintro ⟨none, same⟩
          obtain ⟨rfl, rest⟩ := List.cons.inj same
          exact ⟨rfl, none, rest⟩
        · rintro ⟨rfl, none, rest⟩
          exact ⟨none, congrArg (value :: ·) rest⟩

/-! ## Reading a value -/

/-- The update that the entries of two sections are. -/
def readSections (config : Config) (precedences constructs : ConfigSection) :
    Except ConfigError Update :=
  match failures (precedences.map config.readPrecedence)
    ++ failures (constructs.map config.readConstruct) with
  | [] => .ok ⟨successes (precedences.map config.readPrecedence),
      successes (constructs.map config.readConstruct)⟩
  | conflicts => .error (.invalid conflicts)

/-- All that can come of a value: it is no object, it has sections that no configuration has, one of
its sections is none, or its entries are read. -/
theorem readUpdate_cases (config : Config) (value : Json) :
    (config.readUpdate value = .error .notAnObject ∧ ∀ entries, value ≠ .obj entries) ∨
    (∃ entries, value = .obj entries ∧ unknownKeys entries ≠ [] ∧
      config.readUpdate value = .error (.unknownKeys (unknownKeys entries))) ∨
    (∃ entries error, value = .obj entries ∧ unknownKeys entries = [] ∧
      (sectionOf entries precedenceKey = .error error ∨
        (∃ precedences, sectionOf entries precedenceKey = .ok precedences) ∧
          sectionOf entries constructsKey = .error error) ∧
      config.readUpdate value = .error (.badSection error)) ∨
    ∃ precedences constructs, HasSections value precedences constructs ∧
      config.readUpdate value = config.readSections precedences constructs := by
  cases value with
  | null | bool | int | float | str | arr => exact .inl ⟨rfl, fun _ => Json.noConfusion⟩
  | obj entries =>
    refine .inr ?_
    unfold readUpdate
    dsimp only
    cases unknown : unknownKeys entries with
    | cons key keys =>
      refine .inl ⟨entries, rfl, ?_, ?_⟩ <;> rw [unknown]
      · exact List.cons_ne_nil key keys
      · rfl
    | nil =>
      refine .inr ?_
      dsimp only
      cases first : sectionOf entries precedenceKey with
      | error error => exact .inl ⟨entries, error, rfl, unknown, .inl first, rfl⟩
      | ok precedences =>
        cases second : sectionOf entries constructsKey with
        | error error =>
          exact .inl ⟨entries, error, rfl, unknown, .inr ⟨⟨precedences, first⟩, second⟩, rfl⟩
        | ok constructs =>
          refine .inr ⟨precedences, constructs, ⟨entries, rfl, unknown, first, second⟩, ?_⟩
          unfold readSections
          dsimp only [Except.mapError, bind, Except.bind]
          cases failures (precedences.map config.readPrecedence)
            ++ failures (constructs.map config.readConstruct) <;> rfl

/-- A value has no two pairs of sections. -/
theorem HasSections.eq {first second otherFirst otherSecond : ConfigSection}
    (sections : HasSections value first second)
    (others : HasSections value otherFirst otherSecond) :
    first = otherFirst ∧ second = otherSecond := by
  obtain ⟨entries, rfl, _, isFirst, isSecond⟩ := sections
  obtain ⟨_, same, _, isOtherFirst, isOtherSecond⟩ := others
  cases same
  rw [isFirst] at isOtherFirst
  rw [isSecond] at isOtherSecond
  exact ⟨Except.ok.inj isOtherFirst, Except.ok.inj isOtherSecond⟩

theorem readUpdate_of_hasSections {precedences constructs : ConfigSection}
    (sections : HasSections value precedences constructs) (config : Config) :
    config.readUpdate value = config.readSections precedences constructs := by
  have whole := sections
  obtain ⟨entries, rfl, known, first, second⟩ := whole
  rcases config.readUpdate_cases (.obj entries) with ⟨_, other⟩ | ⟨_, same, unknown, _⟩ |
      ⟨_, error, same, _, bad | ⟨_, bad⟩, _⟩ | ⟨_, _, others, read⟩
  · exact absurd rfl (other entries)
  · cases same
    exact absurd known unknown
  · cases same
    rw [first] at bad
    cases bad
  · cases same
    rw [second] at bad
    cases bad
  · obtain ⟨rfl, rfl⟩ := sections.eq others
    exact read

/-- Sections are read just in case each of their entries is. -/
theorem readSections_eq_ok_iff {precedences constructs : ConfigSection} {update : Update} :
    config.readSections precedences constructs = .ok update ↔
      List.Forall₂ (fun entry override => config.readPrecedence entry = .ok override) precedences
          update.precedences ∧
        List.Forall₂ (fun entry given => config.readConstruct entry = .ok given) constructs
          update.constructs := by
  rw [← forall₂_iff, ← forall₂_iff]
  unfold readSections
  constructor
  · intro read
    split at read
    · next none =>
      cases read
      obtain ⟨first, second⟩ := List.append_eq_nil_iff.mp none
      exact ⟨⟨first, rfl⟩, second, rfl⟩
    · cases read
  · rintro ⟨⟨first, isFirst⟩, second, isSecond⟩
    rw [first, second, isFirst, isSecond]
    rfl

/-- What is asked of the right sides alone can be asked apart. -/
theorem forall₂_and_right {First Second : Type} {relation : First → Second → Prop}
    {condition : Second → Prop} {first : List First} {second : List Second} :
    List.Forall₂ (fun left right => relation left right ∧ condition right) first second ↔
      List.Forall₂ relation first second ∧ ∀ right ∈ second, condition right := by
  constructor
  · intro all
    induction all with
    | nil => exact ⟨.nil, List.forall_mem_nil _⟩
    | cons both _ ih => exact ⟨.cons both.1 ih.1, List.forall_mem_cons.mpr ⟨both.2, ih.2⟩⟩
  · rintro ⟨all, holds⟩
    induction all with
    | nil => exact .nil
    | cons first _ ih =>
      obtain ⟨now, later⟩ := List.forall_mem_cons.mp holds
      exact .cons ⟨first, now⟩ (ih later)

/-- What belongs to something on the left belongs to a member of the left side. -/
theorem exists_of_forall₂ {First Second : Type} {relation : First → Second → Prop}
    {first : List First} {second : List Second} (all : List.Forall₂ relation first second)
    {right : Second} (among : right ∈ second) : ∃ left ∈ first, relation left right := by
  induction all with
  | nil => cases among
  | cons related _ ih =>
    rcases List.mem_cons.mp among with rfl | later
    · exact ⟨_, List.mem_cons_self, related⟩
    · obtain ⟨left, present, related⟩ := ih later
      exact ⟨left, List.mem_cons_of_mem _ present, related⟩

theorem map_eq_of_forall₂ {First Second Value : Type} {relation : First → Second → Prop}
    {left : First → Value} {right : Second → Value}
    (same : ∀ first second, relation first second → left first = right second) {first : List First}
    {second : List Second} (all : List.Forall₂ relation first second) :
    first.map left = second.map right := by
  induction all with
  | nil => rfl
  | cons related _ ih => rw [List.map_cons, List.map_cons, same _ _ related, ih]

/-- A value is accepted if all its entries mean something and nothing that is configured contradicts
them. -/
theorem readUpdate_eq_ok_iff {update : Update} :
    config.readUpdate value = .ok update ↔ update.IsOf value ∧ config.Agrees update := by
  have sectionsIff : ∀ precedences constructs,
      config.readSections precedences constructs = .ok update ↔
        (List.Forall₂ GivesPrecedence precedences update.precedences ∧
          List.Forall₂ GivesConstruct constructs update.constructs) ∧ config.Agrees update := by
    intro precedences constructs
    simp only [readSections_eq_ok_iff, readPrecedence_eq_ok_iff, readConstruct_eq_ok_iff,
      forall₂_and_right]
    constructor
    · rintro ⟨⟨first, signs⟩, second, keys⟩
      exact ⟨⟨first, second⟩, List.forall_mem_map.mpr signs, keys⟩
    · rintro ⟨⟨first, second⟩, signs, keys⟩
      exact ⟨⟨first, List.forall_mem_map.mp signs⟩, second, keys⟩
  constructor
  · intro read
    rcases config.readUpdate_cases value with ⟨failed, _⟩ | ⟨_, _, _, failed⟩ |
        ⟨_, _, _, _, _, failed⟩ | ⟨precedences, constructs, sections, same⟩
    · rw [read] at failed
      cases failed
    · rw [read] at failed
      cases failed
    · rw [read] at failed
      cases failed
    · rw [same] at read
      obtain ⟨⟨first, second⟩, agrees⟩ := (sectionsIff precedences constructs).mp read
      exact ⟨⟨precedences, constructs, sections, first, second⟩, agrees⟩
  · rintro ⟨⟨precedences, constructs, sections, first, second⟩, agrees⟩
    rw [readUpdate_of_hasSections sections]
    exact (sectionsIff precedences constructs).mpr ⟨⟨first, second⟩, agrees⟩

/-- An entry of the section of precedences is accepted. -/
def AcceptsPrecedence (config : Config) (entry : ScalarKey × Json) : Prop :=
  ∃ override, GivesPrecedence entry override ∧
    ∀ earlier, config.precedence? override.sign = some earlier → earlier = override.precedence

/-- An entry of the section of constructs is accepted. -/
def AcceptsConstruct (config : Config) (entry : ScalarKey × Json) : Prop :=
  ∃ given, GivesConstruct entry given ∧
    ∀ earlier, config.constructOf? given.1 = some earlier → earlier = given.2

/-- A value that is refused for its entries is refused with one conflict for each of them that is at
fault, those of the precedences first. -/
theorem reports_of_invalid {conflicts : List Conflict}
    (refused : config.readUpdate value = .error (.invalid conflicts)) :
    ∃ precedences constructs first second, HasSections value precedences constructs ∧
      conflicts = first ++ second ∧ conflicts ≠ [] ∧
      Reports config.AcceptsPrecedence config.PrecedenceFault precedences first ∧
      Reports config.AcceptsConstruct config.ConstructFault constructs second := by
  rcases config.readUpdate_cases value with ⟨failed, _⟩ | ⟨_, _, _, failed⟩ |
      ⟨_, _, _, _, _, failed⟩ | ⟨precedences, constructs, sections, same⟩
  · rw [refused] at failed
    cases failed
  · rw [refused] at failed
    cases failed
  · rw [refused] at failed
    cases failed
  · rw [same, readSections] at refused
    split at refused
    · cases refused
    · next some =>
      cases refused
      refine ⟨precedences, constructs, _, _, sections, rfl, some,
        reports_failures (fun entry override read => ?_) (fun entry conflict read => ?_)
          precedences,
        reports_failures (fun entry given read => ?_) (fun entry conflict read => ?_) constructs⟩
      · exact ⟨override, readPrecedence_eq_ok_iff.mp read⟩
      · exact readPrecedence_eq_error_iff.mp read
      · exact ⟨given, readConstruct_eq_ok_iff.mp read⟩
      · exact readConstruct_eq_error_iff.mp read

end Config

end WolframSyntax
