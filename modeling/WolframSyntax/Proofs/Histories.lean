import WolframSyntax.Proofs.Updates

/-!
# Histories of configurations

A configuration is given values and files one after another (`Config.Call`). A call that fails
leaves it as it is, and one that is done adds to it without changing what is configured already. So
of calls that are all done in one order none fails in another one, and they lead to the same
configuration (`Config.SameMaps`). The main result is `Config.history_run`.
-/

namespace WolframSyntax

namespace Config

/-- A value is given to a configuration, or a file is loaded, whose text can be read or cannot. -/
inductive Call where
  | configure (value : Json)
  | load (path : String) (text : Except String String)

/-- Adds what a value says to the configuration. -/
def merge (value : Json) : ExceptT ConfigError (StateM Config) Unit := do
  let update ← MonadExcept.ofExcept ((← get).readUpdate value)
  modify fun config => config.apply update

namespace Call

/-- Does a call. -/
def perform : Call → ExceptT ConfigError (StateM Config) Unit
  | .configure value => merge value
  | .load path text => do
    let text ← MonadExcept.ofExcept (text.mapError .unreadable)
    match Json.parse? text with
    | none => throw (.unreadable malformedReason)
    | some value =>
      merge value
      modify fun config => { config with sources := config.sources ++ [path] }

/-- What comes of a call, and the configuration after it. -/
def outcome (call : Call) (config : Config) : Except ConfigError Unit × Config :=
  (call.perform.run.run config).run

/-- The value that a call gives, if it gives one. -/
def value? : Call → Option Json
  | .configure value => some value
  | .load _ (.ok text) => Json.parse? text
  | .load _ (.error _) => none

/-- The files that a call loads. -/
def sources : Call → List String
  | .configure _ => []
  | .load path _ => [path]

end Call

/-- What a call says to a configuration. -/
def Call.readUpdate (call : Call) (config : Config) : Except ConfigError Update :=
  match call with
  | .configure value => config.readUpdate value
  | .load _ (.ok text) => config.readFile text
  | .load _ (.error reason) => .error (.unreadable reason)

variable {config other later : Config} {call : Call} {error : ConfigError} {update : Update}
  {first second : Update} {calls more order reorder : List Call}

/-- A call is done as a whole, or not at all. -/
theorem outcome_eq (call : Call) (config : Config) :
    call.outcome config =
      match call.readUpdate config with
      | .ok update =>
        (.ok (), { config.apply update with sources := config.sources ++ call.sources })
      | .error error => (.error error, config) := by
  cases call with
  | configure value =>
    change (do
      let update ← MonadExcept.ofExcept (config.readUpdate value)
      modify fun config => config.apply update :
        ExceptT ConfigError (StateM Config) Unit).run config = _
    unfold Call.readUpdate Call.sources
    dsimp only
    cases config.readUpdate value with
    | ok update =>
      rw [List.append_nil]
      rfl
    | error error => rfl
  | load path text =>
    cases text with
    | error reason => rfl
    | ok text =>
      change ((match Json.parse? text with
        | none => throw (.unreadable malformedReason)
        | some value => do
          merge value
          modify fun config => { config with sources := config.sources ++ [path] }) :
            ExceptT ConfigError (StateM Config) Unit).run config = _
      unfold Call.readUpdate readFile
      dsimp only
      cases Json.parse? text with
      | none => rfl
      | some value =>
        change (do
          (do
            let update ← MonadExcept.ofExcept (config.readUpdate value)
            modify fun config => config.apply update)
          modify fun config => { config with sources := config.sources ++ [path] } :
            ExceptT ConfigError (StateM Config) Unit).run config = _
        dsimp only
        cases config.readUpdate value <;> rfl

/-- To configure gives the new configuration, or the error and the old one. -/
theorem outcome_configure (config : Config) (value : Json) :
    (Call.configure value).outcome config =
      match config.configure value with
      | .ok later => (.ok (), later)
      | .error error => (.error error, config) := by
  rw [outcome_eq, configure]
  unfold Call.readUpdate Call.sources
  dsimp only
  cases config.readUpdate value with
  | ok update =>
    rw [List.append_nil]
    rfl
  | error error => rfl

/-- To load gives the new configuration, or the error and the old one. -/
theorem outcome_load (config : Config) (path text : String) :
    (Call.load path (.ok text)).outcome config =
      match config.load path text with
      | .ok later => (.ok (), later)
      | .error error => (.error error, config) := by
  rw [outcome_eq, load]
  unfold Call.readUpdate Call.sources
  dsimp only
  cases config.readFile text <;> rfl

/-- A call says what the value says that it gives. -/
theorem readUpdate_eq_ok_iff_of_call : call.readUpdate config = .ok update ↔
    ∃ value, call.value? = some value ∧ config.readUpdate value = .ok update := by
  unfold Call.readUpdate Call.value?
  split
  · next value => simp
  · next text =>
    unfold readFile
    cases Json.parse? text <;> simp
  · simp

/-- A call that fails leaves the configuration as it is. -/
theorem config_of_failed (failed : (call.outcome config).1 = .error error) :
    (call.outcome config).2 = config := by
  rw [outcome_eq] at failed ⊢
  cases read : call.readUpdate config with
  | ok update =>
    rw [read] at failed
    cases failed
  | error error => rfl

/-- A call that is done adds what its value says. -/
theorem exists_update_of_done (done : call.outcome config = (.ok (), later)) :
    ∃ value update, call.value? = some value ∧ update.IsOf value ∧ config.Agrees update ∧
      later = { config.apply update with sources := config.sources ++ call.sources } := by
  rw [outcome_eq] at done
  cases read : call.readUpdate config with
  | ok update =>
    rw [read] at done
    obtain ⟨value, given, accepted⟩ := readUpdate_eq_ok_iff_of_call.mp read
    obtain ⟨isOf, agrees⟩ := readUpdate_eq_ok_iff.mp accepted
    exact ⟨value, update, given, isOf, agrees, ((Prod.mk.inj done).2).symm⟩
  | error error =>
    rw [read] at done
    cases done

/-- A call whose value says something that agrees with the configuration is done. -/
theorem outcome_of_isOf {value : Json} (given : call.value? = some value)
    (isOf : update.IsOf value) (agrees : config.Agrees update) :
    call.outcome config
      = (.ok (), { config.apply update with sources := config.sources ++ call.sources }) := by
  have read : call.readUpdate config = .ok update :=
    readUpdate_eq_ok_iff_of_call.mpr ⟨value, given, readUpdate_eq_ok_iff.mpr ⟨isOf, agrees⟩⟩
  rw [outcome_eq, read]

/-- A call that conflicts gives a value that conflicts. -/
theorem exists_value_of_invalid {conflicts : List Conflict}
    (refused : (call.outcome config).1 = .error (.invalid conflicts)) :
    ∃ value, call.value? = some value ∧ config.readUpdate value = .error (.invalid conflicts) := by
  have read : call.readUpdate config = .error (.invalid conflicts) := by
    rw [outcome_eq] at refused
    cases read : call.readUpdate config with
    | ok update =>
      rw [read] at refused
      cases refused
    | error error =>
      rw [read] at refused
      cases refused
      rfl
  unfold Call.readUpdate at read
  split at read
  · next value => exact ⟨value, rfl, read⟩
  · next path text =>
    unfold readFile at read
    split at read
    · next value parsed => exact ⟨value, parsed, read⟩
    · cases read
  · cases read

/-- A call is done, or it leaves the configuration as it is. -/
theorem outcome_cases (call : Call) (config : Config) :
    (∃ later, call.outcome config = (.ok (), later)) ∨ (call.outcome config).2 = config := by
  rw [outcome_eq]
  cases call.readUpdate config with
  | ok update => exact .inl ⟨_, rfl⟩
  | error error => exact .inr rfl

/-! ## What is configured remains -/

/-- The configuration after some calls, whether they are done or fail. -/
def runFrom (config : Config) (calls : List Call) : Config :=
  calls.foldl (fun config call => (call.outcome config).2) config

/-- The configuration after some calls on the one in which nothing is configured. -/
def run (calls : List Call) : Config := empty.runFrom calls

/-- What is configured in one configuration is the beginning of what is in another. -/
structure Extends (later config : Config) : Prop where
  signs : config.signs <+: later.signs
  constructs : config.constructs <+: later.constructs

/-- An update that agrees only adds to a configuration. -/
theorem Agrees.extends_apply (agrees : config.Agrees update) :
    (config.apply update).Extends config := by
  constructor
  · rw [signs_apply]
    refine Json.prefix_foldl_put List.prefix_rfl fun entry among earlier found => ?_
    rw [← precedence?_eq] at found
    exact agrees.signs entry among earlier found
  · exact Json.prefix_foldl_put List.prefix_rfl agrees.constructs

/-- A call only adds to a configuration, whether it is done or fails. -/
theorem extends_outcome (call : Call) (config : Config) :
    (call.outcome config).2.Extends config := by
  rcases outcome_cases call config with ⟨later, done⟩ | same
  · obtain ⟨_, update, _, _, agrees, rfl⟩ := exists_update_of_done done
    have added := agrees.extends_apply
    rw [done]
    exact ⟨added.signs, added.constructs⟩
  · rw [same]
    exact ⟨List.prefix_rfl, List.prefix_rfl⟩

theorem extends_runFrom (config : Config) (calls : List Call) :
    (config.runFrom calls).Extends config := by
  induction calls generalizing config with
  | nil => exact ⟨List.prefix_rfl, List.prefix_rfl⟩
  | cons call calls ih =>
    have first := extends_outcome call config
    have rest := ih (call.outcome config).2
    exact ⟨first.signs.trans rest.signs, first.constructs.trans rest.constructs⟩

/-- A precedence that is configured stays as it is. -/
theorem Extends.precedence? (later : other.Extends config) {sign : Operator} {precedence : Int}
    (found : config.precedence? sign = some precedence) :
    other.precedence? sign = some precedence := by
  rw [precedence?_eq] at found ⊢
  exact Json.get?_of_prefix later.signs found

/-- A construct that is configured stays as it is. -/
theorem Extends.constructOf? (later : other.Extends config) {key : ScalarKey}
    {construct : Construct} (found : config.constructOf? key = some construct) :
    other.constructOf? key = some construct :=
  Json.get?_of_prefix later.constructs found

/-! ## What can be configured -/

/-- An override put into a list replaces one or is added to the others. -/
theorem mem_of_mem_putOverride {override entry : Override} {entries : List Override}
    (among : entry ∈ putOverride override entries) : entry = override ∨ entry ∈ entries := by
  induction entries with
  | nil => exact .inl (List.mem_singleton.mp among)
  | cons first entries ih =>
    rw [putOverride] at among
    split at among
    · exact (List.mem_cons.mp among).imp_right (List.mem_cons_of_mem _)
    · rcases List.mem_cons.mp among with rfl | later
      · exact .inr List.mem_cons_self
      · exact (ih later).imp_right (List.mem_cons_of_mem _)

/-- A key that names an operator names one that continues expressions. -/
theorem continues_of_operator? {key : ScalarKey} {sign : Operator}
    (named : operator? key = some sign) : Continuation.continues sign := by
  unfold operator? at named
  split at named
  · exact (Option.filter_eq_some_iff.mp named).2
  · cases named

/-- What a value says about precedences is about operators that continue expressions. -/
theorem Update.IsOf.continues {value : Json} (isOf : update.IsOf value) :
    ∀ override ∈ update.precedences, Continuation.continues override.sign := by
  obtain ⟨precedences, _, _, given, _⟩ := isOf
  intro override among
  obtain ⟨entry, _, named, _⟩ := exists_of_forall₂ given among
  exact continues_of_operator? named

/-- Only operators that continue expressions are overridden. -/
def IsProper (config : Config) : Prop :=
  ∀ entry ∈ config.precedences, Continuation.continues entry.sign

/-- A call overrides only operators that continue expressions. -/
theorem IsProper.outcome (proper : config.IsProper) (call : Call) :
    (call.outcome config).2.IsProper := by
  rcases outcome_cases call config with ⟨later, done⟩ | same
  · obtain ⟨value, update, _, isOf, _, rfl⟩ := exists_update_of_done done
    rw [done]
    refine List.foldlRecOn (motive := fun entries : List Override =>
      ∀ entry ∈ entries, Continuation.continues entry.sign) update.precedences _ proper ?_
    intro entries before override among entry present
    rcases mem_of_mem_putOverride present with rfl | old
    · exact isOf.continues entry among
    · exact before entry old
  · rwa [same]

/-- What holds at first and is kept by every call holds after any calls. -/
theorem run_induction {motive : Config → Prop} (start : motive empty)
    (step : ∀ (call : Call) (config : Config), motive config → motive (call.outcome config).2)
    (calls : List Call) : motive (run calls) :=
  List.foldlRecOn calls _ start fun config holds call _ => step call config holds

theorem isProper_run (calls : List Call) : (run calls).IsProper :=
  run_induction (List.forall_mem_nil _) (fun call _ proper => proper.outcome call) calls

/-- No operator is overridden twice. -/
theorem nodup_signs_run (calls : List Call) : ((run calls).signs.map Prod.fst).Nodup := by
  refine run_induction (motive := fun config => (config.signs.map Prod.fst).Nodup)
    List.nodup_nil (fun call config distinct => ?_) calls
  rcases outcome_cases call config with ⟨later, done⟩ | same
  · obtain ⟨value, update, _, _, _, rfl⟩ := exists_update_of_done done
    rw [done]
    change ((config.apply update).signs.map Prod.fst).Nodup
    rw [signs_apply]
    refine List.foldlRecOn (motive := fun entries : List (Operator × Int) =>
      (entries.map Prod.fst).Nodup) update.signs _ distinct ?_
    exact fun entries before entry _ => Json.nodup_put entry.1 entry.2 before
  · rwa [same]

/-! ## The order of the calls -/

/-- The sections of a value that are not empty are objects. -/
def HasObjects (value : Json) : Prop :=
  ∀ entries, value = .obj entries → ∀ key ∈ [precedenceKey, constructsKey], ∀ inner,
    Json.get? (· == ·) key entries = some inner → inner.isEmptyLike ∨ ∃ fields, inner = .obj fields

/-- The sections of the value that a call gives are objects. In a text no key of an object counts
twice, so this is asked of values only. -/
def Call.IsPlain : Call → Prop
  | .configure value => HasObjects value ∧
    ∀ entries, value = .obj entries → ∀ entry ∈ entries, entry.2.HasDistinctKeys
  | .load _ text => ∀ content value, text = .ok content → Json.parse? content = some value →
    HasObjects value

theorem Call.IsPlain.of_value? (plain : call.IsPlain) {value : Json}
    (given : call.value? = some value) : HasObjects value ∧
      ∀ entries, value = .obj entries → ∀ entry ∈ entries, entry.2.HasDistinctKeys := by
  cases call with
  | configure other =>
    cases given
    exact plain
  | load path text =>
    cases text with
    | error reason => cases given
    | ok content => exact ⟨plain content value rfl given, (Json.hasDistinctKeys_of_parse? given).2⟩

/-- A section that is an object has texts as keys, each once. -/
theorem of_sectionOf_eq_ok {entries : List (String × Json)} {key : String} {read : ConfigSection}
    (known : key ∈ [precedenceKey, constructsKey]) (objects : HasObjects (.obj entries))
    (distinct : ∀ entry ∈ entries, entry.2.HasDistinctKeys)
    (isSection : sectionOf entries key = .ok read) :
    (read.map Prod.fst).Nodup ∧ ∀ entry ∈ read, Json.IsSingle ScalarKey.same entry.1 := by
  unfold sectionOf ConfigSection.ofJson at isSection
  split at isSection
  · cases isSection
    exact ⟨List.nodup_nil, List.forall_mem_nil _⟩
  · next filled =>
    cases found : Json.get? (· == ·) key entries with
    | none =>
      rw [found] at filled
      exact absurd rfl filled
    | some inner =>
      rw [found, Option.getD_some] at filled isSection
      obtain ⟨fields, rfl⟩ := (objects entries rfl key known inner found).resolve_left filled
      obtain ⟨entry, present, same⟩ := Option.map_eq_some_iff.mp found
      have once := distinct entry (List.mem_of_find?_eq_some present) fields same
      cases isSection
      constructor
      · rw [List.map_map]
        have names := once.map (f := ScalarKey.text) fun _ _ same => ScalarKey.text.inj same
        rwa [List.map_map] at names
      · exact List.forall_mem_map.mpr fun field _ => ScalarKey.isSingle_text field.1

/-- An update whose keys are texts, each of them once. -/
structure Update.IsPlain (update : Update) : Prop where
  signs : (update.signs.map Prod.fst).Nodup
  keys : (update.constructs.map Prod.fst).Nodup
  single : ∀ entry ∈ update.constructs, Json.IsSingle ScalarKey.same entry.1

/-- A key that names an operator is the text of its name. -/
theorem eq_text_of_operator? {key : ScalarKey} {sign : Operator}
    (named : operator? key = some sign) : key = .text sign.name := by
  unfold operator? at named
  split at named
  · next name =>
    have found := (Option.filter_eq_some_iff.mp named).1
    exact congrArg ScalarKey.text (eq_of_beq (List.find?_some found :)).symm
  · cases named

/-- What a value says has texts as keys, each once, if its sections are objects with distinct keys.
-/
theorem Update.IsOf.isPlain {value : Json} (isOf : update.IsOf value) (objects : HasObjects value)
    (distinct : ∀ entries, value = .obj entries → ∀ entry ∈ entries, entry.2.HasDistinctKeys) :
    update.IsPlain := by
  obtain ⟨precedences, constructs, ⟨entries, rfl, _, isFirst, isSecond⟩, first, second⟩ := isOf
  have inner := distinct entries rfl
  obtain ⟨firstOnce, _⟩ := of_sectionOf_eq_ok List.mem_cons_self objects inner isFirst
  obtain ⟨secondOnce, single⟩ :=
    of_sectionOf_eq_ok (List.mem_cons_of_mem _ List.mem_cons_self) objects inner isSecond
  have names := map_eq_of_forall₂ (fun _ _ given => eq_text_of_operator? given.1) first
  have keys := map_eq_of_forall₂ (fun _ _ given => given.1.symm) second
  refine ⟨?_, keys ▸ secondOnce, fun entry among => ?_⟩
  · rw [names] at firstOnce
    unfold Update.signs
    rw [List.map_map]
    have signs : update.precedences.map (fun override => ScalarKey.text override.sign.name)
        = (update.precedences.map Override.sign).map fun sign => .text sign.name := by
      rw [List.map_map]
      rfl
    rw [signs] at firstOnce
    exact firstOnce.of_map _
  · obtain ⟨before, present, given⟩ := exists_of_forall₂ second among
    rw [given.1]
    exact single before present

/-- Two configurations say the same about all operators and keys. -/
structure SameMaps (left right : Config) : Prop where
  signs : ∀ sign, left.precedence? sign = right.precedence? sign
  constructs : ∀ key, left.constructOf? key = right.constructOf? key

/-- After a plain update an operator has the precedence it had or the one the update gives. -/
theorem Update.IsPlain.precedence?_apply (plain : update.IsPlain) (agrees : config.Agrees update)
    {sign : Operator} {precedence : Int} :
    (config.apply update).precedence? sign = some precedence ↔
      config.precedence? sign = some precedence ∨
        ∃ entry ∈ update.signs, (entry.1 == sign) ∧ entry.2 = precedence := by
  rw [precedence?_eq, precedence?_eq, signs_apply]
  refine Json.get?_foldl_put_eq_some_iff (fun entry _ => Json.isSingle_beq entry.1) plain.signs ?_
  intro entry among earlier found
  rw [← precedence?_eq] at found
  exact agrees.signs entry among earlier found

/-- After a plain update a key has the construct it had or the one the update gives. -/
theorem Update.IsPlain.constructOf?_apply (plain : update.IsPlain) (agrees : config.Agrees update)
    {key : ScalarKey} {construct : Construct} :
    (config.apply update).constructOf? key = some construct ↔
      config.constructOf? key = some construct ∨
        ∃ entry ∈ update.constructs, ScalarKey.same entry.1 key ∧ entry.2 = construct :=
  Json.get?_foldl_put_eq_some_iff plain.single plain.keys agrees.constructs

theorem SameMaps.refl (config : Config) : config.SameMaps config := ⟨fun _ => rfl, fun _ => rfl⟩

theorem SameMaps.symm (same : config.SameMaps other) : other.SameMaps config :=
  ⟨fun sign => (same.signs sign).symm, fun key => (same.constructs key).symm⟩

theorem SameMaps.trans (first : config.SameMaps other) (second : other.SameMaps later) :
    config.SameMaps later :=
  ⟨fun sign => (first.signs sign).trans (second.signs sign),
    fun key => (first.constructs key).trans (second.constructs key)⟩

/-- The files that were loaded say nothing. -/
theorem sameMaps_sources (config : Config) (sources : List String) :
    config.SameMaps { config with sources } :=
  ⟨fun _ => rfl, fun _ => rfl⟩

/-- What agrees with a configuration agrees with every one that says the same. -/
theorem SameMaps.agrees (same : config.SameMaps other) (agrees : config.Agrees update) :
    other.Agrees update := by
  refine ⟨fun entry among earlier found => ?_, fun entry among earlier found => ?_⟩
  · exact agrees.signs entry among earlier ((same.signs entry.1).trans found)
  · exact agrees.constructs entry among earlier ((same.constructs entry.1).trans found)

/-- A plain update keeps two configurations saying the same. -/
theorem SameMaps.apply (same : config.SameMaps other) (plain : update.IsPlain)
    (agrees : config.Agrees update) : (config.apply update).SameMaps (other.apply update) := by
  have others := same.agrees agrees
  refine ⟨fun sign => Option.ext fun precedence => ?_, fun key => Option.ext fun construct => ?_⟩
  · rw [plain.precedence?_apply agrees, plain.precedence?_apply others, same.signs]
  · rw [plain.constructOf?_apply agrees, plain.constructOf?_apply others, same.constructs]

/-- An update that is accepted after another one is accepted before it. -/
theorem Agrees.swap (firstPlain : first.IsPlain) (secondPlain : second.IsPlain)
    (firstAgrees : config.Agrees first) (secondAgrees : (config.apply first).Agrees second) :
    config.Agrees second ∧ (config.apply second).Agrees first := by
  have early : config.Agrees second := by
    refine ⟨fun entry among earlier found => ?_, fun entry among earlier found => ?_⟩
    · exact secondAgrees.signs entry among earlier
        ((firstPlain.precedence?_apply firstAgrees).mpr (.inl found))
    · exact secondAgrees.constructs entry among earlier
        ((firstPlain.constructOf?_apply firstAgrees).mpr (.inl found))
  refine ⟨early, fun entry among earlier found => ?_, fun entry among earlier found => ?_⟩
  · rcases (secondPlain.precedence?_apply early).mp found with old | ⟨new, present, same, rfl⟩
    · exact firstAgrees.signs entry among earlier old
    · refine (secondAgrees.signs new present entry.2 ?_).symm
      refine (firstPlain.precedence?_apply firstAgrees).mpr (.inr ⟨entry, among, ?_, rfl⟩)
      exact beq_iff_eq.mpr (eq_of_beq same).symm
  · rcases (secondPlain.constructOf?_apply early).mp found with old | ⟨new, present, same, rfl⟩
    · exact firstAgrees.constructs entry among earlier old
    · refine (secondAgrees.constructs new present entry.2 ?_).symm
      refine (firstPlain.constructOf?_apply firstAgrees).mpr (.inr ⟨entry, among, ?_, rfl⟩)
      have sameKey := ((secondPlain.single new present) entry.1).2.mp same
      exact ((secondPlain.single new present) entry.1).1.mpr sameKey

/-- Two plain updates may be made in either order. -/
theorem SameMaps.swap (firstPlain : first.IsPlain) (secondPlain : second.IsPlain)
    (firstAgrees : config.Agrees first) (secondAgrees : (config.apply first).Agrees second) :
    ((config.apply first).apply second).SameMaps ((config.apply second).apply first) := by
  obtain ⟨early, late⟩ := Agrees.swap firstPlain secondPlain firstAgrees secondAgrees
  refine ⟨fun sign => Option.ext fun precedence => ?_, fun key => Option.ext fun construct => ?_⟩
  · rw [secondPlain.precedence?_apply secondAgrees, firstPlain.precedence?_apply firstAgrees,
      firstPlain.precedence?_apply late, secondPlain.precedence?_apply early, or_right_comm]
  · rw [secondPlain.constructOf?_apply secondAgrees, firstPlain.constructOf?_apply firstAgrees,
      firstPlain.constructOf?_apply late, secondPlain.constructOf?_apply early, or_right_comm]

/-- Does calls one after another, until one fails. -/
def performAll (calls : List Call) : ExceptT ConfigError (StateM Config) Unit :=
  calls.forM Call.perform

/-- What comes of calls one after another, and the configuration after them. -/
def outcomeAll (calls : List Call) (config : Config) : Except ConfigError Unit × Config :=
  ((performAll calls).run.run config).run

/-- Of several calls the first one is done first, and the others only if it is. -/
theorem outcomeAll_cons (call : Call) (calls : List Call) (config : Config) :
    outcomeAll (call :: calls) config =
      match call.outcome config with
      | (.ok (), later) => outcomeAll calls later
      | (.error error, later) => (.error error, later) := by
  have joined : performAll (call :: calls) = (do call.perform; performAll calls) := rfl
  unfold outcomeAll Call.outcome
  rw [joined, ExceptT.run_bind, StateT.run_bind, Id.run_bind]
  rcases (call.perform.run.run config).run with ⟨_ | _, later⟩ <;> rfl

/-- Several calls are done if the first one is and the others are after it. -/
theorem outcomeAll_cons_eq_ok_iff : outcomeAll (call :: calls) config = (.ok (), later) ↔
    ∃ between, call.outcome config = (.ok (), between) ∧
      outcomeAll calls between = (.ok (), later) := by
  rw [outcomeAll_cons]
  rcases call.outcome config with ⟨_ | _, between⟩ <;> simp

/-- What is done in one configuration is done in another one that says the same. -/
theorem SameMaps.outcome (same : config.SameMaps other) (plain : call.IsPlain)
    (done : call.outcome config = (.ok (), later)) :
    ∃ otherLater, call.outcome other = (.ok (), otherLater) ∧ later.SameMaps otherLater := by
  obtain ⟨value, update, given, isOf, agrees, rfl⟩ := exists_update_of_done done
  obtain ⟨objects, distinct⟩ := plain.of_value? given
  refine ⟨_, outcome_of_isOf given isOf (same.agrees agrees), ?_⟩
  have applied := same.apply (isOf.isPlain objects distinct) agrees
  exact ((sameMaps_sources _ _).symm.trans applied).trans (sameMaps_sources _ _)

/-- Plain calls are done in every configuration that says the same, and leave it saying the same. -/
theorem SameMaps.outcomeAll (same : config.SameMaps other) (plain : ∀ call ∈ calls, call.IsPlain)
    (done : outcomeAll calls config = (.ok (), later)) :
    ∃ otherLater, Config.outcomeAll calls other = (.ok (), otherLater) ∧
      later.SameMaps otherLater := by
  induction calls generalizing config other with
  | nil =>
    cases done
    exact ⟨other, rfl, same⟩
  | cons call calls ih =>
    obtain ⟨first, rest⟩ := List.forall_mem_cons.mp plain
    obtain ⟨between, now, then'⟩ := outcomeAll_cons_eq_ok_iff.mp done
    obtain ⟨otherBetween, otherNow, sameBetween⟩ := same.outcome first now
    obtain ⟨otherLater, otherThen, sameLater⟩ := ih sameBetween rest then'
    exact ⟨otherLater, outcomeAll_cons_eq_ok_iff.mpr ⟨otherBetween, otherNow, otherThen⟩, sameLater⟩

/-- Two calls that are done one after the other are done the other way round. -/
theorem exists_outcome_swap {call next : Call} {between : Config} (plain : call.IsPlain)
    (nextPlain : next.IsPlain) (done : call.outcome config = (.ok (), between))
    (nextDone : next.outcome between = (.ok (), later)) :
    ∃ otherBetween otherLater, next.outcome config = (.ok (), otherBetween) ∧
      call.outcome otherBetween = (.ok (), otherLater) ∧ later.SameMaps otherLater := by
  obtain ⟨value, first, given, isFirst, firstAgrees, rfl⟩ := exists_update_of_done done
  obtain ⟨nextValue, second, nextGiven, isSecond, agrees, rfl⟩ := exists_update_of_done nextDone
  obtain ⟨objects, distinct⟩ := plain.of_value? given
  obtain ⟨nextObjects, nextDistinct⟩ := nextPlain.of_value? nextGiven
  have firstPlain := isFirst.isPlain objects distinct
  have secondPlain := isSecond.isPlain nextObjects nextDistinct
  have secondAgrees := (sameMaps_sources _ _).symm.agrees agrees
  obtain ⟨early, late⟩ := Agrees.swap firstPlain secondPlain firstAgrees secondAgrees
  have lateAgrees := (sameMaps_sources _ (config.sources ++ next.sources)).agrees late
  refine ⟨_, _, outcome_of_isOf nextGiven isSecond early,
    outcome_of_isOf given isFirst lateAgrees, ?_⟩
  have swapped := SameMaps.swap firstPlain secondPlain firstAgrees secondAgrees
  exact ⟨swapped.signs, swapped.constructs⟩

/-- If calls are done in one order, they are done in every order and lead to the same. -/
theorem exists_outcomeAll_of_perm (permuted : order.Perm reorder)
    (plain : ∀ call ∈ order, call.IsPlain) (done : outcomeAll order config = (.ok (), later)) :
    ∃ otherLater, outcomeAll reorder config = (.ok (), otherLater) ∧ later.SameMaps otherLater := by
  induction permuted generalizing config later with
  | nil => exact ⟨later, done, .refl later⟩
  | cons call _ ih =>
    obtain ⟨between, now, then'⟩ := outcomeAll_cons_eq_ok_iff.mp done
    obtain ⟨otherLater, otherThen, same⟩ := ih (List.forall_mem_cons.mp plain).2 then'
    exact ⟨otherLater, outcomeAll_cons_eq_ok_iff.mpr ⟨between, now, otherThen⟩, same⟩
  | swap next call calls =>
    obtain ⟨first, others⟩ := List.forall_mem_cons.mp plain
    obtain ⟨second, rest⟩ := List.forall_mem_cons.mp others
    obtain ⟨between, now, more⟩ := outcomeAll_cons_eq_ok_iff.mp done
    obtain ⟨middle, next', then'⟩ := outcomeAll_cons_eq_ok_iff.mp more
    obtain ⟨otherBetween, otherMiddle, otherNow, otherNext, same⟩ :=
      exists_outcome_swap first second now next'
    obtain ⟨otherLater, otherThen, sameLater⟩ := same.outcomeAll rest then'
    refine ⟨otherLater, ?_, sameLater⟩
    exact outcomeAll_cons_eq_ok_iff.mpr
      ⟨otherBetween, otherNow, outcomeAll_cons_eq_ok_iff.mpr ⟨otherMiddle, otherNext, otherThen⟩⟩
  | trans first _ ih secondIh =>
    obtain ⟨middle, doneMiddle, sameMiddle⟩ := ih plain done
    obtain ⟨otherLater, doneLater, same⟩ :=
      secondIh (fun call among => plain call (first.mem_iff.mpr among)) doneMiddle
    exact ⟨otherLater, doneLater, sameMiddle.trans same⟩

/-! ## Histories -/

/-- Whatever calls have been made on a configuration: a call that fails leaves it as it is. What is
configured remains, whatever calls follow. Only operators that continue expressions are overridden,
by positive precedences, and only constructs with a member name are given to heads. A value that is
refused for its entries is refused with one conflict for each entry that is at fault, in their
order, those of the precedences first. And calls that give objects with texts as keys are done in
every order if they are done in one, and lead to the same configuration. -/
theorem history_run (calls : List Call) :
    (∀ (call : Call) error, (call.outcome (run calls)).1 = .error error →
      (call.outcome (run calls)).2 = run calls) ∧
    (∀ more,
      (∀ sign precedence, (run calls).precedence? sign = some precedence →
        (run (calls ++ more)).precedence? sign = some precedence) ∧
      ∀ key construct, (run calls).constructOf? key = some construct →
        (run (calls ++ more)).constructOf? key = some construct) ∧
    ((∀ entry ∈ (run calls).precedences,
        Continuation.continues entry.sign ∧ 0 < entry.precedence) ∧
      ∀ entry ∈ (run calls).constructs,
        Construct.ofMemberName? entry.2.memberName = some entry.2) ∧
    (∀ (call : Call) conflicts, (call.outcome (run calls)).1 = .error (.invalid conflicts) →
      ∃ value precedences constructs first second, call.value? = some value ∧
        HasSections value precedences constructs ∧ conflicts = first ++ second ∧
        Reports (run calls).AcceptsPrecedence (run calls).PrecedenceFault precedences first ∧
        Reports (run calls).AcceptsConstruct (run calls).ConstructFault constructs second) ∧
    ∀ order reorder : List Call, order.Perm reorder → (∀ call ∈ order, call.IsPlain) →
      ∀ later, outcomeAll order (run calls) = (.ok (), later) →
        ∃ other, outcomeAll reorder (run calls) = (.ok (), other) ∧ later.SameMaps other := by
  refine ⟨fun call error failed => config_of_failed failed, fun more => ?_, ⟨?_, ?_⟩,
    fun call conflicts refused => ?_, fun order reorder permuted plain later done =>
      exists_outcomeAll_of_perm permuted plain done⟩
  · have joined : run (calls ++ more) = (run calls).runFrom more := List.foldl_append
    have extended := extends_runFrom (run calls) more
    rw [joined]
    exact ⟨fun _ _ => extended.precedence?, fun _ _ => extended.constructOf?⟩
  · exact fun entry among => ⟨isProper_run calls entry among, entry.positive⟩
  · exact fun entry _ => entry.2.ofMemberName?_memberName
  · obtain ⟨value, given, refusedValue⟩ := exists_value_of_invalid refused
    obtain ⟨precedences, constructs, first, second, sections, split, _, reports⟩ :=
      reports_of_invalid refusedValue
    exact ⟨value, precedences, constructs, first, second, given, sections, split, reports⟩

/-- Gives the operator `;;` another precedence. -/
def spanCall : Call := .configure (.obj [("precedence", .obj [("SPAN", .int 320)])])

/-- Makes calls of `Loop` loops. -/
def loopCall : Call := .configure (.obj [("scoping_constructs", .obj [("Loop", .str "Do")])])

/-- Loads a file that configures nothing. -/
def fileCall : Call := .load "empty.json" (.ok "{}")

/-- A value with one section, which is an object of one field, is plain. -/
theorem isPlain_of_section {key : String} {field : String × Json} :
    (Call.configure (.obj [(key, .obj [field])])).IsPlain := by
  constructor
  · rintro _ ⟨⟩ _ _ inner found
    obtain ⟨entry, present, rfl⟩ := Option.map_eq_some_iff.mp found
    rw [List.mem_singleton.mp (List.mem_of_find?_eq_some present)]
    exact .inr ⟨_, rfl⟩
  · rintro _ ⟨⟩
    refine List.forall_mem_singleton.mpr ?_
    rintro _ ⟨⟩
    exact List.nodup_singleton field.1

theorem history_run_span_and_loop :
    ∃ later other, outcomeAll [spanCall, loopCall, fileCall] (run []) = (.ok (), later) ∧
      outcomeAll [fileCall, loopCall, spanCall] (run []) = (.ok (), other) ∧
      later.SameMaps other := by
  have done : (outcomeAll [spanCall, loopCall, fileCall] (run [])).1.toBool := by
    decide +kernel
  have filePlain : fileCall.IsPlain := by
    rintro _ value ⟨⟩ read
    have empty : Json.parse? "{}" = some (.obj []) := rfl
    rw [empty] at read
    cases read
    rintro _ ⟨⟩ _ _ inner found
    cases found
  have plain : ∀ call ∈ [spanCall, loopCall, fileCall], call.IsPlain := by
    refine List.forall_mem_cons.mpr ⟨isPlain_of_section, List.forall_mem_cons.mpr
      ⟨isPlain_of_section, List.forall_mem_singleton.mpr filePlain⟩⟩
  cases result : outcomeAll [spanCall, loopCall, fileCall] (run []) with
  | mk outcome later =>
    rw [result] at done
    cases outcome with
    | error error => cases done
    | ok =>
      obtain ⟨other, otherDone, same⟩ := (history_run []).2.2.2.2 _ _
        (List.reverse_perm [spanCall, loopCall, fileCall]).symm plain later result
      exact ⟨later, other, rfl, otherDone, same⟩

end Config

end WolframSyntax
