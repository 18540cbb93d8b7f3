import WolframSyntax.Config.Report
import WolframSyntax.Proofs.Histories
import WolframSyntax.Proofs.Sorting

/-!
# Which values can be used

A value is refused without a report if one of its sections is none (`Config.HasBadSection`). After
a value has been accepted, the operators have the configured precedences and the heads are the
configured constructs, but a report can only be written if all configured heads are texts or all of
them are numbers (`Config.report_eq_ok_iff`). That a section may be a list of pairs, in which keys
need not be texts, is what lets other heads in (`Config.configure_run`).
-/

namespace WolframSyntax

namespace ScalarKey

/-- A key that is a text. -/
def IsText (key : ScalarKey) : Prop := ∃ value, key = .text value

/-- A key that is a number; truth values count as numbers. -/
def IsNumber : ScalarKey → Prop
  | bool _ | int _ | float _ => True
  | null | text _ => False

/-- Keys that can be compared. -/
def Alike (left right : ScalarKey) : Prop :=
  left.IsText ∧ right.IsText ∨ left.IsNumber ∧ right.IsNumber

variable {left middle right key : ScalarKey}

/-- A text is no number. -/
theorem IsText.not_isNumber (text : key.IsText) : ¬key.IsNumber := by
  obtain ⟨value, rfl⟩ := text
  exact id

/-- The keys with a magnitude are the numbers. -/
theorem isSome_magnitude?_iff : key.magnitude?.isSome ↔ key.IsNumber := by
  cases key with
  | null | text => exact iff_of_false Bool.false_ne_true id
  | bool | int => exact iff_of_true rfl trivial
  | float value => cases value <;> exact iff_of_true rfl trivial

/-- Two keys can be compared just in case both are texts or both are numbers. -/
theorem exists_before_iff : (∃ isBefore, before left right = .ok isBefore) ↔ left.Alike right := by
  unfold before
  split
  · next leftText rightText =>
    exact iff_of_true ⟨_, rfl⟩ (.inl ⟨⟨leftText, rfl⟩, rightText, rfl⟩)
  · next notTexts =>
    have alike : left.Alike right ↔ left.magnitude?.isSome ∧ right.magnitude?.isSome := by
      rw [isSome_magnitude?_iff, isSome_magnitude?_iff]
      refine or_iff_right ?_
      rintro ⟨⟨leftText, rfl⟩, rightText, rfl⟩
      exact notTexts leftText rightText rfl rfl
    rw [alike]
    cases left.magnitude? <;> cases right.magnitude? <;> simp

theorem Alike.symm (alike : left.Alike right) : right.Alike left :=
  alike.imp And.symm And.symm

/-- What is like a text is a text. -/
theorem Alike.isText (alike : left.Alike right) (text : left.IsText) : right.IsText :=
  alike.elim And.right fun numbers => absurd numbers.1 text.not_isNumber

/-- What is like a number is a number. -/
theorem Alike.isNumber (alike : left.Alike right) (number : left.IsNumber) : right.IsNumber :=
  alike.elim (fun texts => absurd number texts.1.not_isNumber) And.right

theorem Alike.trans (first : left.Alike middle) (second : middle.Alike right) :
    left.Alike right := by
  rcases first with ⟨text, middleText⟩ | ⟨number, middleNumber⟩
  · exact .inl ⟨text, second.isText middleText⟩
  · exact .inr ⟨number, second.isNumber middleNumber⟩

/-- A key has a column if it is a text or a number. -/
theorem exists_column_iff : (∃ text, key.column = .ok text) ↔ key.IsText ∨ key.IsNumber := by
  cases key with
  | null =>
    refine iff_of_false (fun ⟨_, same⟩ => by cases same) ?_
    rintro (⟨_, same⟩ | number)
    · cases same
    · exact number
  | text value => exact iff_of_true ⟨_, rfl⟩ (.inl ⟨value, rfl⟩)
  | bool | int | float => exact iff_of_true ⟨_, rfl⟩ (.inr trivial)

end ScalarKey

namespace Config

variable {config later : Config} {value : Json} {update : Update} {calls : List Call}

/-! ## Reports -/

/-- A line can be written about a text or a number. -/
theorem exists_constructLine_iff {entry : ScalarKey × Construct} :
    (∃ line, constructLine entry = .ok line) ↔ entry.1.IsText ∨ entry.1.IsNumber := by
  rw [← ScalarKey.exists_column_iff]
  unfold constructLine
  cases entry.1.column with
  | error error =>
    exact iff_of_false (fun ⟨_, same⟩ => by cases same) (fun ⟨_, same⟩ => by cases same)
  | ok text => exact iff_of_true ⟨_, rfl⟩ ⟨_, rfl⟩

/-- All items can be read just in case each of them can. -/
theorem exists_mapM_iff {Failure First Second : Type} {read : First → Except Failure Second}
    {items : List First} : (∃ results, items.mapM read = .ok results) ↔
      ∀ item ∈ items, ∃ result, read item = .ok result := by
  induction items with
  | nil => exact iff_of_true ⟨[], rfl⟩ (List.forall_mem_nil _)
  | cons item items ih =>
    rw [List.mapM_cons, List.forall_mem_cons, ← ih]
    cases read item with
    | error failure =>
      exact iff_of_false (fun ⟨_, same⟩ => by cases same) (fun ⟨⟨_, same⟩, _⟩ => by cases same)
    | ok result =>
      cases items.mapM read with
      | error failure =>
        exact iff_of_false (fun ⟨_, same⟩ => by cases same) (fun ⟨_, _, same⟩ => by cases same)
      | ok results => exact iff_of_true ⟨_, rfl⟩ ⟨⟨_, rfl⟩, _, rfl⟩

/-- A report can be written just in case the constructs can be sorted and each has a line. -/
theorem exists_report_iff : (∃ report, config.report = .ok report) ↔
    ∃ sorted, config.sortedConstructs = .ok sorted ∧
      ∀ entry ∈ sorted, ∃ line, constructLine entry = .ok line := by
  unfold report
  cases config.sortedConstructs with
  | error error =>
    exact iff_of_false (fun ⟨_, same⟩ => by cases same) (fun ⟨_, same, _⟩ => by cases same)
  | ok sorted =>
    have lines : (∃ report, (do
        let lines ← sorted.mapM constructLine
        return String.intercalate "\n" (config.sortedPrecedences.map precedenceLine ++ lines) :
          Except ReportError String) = .ok report) ↔
        ∃ lines, sorted.mapM constructLine = .ok lines := by
      cases sorted.mapM constructLine with
      | error error =>
        exact iff_of_false (fun ⟨_, same⟩ => by cases same) (fun ⟨_, same⟩ => by cases same)
      | ok lines => exact iff_of_true ⟨_, rfl⟩ ⟨lines, rfl⟩
    refine lines.trans (exists_mapM_iff.trans ⟨fun all => ⟨sorted, rfl, all⟩, ?_⟩)
    rintro ⟨_, ⟨⟩, all⟩
    exact all

/-- A configuration can be reported if the configured heads are all texts or all numbers, given that
precedences of any length have a display (`Config.precedenceLine`). -/
theorem report_eq_ok_iff : (∃ report, config.report = .ok report) ↔
    (∀ entry ∈ config.constructs, entry.1.IsText) ∨
      ∀ entry ∈ config.constructs, entry.1.IsNumber := by
  rw [exists_report_iff]
  constructor
  · rintro ⟨sorted, isSorted, lines⟩
    have kept := Sorting.perm_of_sort isSorted
    have kinds : ∀ entry ∈ config.constructs, entry.1.IsText ∨ entry.1.IsNumber :=
      fun entry among => exists_constructLine_iff.mp (lines entry (kept.mem_iff.mpr among))
    -- A single head is compared with nothing, and its line alone tells of which kind it is.
    unfold sortedConstructs at isSorted
    match constructs : config.constructs with
    | [] => exact .inl (List.forall_mem_nil _)
    | [entry] =>
      rw [constructs] at kinds
      exact (kinds entry List.mem_cons_self).imp List.forall_mem_singleton.mpr
        List.forall_mem_singleton.mpr
    | first :: second :: rest =>
      rw [constructs] at isSorted
      have alike := Sorting.related_of_sort
        (fun left right : ScalarKey × Construct => left.1.Alike right.1)
        (fun left right compares => ScalarKey.exists_before_iff.mp compares)
        (fun _ _ => ScalarKey.Alike.symm) (fun _ _ _ => ScalarKey.Alike.trans) isSorted
      rcases alike first List.mem_cons_self with ⟨text, _⟩ | ⟨number, _⟩
      · exact .inl fun entry among => (alike entry among).isText text
      · exact .inr fun entry among => (alike entry among).isNumber number
  · intro kinds
    have alike : ∀ left ∈ config.constructs, ∀ right ∈ config.constructs,
        left.1.Alike right.1 :=
      fun left among right present =>
        kinds.imp (fun texts => ⟨texts left among, texts right present⟩) fun numbers =>
          ⟨numbers left among, numbers right present⟩
    obtain ⟨sorted, isSorted⟩ := Sorting.exists_sort_eq_ok fun left among right present =>
      ScalarKey.exists_before_iff.mpr (alike left among right present)
    refine ⟨sorted, isSorted, fun entry among => exists_constructLine_iff.mpr ?_⟩
    have present := (Sorting.perm_of_sort isSorted).mem_iff.mp among
    exact kinds.imp (· entry present) (· entry present)

/-! ## Precedences and heads -/

/-- Among overrides of different operators each operator has the precedence of its own one. -/
theorem precedence_foldl_override (entries : List Override) (grammar : Grammar)
    (once : (entries.map Override.sign).Nodup) (sign : Operator) :
    (entries.foldl (fun grammar entry =>
        grammar.override entry.sign entry.precedence entry.positive) grammar).precedence sign
      = (Json.get? (· == ·) sign (entries.map fun entry => (entry.sign, entry.precedence))).getD
          (grammar.precedence sign) := by
  induction entries generalizing grammar with
  | nil => rfl
  | cons entry entries ih =>
    obtain ⟨first, rest⟩ := List.nodup_cons.mp once
    rw [List.foldl_cons, ih _ rest, List.map_cons, Json.get?_cons]
    by_cases same : entry.sign = sign
    · subst same
      have absent : Json.get? (· == ·) entry.sign
          (entries.map fun entry => (entry.sign, entry.precedence)) = none := by
        unfold Json.get?
        rw [Option.map_eq_none_iff, List.find?_eq_none]
        rintro _ among isSame
        obtain ⟨other, present, rfl⟩ := List.mem_map.mp among
        exact first (List.mem_map.mpr ⟨other, present, eq_of_beq isSame⟩)
      rw [absent, if_pos (beq_self_eq_true _)]
      exact if_pos rfl
    · rw [if_neg (mt eq_of_beq same)]
      exact congrArg _ (if_neg (Ne.symm same))

/-- The grammar has the configured precedences, and the standard ones for all other operators. -/
theorem precedence_grammar (once : (config.signs.map Prod.fst).Nodup) (sign : Operator) :
    config.grammar.precedence sign
      = (config.precedence? sign).getD (Grammar.standard.precedence sign) := by
  unfold signs at once
  rw [List.map_map] at once
  rw [precedence?_eq]
  exact precedence_foldl_override config.precedences Grammar.standard once sign

/-- A head is looked up among the configured constructs first. -/
theorem lookup_constructTable (config : Config) (head : String) :
    config.constructTable.lookup head
      = (config.constructOf? (.text head)).or (ConstructTable.standard.lookup head) := by
  unfold constructTable constructOf?
  rw [List.lookup_append]
  refine congrArg (Option.or · _) ?_
  induction config.constructs with
  | nil => rfl
  | cons entry entries ih =>
    obtain ⟨key, construct⟩ := entry
    rw [Json.get?_cons, ← ih]
    cases key with
    | text name =>
      have isName : ScalarKey.same (.text name) (.text head) = (head == name) := by
        rw [Bool.eq_iff_iff, beq_iff_eq]
        exact (ScalarKey.isSingle_text head (.text name)).1.trans
          ⟨fun same => (ScalarKey.text.inj same).symm, fun same => congrArg _ same.symm⟩
      rw [List.filterMap_cons]
      dsimp only
      rw [List.lookup_cons, isName]
      cases head == name <;> rfl
    | null | bool | int | float => rfl

/-- The heads are the configured constructs, and those of the standard table. -/
theorem constructOf_constructTable (config : Config) (head : String) :
    config.constructTable.constructOf head
      = (config.constructOf? (.text head)).getD (ConstructTable.standard.constructOf head) := by
  unfold ConstructTable.constructOf
  rw [lookup_constructTable]
  cases config.constructOf? (.text head) <;> rfl

/-! ## The keys of the constructs -/

/-- A key that is the same as a text is a text. -/
theorem isText_of_same {left right : ScalarKey} (text : left.IsText)
    (same : ScalarKey.same left right) : right.IsText := by
  obtain ⟨value, rfl⟩ := text
  exact ⟨value, ((ScalarKey.isSingle_text value right).2.mp same)⟩

/-- An entry put into a mapping leaves texts as keys if its own key is one. -/
theorem forall_isText_put_iff {key : ScalarKey} {construct : Construct}
    {entries : List (ScalarKey × Construct)} :
    (∀ entry ∈ Json.put ScalarKey.same key construct entries, entry.1.IsText) ↔
      (∀ entry ∈ entries, entry.1.IsText) ∧ key.IsText := by
  induction entries with
  | nil => simp [Json.put]
  | cons entry entries ih =>
    rw [Json.put]
    split
    · next same =>
      simp only [List.forall_mem_cons]
      exact ⟨fun all => ⟨all, isText_of_same all.1 same⟩, And.left⟩
    · rw [List.forall_mem_cons, ih, List.forall_mem_cons, and_assoc]

/-- An update leaves texts as keys if its own keys are texts. -/
theorem forall_isText_apply_iff :
    (∀ entry ∈ (config.apply update).constructs, entry.1.IsText) ↔
      (∀ entry ∈ config.constructs, entry.1.IsText) ∧
        ∀ entry ∈ update.constructs, entry.1.IsText := by
  unfold apply
  dsimp only
  generalize config.constructs = entries
  induction update.constructs generalizing entries with
  | nil => simp
  | cons given constructs ih =>
    rw [List.foldl_cons, ih, forall_isText_put_iff, List.forall_mem_cons, and_assoc]

/-! ## Sections that are none -/

/-- A value that can be a section: it is empty, an object, or it has items that all have two items,
of which the first is a scalar. -/
def IsSection (value : Json) : Prop :=
  value.isEmptyLike ∨ (∃ fields, value = .obj fields) ∨
    ∃ items, value.items? = some items ∧ ∀ item ∈ items, ∃ first second key,
      item.items? = some [first, second] ∧ ScalarKey.ofJson? first = some key

/-- An object that has no sections but the two, one of which is none. -/
def HasBadSection (value : Json) : Prop :=
  ∃ entries, value = .obj entries ∧ unknownKeys entries = [] ∧
    ∃ key ∈ [precedenceKey, constructsKey], ∃ inner,
      Json.get? (· == ·) key entries = some inner ∧ ¬IsSection inner

/-- An item is an entry just in case it has two items and the first one is a scalar. -/
theorem exists_entryOf_iff (index : Nat) (item : Json) :
    (∃ entry, ConfigSection.entryOf index item = .ok entry) ↔ ∃ first second key,
      item.items? = some [first, second] ∧ ScalarKey.ofJson? first = some key := by
  unfold ConfigSection.entryOf
  split
  · next none => simp [none]
  · next first second pair =>
    rw [pair]
    cases scalar : ScalarKey.ofJson? first <;> simp [scalar]
  · next items other many =>
    refine iff_of_false (fun ⟨_, same⟩ => by cases same) ?_
    rintro ⟨first, second, key, pair, _⟩
    rw [many] at pair
    cases pair
    exact other _ _ rfl

/-- Pairs can be added just in case each of them is an entry. -/
theorem exists_addPairs_iff (entries : ConfigSection) (index : Nat) (items : List Json) :
    (∃ read, ConfigSection.addPairs entries index items = .ok read) ↔
      ∀ item ∈ items, ∃ first second key,
        item.items? = some [first, second] ∧ ScalarKey.ofJson? first = some key := by
  induction items generalizing entries index with
  | nil => exact iff_of_true ⟨entries, rfl⟩ (List.forall_mem_nil _)
  | cons item items ih =>
    rw [List.forall_mem_cons, ← exists_entryOf_iff index, ConfigSection.addPairs]
    cases ConfigSection.entryOf index item with
    | error error =>
      exact iff_of_false (fun ⟨_, same⟩ => by cases same) (fun ⟨⟨_, same⟩, _⟩ => by cases same)
    | ok entry => exact (ih _ _).trans (and_iff_right ⟨entry, rfl⟩).symm

/-- A value can be read as a section just in case it is one. -/
theorem exists_ofJson_iff (value : Json) :
    (∃ entries, ConfigSection.ofJson value = .ok entries) ↔ IsSection value := by
  unfold ConfigSection.ofJson IsSection
  split
  · next empty => exact iff_of_true ⟨[], rfl⟩ (.inl empty)
  · next filled =>
    rw [or_iff_right filled]
    split
    · next fields => exact iff_of_true ⟨_, rfl⟩ (.inl ⟨fields, rfl⟩)
    · next notObject =>
      rw [or_iff_right fun ⟨fields, same⟩ => notObject fields same]
      split
      · next items isItems =>
        rw [exists_addPairs_iff, isItems]
        simp
      · next none =>
        rw [none]
        simp

/-- A section cannot be read just in case it is there and is none. -/
theorem exists_sectionOf_error_iff (entries : List (String × Json)) (key : String) :
    (∃ error, sectionOf entries key = .error error) ↔
      ∃ inner, Json.get? (· == ·) key entries = some inner ∧ ¬IsSection inner := by
  unfold sectionOf
  cases found : Json.get? (· == ·) key entries with
  | none => exact iff_of_false (fun ⟨_, same⟩ => by cases same) (fun ⟨_, same, _⟩ => by cases same)
  | some inner =>
    rw [Option.getD_some]
    simp only [Option.some.injEq, exists_eq_left', ← exists_ofJson_iff]
    cases ConfigSection.ofJson inner <;> simp

/-- A value is refused for what is read in it. -/
theorem configure_eq_error_iff {error : ConfigError} :
    config.configure value = .error error ↔ config.readUpdate value = .error error := by
  unfold configure
  cases config.readUpdate value <;> simp [Except.map]

/-- A value is refused without a report if one of its sections is none. -/
theorem exists_badSection_iff (config : Config) (value : Json) :
    (∃ error, config.configure value = .error (.badSection error)) ↔ HasBadSection value := by
  simp only [configure_eq_error_iff]
  constructor
  · rintro ⟨error, refused⟩
    rcases config.readUpdate_cases value with ⟨other, _⟩ | ⟨_, _, _, other⟩ |
        ⟨entries, bad, rfl, known, failed, _⟩ | ⟨_, _, _, read⟩
    · rw [refused] at other
      cases other
    · rw [refused] at other
      cases other
    · refine ⟨entries, rfl, known, ?_⟩
      rcases failed with failed | ⟨_, failed⟩
      · exact ⟨precedenceKey, List.mem_cons_self,
          (exists_sectionOf_error_iff entries precedenceKey).mp ⟨bad, failed⟩⟩
      · exact ⟨constructsKey, List.mem_cons_of_mem _ List.mem_cons_self,
          (exists_sectionOf_error_iff entries constructsKey).mp ⟨bad, failed⟩⟩
    · rw [refused] at read
      unfold readSections at read
      split at read <;> cases read
  · rintro ⟨entries, rfl, known, key, isKey, bad⟩
    obtain ⟨error, bad⟩ := (exists_sectionOf_error_iff entries key).mpr bad
    rcases config.readUpdate_cases (.obj entries) with ⟨_, other⟩ | ⟨_, same, unknown, _⟩ |
        ⟨_, error, _, _, _, refused⟩ | ⟨_, _, ⟨_, same, _, first, second⟩, _⟩
    · exact absurd rfl (other entries)
    · cases same
      exact absurd known unknown
    · exact ⟨error, refused⟩
    · cases same
      rcases List.mem_pair.mp isKey with rfl | rfl
      · rw [first] at bad
        cases bad
      · rw [second] at bad
        cases bad

/-- A configuration that a value has been added to overrides no operator twice. -/
theorem nodup_signs_configure (calls : List Call)
    (done : (run calls).configure value = .ok later) : (later.signs.map Prod.fst).Nodup := by
  have same : run (calls ++ [.configure value]) = later := by
    unfold run runFrom
    rw [List.foldl_append]
    change ((Call.configure value).outcome (run calls)).2 = later
    rw [outcome_configure, done]
  rw [← same]
  exact nodup_signs_run _

/-- A value that is an object adds the keys of its sections. -/
theorem forall_isText_configure_iff (done : config.configure value = .ok later) :
    (∀ entry ∈ later.constructs, entry.1.IsText) ↔
      (∀ entry ∈ config.constructs, entry.1.IsText) ∧
        ∀ precedences constructs, HasSections value precedences constructs →
          ∀ entry ∈ constructs, entry.1.IsText := by
  unfold configure at done
  cases read : config.readUpdate value with
  | error error =>
    rw [read] at done
    cases done
  | ok update =>
    rw [read] at done
    cases done
    obtain ⟨⟨precedences, constructs, sections, _, given⟩, _⟩ := readUpdate_eq_ok_iff.mp read
    have keys : constructs.map Prod.fst = update.constructs.map Prod.fst :=
      map_eq_of_forall₂ (fun _ _ gives => gives.1.symm) given
    have texts : (∀ entry ∈ update.constructs, entry.1.IsText) ↔
        ∀ entry ∈ constructs, entry.1.IsText := by
      rw [← List.forall_mem_map (f := Prod.fst) (P := ScalarKey.IsText), ← keys,
        List.forall_mem_map]
    rw [forall_isText_apply_iff, texts]
    refine and_congr_right' ⟨fun all _ _ others => ?_, fun all => all _ _ sections⟩
    rw [(others.eq sections).2]
    exact all

/-- What a value does to a configuration that any calls lead to. Unless one of its sections is none,
the value is accepted or the reasons against it are reported. Once it is accepted, there is an
operator table and a table of heads that say what is configured, but a report needs heads that can
be compared. Integers of any length are assumed to have a display (`Json.display`). -/
theorem configure_run (calls : List Call) (value : Json) :
    ((∃ error, (run calls).configure value = .error (.badSection error)) ↔ HasBadSection value) ∧
      ∀ later, (run calls).configure value = .ok later →
        ((∀ entry ∈ later.constructs, entry.1.IsText) ↔
          (∀ entry ∈ (run calls).constructs, entry.1.IsText) ∧
            ∀ precedences constructs, HasSections value precedences constructs →
              ∀ entry ∈ constructs, entry.1.IsText) ∧
        (∀ sign, later.grammar.precedence sign
          = (later.precedence? sign).getD (Grammar.standard.precedence sign)) ∧
        (∀ head, later.constructTable.constructOf head
          = (later.constructOf? (.text head)).getD (ConstructTable.standard.constructOf head)) ∧
        ((∃ report, later.report = .ok report) ↔
          (∀ entry ∈ later.constructs, entry.1.IsText) ∨
            ∀ entry ∈ later.constructs, entry.1.IsNumber) := by
  refine ⟨exists_badSection_iff (run calls) value, fun later done => ?_⟩
  exact ⟨forall_isText_configure_iff done, precedence_grammar (nodup_signs_configure calls done),
    later.constructOf_constructTable, report_eq_ok_iff⟩

/-- Makes a construct of a head that is no text, which only a list of pairs can. -/
def nullPairs : Json := .obj [("scoping_constructs", .arr [.arr [.null, .str "Do"]])]

/-- A key that is null is accepted, and no report can be written about it. -/
theorem configure_run_nullPairs :
    ∃ later, (run []).configure nullPairs = .ok later ∧ ¬∃ report, later.report = .ok report := by
  have accepted :
      ((run []).configure nullPairs).toOption.map constructs = some [(.null, .loop)] := by
    decide +kernel
  cases done : (run []).configure nullPairs with
  | error error =>
    rw [done] at accepted
    cases accepted
  | ok later =>
    rw [done] at accepted
    have constructs : later.constructs = [(.null, .loop)] := Option.some.inj accepted
    obtain ⟨_, _, _, report⟩ := (configure_run [] nullPairs).2 later done
    refine ⟨later, rfl, fun reported => ?_⟩
    rcases report.mp reported with texts | numbers
    · rw [constructs] at texts
      obtain ⟨_, same⟩ := List.forall_mem_singleton.mp texts
      cases same
    · rw [constructs] at numbers
      exact List.forall_mem_singleton.mp numbers

/-- What a value would have to do to a configuration if every section could be used: it is accepted
or the reasons against it are reported, and once it is accepted, its keys are texts and a report can
be written. -/
structure IsAccountable (config : Config) (value : Json) : Prop where
  refused : ∀ error, config.configure value ≠ .error (.badSection error)
  usable : ∀ later, config.configure value = .ok later →
    (∀ entry ∈ later.constructs, entry.1.IsText) ∧ ∃ report, later.report = .ok report

/-- A number is no section. -/
theorem not_isAccountable : ¬∀ value, IsAccountable empty value := by
  intro accountable
  have bad : HasBadSection (.obj [(precedenceKey, .int 5)]) := by
    refine ⟨_, rfl, by decide +kernel, precedenceKey, List.mem_cons_self, .int 5, rfl, ?_⟩
    rintro (empty | ⟨_, same⟩ | ⟨_, same, _⟩)
    · cases empty
    · cases same
    · cases same
  obtain ⟨error, refused⟩ := (exists_badSection_iff empty _).mpr bad
  exact (accountable _).refused error refused

end Config

end WolframSyntax
