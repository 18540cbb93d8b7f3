import Mathlib.Data.List.Nodup
import WolframSyntax.Config.Section
import WolframSyntax.Json.Reader

/-!
# Entry lists as mappings

Values are put into a list of entries one after another, and the last one for a key counts
(`Json.get?_foldl_put`). If none of them contradicts what the list says already, the list only grows
at its end (`Json.prefix_foldl_put`), and it says in the end what it said before and what was put in
(`Json.get?_foldl_put_eq_some_iff`). The objects of a text that is read have distinct keys, and so
have their values (`Json.hasDistinctKeys_of_parse?`).
-/

namespace WolframSyntax

namespace Json

section Entries

variable {Key Value : Type} {same : Key → Key → Bool} {key new : Key} {value : Value}
  {entries left : List (Key × Value)}

/-- A key is looked up in the first entry and then in the others. -/
theorem get?_cons (same : Key → Key → Bool) (key : Key) (entry : Key × Value)
    (entries : List (Key × Value)) :
    get? same key (entry :: entries)
      = if same entry.1 key then some entry.2 else get? same key entries := by
  unfold get?
  rw [List.find?_cons]
  cases same entry.1 key <;> rfl

/-- A key is looked up in one list of entries and then in the next. -/
theorem get?_append (same : Key → Key → Bool) (key : Key) (left right : List (Key × Value)) :
    get? same key (left ++ right) = (get? same key left).or (get? same key right) := by
  unfold get?
  rw [List.find?_append]
  cases left.find? _ <;> rfl

/-- A value for a key leaves those entries alone that do not contradict it. -/
theorem prefix_put (before : left <+: entries)
    (agrees : ∀ earlier, get? same key left = some earlier → earlier = value) :
    left <+: put same key value entries := by
  induction left generalizing entries with
  | nil => exact List.nil_prefix
  | cons entry left ih =>
    obtain ⟨rest, rfl⟩ := before
    rw [List.cons_append, put]
    rw [get?_cons] at agrees
    split
    · next isSame =>
      rw [if_pos isSame] at agrees
      obtain rfl := agrees entry.2 rfl
      exact List.prefix_append (entry :: left) rest
    · next other =>
      rw [if_neg other] at agrees
      exact List.cons_prefix_cons.mpr ⟨rfl, ih (List.prefix_append left rest) agrees⟩

/-- Entries that agree with those of a mapping are added behind them. -/
theorem prefix_foldl_put {added : List (Key × Value)} (before : left <+: entries)
    (agrees : ∀ entry ∈ added, ∀ earlier, get? same entry.1 left = some earlier →
      earlier = entry.2) :
    left <+: added.foldl (fun all entry => put same entry.1 entry.2 all) entries := by
  induction added generalizing entries with
  | nil => exact before
  | cons entry added ih =>
    obtain ⟨first, later⟩ := List.forall_mem_cons.mp agrees
    exact ih (prefix_put before first) later

/-- A key that is found in the first entries is found in all of them. -/
theorem get?_of_prefix (before : left <+: entries) (found : get? same key left = some value) :
    get? same key entries = some value := by
  obtain ⟨rest, rfl⟩ := before
  rw [get?_append, found, Option.some_or]

/-- A key that is the same as itself only. -/
def IsSingle (same : Key → Key → Bool) (key : Key) : Prop :=
  ∀ other, (same other key ↔ other = key) ∧ (same key other ↔ other = key)

/-- Under equality every key is the same as itself only. -/
theorem isSingle_beq [BEq Key] [LawfulBEq Key] (key : Key) : IsSingle (· == ·) key :=
  fun _ => ⟨beq_iff_eq, beq_iff_eq.trans eq_comm⟩

/-- A value that is put in is found for its key, and the others are as before. -/
theorem get?_put (single : IsSingle same new) (key : Key) (value : Value)
    (entries : List (Key × Value)) :
    get? same key (put same new value entries)
      = if same new key then some value else get? same key entries := by
  induction entries with
  | nil => exact get?_cons same key (new, value) []
  | cons entry entries ih =>
    rw [put]
    split
    · next isSame =>
      obtain rfl := (single entry.1).1.mp isSame
      simp only [get?_cons]
      split <;> rfl
    · next other =>
      rw [get?_cons, ih, get?_cons]
      by_cases isNew : same new key
      · obtain rfl := (single key).2.mp isNew
        rw [if_neg other, if_pos isNew, if_pos isNew]
      · rw [if_neg isNew, if_neg isNew]

/-- Of the values that are put in for a key the last one counts. -/
theorem get?_foldl_put {added : List (Key × Value)}
    (single : ∀ entry ∈ added, IsSingle same entry.1) (key : Key) (entries : List (Key × Value)) :
    get? same key (added.foldl (fun all entry => put same entry.1 entry.2 all) entries)
      = (get? same key added.reverse).or (get? same key entries) := by
  induction added generalizing entries with
  | nil => rfl
  | cons entry added ih =>
    obtain ⟨first, later⟩ := List.forall_mem_cons.mp single
    rw [List.foldl_cons, ih later, get?_put first, List.reverse_cons, get?_append, Option.or_assoc,
      get?_cons]
    split <;> rfl

/-- In a list in which no key is repeated, all entries are found. -/
theorem get?_reverse_eq_some_iff {added : List (Key × Value)}
    (single : ∀ entry ∈ added, IsSingle same entry.1) (distinct : (added.map Prod.fst).Nodup) :
    get? same key added.reverse = some value ↔
      ∃ entry ∈ added, same entry.1 key ∧ entry.2 = value := by
  unfold get?
  rw [Option.map_eq_some_iff]
  constructor
  · rintro ⟨entry, found, rfl⟩
    exact ⟨entry, List.mem_reverse.mp (List.mem_of_find?_eq_some found),
      (List.find?_some found :), rfl⟩
  · rintro ⟨entry, present, isSame, rfl⟩
    obtain rfl := ((single entry present) key).2.mp isSame
    cases found : added.reverse.find? fun other => same other.1 entry.1 with
    | none =>
      exact absurd isSame (List.find?_eq_none.mp found entry (List.mem_reverse.mpr present))
    | some other =>
      have among := List.mem_reverse.mp (List.mem_of_find?_eq_some found)
      have sameKey := ((single entry present) other.1).1.mp (List.find?_some found :)
      rw [List.inj_on_of_nodup_map distinct among present sameKey]
      exact ⟨entry, rfl, rfl⟩

/-- After values have been put in that contradict nothing, the list says what it said before and
what was put in. -/
theorem get?_foldl_put_eq_some_iff {added : List (Key × Value)}
    (single : ∀ entry ∈ added, IsSingle same entry.1) (distinct : (added.map Prod.fst).Nodup)
    (agrees : ∀ entry ∈ added, ∀ earlier, get? same entry.1 entries = some earlier →
      earlier = entry.2) :
    get? same key (added.foldl (fun all entry => put same entry.1 entry.2 all) entries) = some value
      ↔ get? same key entries = some value ∨
        ∃ entry ∈ added, same entry.1 key ∧ entry.2 = value := by
  rw [get?_foldl_put single, ← get?_reverse_eq_some_iff single distinct]
  cases found : get? same key added.reverse with
  | none => simp
  | some last =>
    rw [Option.some_or, Option.some.injEq]
    refine ⟨.inr, fun either => either.elim (fun before => ?_) id⟩
    obtain ⟨entry, present, isSame, rfl⟩ := (get?_reverse_eq_some_iff single distinct).mp found
    obtain rfl := ((single entry present) key).2.mp isSame
    exact (agrees entry present value before).symm

end Entries

/-! ## The objects of a text -/

/-- If the value is an object, no key of it is repeated. -/
def HasDistinctKeys (value : Json) : Prop :=
  ∀ entries, value = .obj entries → (entries.map Prod.fst).Nodup

/-- A key of a mapping with one more entry is that of the entry or was there. -/
theorem mem_map_fst_put {Key Value : Type} {same : Key → Key → Bool} {key other : Key}
    {value : Value} {entries : List (Key × Value)}
    (among : other ∈ (put same key value entries).map Prod.fst) :
    other = key ∨ other ∈ entries.map Prod.fst := by
  induction entries with
  | nil => exact .inl (List.mem_singleton.mp among)
  | cons entry entries ih =>
    rw [put] at among
    split at among
    · exact .inr among
    · rcases List.mem_cons.mp among with rfl | later
      · exact .inr List.mem_cons_self
      · exact (ih later).imp_right (List.mem_cons_of_mem _)

/-- One more entry leaves the keys distinct. -/
theorem nodup_put {Key Value : Type} [BEq Key] [LawfulBEq Key] {entries : List (Key × Value)}
    (key : Key) (value : Value) (distinct : (entries.map Prod.fst).Nodup) :
    ((put (· == ·) key value entries).map Prod.fst).Nodup := by
  induction entries with
  | nil => exact List.nodup_singleton key
  | cons entry entries ih =>
    obtain ⟨first, rest⟩ := List.nodup_cons.mp distinct
    rw [put]
    split
    · exact distinct
    · next other =>
      refine List.nodup_cons.mpr ⟨fun later => ?_, ih rest⟩
      rcases mem_map_fst_put later with isKey | among
      · exact other (beq_iff_eq.mpr isKey)
      · exact first among

/-- A condition on all values is kept by one more value that meets it. -/
theorem forall_mem_put {condition : Json → Prop} {entries : List (String × Json)} (key : String)
    {value : Json} (new : condition value) (old : ∀ entry ∈ entries, condition entry.2) :
    ∀ entry ∈ put (· == ·) key value entries, condition entry.2 := by
  induction entries with
  | nil => exact List.forall_mem_singleton.mpr new
  | cons entry entries ih =>
    obtain ⟨first, rest⟩ := List.forall_mem_cons.mp old
    rw [put]
    split
    · exact List.forall_mem_cons.mpr ⟨new, rest⟩
    · exact List.forall_mem_cons.mpr ⟨first, ih rest⟩

/-- An object that is made of entries has distinct keys. -/
theorem nodup_of_ofEntries_eq {entries fields : List (String × Json)}
    (made : ofEntries entries = .obj fields) : (fields.map Prod.fst).Nodup := by
  cases made
  refine List.foldlRecOn (motive := fun fields : List (String × Json) =>
    (fields.map Prod.fst).Nodup) entries _ List.nodup_nil ?_
  exact fun before distinct entry _ => nodup_put entry.1 entry.2 distinct

/-- The values of an object are among those that it was made of. -/
theorem forall_of_ofEntries_eq {entries fields : List (String × Json)}
    (made : ofEntries entries = .obj fields) {condition : Json → Prop}
    (all : ∀ entry ∈ entries, condition entry.2) : ∀ field ∈ fields, condition field.2 := by
  cases made
  refine List.foldlRecOn (motive := fun fields : List (String × Json) =>
    ∀ field ∈ fields, condition field.2) entries _ (List.forall_mem_nil _) ?_
  exact fun before old entry among => forall_mem_put entry.1 (all entry among) old

/-- No scalar is an object. -/
theorem not_obj_of_readScalar {characters rest : List Char} {fields : List (String × Json)} :
    readScalar characters ≠ some (.obj fields, rest) := by
  intro read
  have number : ∀ {negative whole characters},
      readNumberRest negative whole characters ≠ some (.obj fields, rest) := by
    intro negative whole characters read
    unfold readNumberRest at read
    dsimp only at read
    split at read
    · cases read
    · split at read <;> cases read
  have magnitude : ∀ {negative characters},
      readMagnitude negative characters ≠ some (.obj fields, rest) := by
    intro negative characters read
    unfold readMagnitude at read
    split at read
    · exact number read
    · dsimp only at read
      split at read
      · cases read
      · exact number read
  unfold readScalar at read
  split at read
  · next constant =>
    cases read
    obtain ⟨entry, among, found⟩ := List.exists_of_findSome?_eq_some constant
    dsimp only at found
    split at found
    · have same := (Prod.mk.inj (Option.some.inj found)).1
      simp only [constants, List.mem_cons, List.not_mem_nil, or_false] at among
      rcases among with rfl | rfl | rfl | rfl | rfl | rfl <;> cases same
    · cases found
  · split at read <;> exact magnitude read

/-- An object that is read is empty or made of entries. -/
theorem exists_readEntries_of_readValue {budget : Nat} {characters rest : List Char}
    {fields : List (String × Json)}
    (read : readValue budget characters = some (.obj fields, rest)) :
    fields = [] ∨ ∃ budget characters entries rest,
      readEntries budget characters = some (entries, rest) ∧ ofEntries entries = .obj fields := by
  cases budget with
  | zero => cases read
  | succ budget =>
    unfold readValue at read
    split at read
    · obtain ⟨_, _, same⟩ := Option.map_eq_some_iff.mp read
      cases same
    · split at read
      · cases read
      · obtain ⟨_, _, same⟩ := Option.map_eq_some_iff.mp read
        cases same
    · split at read
      · cases read
        exact .inl rfl
      · obtain ⟨⟨entries, after⟩, found, same⟩ := Option.map_eq_some_iff.mp read
        exact .inr ⟨budget, _, entries, after, found, (Prod.mk.inj same).1⟩
    · exact absurd read not_obj_of_readScalar

/-- The values of an object are read from its text. -/
theorem exists_readValue_of_readEntries {budget : Nat} {characters rest : List Char}
    {entries : List (String × Json)} (read : readEntries budget characters = some (entries, rest)) :
    ∀ entry ∈ entries, ∃ budget characters rest,
      readValue budget characters = some (entry.2, rest) := by
  induction budget generalizing characters entries rest with
  | zero => cases read
  | succ budget ih =>
    unfold readEntries at read
    split at read
    · split at read
      · cases read
      · split at read
        · split at read
          · cases read
          · next value after first =>
            split at read
            · cases read
              exact List.forall_mem_singleton.mpr ⟨budget, _, after, first⟩
            · obtain ⟨⟨others, end'⟩, later, same⟩ := Option.map_eq_some_iff.mp read
              cases same
              exact List.forall_mem_cons.mpr ⟨⟨budget, _, after, first⟩, ih later⟩
            · cases read
        · cases read
    · cases read

/-- A value that is read has distinct keys. -/
theorem hasDistinctKeys_of_readValue {budget : Nat} {characters rest : List Char} {value : Json}
    (read : readValue budget characters = some (value, rest)) : value.HasDistinctKeys := by
  rintro fields rfl
  rcases exists_readEntries_of_readValue read with rfl | ⟨_, _, entries, _, _, made⟩
  · exact List.nodup_nil
  · exact nodup_of_ofEntries_eq made

/-- An object that is read has distinct keys, and so have the objects directly in it. -/
theorem hasDistinctKeys_of_parse? {text : String} {value : Json} (read : parse? text = some value) :
    value.HasDistinctKeys ∧
      ∀ entries, value = .obj entries → ∀ entry ∈ entries, entry.2.HasDistinctKeys := by
  obtain ⟨budget, characters, rest, whole⟩ :
      ∃ budget characters rest, readValue budget characters = some (value, rest) := by
    unfold parse? at read
    dsimp only at read
    split at read
    · next value rest whole =>
      split at read
      · cases read
        exact ⟨_, _, rest, whole⟩
      · cases read
    · cases read
  refine ⟨hasDistinctKeys_of_readValue whole, ?_⟩
  rintro fields rfl
  rcases exists_readEntries_of_readValue whole with rfl | ⟨_, _, entries, _, inside, made⟩
  · exact List.forall_mem_nil _
  · refine forall_of_ofEntries_eq made fun entry among => ?_
    obtain ⟨_, _, _, entryRead⟩ := exists_readValue_of_readEntries inside entry among
    exact hasDistinctKeys_of_readValue entryRead

end Json

/-- A text is no other key. -/
theorem ScalarKey.isSingle_text (name : String) : Json.IsSingle ScalarKey.same (.text name) := by
  intro other
  cases other with
  | text other => simp [ScalarKey.same, ScalarKey.asInteger?, eq_comm (a := name)]
  | null | bool | int | float => simp [ScalarKey.same, ScalarKey.asInteger?]

end WolframSyntax
