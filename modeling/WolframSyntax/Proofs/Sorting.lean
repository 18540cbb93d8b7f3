import Mathlib.Data.List.Chain
import Mathlib.Data.List.Perm.Basic
import WolframSyntax.Config.Sorting

/-!
# What sorting by comparisons that may fail comes to

Sorting keeps the items (`Sorting.perm_of_sort`). It is done if all items can be compared
(`Sorting.exists_sort_eq_ok`), and since every item takes part in a comparison, it is done only if
all items are related by what a comparison needs, when that is symmetric and transitive
(`Sorting.related_of_sort`).
-/

namespace WolframSyntax.Sorting

variable {Item Failure : Type} {before : Item → Item → Except Failure Bool} {falls : Bool}
  {item last : Item} {items sorted run rest : List Item} {steps low high : Nat}

/-- Whether two items can be compared. -/
def Compares (before : Item → Item → Except Failure Bool) (left right : Item) : Prop :=
  ∃ isBefore, before left right = .ok isBefore

theorem follow_cons (before : Item → Item → Except Failure Bool) (falls : Bool) (last item : Item)
    (items : List Item) :
    follow before falls last (item :: items) =
      match before item last with
      | .error failure => .error failure
      | .ok isBefore =>
        if isBefore == falls then
          (follow before falls item items).map fun (run, rest) => (item :: run, rest)
        else .ok ([], item :: items) := by
  rw [follow]
  cases before item last with
  | error failure => rfl
  | ok isBefore =>
    dsimp only [bind, Except.bind]
    split
    · cases follow before falls item items <;> rfl
    · rfl

/-- A run and what is behind it are the items, and each item of the run was compared with the one in
front of it. -/
theorem of_follow_eq_ok (done : follow before falls last items = .ok (run, rest)) :
    run ++ rest = items ∧
      List.IsChain (fun left right => Compares before right left) (last :: run) := by
  induction items generalizing last run with
  | nil =>
    cases done
    exact ⟨rfl, List.isChain_singleton last⟩
  | cons item items ih =>
    rw [follow_cons] at done
    split at done
    · cases done
    · next isBefore compared =>
      split at done
      · cases inner : follow before falls item items with
        | error failure =>
          rw [inner] at done
          cases done
        | ok pair =>
          rw [inner] at done
          cases done
          obtain ⟨same, chain⟩ := ih inner
          exact ⟨congrArg (item :: ·) same, .cons_cons ⟨isBefore, compared⟩ chain⟩
      · cases done
        exact ⟨rfl, List.isChain_singleton last⟩

/-- A run is found where all items can be compared. -/
theorem exists_follow_eq_ok (falls : Bool)
    (compares : ∀ left ∈ last :: items, ∀ right ∈ last :: items, Compares before left right) :
    ∃ run rest, follow before falls last items = .ok (run, rest) := by
  induction items generalizing last with
  | nil => exact ⟨[], [], rfl⟩
  | cons item items ih =>
    obtain ⟨isBefore, compared⟩ :=
      compares item (List.mem_cons_of_mem _ List.mem_cons_self) last List.mem_cons_self
    obtain ⟨run, rest, done⟩ := ih fun left among right present =>
      compares left (List.mem_cons_of_mem _ among) right (List.mem_cons_of_mem _ present)
    rw [follow_cons, compared, done]
    dsimp only
    split
    · exact ⟨item :: run, rest, rfl⟩
    · exact ⟨[], item :: items, rfl⟩

/-- The item is compared with one of the places, if there are any. -/
theorem exists_compares_of_place {index : Nat}
    (done : place before item sorted (steps + 1) low high = .ok index) (some : low < high)
    (inside : high ≤ sorted.length) : ∃ other ∈ sorted, Compares before item other := by
  have middle : (low + high) / 2 < sorted.length := by omega
  rw [place, List.getElem?_eq_getElem middle] at done
  dsimp only at done
  rw [if_neg (by omega)] at done
  cases compared : before item sorted[(low + high) / 2] with
  | error failure =>
    rw [compared] at done
    cases done
  | ok isBefore => exact ⟨_, List.getElem_mem middle, isBefore, compared⟩

/-- A place is found where the item can be compared with the others. -/
theorem exists_place_eq_ok (steps low high : Nat)
    (compares : ∀ other ∈ sorted, Compares before item other) :
    ∃ index, place before item sorted steps low high = .ok index := by
  induction steps generalizing low high with
  | zero => exact ⟨low, rfl⟩
  | succ steps ih =>
    rw [place]
    split
    · exact ⟨low, rfl⟩
    · next other found =>
      split
      · exact ⟨low, rfl⟩
      · obtain ⟨isBefore, compared⟩ := compares other (List.mem_of_getElem? found)
        rw [compared]
        cases isBefore
        · exact ih _ _
        · exact ih _ _

/-- A place is not behind the end. -/
theorem place_le {index : Nat} (done : place before item sorted steps low high = .ok index)
    (ordered : low ≤ high) (inside : high ≤ sorted.length) : index ≤ sorted.length := by
  induction steps generalizing low high with
  | zero =>
    cases done
    omega
  | succ steps ih =>
    rw [place] at done
    split at done
    · cases done
      omega
    · split at done
      · cases done
        omega
      · next other found more =>
        cases compared : before item other with
        | error failure =>
          rw [compared] at done
          cases done
        | ok isBefore =>
          rw [compared] at done
          cases isBefore
          · exact ih done (by omega) inside
          · exact ih done (by omega) (by omega)

/-- An item that is put in is one more item, and was compared with one of the others. -/
theorem of_putIn_eq_ok {result : List Item} (done : putIn before sorted item = .ok result) :
    result.Perm (item :: sorted) ∧
      (sorted ≠ [] → ∃ other ∈ sorted, Compares before item other) := by
  unfold putIn at done
  cases placed : place before item sorted (sorted.length + 1) 0 sorted.length with
  | error failure =>
    rw [placed] at done
    cases done
  | ok index =>
    rw [placed] at done
    cases done
    refine ⟨List.perm_insertIdx item sorted (place_le placed (Nat.zero_le _) (Nat.le_refl _)), ?_⟩
    intro some
    exact exists_compares_of_place placed (List.length_pos_iff.mpr some) (Nat.le_refl _)

/-- Items that are put in one by one are all there. -/
theorem perm_of_foldlM_putIn {result : List Item}
    (done : items.foldlM (putIn before) sorted = .ok result) : result.Perm (sorted ++ items) := by
  induction items generalizing sorted with
  | nil =>
    cases done
    rw [List.append_nil]
  | cons item items ih =>
    rw [List.foldlM_cons] at done
    cases put : putIn before sorted item with
    | error failure =>
      rw [put] at done
      cases done
    | ok between =>
      rw [put] at done
      calc
        result.Perm (between ++ items) := ih done
        List.Perm _ (item :: sorted ++ items) := (of_putIn_eq_ok put).1.append_right items
        List.Perm _ (sorted ++ item :: items) := List.perm_middle.symm

/-- An item can be put in where it can be compared with the others. -/
theorem exists_putIn_eq_ok (compares : ∀ other ∈ sorted, Compares before item other) :
    ∃ result, putIn before sorted item = .ok result := by
  obtain ⟨index, placed⟩ := exists_place_eq_ok (sorted.length + 1) 0 sorted.length compares
  exact ⟨sorted.insertIdx index item, by rw [putIn, placed]; rfl⟩

/-- Items can be put in one by one where all of them can be compared. -/
theorem exists_foldlM_putIn_eq_ok
    (compares : ∀ left ∈ sorted ++ items, ∀ right ∈ sorted ++ items, Compares before left right) :
    ∃ result, items.foldlM (putIn before) sorted = .ok result := by
  induction items generalizing sorted with
  | nil => exact ⟨sorted, rfl⟩
  | cons item items ih =>
    have present : item ∈ sorted ++ item :: items := by simp
    obtain ⟨between, put⟩ := exists_putIn_eq_ok fun other among =>
      compares item present other (List.mem_append_left _ among)
    have same : ∀ {other}, other ∈ between ++ items → other ∈ sorted ++ item :: items :=
      fun among => (List.perm_middle.symm.mem_iff).mp
        (((of_putIn_eq_ok put).1.append_right items).mem_iff.mp among)
    obtain ⟨result, done⟩ :=
      ih fun left among right present => compares left (same among) right (same present)
    exact ⟨result, by rw [List.foldlM_cons, put]; exact done⟩

/-! ## Sorting -/

/-- Two items or more begin with a run. -/
theorem sort_cons_cons (before : Item → Item → Except Failure Bool) (first second : Item)
    (items : List Item) :
    sort before (first :: second :: items) =
      match before second first with
      | .error failure => .error failure
      | .ok falls =>
        match follow before falls second items with
        | .error failure => .error failure
        | .ok (run, rest) =>
          rest.foldlM (putIn before)
            (if falls then (first :: second :: run).reverse else first :: second :: run) := by
  rw [sort]
  cases before second first with
  | error failure => rfl
  | ok falls =>
    dsimp only [bind, Except.bind]
    cases follow before falls second items <;> rfl

theorem perm_turn (falls : Bool) (items : List Item) :
    (if falls then items.reverse else items).Perm items := by
  split
  · exact List.reverse_perm items
  · exact .refl items

/-- A list of two or more items is sorted by following it and putting in the rest. -/
theorem exists_of_sort_eq_ok {first second : Item} {result : List Item}
    (done : sort before (first :: second :: items) = .ok result) :
    ∃ begun rest : List Item, Compares before second first ∧
      (begun ++ rest).Perm (first :: second :: items) ∧
      (∃ run, begun.Perm (first :: second :: run) ∧
        List.IsChain (fun left right => Compares before right left) (second :: run)) ∧
      rest.foldlM (putIn before) begun = .ok result := by
  rw [sort_cons_cons] at done
  split at done
  · cases done
  · next falls compared =>
    split at done
    · cases done
    · next run rest followed =>
      obtain ⟨same, chain⟩ := of_follow_eq_ok followed
      have begun := perm_turn falls (first :: second :: run)
      refine ⟨_, rest, ⟨falls, compared⟩, ?_, ⟨run, begun, chain⟩, done⟩
      rw [← same]
      exact begun.append_right rest

/-- Sorting keeps the items. -/
theorem perm_of_sort {result : List Item} (done : sort before items = .ok result) :
    result.Perm items := by
  match items with
  | [] | [_] =>
    cases done
    exact .refl _
  | first :: second :: items =>
    obtain ⟨begun, rest, _, same, _, put⟩ := exists_of_sort_eq_ok done
    exact (perm_of_foldlM_putIn put).trans same

/-- If all items can be compared they can be sorted. -/
theorem exists_sort_eq_ok
    (compares : ∀ left ∈ items, ∀ right ∈ items, Compares before left right) :
    ∃ result, sort before items = .ok result := by
  match items with
  | [] | [_] => exact ⟨_, rfl⟩
  | first :: second :: items =>
    obtain ⟨falls, compared⟩ :=
      compares second (List.mem_cons_of_mem _ List.mem_cons_self) first List.mem_cons_self
    obtain ⟨run, rest, followed⟩ := exists_follow_eq_ok falls
      fun left among right present =>
        compares left (List.mem_cons_of_mem _ among) right (List.mem_cons_of_mem _ present)
    have same := (of_follow_eq_ok followed).1
    rw [sort_cons_cons, compared]
    dsimp only
    rw [followed]
    refine exists_foldlM_putIn_eq_ok fun left among right present => ?_
    have begun := (perm_turn falls (first :: second :: run)).append_right rest
    rw [List.cons_append, List.cons_append, same] at begun
    exact compares left (begun.mem_iff.mp among) right (begun.mem_iff.mp present)

/-! ## What a comparison needs -/

section Related

variable (relation : Item → Item → Prop)
  (needs : ∀ left right, Compares before left right → relation left right)
  (symmetric : ∀ left right, relation left right → relation right left)
  (transitive : ∀ left middle right, relation left middle → relation middle right →
    relation left right)

include needs symmetric transitive

/-- Every item that is put in is related to those that are there. -/
theorem related_of_foldlM_putIn {first : Item} {result : List Item}
    (some : sorted ≠ []) (related : ∀ other ∈ sorted, relation first other)
    (done : items.foldlM (putIn before) sorted = .ok result) :
    ∀ item ∈ items, relation first item := by
  induction items generalizing sorted with
  | nil => exact List.forall_mem_nil _
  | cons item items ih =>
    rw [List.foldlM_cons] at done
    cases put : putIn before sorted item with
    | error failure =>
      rw [put] at done
      cases done
    | ok between =>
      rw [put] at done
      obtain ⟨same, compared⟩ := of_putIn_eq_ok put
      obtain ⟨other, among, compares⟩ := compared some
      have new : relation first item :=
        transitive _ _ _ (related other among) (symmetric _ _ (needs _ _ compares))
      have all : ∀ other ∈ between, relation first other := fun other present =>
        (List.mem_cons.mp (same.mem_iff.mp present)).elim (fun isNew => isNew ▸ new) (related other)
      have filled : between ≠ [] := fun none => by
        rw [none] at same
        exact absurd same.length_eq (by simp)
      exact List.forall_mem_cons.mpr ⟨new, ih filled all done⟩

/-- Items that are compared one after another are related to what the first one is related to. -/
theorem related_of_isChain {first second : Item}
    (related : relation first second)
    (chain : List.IsChain (fun left right => Compares before right left) (second :: run)) :
    ∀ item ∈ second :: run, relation first item := by
  induction run generalizing second with
  | nil => exact List.forall_mem_singleton.mpr related
  | cons next run ih =>
    obtain ⟨compared, rest⟩ := List.isChain_cons_cons.mp chain
    have toNext := transitive _ _ _ related (symmetric _ _ (needs _ _ compared))
    exact List.forall_mem_cons.mpr ⟨related, ih toNext rest⟩

/-- Two or more items that are sorted are all related by what a comparison needs. -/
theorem related_of_sort {first second : Item} {result : List Item}
    (done : sort before (first :: second :: items) = .ok result) :
    ∀ item ∈ first :: second :: items, relation first item := by
  obtain ⟨begun, rest, compared, same, ⟨run, isBegun, chain⟩, put⟩ := exists_of_sort_eq_ok done
  have toSecond := symmetric _ _ (needs _ _ compared)
  have toFirst := transitive _ _ _ toSecond (symmetric _ _ toSecond)
  have inRun := related_of_isChain relation needs symmetric transitive toSecond chain
  have inBegun : ∀ item ∈ begun, relation first item := fun item among =>
    (List.mem_cons.mp (isBegun.mem_iff.mp among)).elim (fun isFirst => isFirst ▸ toFirst)
      (inRun item)
  have filled : begun ≠ [] := fun none => by
    rw [none] at isBegun
    exact absurd isBegun.length_eq (by simp)
  have inRest := related_of_foldlM_putIn relation needs symmetric transitive filled inBegun put
  intro item among
  exact (List.mem_append.mp (same.mem_iff.mpr among)).elim (inBegun item) (inRest item)

end Related

end WolframSyntax.Sorting
