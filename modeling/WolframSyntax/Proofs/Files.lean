import WolframSyntax.Proofs.Tree
import WolframSyntax.Reading.File

/-!
# What all words of a file keep

Between two words a file is a list of trees and perhaps an expression that has been begun. A
property of the trees and one of the expressions are kept by all words of a file if they hold of
what a word begins and of what becomes of an expression when a word is in view
(`FileReading.IsKept`). Then they hold on the whole way (`FileReading.Holds.foldl_read`) and of the
children of the tree (`FileReading.forall_mem_children_tree`).
-/

namespace WolframSyntax.FileReading

open SyntaxTree

variable {grammar : Grammar} {regular : Word → Prop} {trees : SyntaxTree → Prop}
  {expressions : Reading → Prop} {file : FileReading} {word : Word}

/-- All children of a file have one property, and its current expression has another one. -/
structure Holds (trees : SyntaxTree → Prop) (expressions : Reading → Prop) (file : FileReading) :
    Prop where
  below : ∀ child ∈ file.children, trees child
  current : ∀ reading ∈ file.current, expressions reading

/-- Whatever regular word is read, the trees and the expressions of a file keep their properties. -/
structure IsKept (grammar : Grammar) (regular : Word → Prop) (trees : SyntaxTree → Prop)
    (expressions : Reading → Prop) : Prop where
  leaf : ∀ token, trees (leaf token)
  skipped : ∀ word, regular word → trees (skipped word)
  begins : ∀ word opening, regular word → Word.opening? word = some opening →
    expressions (Reading.begin [] opening word.token)
  continues : ∀ reading word next, regular word → expressions reading →
    reading.read (surroundings grammar) word = .reading next → expressions next
  finishes : ∀ reading word outcome, regular word → expressions reading →
    reading.read (surroundings grammar) word = .finished (some outcome) → trees outcome.tree

theorem holds_empty : empty.Holds trees expressions :=
  ⟨List.forall_mem_nil _, fun _ none => by cases none⟩

/-- The tokens before a word may stand in the tree. -/
theorem IsKept.leadLeaves (kept : IsKept grammar regular trees expressions) (word : Word) :
    ∀ child ∈ word.leadLeaves, trees child := by
  intro child present
  obtain ⟨token, _, rfl⟩ := List.mem_map.mp present
  exact kept.leaf token

/-- The file goes on with a word that begins an expression, or keeps it as a skipped token. -/
theorem IsKept.beginWith (kept : IsKept grammar regular trees expressions)
    {children : List SyntaxTree} (below : ∀ child ∈ children, trees child) (known : regular word) :
    (beginWith children word).Holds trees expressions := by
  have withLead := List.forall_mem_append.mpr ⟨below, kept.leadLeaves word⟩
  unfold FileReading.beginWith
  dsimp only
  split
  · next opening opens =>
    refine ⟨withLead, fun reading same => ?_⟩
    cases same
    exact kept.begins word opening known opens
  · have last := List.forall_mem_singleton.mpr (kept.skipped word known)
    exact ⟨List.forall_mem_append.mpr ⟨withLead, last⟩, fun _ none => by cases none⟩

/-- What is kept by each reading is kept by the file when an expression is finished. -/
theorem Holds.finished (holds : file.Holds trees expressions)
    (kept : IsKept grammar regular trees expressions) (known : regular word) {reading : Reading}
    (current : file.current = some reading) {outcome : Option Outcome}
    (progress : reading.read (surroundings grammar) word = .finished outcome) :
    ∀ child ∈ file.children ++ (outcome.map Outcome.tree).toList, trees child := by
  refine List.forall_mem_append.mpr ⟨holds.below, fun child present => ?_⟩
  obtain ⟨finished, rfl, rfl⟩ := Option.map_eq_some_iff.mp (Option.mem_toList.mp present)
  exact kept.finishes reading word finished known (holds.current reading current) progress

/-- One word keeps what holds of the trees and of the expression being read. -/
theorem Holds.read (holds : file.Holds trees expressions)
    (kept : IsKept grammar regular trees expressions) (known : regular word) :
    (file.read grammar word).Holds trees expressions := by
  unfold FileReading.read
  split
  · exact kept.beginWith holds.below known
  · next reading current =>
    split
    · next next progress =>
      refine ⟨holds.below, fun other same => ?_⟩
      cases same
      exact kept.continues reading word next known (holds.current reading current) progress
    · next outcome progress =>
      exact kept.beginWith (holds.finished kept known current progress) known

/-- What holds of the trees and of the expression is kept over any number of words. -/
theorem Holds.foldl_read (holds : file.Holds trees expressions)
    (kept : IsKept grammar regular trees expressions) {words : List Word}
    (known : ∀ word ∈ words, regular word) :
    (words.foldl (FileReading.read grammar) file).Holds trees expressions := by
  induction words generalizing file with
  | nil => exact holds
  | cons word words ih =>
    obtain ⟨first, later⟩ := List.forall_mem_cons.mp known
    exact ih (holds.read kept first) later

/-- At the end of the file every tree that was kept, and the last expression, is as it should be. -/
theorem Holds.finish (holds : file.Holds trees expressions)
    (kept : IsKept grammar regular trees expressions) (known : regular word) :
    ∀ child ∈ file.finish grammar word, trees child := by
  unfold FileReading.finish
  split
  · exact holds.below
  · next reading current =>
    split
    · exact holds.below
    · next outcome progress => exact holds.finished kept known current progress

/-- What all words and the ending keep holds of the children of the tree. -/
theorem forall_mem_children_tree (kept : IsKept grammar regular trees expressions)
    {words : List Word} (known : ∀ word ∈ words, regular word) {ending : Word}
    (knownEnding : regular ending) (beyond : List Token) :
    ∀ child ∈ (tree grammar words ending beyond).children, trees child := by
  have finished := (holds_empty.foldl_read kept known).finish kept knownEnding
  refine List.forall_mem_append.mpr
    ⟨List.forall_mem_append.mpr ⟨finished, kept.leadLeaves ending⟩, fun child present => ?_⟩
  obtain ⟨token, _, rfl⟩ := List.mem_map.mp present
  exact kept.leaf token

end WolframSyntax.FileReading
