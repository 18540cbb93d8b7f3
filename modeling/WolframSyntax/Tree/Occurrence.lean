import WolframSyntax.Tree.Basic

/-!
# Occurrences

A tree inside another one, together with the trees around it. Walking up from an occurrence means
going through this list, innermost first.
-/

namespace WolframSyntax

/-- A tree with the trees around it, innermost first. -/
structure Occurrence (Label : Type) where
  tree : Tree Label
  ancestors : List (Tree Label)

namespace Occurrence

variable {Label : Type}

/-- The tree directly around the occurrence. -/
def parent? (occurrence : Occurrence Label) : Option (Tree Label) := occurrence.ancestors.head?

/-- The outermost tree. -/
def root (occurrence : Occurrence Label) : Tree Label :=
  occurrence.ancestors.getLast?.getD occurrence.tree

/-- The occurrence of a tree directly below. -/
def child (occurrence : Occurrence Label) (tree : Tree Label) : Occurrence Label :=
  ⟨tree, occurrence.tree :: occurrence.ancestors⟩

/-- The tree and the trees around it, innermost first. -/
def lineage (occurrence : Occurrence Label) : List (Tree Label) :=
  occurrence.tree :: occurrence.ancestors

end Occurrence

namespace Tree

variable {Label : Type}

mutual

/-- The occurrences of a tree and all trees below it, in document order, when `ancestors` are
around the tree. -/
def occurrencesWithin (ancestors : List (Tree Label)) : Tree Label → List (Occurrence Label)
  | node label content children =>
    ⟨node label content children, ancestors⟩ ::
      occurrencesOfAll (node label content children :: ancestors) children

/-- The occurrences of the trees of a list and all trees below them, in document order. -/
def occurrencesOfAll (ancestors : List (Tree Label)) : List (Tree Label) → List (Occurrence Label)
  | [] => []
  | tree :: trees => tree.occurrencesWithin ancestors ++ occurrencesOfAll ancestors trees

end

/-- The occurrences in a tree that stands alone, in document order. -/
def occurrences (tree : Tree Label) : List (Occurrence Label) := tree.occurrencesWithin []

end Tree

end WolframSyntax
