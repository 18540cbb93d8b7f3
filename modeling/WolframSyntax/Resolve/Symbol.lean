import WolframSyntax.Resolve.Definition
import WolframSyntax.Scope.Classifier

/-!
# Resolving symbols

Where an occurrence of a name gets its meaning. The constructs around the occurrence are asked from
the inside out, and the first one that declares the name decides. If none does, the first definition
of the name anywhere in the tree counts.
-/

namespace WolframSyntax

/-- The occurrence that gives a name its meaning, and the construct that declares it, if one
does. -/
structure Resolution where
  definition : StampedTree
  scope : Option (StampedTree × Construct)

namespace Resolution

/-- Whether a construct declares the name. -/
def isLocal (resolution : Resolution) : Bool := resolution.scope.isSome

/-- The construct that declares the name. -/
def construct (resolution : Resolution) : Construct :=
  (resolution.scope.map Prod.snd).getD .null

end Resolution

namespace Classifier

/-- The declaration of `name` for `place` by the trees around `last`, from the inside out. -/
def declarationAround (classifier : Classifier) (name : String) (place : Occurrence Stamp) :
    StampedTree → List StampedTree → Option Resolution × Classifier
  | _, [] => (none, classifier)
  | last, element :: outer =>
    let (declared, classifier) := classifier.declarations element ⟨last, element :: outer⟩ place
    match declared.find? fun symbol => symbol.text == name with
    | some definition =>
      let (construct, classifier) := classifier.classify element
      (some ⟨definition, some (element, construct)⟩,
        classifier.note (.foundLocal name construct element.position))
    | none => declarationAround classifier name place element outer

/-- Where the name of an occurrence gets its meaning. -/
def resolve (classifier : Classifier) (place : Occurrence Stamp) :
    Option Resolution × Classifier :=
  let name := place.tree.text
  match classifier.declarationAround name place place.tree place.ancestors with
  | (some resolution, classifier) => (some resolution, classifier)
  | (none, classifier) =>
    match place.root.globalDefinition? name with
    | some definition => (some ⟨definition, none⟩, classifier)
    | none => (none, classifier.note (.foundNothing name))

end Classifier

namespace Occurrence

/-- The first symbol below an occurrence with the given name, in document order. -/
def findSymbol? (occurrence : Occurrence Stamp) (name : String) : Option (Occurrence Stamp) :=
  (occurrence.tree.occurrencesWithin occurrence.ancestors).find? fun inner =>
    inner.tree.kind == .symbol && inner.tree.text == name

end Occurrence

namespace Classifier

/-- A place as line and column. -/
def placeText (position : Position) : String :=
  toString position.line ++ ":" ++ toString position.col

/-- Where the first occurrence of a name below a node gets its meaning, as one line. -/
def describe (classifier : Classifier) (occurrence : Occurrence Stamp) (name : String) :
    String × Classifier :=
  match occurrence.findSymbol? name with
  | none => (name ++ ": no such symbol", classifier)
  | some place =>
    let subject := name ++ " at " ++ placeText place.tree.position ++ ": "
    match classifier.resolve place with
    | (none, classifier) => (subject ++ "no definition found", classifier)
    | (some resolution, classifier) =>
      let definition := placeText resolution.definition.position
      match resolution.scope with
      | some (_, construct) =>
        (subject ++ "local to " ++ construct.name ++ ", declared at " ++ definition, classifier)
      | none => (subject ++ "defined at " ++ definition, classifier)

end Classifier

end WolframSyntax
