import WolframSyntax.Production.Basic

/-!
# Building trees from productions

The record of a production is read from its start. Where a mark was opened, its wrappers are opened
with it, outermost first; where a mark was closed, the tokens up to its end become leaves and the
innermost open mark, which must be the one closed, becomes a node. The first mark becomes the root,
must be closed last, and takes all tokens to the end of the list.
-/

namespace WolframSyntax

/-- A tree that is being made: how many tokens have become leaves, the open marks with the children
they have so far, innermost first, and the last tree that was finished outside of all marks. -/
structure Assembly where
  next : Nat
  stack : List (MarkId × List SyntaxTree)
  root : Option SyntaxTree

namespace Assembly

/-- The assembly with the tokens in front of `stop` as leaves of the innermost open mark. -/
def flush (tokens : List Token) (stop : Nat) (assembly : Assembly) : Assembly :=
  match assembly.stack with
  | [] => assembly
  | (id, children) :: outer =>
    let pending := (tokens.take stop).drop assembly.next
    let leaves := (pending.filter fun token => !token.isEnd).map SyntaxTree.leaf
    { assembly with
      next := max assembly.next stop
      stack := (id, children ++ leaves) :: outer }

/-- The assembly with marks opened, the last of which becomes the innermost. -/
def openAll (marks : List MarkId) (assembly : Assembly) : Assembly :=
  { assembly with stack := marks.foldl (fun stack id => (id, []) :: stack) assembly.stack }

/-- The assembly after the innermost mark has become a node. -/
def close (content : Content) (assembly : Assembly) : Assembly :=
  match assembly.stack with
  | [] => assembly
  | (_, children) :: outer =>
    let tree : SyntaxTree := .node () content children
    match outer with
    | [] => { assembly with stack := [], root := some tree }
    | (id, siblings) :: outer =>
      { assembly with stack := (id, siblings ++ [tree]) :: outer }

end Assembly

namespace Production

/-- The marks of a chain that have not been dropped, outermost first. -/
def standing (production : Production) (chain : List MarkId) : List MarkId :=
  chain.reverse.filter fun id => production.marks[id]?.any fun mark => !mark.dropped

/-- One entry of the record as a step of the assembly. -/
def assemble (production : Production) (assembly : Assembly) :
    ProductionEvent → Except ProductionError Assembly
  | .opened id => do
    let mark ← production.mark? id
    return (assembly.flush production.tokens mark.start).openAll (production.standing mark.chain)
  | .closed id => do
    let mark ← production.mark? id
    if mark.dropped then return assembly
    match assembly.stack, mark.stop, mark.kind with
    | (top, _) :: _, some stop, some kind =>
      if top = id then
        return (assembly.flush production.tokens stop).close
          ⟨kind, none, mark.message, mark.position⟩
      else throw (.unbalanced mark)
    | _, _, _ => throw (.unbalanced mark)

/-- The tree of a production whose root is complete. -/
def assembleAll (production : Production) : Except ProductionError SyntaxTree := do
  let assembly ← production.record.reverse.foldlM production.assemble ⟨0, [], none⟩
  match assembly.stack, assembly.root with
  | [], some root => return root
  | _, _ => throw .unclosed

/-- The tree of a production, and the production with its root extended to the end of the token
list. -/
def build (production : Production) : Production × Except ProductionError SyntaxTree :=
  match production.record.getLast?, production.record.head? with
  | some (.opened root), some last =>
    if last = .closed root then
      let extended := production.update root fun mark =>
        { mark with stop := some production.tokens.length }
      (extended, extended.assembleAll)
    else (production, .error .rootNotLast)
  | _, _ => (production, .error .nothingParsed)

end Production

end WolframSyntax
