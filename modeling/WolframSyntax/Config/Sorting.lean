/-!
# Sorting by comparisons that may fail

Sorting asks whether one item comes before another. Where the items cannot be compared the sorting
fails, and since the failure tells which items these were, the order of the comparisons matters. The
list is followed from its beginning as long as it rises or as long as it falls. Every item after
that is put in by halving: it is compared with the middle of what has been sorted.
-/

namespace WolframSyntax.Sorting

variable {Item Failure : Type}

/-- Follows a list as long as every item comes before the one in front of it, or as long as none
does: the items of that run and those after it. -/
def follow (before : Item → Item → Except Failure Bool) (falls : Bool) (last : Item) :
    List Item → Except Failure (List Item × List Item)
  | [] => .ok ([], [])
  | item :: items => do
    if (← before item last) == falls then
      let (run, rest) ← follow before falls item items
      return (item :: run, rest)
    else return ([], item :: items)

/-- The place of an item among the places from `low` to `high` of a sorted list, after those of its
equals. Each step halves what is left, so `steps` of them suffice for as many places. -/
def place (before : Item → Item → Except Failure Bool) (item : Item) (sorted : List Item) :
    Nat → Nat → Nat → Except Failure Nat
  | 0, low, _ => .ok low
  | steps + 1, low, high => do
    let middle := (low + high) / 2
    match sorted[middle]? with
    | none => return low
    | some other =>
      if high ≤ low then return low
      else if ← before item other then place before item sorted steps low middle
      else place before item sorted steps (middle + 1) high

/-- Puts an item into a sorted list. -/
def putIn (before : Item → Item → Except Failure Bool) (sorted : List Item) (item : Item) :
    Except Failure (List Item) := do
  return sorted.insertIdx (← place before item sorted (sorted.length + 1) 0 sorted.length) item

/-- The items in order; items that come before each other in neither way keep their order. -/
def sort (before : Item → Item → Except Failure Bool) :
    List Item → Except Failure (List Item)
  | first :: second :: items => do
    let falls ← before second first
    let (run, rest) ← follow before falls second items
    let run := first :: second :: run
    rest.foldlM (putIn before) (if falls then run.reverse else run)
  | items => .ok items

end WolframSyntax.Sorting
