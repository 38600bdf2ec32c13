set_option autoImplicit false

/-!
# Stable sorting

Sorting that keeps elements in order which neither precedes the other. Elements are inserted one
after the other, each as far back as it may stand, so the result is defined for every relation and
not only for orders.

## Main definitions

* `insertFromEnd` — inserts an element into a sorted list that is given back to front.
* `stableSort` — a sorted list.
-/

namespace RecordQuery

variable {α : Type}

/-- Inserts an element into a list that is given back to front: past every element at the end that
it precedes, and no further. -/
def insertFromEnd (precedes : α → α → Bool) (a : α) : List α → List α
  | [] => [a]
  | b :: bs => if precedes a b then b :: insertFromEnd precedes a bs else a :: b :: bs

/-- The elements of a list in order. Elements of which neither precedes the other keep theirs. -/
def stableSort (precedes : α → α → Bool) (as : List α) : List α :=
  (as.foldl (fun sorted a => insertFromEnd precedes a sorted) []).reverse

end RecordQuery
