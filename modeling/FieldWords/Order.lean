/-!
# Sorting

What order and equality of a type come to on lists: the values in ascending order with duplicates
kept, and the number of different ones.
-/

namespace FieldWords

variable {α : Type}

/-- The values in ascending order. -/
def ascending [Ord α] (xs : List α) : List α := xs.mergeSort fun a b => (compare a b).isLE

/-- How many different values there are. -/
def countDistinct [DecidableEq α] (xs : List α) : Nat := xs.eraseDups.length

end FieldWords
