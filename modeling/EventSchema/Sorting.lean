namespace EventSchema
namespace Sorting

/-!
# Stable sorting

Listings are answered in sorted order: the files of a folder by path, the back
references of an attribute by group and type, the rows of a table by number.
`sort` is insertion sort, which keeps the order of entries that compare equal
and computes by structural recursion, so that sorted listings evaluate inside
a proof.
-/

variable {α : Type}

/-- Put an entry in front of the first one it may precede. -/
def insert (le : α -> α -> Bool) (entry : α) : List α -> List α
  | [] => [entry]
  | head :: rest =>
      if le entry head then entry :: head :: rest
      else head :: insert le entry rest

/-- Sort a list; entries that compare equal keep their order. -/
def sort (le : α -> α -> Bool) (entries : List α) : List α :=
  entries.foldr (insert le) []

end Sorting
end EventSchema
