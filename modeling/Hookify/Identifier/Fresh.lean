namespace Hookify
namespace Identifier

/-!
# Fresh identifiers

When a wanted name is taken, the search goes on with `name2`, `name3`, and so
on.  One attempt more than there are taken names is enough, since the
candidates are all different.
-/

/-- The candidates for a name: the name itself, then the name with 2, 3, … appended. -/
def candidate (base : String) : Nat → String
  | 0 => base
  | index + 1 => base ++ toString (index + 2)

/-- The first candidate from `index` on that is not taken, within a number of attempts. -/
def searchFree (taken : List String) (base : String) (index : Nat) : Nat → String
  | 0 => candidate base index
  | attempts + 1 =>
      if taken.contains (candidate base index) then searchFree taken base (index + 1) attempts
      else candidate base index

/-- The first candidate for a name that is not taken. -/
def fresh (taken : List String) (base : String) : String :=
  searchFree taken base 0 taken.length

end Identifier
end Hookify
