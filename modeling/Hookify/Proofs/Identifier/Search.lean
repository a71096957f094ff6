import Hookify.Facts.Basic
import Hookify.Component.Draft
import Hookify.Proofs.Identifier.Fresh
import Mathlib.Data.Nat.Init

namespace Hookify

/-!
# The first free name

Looking for a free name means to try one candidate after the other until one is
not taken.  Nothing in this rule bounds the number of attempts, so that it is
stated here as a relation: the search that has come to a candidate ends at a
name if it stops there or goes on to the next candidate and ends at the name
from there.

The search ends whatever the names are that are taken, since there are only
finitely many of them.  It ends at one name only, the first candidate that is
free, and `fresh`, which makes as many attempts as there are taken names,
returns it.  This is how the references of a script are named, and how a draft
names what it adds.
-/

namespace Identifier

/-- The search that has come to the candidate with a number ends at a name. -/
inductive SearchEnds (taken : List String) (base : String) : Nat → String → Prop where
  | here {index : Nat} (free : candidate base index ∉ taken) :
      SearchEnds taken base index (candidate base index)
  | later {index : Nat} {name : String} (isTaken : candidate base index ∈ taken)
      (ends : SearchEnds taken base (index + 1) name) : SearchEnds taken base index name

/-- The name is free, and it is the first candidate that is. -/
structure IsFirstFree (taken : List String) (base name : String) : Prop where
  free : name ∉ taken
  isFirst : ∃ index, name = candidate base index ∧
    ∀ earlier, earlier < index → candidate base earlier ∈ taken

section Search

variable {taken : List String} {base name other : String} {index : Nat}

theorem SearchEnds.unique (ends : SearchEnds taken base index name)
    (also : SearchEnds taken base index other) : name = other := by
  induction ends with
  | here free =>
      cases also with
      | here => rfl
      | later isTaken => exact absurd isTaken free
  | later isTaken _ ih =>
      cases also with
      | here free => exact absurd isTaken free
      | later _ ends => exact ih ends

/-- The search passes over the candidates that are taken. -/
theorem searchEnds_of_taken {found : Nat} (free : candidate base found ∉ taken)
    (before : ∀ earlier, earlier < found → candidate base earlier ∈ taken) :
    ∀ {index}, index ≤ found → SearchEnds taken base index (candidate base found) := by
  intro index bound
  induction bound using Nat.decreasingInduction with
  | self => exact .here free
  | of_succ index below ih => exact .later (before index below) ih

theorem isFirstFree_fresh (taken : List String) (base : String) :
    IsFirstFree taken base (fresh taken base) := by
  obtain ⟨index, same, free, before⟩ := fresh_spec taken base
  exact ⟨same ▸ free, index, same, before⟩

/-- The search ends at the name that is found within the bounded number of attempts, and at no
other. -/
theorem searchEnds_iff : SearchEnds taken base 0 name ↔ name = fresh taken base := by
  obtain ⟨index, same, free, before⟩ := fresh_spec taken base
  have ends : SearchEnds taken base 0 (fresh taken base) :=
    same ▸ searchEnds_of_taken free before (Nat.zero_le index)
  exact ⟨fun found => found.unique ends, fun found => found ▸ ends⟩

end Search
end Identifier

namespace Draft

open Identifier

/-- The draft has got one more name, the one at which the search for a wanted name ends, and this
is the first that was free. -/
structure TakesFirstFree (draft later : Draft) (wanted name : String) : Prop where
  ends : ∀ other, SearchEnds draft.taken wanted 0 other ↔ other = name
  isFirstFree : IsFirstFree draft.taken wanted name
  taken : ∀ other, other ∈ later.taken ↔ other = name ∨ other ∈ draft.taken

theorem takesFirstFree_of_cons {draft later : Draft} {wanted : String}
    (entered : later.taken = fresh draft.taken wanted :: draft.taken) :
    draft.TakesFirstFree later wanted (fresh draft.taken wanted) where
  ends := fun _ => searchEnds_iff
  isFirstFree := isFirstFree_fresh draft.taken wanted
  taken := fun _ => entered ▸ List.mem_cons

end Draft

/-- For every finite list of taken names and every wanted name the search ends, at the first
candidate that is free.  The reference of a selector is the first name that the script does not use,
and a draft that adds a reference or a handler enters just the first name that it has not taken. -/
theorem search_ends_at_first_free (taken : List String) (base : String) (facts : Facts)
    (element : String) (draft : Draft) {selector : String} (wanted : String)
    (missing : draft.reference? selector = none) (handler : Handler) (code : String) :
    (∃ name, (∀ other, Identifier.SearchEnds taken base 0 other ↔ other = name) ∧
        Identifier.IsFirstFree taken base name) ∧
      (∀ other, Identifier.SearchEnds facts.names (Identifier.reference element) 0 other ↔
        other = facts.referenceName element) ∧
      Identifier.IsFirstFree facts.names (Identifier.reference element)
        (facts.referenceName element) ∧
      draft.TakesFirstFree (draft.ensureReferenceNamed selector wanted).1 wanted
        (draft.ensureReferenceNamed selector wanted).2 ∧
      draft.TakesFirstFree (draft.addHandler handler code).1 handler.name
        (draft.addHandler handler code).2 := by
  refine ⟨⟨_, fun _ => Identifier.searchEnds_iff, Identifier.isFirstFree_fresh taken base⟩,
    fun _ => Identifier.searchEnds_iff, Identifier.isFirstFree_fresh _ _, ?_,
    Draft.takesFirstFree_of_cons rfl⟩
  rw [Draft.ensureReferenceNamed, missing]
  exact Draft.takesFirstFree_of_cons rfl

/-- A reference is wanted whose name and next name are taken by functions. -/
theorem search_ends_at_first_free_of_functions :
    let taken : List NamedFunction := ["boxRef", "boxRef3", "boxRef2"].map fun name =>
      { name := name, parameters := "", body := "", isAsync := false }
    let draft := taken.foldl Draft.withFunction (Draft.new "Box" "box.js")
    draft.reference? "#box" = none ∧ (draft.ensureReferenceNamed "#box" "boxRef").2 = "boxRef4" ∧
      Identifier.IsFirstFree draft.taken "boxRef" "boxRef4" := by
  intro taken draft
  have missing : draft.reference? "#box" = none := rfl
  have name : (draft.ensureReferenceNamed "#box" "boxRef").2 = "boxRef4" := by decide +kernel
  have found := (search_ends_at_first_free [] "" (Facts.ofTree default) "" draft "boxRef" missing
    ⟨"", "", "", "", "", none, .page .document, false⟩ "").2.2.2.1
  exact ⟨missing, name, name ▸ found.isFirstFree⟩

end Hookify
