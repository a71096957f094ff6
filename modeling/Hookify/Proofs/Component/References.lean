import Hookify.Proofs.Component.Frames
import Mathlib.Data.List.Infix

namespace Hookify
namespace Draft

/-!
# References

A reference is found by the key of its selector, which is worked out anew at
each look.  It is added only if none has the key, so that no two references
have the same key.  Since references stay where they are, the first one with a
key is the same at all later times, whatever else has been added and whatever
name is wanted for it then.

Its name is entered among the names in use, and no other part ever gets it.
-/

variable {draft later : Draft} {selector again : String} {reference : Reference}

/-- The keys of the elements that have a reference. -/
def referenceKeys (draft : Draft) : List String :=
  draft.references.map fun reference => Identifier.selectorKey reference.selector

/-! ## Finding a reference -/

/-- Selectors with the same key have the same reference. -/
theorem reference?_eq_of_key
    (same : Identifier.selectorKey again = Identifier.selectorKey selector) :
    draft.reference? again = draft.reference? selector := by
  rw [reference?, reference?, same]

theorem reference?_eq_some (found : draft.reference? selector = some reference) :
    reference ∈ draft.references ∧
      Identifier.selectorKey reference.selector = Identifier.selectorKey selector := by
  rw [reference?] at found
  have same := List.find?_some found
  exact ⟨List.mem_of_find?_eq_some found, beq_iff_eq.mp same⟩

/-- Without a reference for a selector, none has its key. -/
theorem key_not_mem_of_missing (missing : draft.reference? selector = none) :
    Identifier.selectorKey selector ∉ draft.referenceKeys := by
  intro member
  rcases List.mem_map.mp member with ⟨reference, inside, same⟩
  rw [reference?, List.find?_eq_none] at missing
  exact missing reference inside (beq_iff_eq.mpr same)

theorem hasReference_iff :
    draft.hasReference selector = true ↔ Identifier.selectorKey selector ∈ draft.referenceKeys := by
  rw [hasReference]
  cases found : draft.reference? selector with
  | none => simpa using key_not_mem_of_missing found
  | some reference =>
      obtain ⟨member, same⟩ := reference?_eq_some found
      have listed : Identifier.selectorKey selector ∈ draft.referenceKeys :=
        List.mem_map.mpr ⟨reference, member, same⟩
      simpa using listed

/-- A reference that is found stays the one that is found. -/
theorem reference?_of_extends (extended : draft.Extends later)
    (found : draft.reference? selector = some reference) :
    later.reference? selector = some reference :=
  extended.references.find?_eq_some found

/-! ## Asking for a reference -/

/-- Ask for the reference to an element, under a name of one's own or under the derived one. -/
def refer (draft : Draft) (selector : String) : Option String → Draft × String
  | none => draft.ensureReference selector
  | some wanted => draft.ensureReferenceNamed selector wanted

theorem refer_eq (draft : Draft) (selector : String) (wanted : Option String) :
    draft.refer selector wanted =
      draft.ensureReferenceNamed selector (wanted.getD (Identifier.reference selector)) := by
  cases wanted <;> rfl

/-- What is there is given, whatever name is wanted. -/
theorem refer_of_found (found : draft.reference? selector = some reference)
    (wanted : Option String) : draft.refer selector wanted = (draft, reference.identifier) := by
  rw [refer_eq, ensureReferenceNamed, found]

/-- What has been asked for is there afterwards. -/
theorem exists_reference?_refer (draft : Draft) (selector : String) (wanted : Option String) :
    ∃ reference, (draft.refer selector wanted).1.reference? selector = some reference ∧
      reference.identifier = (draft.refer selector wanted).2 := by
  cases found : draft.reference? selector with
  | some reference =>
      rw [refer_of_found found]
      exact ⟨reference, found, rfl⟩
  | none =>
      rw [refer_eq, ensureReferenceNamed, found]
      refine ⟨⟨_, selector⟩, ?_, rfl⟩
      rw [reference?] at found ⊢
      change (draft.references ++ [_]).find? _ = _
      rw [List.find?_append, found, Option.none_or]
      exact List.find?_cons_of_pos (by exact beq_self_eq_true _)

theorem change_refer (draft : Draft) (selector : String) (wanted : Option String) :
    draft.Change (draft.refer selector wanted).1 := by
  rw [refer_eq]
  exact change_ensureReferenceNamed draft selector _

/-! ## Different keys -/

theorem nodup_keys_withReference (distinct : draft.referenceKeys.Nodup)
    (missing : draft.reference? reference.selector = none) :
    (draft.withReference reference).referenceKeys.Nodup := by
  rw [referenceKeys, withReference, List.map_append, List.map_singleton]
  refine List.nodup_append.mpr ⟨distinct, List.nodup_singleton _, ?_⟩
  intro key member other single same
  rw [List.mem_singleton.mp single] at same
  exact key_not_mem_of_missing missing (same ▸ member)

theorem nodup_keys_ensureReferenceNamed (distinct : draft.referenceKeys.Nodup)
    (selector wanted : String) :
    (draft.ensureReferenceNamed selector wanted).1.referenceKeys.Nodup := by
  rw [ensureReferenceNamed]
  split
  · exact distinct
  · rename_i missing
    exact nodup_keys_withReference distinct missing

theorem nodup_keys_perform (operation : Operation) (distinct : draft.referenceKeys.Nodup) :
    (draft.perform operation).referenceKeys.Nodup := by
  cases operation with
  | ensureReference selector => exact nodup_keys_ensureReferenceNamed distinct selector _
  | ensureReferenceNamed selector wanted =>
      exact nodup_keys_ensureReferenceNamed distinct selector wanted
  | _ =>
      rw [referenceKeys, perform_references _ (fun _ => Operation.noConfusion)
        fun _ _ => Operation.noConfusion]
      exact distinct

theorem nodup_keys_performAll (name source : String) (operations : List Operation) :
    ((new name source).performAll operations).referenceKeys.Nodup := by
  have blank : (new name source).referenceKeys.Nodup := List.nodup_nil
  exact performAll_preserves (fun draft => draft.referenceKeys.Nodup) nodup_keys_perform blank
    operations

/-! ## Any number of operations -/

/-- A name that has been given for a selector is given for all selectors with its key from then on,
without a change of the draft, and one part has it: a reference with the key. -/
theorem refer_stable (registered : draft.Registered) (selector : String) (wanted : Option String)
    (operations : List Operation) :
    let first := (draft.refer selector wanted).1
    let identifier := (draft.refer selector wanted).2
    let last := first.performAll operations
    (∀ again other, Identifier.selectorKey again = Identifier.selectorKey selector →
        last.refer again other = (last, identifier)) ∧
      last.identifiers.count identifier = 1 ∧
      ∃ reference ∈ last.references, reference.identifier = identifier ∧
        Identifier.selectorKey reference.selector = Identifier.selectorKey selector := by
  intro first identifier last
  obtain ⟨reference, found, named⟩ := exists_reference?_refer draft selector wanted
  have still : last.reference? selector = some reference :=
    reference?_of_extends (extends_performAll first operations) found
  have lastRegistered : last.Registered :=
    performAll_preserves Registered (fun operation => (change_perform _ operation).registered)
      ((change_refer draft selector wanted).registered registered) operations
  obtain ⟨member, key⟩ := reference?_eq_some still
  refine ⟨fun again other same => ?_, ?_, reference, member, named, key⟩
  · rw [refer_of_found ((reference?_eq_of_key same).trans still), named]
  · exact List.count_eq_one_of_mem lastRegistered.distinct
      (mem_identifiers.mpr (.inr (.inl ⟨reference, member, named⟩)))

/-- After any operations, no two references have the same key, and there is one for a selector
exactly if some reference has its key.  The name that is then given for a selector is the one that
is given for every selector with the same key, whatever name is wanted and whatever has been added
in between; nothing is added for it, and no other part ever has the name. -/
theorem references_stable (name source : String) (operations : List Operation) :
    let draft := (new name source).performAll operations
    draft.referenceKeys.Nodup ∧
      (∀ selector, draft.hasReference selector = true ↔ ∃ reference ∈ draft.references,
        Identifier.selectorKey reference.selector = Identifier.selectorKey selector) ∧
      ∀ selector wanted later,
        let first := (draft.refer selector wanted).1
        let identifier := (draft.refer selector wanted).2
        let last := first.performAll later
        (∀ again other, Identifier.selectorKey again = Identifier.selectorKey selector →
            last.refer again other = (last, identifier)) ∧
          last.identifiers.count identifier = 1 ∧
          ∃ reference ∈ last.references, reference.identifier = identifier ∧
            Identifier.selectorKey reference.selector = Identifier.selectorKey selector := by
  intro draft
  refine ⟨nodup_keys_performAll name source operations, fun selector => ?_,
    refer_stable (registered_performAll name source operations)⟩
  rw [hasReference_iff, referenceKeys, List.mem_map]

/-- The reference to a box, whose derived name a function has, keeps the next name when a handler
asks for that one, and when another selector of the box wants a name of its own. -/
theorem references_stable_of_box :
    let draft := (new "Box" "box.js").performAll [.addFunction ⟨"boxRef", "", "", false⟩]
    let first := draft.refer "#box" none
    let last := first.1.performAll
      [.addFunction ⟨"boxRef2", "", "", false⟩, .ensureReference "#other"]
    Identifier.selectorKey ".box" = Identifier.selectorKey "#box" ∧ first.2 = "boxRef2" ∧
      last.refer ".box" (some "panel") = (last, "boxRef2") := by
  intro draft first last
  have key : Identifier.selectorKey ".box" = Identifier.selectorKey "#box" := by decide +kernel
  have named : first.2 = "boxRef2" := by decide +kernel
  refine ⟨key, named, ?_⟩
  rw [← named]
  exact ((references_stable "Box" "box.js" [.addFunction ⟨"boxRef", "", "", false⟩]).2.2
    "#box" none _).1 ".box" (some "panel") key

end Draft
end Hookify
