import Hookify.Proofs.Pass.Owners

namespace Hookify
namespace Pass

open Script Selection

/-!
# Where references come from

A listener makes a reference for the element that it is attached to, and the
last pass makes one for each selector of the script.  The target of a listener
may be a variable, but a variable stands for a selector only if it is declared
with a selection, which is a place of the script like any other.  So every
reference is for a selector that the last pass finds too, and references differ
in the keys of their selectors.
-/

/-! ## Selectors in order of first occurrence -/

section Noting

variable {Item : Type} {read : Item → Option String}

/-- Where the first item stands of which a text is read; the number of items if there is none. -/
def firstRead (read : Item → Option String) (items : List Item) (text : String) : Nat :=
  items.findIdx fun item => read item == some text

theorem firstRead_append_of_mem {items : List Item} {text : String}
    (member : text ∈ items.filterMap read) (others : List Item) :
    firstRead read (items ++ others) text = firstRead read items text := by
  rcases List.mem_filterMap.mp member with ⟨item, inside, same⟩
  have found : firstRead read items text < items.length :=
    List.findIdx_lt_length_of_exists ⟨item, inside, by rw [same]; exact beq_self_eq_true _⟩
  rw [firstRead] at found
  rw [firstRead, List.findIdx_append, if_pos found, firstRead]

theorem firstRead_append_singleton {items : List Item} {text : String} {item : Item}
    (absent : text ∉ items.filterMap read) (same : read item = some text) :
    firstRead read (items ++ [item]) text = items.length := by
  have missing : firstRead read items text = items.length := by
    rw [firstRead, List.findIdx_eq_length]
    intro other inside
    rw [beq_eq_false_iff_ne]
    exact fun found => absent (List.mem_filterMap.mpr ⟨other, inside, found⟩)
  rw [firstRead] at missing
  rw [firstRead, List.findIdx_append, missing, if_neg (Nat.lt_irrefl _), List.findIdx_cons, same,
    beq_self_eq_true]
  exact Nat.add_comm _ _

/-- What is noted once stands in the order in which it is first read. -/
theorem pairwise_foldl_note (items : List Item) :
    ((items.filterMap read).foldl note []).Pairwise fun first second =>
      firstRead read items first < firstRead read items second := by
  induction items using List.reverseRecOn with
  | nil => exact List.Pairwise.nil
  | append_singleton items item ih =>
      have mem_noted : ∀ text, text ∈ (items.filterMap read).foldl note [] ↔
          text ∈ items.filterMap read := by
        intro text
        rw [mem_foldl_note, or_iff_right List.not_mem_nil]
      have earlier : ((items.filterMap read).foldl note []).Pairwise fun first second =>
          firstRead read (items ++ [item]) first < firstRead read (items ++ [item]) second := by
        refine ih.imp_of_mem fun firstNoted secondNoted before => ?_
        rw [firstRead_append_of_mem ((mem_noted _).mp firstNoted),
          firstRead_append_of_mem ((mem_noted _).mp secondNoted)]
        exact before
      rw [List.filterMap_append, List.foldl_append]
      cases same : read item with
      | none =>
          rw [List.filterMap_cons_none same]
          exact earlier
      | some text =>
          rw [List.filterMap_cons_some same, List.filterMap_nil, List.foldl_cons, List.foldl_nil,
            note]
          split
          · exact earlier
          · rename_i fresh
            have absent : text ∉ items.filterMap read := by
              rw [← mem_noted]
              exact mt List.contains_iff_mem.mpr fresh
            refine List.pairwise_append.mpr ⟨earlier, List.pairwise_singleton _ _, ?_⟩
            intro first noted second added
            rw [List.mem_singleton.mp added, firstRead_append_singleton absent same,
              firstRead_append_of_mem ((mem_noted first).mp noted)]
            rcases List.mem_filterMap.mp ((mem_noted first).mp noted) with ⟨other, inside, found⟩
            exact List.findIdx_lt_length_of_exists
              ⟨other, inside, by rw [found]; exact beq_self_eq_true _⟩

end Noting

/-! ## Selectors and references -/

/-- A place of the script selects with the text. -/
def Selects (tree : Node) (selector : String) : Prop :=
  ∃ place ∈ (Place.ofRoot tree).walk, directTarget? place = some (.selector selector)

section Result

variable {facts : Facts} {tree : Node} {draft : Draft}

/-- The selector of a place, if it selects with a text. -/
def selectorAt? (place : Place) : Option String :=
  match directTarget? place with
  | some (.selector selector) => some selector
  | _ => none

theorem selectorAt?_eq_some {place : Place} {selector : String} :
    selectorAt? place = some selector ↔ directTarget? place = some (.selector selector) := by
  rw [selectorAt?]
  cases directTarget? place with
  | none => simp
  | some target => cases target <;> simp

theorem mem_selectorsOf_iff {selector : String} :
    selector ∈ selectorsOf (Facts.ofTree tree) ↔ Selects tree selector := by
  change selector ∈ (Place.ofRoot tree).walk.filterMap selectorAt? ↔ _
  rw [List.mem_filterMap]
  exact exists_congr fun place => and_congr_right fun _ => selectorAt?_eq_some

theorem selectors_references (facts : Facts) (draft : Draft) :
    (references facts draft).selectors = (selectorsOf facts).foldl note draft.selectors := by
  rw [references]
  induction selectorsOf facts generalizing draft with
  | nil => rfl
  | cons selector rest ih =>
      have noted : (draft.addSelector selector).selectors = note draft.selectors selector := by
        rw [Draft.addSelector, note]
        split <;> rfl
      have kept : ∀ (start : Draft) (wanted : String),
          (start.ensureReferenceNamed selector wanted).1.selectors = start.selectors :=
        fun start wanted => @Draft.perform_selectors start (.ensureReferenceNamed selector wanted)
          fun _ => Draft.Operation.noConfusion
      rw [List.foldl_cons, ih, kept, noted, List.foldl_cons]

theorem selectors_runAll (blank : draft.selectors = []) :
    (Stage.runAll facts draft).selectors = (selectorsOf facts).foldl note [] := by
  have before : (runStages facts (Stage.all.take 7) draft).selectors = [] :=
    (selectors_runStages _ (by decide) draft).trans blank
  have last : (Stage.runAll facts draft).selectors =
      (references facts (runStages facts (Stage.all.take 7) draft)).selectors := rfl
  rw [last, selectors_references, before]

/-- A listener is attached to an element that the script selects. -/
theorem selects_of_eventBindings {selector : String} {binding : Binding}
    (binds : (.selector selector, binding) ∈ eventBindings (Facts.ofTree tree)) :
    Selects tree selector := by
  rcases mem_eventBindings.mp binds with ⟨statement, among, chain, found, target, _⟩
  rcases bindingChain?_eq_some found with ⟨_, _, expression, isExpression, chained⟩
  have inside := Place.mem_walk_of_children (Facts.mem_walk_of_statements among)
    (mem_children_of_statementExpression? isExpression)
  exact Facts.exists_selection_of_chain? inside chained target

/-- What a call writes belongs to an element that the script selects. -/
theorem selects_of_writes {selector : String} {facet : Facet}
    (writes : (Facts.ofTree tree).Writes selector facet) : Selects tree selector := by
  rcases writes with ⟨head, chain, call, listed, _, _, target⟩
  rcases mem_chainsIn.mp listed with ⟨inside, _, _, chained⟩
  exact Facts.exists_selection_of_chain? inside chained target

/-- Every reference is for a selector of the script. -/
theorem selects_of_mem_references_runAll (blank : draft.references = []) :
    ∀ reference ∈ (Stage.runAll (Facts.ofTree tree) draft).references,
      Selects tree reference.selector := by
  refine runStages_preserves Stage.all
    (fun draft => ∀ reference ∈ draft.references, Selects tree reference.selector) ?_
    (fun _ member => absurd member (blank ▸ List.not_mem_nil))
  intro stage draft operation acts holds
  cases acts with
  | locate binds =>
      intro reference member
      rcases Draft.mem_references_ensureReferenceNamed member with earlier | same
      · exact holds reference earlier
      · exact same ▸ selects_of_eventBindings binds
  | refer selected =>
      intro reference member
      rcases Draft.mem_references_ensureReferenceNamed member with earlier | same
      · exact holds reference earlier
      · exact same ▸ mem_selectorsOf_iff.mp selected
  | _ =>
      rwa [Draft.perform_references _ (fun _ same => Draft.Operation.noConfusion same)
        fun _ _ same => Draft.Operation.noConfusion same]

/-- Every selector of the script has a reference. -/
theorem covers_runAll {selector : String} (selects : Selects tree selector) :
    Covers selector (Stage.runAll (Facts.ofTree tree) draft) :=
  covers_references (mem_selectorsOf_iff.mpr selects)
    (runStages (Facts.ofTree tree) (Stage.all.take 7) draft)

end Result

end Pass
end Hookify
