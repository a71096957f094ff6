import Hookify.Proofs.Script.Paths
import Mathlib.Algebra.Ring.Nat
import Mathlib.Data.List.Flatten

namespace Hookify
namespace Script

/-!
# Positions

A node has no position of its own; a tree knows its text, and what stands
before a node is the text of what its ancestors have before it.  The length of
that text is where the node starts.

The walk over a place follows the source: of two places on it, the later one
stands inside the earlier one, or it does not start before the earlier one has
stopped.
-/

/-- The text of the parts before the child with a number. -/
def textBefore : List (NodePart Node) → Nat → String
  | [], _ => ""
  | .text source :: rest, index => source ++ textBefore rest index
  | .child _ :: _, 0 => ""
  | .child node :: rest, index + 1 => node.text ++ textBefore rest index

/-- The text before the node with a path, given the nodes around it. -/
def textAround : List Node → List Nat → String
  | parent :: above, index :: path => textAround above path ++ textBefore parent.parts index
  | _, _ => ""

namespace Place

/-- The text of the script before a place. -/
def before (place : Place) : String :=
  textAround place.ancestors place.path

/-- Where a place starts, in bytes. -/
def start (place : Place) : Nat :=
  place.before.utf8ByteSize

/-- Where a place stops, in bytes. -/
def stop (place : Place) : Nat :=
  place.start + place.text.utf8ByteSize

end Place

/-! ## Parts of a node -/

section Parts

variable {parts : List (NodePart Node)} {index : Nat} {child : Node}

/-- The text of a node is that before a child, that of the child, and something more. -/
theorem exists_textOfParts_eq (found : (nodesOf parts)[index]? = some child) :
    ∃ after, textOfParts parts = textBefore parts index ++ child.text ++ after := by
  induction parts generalizing index with
  | nil => cases found
  | cons part rest ih =>
      cases part with
      | text source =>
          obtain ⟨after, same⟩ := ih found
          exact ⟨after, by simp only [textOfParts, textBefore, same, String.append_assoc]⟩
      | child node =>
          rw [nodesOf_cons_child] at found
          cases index with
          | zero =>
              cases found
              exact ⟨textOfParts rest, by rw [textOfParts, textBefore, String.empty_append]⟩
          | succ index =>
              obtain ⟨after, same⟩ := ih found
              exact ⟨after, by simp only [textOfParts, textBefore, same, String.append_assoc]⟩

/-- Before a later child stands the earlier one, behind what stands before that. -/
theorem exists_textBefore_eq {later : Nat} (found : (nodesOf parts)[index]? = some child)
    (order : index < later) :
    ∃ gap, textBefore parts later = textBefore parts index ++ child.text ++ gap := by
  induction parts generalizing index later with
  | nil => cases found
  | cons part rest ih =>
      cases part with
      | text source =>
          obtain ⟨gap, same⟩ := ih found order
          exact ⟨gap, by simp only [textBefore, same, String.append_assoc]⟩
      | child node =>
          obtain ⟨later, rfl⟩ := Nat.exists_eq_succ_of_ne_zero (Nat.ne_zero_of_lt order)
          rw [nodesOf_cons_child] at found
          cases index with
          | zero =>
              cases found
              exact ⟨textBefore rest later, by simp only [textBefore, String.empty_append]⟩
          | succ index =>
              obtain ⟨gap, same⟩ := ih found (Nat.lt_of_succ_lt_succ order)
              exact ⟨gap, by simp only [textBefore, same, String.append_assoc]⟩

theorem sizeOfParts_eq (parts : List (NodePart Node)) :
    sizeOfParts parts = ((nodesOf parts).map Node.size).sum := by
  induction parts with
  | nil => rfl
  | cons part rest ih =>
      cases part with
      | text source => exact ih
      | child node => rw [sizeOfParts, nodesOf_cons_child, List.map_cons, List.sum_cons, ih]

theorem Node.text_eq (node : Node) : node.text = textOfParts node.parts := by
  cases node
  rw [Node.text]

end Parts

namespace Place

/-! ## Positions on a walk -/

theorem before_ofRoot (root : Node) : (ofRoot root).before = "" := rfl

variable {outer inner place first second : Place}

/-- What stands before a place and its text go on with what stands before a place inside it. -/
theorem exists_text_eq_of_mem_walk (inside : inner ∈ outer.walk) :
    ∃ after, outer.before ++ outer.text = inner.before ++ inner.text ++ after ∧
      ∃ lead, inner.before = outer.before ++ lead := by
  induction inside using mem_walk_induction with
  | here => exact ⟨"", (String.append_empty).symm, "", (String.append_empty).symm⟩
  | @below outer child member _ ih =>
      obtain ⟨after, text, lead, start⟩ := ih
      obtain ⟨index, found, same⟩ := mem_children.mp member
      have begins : child.before = outer.before ++ textBefore outer.node.parts index := by
        rw [same]
        rfl
      obtain ⟨rest, parts⟩ := exists_textOfParts_eq found
      have whole : outer.text = textBefore outer.node.parts index ++ child.text ++ rest :=
        outer.node.text_eq.trans parts
      refine ⟨after ++ rest, ?_, textBefore outer.node.parts index ++ lead, ?_⟩
      · calc
          outer.before ++ outer.text
              = outer.before ++ (textBefore outer.node.parts index ++ child.text ++ rest) := by
                rw [whole]
          _ = child.before ++ child.text ++ rest := by
                simp only [begins, String.append_assoc]
          _ = inner.before ++ inner.text ++ (after ++ rest) := by
                rw [text, String.append_assoc]
      · rw [start, begins, String.append_assoc]

/-- A place starts where its text stands in the script. -/
theorem exists_text_eq {root : Node} (inside : place ∈ (ofRoot root).walk) :
    ∃ before after, root.text = before ++ place.text ++ after ∧
      before.utf8ByteSize = place.start := by
  obtain ⟨after, text, _⟩ := exists_text_eq_of_mem_walk inside
  rw [before_ofRoot, String.empty_append] at text
  exact ⟨place.before, after, text, rfl⟩

theorem start_le_stop (place : Place) : place.start ≤ place.stop :=
  Nat.le_add_right _ _

/-- A place inside another one starts and stops between its ends. -/
theorem start_le_and_stop_le_of_mem_walk (inside : inner ∈ outer.walk) :
    outer.start ≤ inner.start ∧ inner.stop ≤ outer.stop := by
  obtain ⟨after, text, lead, start⟩ := exists_text_eq_of_mem_walk inside
  have sizes := congrArg String.utf8ByteSize text
  have starts := congrArg String.utf8ByteSize start
  simp only [String.utf8ByteSize_append] at sizes starts
  simp only [Place.stop, Place.start]
  omega

/-- Children stand one after the other. -/
theorem pairwise_children (place : Place) :
    place.children.Pairwise fun first second => first.stop ≤ second.start := by
  rw [List.pairwise_iff_getElem]
  intro index later indexBound laterBound order
  have at? : ∀ {number : Nat} (bound : number < place.children.length),
      ∃ node, (nodesOf place.node.parts)[number]? = some node ∧
        place.children[number] = ⟨node, place.node :: place.ancestors, number :: place.path⟩ := by
    intro number bound
    have inNode : number < place.node.children.length := by
      simpa [children] using bound
    exact ⟨place.node.children[number], List.getElem?_eq_getElem inNode, by simp [children]⟩
  obtain ⟨node, found, isFirst⟩ := at? indexBound
  obtain ⟨_, _, isSecond⟩ := at? laterBound
  obtain ⟨gap, text⟩ := exists_textBefore_eq found order
  rw [isFirst, isSecond]
  simp only [stop, start, before, textAround, Place.text, text, String.utf8ByteSize_append]
  omega

/-- Of two places on a walk, the later one is inside the earlier one or behind it. -/
theorem pairwise_walk (place : Place) :
    place.walk.Pairwise fun first second => second ∈ first.walk ∨ first.stop ≤ second.start := by
  induction place using children_induction with
  | step place ih =>
      rw [walk_eq, List.pairwise_cons, List.pairwise_flatMap]
      refine ⟨fun inner below => .inl ?_, ih, ?_⟩
      · rw [walk_eq]
        exact List.mem_cons_of_mem _ below
      · refine place.pairwise_children.imp fun apart first inFirst second inSecond => .inr ?_
        have left := (start_le_and_stop_le_of_mem_walk inFirst).2
        have right := (start_le_and_stop_le_of_mem_walk inSecond).1
        omega

/-- Nothing on a walk stands inside what comes after it. -/
theorem pairwise_not_mem_walk (place : Place) :
    place.walk.Pairwise fun first second => first ∉ second.walk := by
  induction place using children_induction with
  | step place ih =>
      rw [walk_eq, List.pairwise_cons, List.pairwise_flatMap]
      refine ⟨fun inner below inside => ?_, ih, ?_⟩
      · obtain ⟨child, member, deeper⟩ := List.mem_flatMap.mp below
        have smaller := size_lt_of_mem_children member
        have inChild := size_le_of_mem_walk (mem_walk_trans deeper inside)
        omega
      · refine place.nodup_children.pairwise_of_forall_ne fun one isOne two isTwo apart => ?_
        intro first inFirst second inSecond inside
        exact apart (eq_of_mem_walk_children isOne isTwo inFirst (mem_walk_trans inSecond inside))

/-! ## Walks inside walks -/

theorem walk_sublist (inside : inner ∈ outer.walk) : inner.walk.Sublist outer.walk := by
  induction inside using mem_walk_induction with
  | here => exact List.Sublist.refl _
  | @below outer child member _ ih =>
      have inChildren : child.walk.Sublist (outer.children.flatMap walk) :=
        List.sublist_flatten_of_mem (List.mem_map_of_mem member)
      rw [walk_eq outer]
      exact (ih.trans inChildren).cons outer

/-- A walk comes to every node once. -/
theorem length_walk (place : Place) : place.walk.length = place.node.size := by
  induction place using children_induction with
  | step place ih =>
      have nodes : place.children.map (·.node) = nodesOf place.node.parts := by
        rw [children, List.map_map]
        exact place.node.children.zipIdx_map_fst 0
      have below : place.children.map (·.walk.length) = place.children.map (·.node.size) :=
        List.map_congr_left ih
      rw [walk_eq, List.length_cons, List.length_flatMap, below, Node.size_eq, sizeOfParts_eq,
        ← nodes, List.map_map]
      rfl

theorem contents_sublist (place : Place) : place.contents.Sublist place.children :=
  List.filter_sublist.trans List.filter_sublist

end Place
end Script
end Hookify
