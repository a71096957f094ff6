import Hookify.Script.Sketch
import Hookify.Proofs.Script.Places

namespace Hookify
namespace Script

/-!
# Spans

A sketch says which part of the source each of its nodes covers.  Nothing in
the type keeps the spans from overlapping.  They are nested if the children of
every node lie inside it, one after the other; both children and gaps may be
empty.

The comments of a script are no part of its sketch; the finished tree takes
them from the gaps.  `Sketch.withComments` puts them into the sketch, so that
what is shown of sketches without gaps for comments holds of all finished trees.
-/

/-! ## Slices -/

namespace Source

variable {source : Source} {first middle last : Nat}

theorem slice_append (before : first ≤ middle) (after : middle ≤ last) :
    source.slice first middle ++ source.slice middle last = source.slice first last := by
  have lengths : last - first = (middle - first) + (last - middle) := by omega
  have position : first + (middle - first) = middle := by omega
  rw [slice, slice, slice, ← String.ofList_append, lengths, List.take_add, List.drop_drop, position]

theorem slice_of_le (reversed : last ≤ first) : source.slice first last = "" := by
  rw [slice, Nat.sub_eq_zero_of_le reversed, List.take_zero, String.ofList_nil]

/-- The same source with no comments to be put into the gaps. -/
def bare (source : Source) : Source :=
  { source with remarks := [] }

theorem gapParts_bare : source.bare.gapParts first last = source.textParts first last := rfl

end Source

/-! ## Nested spans -/

mutual

/-- The children of every node lie inside it and one after the other. -/
def Sketch.Nested : Sketch → Prop
  | ⟨_, _, start, stop, children⟩ => NestedFrom start stop children

/-- Sketches with nested spans that follow one another between two positions. -/
def NestedFrom (position stop : Nat) : List Sketch → Prop
  | [] => position ≤ stop
  | child :: rest => position ≤ child.start ∧ child.Nested ∧ NestedFrom child.stop stop rest

end

mutual

/-- Whether the spans of a sketch are nested can be computed. -/
def Sketch.decideNested : (sketch : Sketch) → Decidable sketch.Nested
  | ⟨_, _, start, stop, children⟩ => decideNestedFrom start stop children

/-- Whether sketches follow one another between two positions can be computed. -/
def decideNestedFrom (position stop : Nat) :
    (sketches : List Sketch) → Decidable (NestedFrom position stop sketches)
  | [] => inferInstanceAs (Decidable (position ≤ stop))
  | child :: rest =>
      have := child.decideNested
      have := decideNestedFrom child.stop stop rest
      inferInstanceAs (Decidable
        (position ≤ child.start ∧ child.Nested ∧ NestedFrom child.stop stop rest))

end

instance (sketch : Sketch) : Decidable sketch.Nested := sketch.decideNested

mutual

theorem Sketch.Nested.start_le_stop : ∀ {sketch : Sketch}, sketch.Nested → sketch.start ≤ sketch.stop
  | ⟨_, _, _, _, _⟩, nested => by
      rw [Sketch.Nested] at nested
      exact NestedFrom.le nested

theorem NestedFrom.le : ∀ {sketches : List Sketch} {position stop : Nat},
    NestedFrom position stop sketches → position ≤ stop
  | [], _, _, nested => by
      rw [NestedFrom] at nested
      exact nested
  | child :: rest, position, stop, nested => by
      rw [NestedFrom] at nested
      rcases nested with ⟨before, inner, after⟩
      calc
        position ≤ child.start := before
        _ ≤ child.stop := inner.start_le_stop
        _ ≤ stop := after.le

end

/-! ## Comments -/

/-- A comment as a sketch. -/
def Remark.toSketch (remark : Remark) : Sketch where
  kind := if remark.isHtml then .htmlComment else .comment
  field := none
  start := remark.start
  stop := remark.stop
  children := []

/-- The comments of a gap as sketches. -/
def commentsBetween (remarks : List Remark) (start stop : Nat) : List Sketch :=
  (remarks.filter fun remark => start ≤ remark.start && remark.stop ≤ stop).map Remark.toSketch

mutual

/-- The sketch with the comments of its gaps. -/
def Sketch.withComments (remarks : List Remark) : Sketch → Sketch
  | ⟨kind, field, start, stop, children⟩ =>
      ⟨kind, field, start, stop, commentsAmong remarks start stop children⟩

/-- Sketches between two positions with the comments of the gaps around them. -/
def commentsAmong (remarks : List Remark) (position stop : Nat) : List Sketch → List Sketch
  | [] => commentsBetween remarks position stop
  | child :: rest =>
      commentsBetween remarks position child.start ++ child.withComments remarks ::
        commentsAmong remarks child.stop stop rest

end

section Comments

variable {remarks : List Remark}

@[simp]
theorem Sketch.withComments_start (sketch : Sketch) :
    (sketch.withComments remarks).start = sketch.start := by
  cases sketch
  rw [withComments]

@[simp]
theorem Sketch.withComments_stop (sketch : Sketch) :
    (sketch.withComments remarks).stop = sketch.stop := by
  cases sketch
  rw [withComments]

theorem toNode_toSketch (source : Source) (remark : Remark) :
    remark.toSketch.toNode source.bare = source.commentNode remark := by
  rw [Remark.toSketch, Sketch.toNode, partsOf]
  rfl

theorem partsOf_comments (source : Source) (stop : Nat) (remarks : List Remark) :
    ∀ position, partsOf source.bare position stop (remarks.map Remark.toSketch) =
      source.partsAround position stop remarks := by
  induction remarks with
  | nil =>
      intro position
      rw [List.map_nil, partsOf, Source.partsAround]
      rfl
  | cons remark rest ih =>
      intro position
      rw [List.map_cons, partsOf, toNode_toSketch, Source.partsAround, ← ih]
      rfl

theorem partsOf_comments_append (source : Source) (stop : Nat) (child : Sketch)
    (after : List Sketch) (remarks : List Remark) :
    ∀ position, partsOf source.bare position stop
        (remarks.map Remark.toSketch ++ child :: after) =
      source.partsAround position child.start remarks ++
        .child (child.toNode source.bare) :: partsOf source.bare child.stop stop after := by
  induction remarks with
  | nil =>
      intro position
      rw [List.map_nil, List.nil_append, partsOf, Source.partsAround]
      rfl
  | cons remark rest ih =>
      intro position
      rw [List.map_cons, List.cons_append, partsOf, toNode_toSketch, Source.partsAround,
        List.append_assoc, List.cons_append, ← ih]
      rfl

mutual

/-- The finished node holds the comments whether they come from the sketch or from the gaps. -/
theorem toNode_withComments (source : Source) : ∀ sketch : Sketch,
    (sketch.withComments source.remarks).toNode source.bare = sketch.toNode source
  | ⟨kind, field, start, stop, children⟩ => by
      rw [Sketch.withComments, Sketch.toNode, Sketch.toNode,
        partsOf_commentsAmong source children start stop]
      rfl

theorem partsOf_commentsAmong (source : Source) : ∀ (sketches : List Sketch) (position stop : Nat),
    partsOf source.bare position stop (commentsAmong source.remarks position stop sketches) =
      partsOf source position stop sketches
  | [], position, stop => by
      rw [commentsAmong, commentsBetween, partsOf_comments, partsOf, Source.gapParts]
  | child :: rest, position, stop => by
      rw [commentsAmong, commentsBetween, partsOf_comments_append, partsOf, Source.gapParts,
        toNode_withComments source child, Sketch.withComments_start, Sketch.withComments_stop,
        partsOf_commentsAmong source rest]

end

end Comments

end Script
end Hookify
