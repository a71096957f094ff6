import Hookify.Proofs.Renderer.Locality
import Hookify.Proofs.Script.Spans

namespace Hookify

open Script

/-!
# Rendering edits the source

Outside of what it replaces, rendering copies.  For a syntax tree with nested
spans this can be said of the source itself: the replaced nodes that lie inside
no other replaced node give edits that follow one another, and the rendering of
a node is its part of the source with these edits made.
-/

/-! ## Edits -/

/-- A text in place of a part of the source. -/
structure Edit where
  start : Nat
  stop : Nat
  text : String

namespace Edit

/-- Edits that follow one another between two positions. -/
def Ordered (position stop : Nat) : List Edit → Prop
  | [] => position ≤ stop
  | edit :: rest => position ≤ edit.start ∧ edit.start ≤ edit.stop ∧ Ordered edit.stop stop rest

variable {position middle stop : Nat} {first second : List Edit}

theorem Ordered.weaken {edits : List Edit} {earlier : Nat} (before : earlier ≤ position)
    (ordered : Ordered position stop edits) : Ordered earlier stop edits := by
  cases edits with
  | nil => exact Nat.le_trans before ordered
  | cons edit rest => exact ⟨Nat.le_trans before ordered.1, ordered.2⟩

theorem Ordered.append (after : Ordered middle stop second) : ∀ {position : Nat},
    Ordered position middle first → Ordered position stop (first ++ second) := by
  induction first with
  | nil =>
      intro position ordered
      exact after.weaken ordered
  | cons edit rest ih =>
      rintro position ⟨before, inner, later⟩
      exact ⟨before, inner, ih later⟩

end Edit

/-- The source between two positions with some edits made. -/
def Script.Source.splice (source : Source) (position stop : Nat) : List Edit → String
  | [] => source.slice position stop
  | edit :: rest =>
      source.slice position edit.start ++ (edit.text ++ source.splice edit.stop stop rest)

section Splice

variable {source : Source} {position middle stop : Nat} {first second : List Edit}

theorem slice_append_splice (before : position ≤ middle)
    (ordered : Edit.Ordered middle stop second) :
    source.slice position middle ++ source.splice middle stop second =
      source.splice position stop second := by
  cases second with
  | nil => exact Source.slice_append before ordered
  | cons edit rest =>
      rw [Source.splice, Source.splice, ← String.append_assoc,
        Source.slice_append before ordered.1]

theorem splice_append (after : Edit.Ordered middle stop second) : ∀ {position : Nat},
    Edit.Ordered position middle first →
    source.splice position middle first ++ source.splice middle stop second =
      source.splice position stop (first ++ second) := by
  induction first with
  | nil =>
      intro position ordered
      exact slice_append_splice ordered after
  | cons edit rest ih =>
      rintro position ⟨_, _, later⟩
      rw [Source.splice, List.cons_append, Source.splice, ← ih later, String.append_assoc,
        String.append_assoc]

/-- One edit of everything leaves its text only. -/
theorem splice_whole (text : String) :
    source.splice position stop [⟨position, stop, text⟩] = text := by
  rw [Source.splice, Source.splice, Source.slice_of_le (Nat.le_refl position),
    Source.slice_of_le (Nat.le_refl stop), String.empty_append, String.append_empty]

end Splice

/-! ## Replaced nodes -/

section Replaced

variable (replacement? : Place → Option String) (source : Source)

mutual

/-- The edits at the outermost nodes for which there is a replacement: one at the node itself, or
else those at its children.  The sketch holds the comments, so that its children are those of the
node. -/
def outermostEdits (ancestors : List Node) (path : List Nat) : Sketch → List Edit
  | ⟨kind, field, start, stop, children⟩ =>
      let node := Sketch.toNode source.bare ⟨kind, field, start, stop, children⟩
      match replacement? ⟨node, ancestors, path⟩ with
      | some text => [⟨start, stop, text⟩]
      | none => outermostEditsIn (node :: ancestors) path 0 children

/-- The edits in a list of children, the first of which has the given number. -/
def outermostEditsIn (ancestors : List Node) (path : List Nat) (index : Nat) :
    List Sketch → List Edit
  | [] => []
  | child :: rest =>
      outermostEdits ancestors (index :: path) child ++
        outermostEditsIn ancestors path (index + 1) rest

end

mutual

/-- The edits at a node with nested spans lie inside its span. -/
theorem outermostEdits_ordered : ∀ (sketch : Sketch) (ancestors : List Node) (path : List Nat),
    sketch.Nested →
    Edit.Ordered sketch.start sketch.stop (outermostEdits replacement? source ancestors path sketch)
  | ⟨kind, field, start, stop, children⟩, ancestors, path, nested => by
      rw [outermostEdits]
      dsimp only
      split
      · exact ⟨Nat.le_refl start, nested.start_le_stop, Nat.le_refl stop⟩
      · rw [Sketch.Nested] at nested
        exact outermostEditsIn_ordered children _ path 0 start stop nested

theorem outermostEditsIn_ordered : ∀ (sketches : List Sketch) (ancestors : List Node)
    (path : List Nat) (index position stop : Nat), NestedFrom position stop sketches →
    Edit.Ordered position stop (outermostEditsIn replacement? source ancestors path index sketches)
  | [], ancestors, path, index, position, stop, nested => by
      rw [NestedFrom] at nested
      rw [outermostEditsIn]
      exact nested
  | child :: rest, ancestors, path, index, position, stop, nested => by
      rw [NestedFrom] at nested
      rcases nested with ⟨before, inner, after⟩
      rw [outermostEditsIn]
      have inChild := outermostEdits_ordered child ancestors (index :: path) inner
      have behind := outermostEditsIn_ordered rest ancestors path (index + 1) child.stop
        stop after
      exact (behind.append inChild).weaken before

end

theorem placesOfParts_textParts (ancestors : List Node) (path : List Nat)
    (index start stop : Nat) (rest : List (NodePart Node)) :
    placesOfParts ancestors path index (source.textParts start stop ++ rest) =
      placesOfParts ancestors path index rest := by
  rw [Source.textParts]
  split
  · rw [List.cons_append, List.nil_append, placesOfParts]
  · rw [List.nil_append]

mutual

/-- The text of every edit is the replacement of a node. -/
theorem exists_replaced_of_mem_edits {edit : Edit} :
    ∀ (sketch : Sketch) (ancestors : List Node) (path : List Nat),
    edit ∈ outermostEdits replacement? source ancestors path sketch →
    ∃ place ∈ (sketch.toNode source.bare).places ancestors path,
      replacement? place = some edit.text
  | ⟨kind, field, start, stop, children⟩, ancestors, path, member => by
      rw [outermostEdits] at member
      rw [Sketch.toNode, Node.places]
      split at member
      · rename_i text replaced
        rw [List.mem_singleton.mp member]
        rw [Sketch.toNode] at replaced
        exact ⟨_, List.mem_cons_self, replaced⟩
      · rcases exists_replaced_of_mem_editsIn children start stop _ path 0 member with
          ⟨place, inside, replaced⟩
        rw [Sketch.toNode] at inside
        exact ⟨place, List.mem_cons_of_mem _ inside, replaced⟩

theorem exists_replaced_of_mem_editsIn {edit : Edit} :
    ∀ (sketches : List Sketch) (position stop : Nat) (ancestors : List Node) (path : List Nat)
      (index : Nat), edit ∈ outermostEditsIn replacement? source ancestors path index sketches →
    ∃ place ∈ placesOfParts ancestors path index (partsOf source.bare position stop sketches),
      replacement? place = some edit.text
  | [], position, stop, ancestors, path, index, member => by
      rw [outermostEditsIn] at member
      exact absurd member List.not_mem_nil
  | child :: rest, position, stop, ancestors, path, index, member => by
      rw [outermostEditsIn] at member
      rw [partsOf, Source.gapParts_bare, placesOfParts_textParts, placesOfParts]
      rcases List.mem_append.mp member with inChild | behind
      · rcases exists_replaced_of_mem_edits child ancestors (index :: path) inChild with
          ⟨place, inside, replaced⟩
        exact ⟨place, List.mem_append_left _ inside, replaced⟩
      · rcases exists_replaced_of_mem_editsIn rest child.stop stop ancestors path (index + 1)
          behind with ⟨place, inside, replaced⟩
        exact ⟨place, List.mem_append_right _ inside, replaced⟩

end

end Replaced

namespace Renderer

theorem renderParts_textParts (render : Place → String) (source : Source) (place : Place)
    (index start stop : Nat) (rest : List (NodePart Node)) :
    renderParts render (placeParts place index (source.textParts start stop ++ rest)) =
      source.slice start stop ++ renderParts render (placeParts place index rest) := by
  rw [Source.textParts]
  split
  · rfl
  · rename_i empty
    rw [Source.slice_of_le (Nat.le_of_not_lt empty), String.empty_append]
    rfl

theorem sizeOfParts_append (first second : List (NodePart Node)) :
    sizeOfParts (first ++ second) = sizeOfParts first + sizeOfParts second := by
  induction first with
  | nil => rw [List.nil_append, sizeOfParts, Nat.zero_add]
  | cons part rest ih =>
      cases part with
      | text source => rw [List.cons_append, sizeOfParts, sizeOfParts, ih]
      | child node => rw [List.cons_append, sizeOfParts, sizeOfParts, ih, Nat.add_assoc]

section Render

variable (facts : Facts) (source : Source)

mutual

/-- The rendering of the finished node of a sketch.  The spans need not lie inside the source: what
is cut off is cut off on both sides. -/
theorem render_toNode : ∀ (sketch : Sketch) (ancestors : List Node) (path : List Nat),
    sketch.Nested → (sketch.toNode source.bare).size ≤ facts.root.node.size →
    (Renderer.of facts none).render ⟨sketch.toNode source.bare, ancestors, path⟩ =
      source.splice sketch.start sketch.stop
        (outermostEdits (Renderer.of facts none).replacement? source ancestors path sketch)
  | ⟨kind, field, start, stop, children⟩, ancestors, path, nested, small => by
      rw [render_of facts none small, outermostEdits]
      dsimp only
      cases (Renderer.of facts none).replacement?
          ⟨Sketch.toNode source.bare ⟨kind, field, start, stop, children⟩, ancestors, path⟩ with
      | some text =>
          dsimp only
          rw [splice_whole]
      | none =>
          dsimp only
          rw [Sketch.Nested] at nested
          rw [Sketch.toNode, Node.size] at small
          rw [ite_self]
          exact render_partsOf children _ ancestors path 0 start stop nested
            (Nat.le_of_succ_le small)

theorem render_partsOf : ∀ (sketches : List Sketch) (node : Node) (ancestors : List Node)
    (path : List Nat) (index position stop : Nat), NestedFrom position stop sketches →
    sizeOfParts (partsOf source.bare position stop sketches) ≤ facts.root.node.size →
    renderParts (Renderer.of facts none).render
        (placeParts ⟨node, ancestors, path⟩ index (partsOf source.bare position stop sketches)) =
      source.splice position stop
        (outermostEditsIn (Renderer.of facts none).replacement? source (node :: ancestors) path
          index sketches)
  | [], node, ancestors, path, index, position, stop, nested, small => by
      rw [partsOf, Source.gapParts_bare, outermostEditsIn, Source.splice,
        ← List.append_nil (source.textParts position stop), renderParts_textParts, placeParts,
        renderParts, String.append_empty]
  | child :: rest, node, ancestors, path, index, position, stop, nested, small => by
      rw [NestedFrom] at nested
      rcases nested with ⟨before, inner, after⟩
      rw [partsOf, sizeOfParts_append, sizeOfParts] at small
      have inChild := render_toNode child (node :: ancestors) (index :: path) inner (by omega)
      have behind := render_partsOf rest node ancestors path (index + 1) child.stop stop after
        (by omega)
      have childOrdered := outermostEdits_ordered (Renderer.of facts none).replacement? source
        child (node :: ancestors) (index :: path) inner
      have restOrdered := outermostEditsIn_ordered (Renderer.of facts none).replacement? source
        rest (node :: ancestors) path (index + 1) child.stop stop after
      rw [partsOf, Source.gapParts_bare, renderParts_textParts, placeParts, renderParts, inChild,
        behind, splice_append restOrdered childOrdered,
        slice_append_splice before (restOrdered.append childOrdered), outermostEditsIn]

end

end Render

/-- Rendering a place of a script makes the edits at the outermost replaced nodes in the part of
the source that the place covers.  The edits do not overlap, and everything between them is
copied; if there is nothing to replace, the place is rendered as it was written. -/
theorem render_eq_splice (facts : Facts) (source : Source) (sketch : Sketch) (place : Place)
    (inScript : place ∈ facts.root.walk) (finished : place.node = sketch.toNode source)
    (nested : (sketch.withComments source.remarks).Nested) :
    let renderer := Renderer.of facts none
    let edits := outermostEdits renderer.replacement? source place.ancestors place.path
      (sketch.withComments source.remarks)
    Edit.Ordered sketch.start sketch.stop edits ∧
      renderer.render place = source.splice sketch.start sketch.stop edits ∧
      ((∀ inner ∈ place.walk, renderer.replacement? inner = none) →
        renderer.render place = source.slice sketch.start sketch.stop) := by
  rcases place with ⟨node, ancestors, path⟩
  dsimp only at finished ⊢
  have whole : node = (sketch.withComments source.remarks).toNode source.bare := by
    rw [finished, toNode_withComments]
  have small : ((sketch.withComments source.remarks).toNode source.bare).size ≤
      facts.root.node.size := whole ▸ Place.size_le_of_mem_walk inScript
  have rendered := render_toNode facts source _ ancestors path nested small
  rw [← whole, Sketch.withComments_start, Sketch.withComments_stop] at rendered
  have ordered := outermostEdits_ordered (Renderer.of facts none).replacement? source _ ancestors path nested
  rw [Sketch.withComments_start, Sketch.withComments_stop] at ordered
  refine ⟨ordered, rendered, ?_⟩
  intro untouched
  have noEdits : outermostEdits (Renderer.of facts none).replacement? source ancestors path
      (sketch.withComments source.remarks) = [] := by
    apply List.eq_nil_iff_forall_not_mem.mpr
    intro edit member
    rcases exists_replaced_of_mem_edits _ source _ ancestors path member with ⟨inner, inside, replaced⟩
    rw [← whole] at inside
    rw [untouched inner inside] at replaced
    cases replaced
  rw [rendered, noEdits, Source.splice]

/-- The sketch of `$.trim(x) // y`, which does not hold the comment. -/
def trimSketch : Sketch :=
  ⟨.program, none, 0, 14, [⟨.callExpression, none, 0, 9,
    [⟨.memberExpression, some .function, 0, 6,
      [⟨.identifier, some .object, 0, 1, []⟩, ⟨.propertyIdentifier, some .property, 2, 6, []⟩]⟩,
      ⟨.arguments, some .arguments, 6, 9, [⟨.identifier, none, 7, 8, []⟩]⟩]⟩]⟩

/-- The sketch of `f(x)`. -/
def plainSketch : Sketch :=
  ⟨.program, none, 0, 4, [⟨.callExpression, none, 0, 4,
    [⟨.identifier, some .function, 0, 1, []⟩,
      ⟨.arguments, some .arguments, 1, 4, [⟨.identifier, none, 2, 3, []⟩]⟩]⟩]⟩

/-- The renderer of a whole script makes two edits in the first script and none in the second. -/
theorem render_eq_splice_trim :
    let trimSource := Source.ofChars "$.trim(x) // y".toList [⟨false, 10, 14⟩]
    let trimRoot := trimSketch.toNode trimSource
    let plainSource := Source.ofChars "f(x)".toList []
    let plainRoot := plainSketch.toNode plainSource
    (trimSketch.withComments trimSource.remarks).Nested ∧
      (Renderer.of (Facts.ofTree trimRoot) none).render (Place.ofRoot trimRoot) =
        "String(x).trim() " ∧
      (plainSketch.withComments plainSource.remarks).Nested ∧
      (Renderer.of (Facts.ofTree plainRoot) none).render (Place.ofRoot plainRoot) = "f(x)" := by
  intro trimSource trimRoot plainSource plainRoot
  have trimNested : (trimSketch.withComments trimSource.remarks).Nested := by decide +kernel
  have plainNested : (plainSketch.withComments plainSource.remarks).Nested := by decide +kernel
  have untouched : ∀ inner ∈ (Place.ofRoot plainRoot).walk,
      (Renderer.of (Facts.ofTree plainRoot) none).replacement? inner = none := by
    decide +kernel
  have trimmed := render_eq_splice (Facts.ofTree trimRoot) trimSource trimSketch
    (Place.ofRoot trimRoot) (Place.mem_walk_self _) rfl trimNested
  have plain := render_eq_splice (Facts.ofTree plainRoot) plainSource plainSketch
    (Place.ofRoot plainRoot) (Place.mem_walk_self _) rfl plainNested
  refine ⟨trimNested, ?_, plainNested, ?_⟩
  · rw [trimmed.2.1]
    decide +kernel
  · rw [plain.2.2 untouched]
    decide +kernel

end Renderer
end Hookify
