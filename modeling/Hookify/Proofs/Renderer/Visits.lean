import Hookify.Proofs.Identifier.Form
import Hookify.Proofs.Renderer.Locality
import Hookify.Proofs.Renderer.Setters
import Hookify.Proofs.Text.Solid

namespace Hookify

open Script

/-!
# Which places the code shows

Rendering comes from a place to those inside in two ways.  Of what is copied,
all children are rendered.  Of what is replaced, some parts are rendered and
others are dropped: a call that hides an element has no use for its arguments.

The places to which rendering comes are visited, and what they become is found
in the code as long as no line break and no brace is in it.  So the call that
sets a state goes into the code of every place from which it is visited.
-/

namespace Renderer

/-! ## Visits -/

/-- Whatever a part is rendered to goes into the code that replaces the place. -/
def Passes (facts : Facts) (this : Option String) (place part : Place) : Prop :=
  ∀ (render : Place → String) (pattern : String), Text.IsSolid pattern.toList →
    Text.occursIn pattern (render part) = true →
      ∃ text, idiom? ⟨facts, this, render⟩ place = some text ∧ Text.occursIn pattern text = true

/-- Rendering a place comes to another one, with what stands for `this` there. -/
inductive Visits (facts : Facts) (that : Option String) (inner : Place) :
    Option String → Place → Prop where
  | here : Visits facts that inner that inner
  | child {this : Option String} {place child : Place}
      (copied : (Renderer.of facts this).replacement? place = none)
      (member : child ∈ place.children)
      (below : Visits facts that inner (if place.kind.isPlainFunction then none else this) child) :
      Visits facts that inner this place
  | part {this : Option String} {place part : Place} (passes : Passes facts this place part)
      (inside : part ∈ place.walk) (below : Visits facts that inner this part) :
      Visits facts that inner this place

section Visits

variable {facts : Facts} {this that : Option String} {place inner child : Place}
  {pattern : String}

theorem Visits.mem_walk (visits : Visits facts that inner this place) : inner ∈ place.walk := by
  induction visits with
  | here => exact inner.mem_walk_self
  | child _ member _ ih => exact Place.mem_walk_of_child member ih
  | part _ inside _ ih => exact Place.mem_walk_trans inside ih

theorem occursIn_renderParts {render : Place → String} {parts : List (NodePart Place)}
    (member : .child child ∈ parts) (occurs : Text.occursIn pattern (render child) = true) :
    Text.occursIn pattern (renderParts render parts) = true := by
  induction parts with
  | nil => exact absurd member List.not_mem_nil
  | cons part rest ih =>
      rcases List.mem_cons.mp member with rfl | later
      · exact Text.occursIn_append_left occurs _
      · cases part with
        | text source => exact Text.occursIn_append_right (ih later) _
        | child first => exact Text.occursIn_append_right (ih later) _

/-- The rendering of a place is what replaces it, on the margin of its line. -/
theorem render_eq_of_idiom (small : place.node.size ≤ facts.root.node.size) {text : String}
    (replaced : (Renderer.of facts this).idiom? place = some text) :
    (Renderer.of facts this).render place =
      Text.indentContinuation (String.ofList place.node.margin.chars) text := by
  have noComment : ¬ (place.kind == .comment) = true := by
    intro comment
    rw [idiom?, beq_iff_eq.mp comment] at replaced
    cases replaced
  rw [render_of facts this small, replacement?, if_neg noComment, replaced]
  rfl

/-- What replaces a place is the rendering of it, but for the margin. -/
theorem occursIn_render_of_idiom (solid : Text.IsSolid pattern.toList)
    (small : place.node.size ≤ facts.root.node.size) {text : String}
    (replaced : (Renderer.of facts this).idiom? place = some text)
    (occurs : Text.occursIn pattern text = true) :
    Text.occursIn pattern ((Renderer.of facts this).render place) = true := by
  rw [render_eq_of_idiom small replaced]
  exact Text.occursIn_indentContinuation solid occurs _

/-- What a visited place is rendered to occurs in the rendering of the place around it. -/
theorem Visits.occursIn (visits : Visits facts that inner this place)
    (solid : Text.IsSolid pattern.toList) (small : place.node.size ≤ facts.root.node.size)
    (occurs : Text.occursIn pattern ((Renderer.of facts that).render inner) = true) :
    Text.occursIn pattern ((Renderer.of facts this).render place) = true := by
  induction visits with
  | here => exact occurs
  | child copied member _ ih =>
      have smaller := Nat.le_trans (Nat.le_of_lt (Place.size_lt_of_mem_children member)) small
      rw [render_of facts _ small, copied]
      exact occursIn_renderParts (mem_placeParts_iff.mpr member) (ih smaller)
  | part passes inside _ ih =>
      have smaller := Nat.le_trans (Place.size_le_of_mem_walk inside) small
      obtain ⟨text, replaced, contains⟩ := passes _ pattern solid (ih smaller)
      exact occursIn_render_of_idiom solid small replaced contains

end Visits

/-! ## What goes into a replacement -/

section Passes

variable {facts : Facts} {this : Option String} {place target right : Place} {sign : String}

/-- The call of a setter has what is assigned to its state. -/
theorem exists_idiom?_of_right (renderer : Renderer) (kind : place.kind = .assignmentExpression ∨
      place.kind = .augmentedAssignmentExpression)
    (assigned : assignment? place = some (target, sign)) (identifier : target.kind = .identifier)
    (reactive : renderer.facts.isReactiveVariable target.text = true)
    (found : place.child? .right = some right) : ∃ before after,
      renderer.idiom? place = some (before ++ renderer.fragment right ++ after) := by
  have noUpdate : ¬ (place.kind == .updateExpression) = true := by
    rcases kind with kind | kind <;> rw [kind] <;> exact Bool.false_ne_true
  rw [idiom?_of_update (kind.imp_right .inl), stateUpdate?, assigned]
  simp only [Option.bind_eq_bind, Option.bind_some, identifier, beq_self_eq_true, guard_true,
    Option.pure_def, reactive, found, if_neg noUpdate]
  split
  · exact ⟨Identifier.setter target.text ++ "(", ")", rfl⟩
  · exact ⟨Identifier.setter target.text ++ "((" ++ target.text ++ ") => " ++ target.text ++ " " ++
      operationSign sign ++ " (", "))", by simp only [String.append_assoc]⟩

/-- What is assigned to a state goes into the call of its setter. -/
theorem passes_right (kind : place.kind = .assignmentExpression ∨
      place.kind = .augmentedAssignmentExpression)
    (assigned : assignment? place = some (target, sign)) (identifier : target.kind = .identifier)
    (reactive : facts.isReactiveVariable target.text = true)
    (found : place.child? .right = some right) : Passes facts this place right := by
  intro render pattern solid occurs
  obtain ⟨before, after, replaced⟩ :=
    exists_idiom?_of_right ⟨facts, this, render⟩ kind assigned identifier reactive found
  exact ⟨_, replaced, Text.occursIn_append_left (Text.occursIn_append_right
    (Text.occursIn_dedentContinuation solid occurs _) _) _⟩

end Passes

end Renderer

/-! ## The calls of setters -/

namespace Identifier

theorem IsNameChar.isBlank_eq {c : Char} (nameChar : IsNameChar c) : Text.isBlank c = false := by
  rcases nameChar with word | rfl
  · rw [Text.isAsciiAlphanumeric, Bool.or_eq_true, Text.isAsciiLetter_iff,
      Text.isAsciiDigit_iff] at word
    simp only [Text.isBlank, Bool.or_eq_false_iff, Bool.and_eq_false_iff, decide_eq_false_iff_not,
      beq_eq_false_iff_ne]
    omega
  · decide

/-- What has only characters of names, and a parenthesis behind it, is taken apart by no normal
form. -/
theorem isSolid_of_isPlain {text : String} (plain : IsPlain text.toList) :
    Text.IsSolid (text ++ "(").toList := by
  have each : ∀ c ∈ (text ++ "(").toList, IsNameChar c ∨ c = '(' := by
    intro c member
    rw [String.toList_append] at member
    rcases List.mem_append.mp member with inside | last
    · exact .inl (plain c inside)
    · exact .inr (List.mem_singleton.mp last)
  refine ⟨by simp, fun c member => ?_, fun c member => ?_⟩
  · rcases each c member with nameChar | rfl
    · exact nameChar.isBlank_eq
    · decide
  · rcases each c member with nameChar | rfl
    · constructor <;>
      · rintro rfl
        exact absurd nameChar (by decide)
    · decide

theorem isSolid_setter_state (selector : String) (facet : Facet) :
    Text.IsSolid (setter (state selector facet) ++ "(").toList :=
  isSolid_of_isPlain (isPlain_setter (isPlain_state selector facet))

end Identifier

end Hookify
