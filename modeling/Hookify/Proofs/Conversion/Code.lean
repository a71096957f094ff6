import Hookify.Proofs.Conversion.Claims
import Hookify.Proofs.Conversion.Handlers
import Hookify.Proofs.Conversion.Scopes
import Hookify.Proofs.Renderer.Visits

namespace Hookify

open Script Selection

/-!
# What the code of a component shows

All code of a component is the rendering of some places: of statements that run
at the start, of initial values and of bodies of functions.  A place of the
script is shown if rendering comes to it from one of these.  What is called
there to set a state is then called by the code.

A place may stand in the script and not be shown: in a statement that is taken
for a binding, in a function that is left out, or as an argument of a call that
has no use for it.
-/

namespace Component

/-- The code of a component: of its effects, its handlers, its functions and its states. -/
def codes (component : Component) : List String :=
  component.effects.map (·.code) ++ component.handlers.map (·.body) ++
    component.functions.map (·.body) ++ component.states.map (·.initial)

/-- A text occurs in the code of a component. -/
def HasCode (component : Component) (text : String) : Prop :=
  (∃ effect ∈ component.effects, Text.occursIn text effect.code = true) ∨
    (∃ handler ∈ component.handlers, Text.occursIn text handler.body = true) ∨
      (∃ function ∈ component.functions, Text.occursIn text function.body = true) ∨
        ∃ state ∈ component.states, Text.occursIn text state.initial = true

instance (component : Component) (text : String) : Decidable (component.HasCode text) :=
  inferInstanceAs (Decidable (_ ∨ _))

theorem mem_codes_iff {component : Component} {code : String} : code ∈ component.codes ↔
    (∃ effect ∈ component.effects, effect.code = code) ∨
      (∃ handler ∈ component.handlers, handler.body = code) ∨
        (∃ function ∈ component.functions, function.body = code) ∨
          ∃ state ∈ component.states, state.initial = code := by
  simp only [codes, List.mem_append, List.mem_map, or_assoc]

theorem hasCode_iff {component : Component} {text : String} : component.HasCode text ↔
    ∃ code ∈ component.codes, Text.occursIn text code = true := by
  simp only [HasCode, mem_codes_iff, or_and_right, exists_or, exists_exists_and_eq_and]

/-- Code of the component is the rendering of a place, with what stands for `this` there. -/
inductive Renders (component : Component) (facts : Facts) : Option String → Place → Prop where
  | start {effect : Effect} {statement : Place} (member : effect ∈ component.effects)
      (kept : statement ∈ Pass.keptStatements facts)
      (part : Text.occursIn (Pass.startCode facts statement) effect.code = true) :
      Renders component facts none statement
  | value {state : StateVariable} {place : Place} (member : state ∈ component.states)
      (made : state.initial = Pass.startCode facts place) : Renders component facts none place
  | function {name : String} {function body : Place}
      (member : Pass.asFunction facts name function ∈ component.functions)
      (isBody : function.child? .body = some body) : Renders component facts none body
  | handler {handler : Handler} {delegate : Option String} {function body : Place}
      (member : handler ∈ component.handlers)
      (made : (handler.parameters, handler.body) = Pass.handlerOfFunction facts delegate function)
      (isBody : function.child? .body = some body) :
      Renders component facts (some (Pass.eventElement delegate (Pass.eventName function))) body

/-- A place is visited from one that is rendered for the code of the component. -/
def Shows (component : Component) (facts : Facts) (this : Option String) (place : Place) : Prop :=
  ∃ outer, ∃ source ∈ facts.root.walk, component.Renders facts outer source ∧
    Renderer.Visits facts this place outer source

section Shows

variable {component : Component} {facts : Facts} {this : Option String} {place : Place}
  {pattern name : String}

theorem occursIn_functionBody (renderer : Renderer) {function body : Place}
    (isBody : function.child? .body = some body) (solid : Text.IsSolid pattern.toList)
    (occurs : Text.occursIn pattern (renderer.render body) = true) :
    Text.occursIn pattern (renderer.functionBody function) = true := by
  rw [Renderer.functionBody, isBody]
  dsimp only
  split
  · exact Text.occursIn_blockInner solid occurs
  · exact Text.occursIn_append_left (Text.occursIn_append_right
      (Text.occursIn_dedentContinuation solid occurs _) _) _

theorem Renders.hasCode (renders : component.Renders facts this place)
    (solid : Text.IsSolid pattern.toList)
    (occurs : Text.occursIn pattern ((Renderer.of facts this).render place) = true) :
    component.HasCode pattern := by
  cases renders with
  | start member _ part =>
      have inStart : Text.occursIn pattern (Pass.startCode facts place) = true :=
        Text.occursIn_dedentContinuation solid occurs _
      exact .inl ⟨_, member, Text.occursIn_trans inStart part⟩
  | value member made =>
      have inStart : Text.occursIn pattern (Pass.startCode facts place) = true :=
        Text.occursIn_dedentContinuation solid occurs _
      exact .inr (.inr (.inr ⟨_, member, made ▸ inStart⟩))
  | function member isBody =>
      exact .inr (.inr (.inl ⟨_, member, occursIn_functionBody _ isBody solid occurs⟩))
  | handler member made isBody =>
      refine .inr (.inl ⟨_, member, ?_⟩)
      rw [(Prod.mk.inj made).2]
      exact occursIn_functionBody _ isBody solid occurs

/-- What is shown stands in the script. -/
theorem Shows.mem_walk (shown : component.Shows facts this place) : place ∈ facts.root.walk := by
  obtain ⟨_, source, inside, _, visits⟩ := shown
  exact Place.mem_walk_trans inside visits.mem_walk

/-- What a place that is shown is rendered to goes into the code of the component. -/
theorem Shows.hasCode_of_render (shown : component.Shows facts this place)
    (solid : Text.IsSolid pattern.toList)
    (occurs : Text.occursIn pattern ((Renderer.of facts this).render place) = true) :
    component.HasCode pattern := by
  obtain ⟨outer, source, inside, renders, visits⟩ := shown
  exact renders.hasCode solid (visits.occursIn solid (Place.size_le_of_mem_walk inside) occurs)

/-- What replaces a place that is shown goes into the code of the component. -/
theorem Shows.hasCode_of_idiom (shown : component.Shows facts this place)
    (solid : Text.IsSolid pattern.toList) {text : String}
    (replaced : (Renderer.of facts this).idiom? place = some text)
    (occurs : Text.occursIn pattern text = true) : component.HasCode pattern :=
  shown.hasCode_of_render solid (Renderer.occursIn_render_of_idiom solid
    (Place.size_le_of_mem_walk shown.mem_walk) replaced occurs)

/-- A setter that is called where a place is shown is called by the code of the component. -/
theorem Shows.hasCode (shown : component.Shows facts this place)
    (solid : Text.IsSolid (Identifier.setter name ++ "(").toList)
    (sets : (Renderer.of facts this).SetsAt place name) :
    component.HasCode (Identifier.setter name ++ "(") := by
  obtain ⟨text, replaced, occurs⟩ := sets
  exact shown.hasCode_of_idiom solid replaced occurs

end Shows

end Component

section Start

variable (document : Document) (settings : Settings) {tree : Node}

/-- A statement that no pass takes care of is rendered for an effect. -/
theorem renders_of_kept {statement : Place}
    (kept : statement ∈ Pass.keptStatements (Facts.ofTree tree)) :
    (document.componentOf settings tree).Renders (Facts.ofTree tree) none statement := by
  have started := Pass.exists_startEffect_of_mem_kept kept
  obtain ⟨effect, member, part⟩ := (exists_effect_iff document settings tree fun code =>
    Text.occursIn (Pass.startCode (Facts.ofTree tree) statement) code = true).mpr (.inl started)
  exact .start member kept part

/-- The expression of such a statement is shown. -/
theorem shows_of_kept {statement expression : Place}
    (kept : statement ∈ Pass.keptStatements (Facts.ofTree tree))
    (kind : statement.kind = .expressionStatement) (child : expression ∈ statement.children) :
    (document.componentOf settings tree).Shows (Facts.ofTree tree) none expression := by
  have copied : (Renderer.of (Facts.ofTree tree) none).replacement? statement = none := by
    rw [Renderer.replacement?, kind, Renderer.idiom?, kind]
    rfl
  have inside := Facts.mem_walk_of_statements (Pass.mem_keptStatements.mp kept).1
  refine ⟨none, statement, inside, renders_of_kept document settings kept,
    .child copied child ?_⟩
  rw [kind]
  exact .here

end Start

end Hookify
