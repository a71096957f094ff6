import Hookify.Proofs.Component.Dependencies
import Hookify.Proofs.Conversion.Component
import Hookify.Proofs.Conversion.References

namespace Hookify

open Script

/-!
# The names that a component binds

The function that is generated for a component binds the names of its states,
references, handlers and functions, and for each state that can change also the
name of the function that sets it.  That last name belongs to no part of the
draft, so that nothing keeps it free.

It clashes in one of two ways.  Two states may have names that differ in the
size of the first letter alone.  Or the script has a variable or a function, or
a selector gets a reference, that is named like the function that sets a state.
Handlers are never in the way.
-/

namespace Component

/-- The names that the generated function binds. -/
def boundNames (component : Component) : List String :=
  component.states.map (·.identifier) ++ component.reactiveStates.map (·.setter) ++
    component.references.map (·.identifier) ++ component.handlers.map (·.name) ++
      component.functions.map (·.name)

/-- Why the function that sets a state has the name of something else. -/
inductive SetterClash (component : Component) : Prop where
  /-- It also sets another state. -/
  | setter (first second : StateVariable) (among : first ∈ component.reactiveStates)
      (also : second ∈ component.reactiveStates) (same : first.setter = second.setter)
      (different : first.identifier ≠ second.identifier)
  | state (state other : StateVariable) (among : state ∈ component.reactiveStates)
      (also : other ∈ component.states) (same : other.identifier = state.setter)
  | reference (state : StateVariable) (reference : Reference)
      (among : state ∈ component.reactiveStates) (also : reference ∈ component.references)
      (same : reference.identifier = state.setter)
  | function (state : StateVariable) (function : NamedFunction)
      (among : state ∈ component.reactiveStates) (also : function ∈ component.functions)
      (same : function.name = state.setter)

end Component

/-! ## The names of handlers -/

namespace Pass

/-- Every handler is named after an element and an event. -/
def NamesHandlers (draft : Draft) : Prop :=
  ∀ handler ∈ draft.handlers, ∃ owner delegate event,
    Identifier.IsNumbered (Identifier.handler owner delegate event) handler.name

variable {facts : Facts} {first second : Draft}

theorem Step.namesHandlers (step : Step facts first second) (names : NamesHandlers first) :
    NamesHandlers second := by
  cases step with
  | record same => rwa [NamesHandlers, same.handlers]
  | state origin free => exact names
  | reference missing => exact names
  | @handler owner target binding parameters body listens =>
      intro handler member
      rcases List.mem_append.mp member with earlier | added
      · exact names handler earlier
      · rw [List.mem_singleton.mp added]
        exact ⟨owner, binding.delegate, binding.event, Identifier.isNumbered_fresh _ _⟩
  | function defined free => exact names

theorem Steps.namesHandlers (steps : Steps facts first second) (blank : first.Blank) :
    NamesHandlers second := by
  refine steps.preserves NamesHandlers Step.namesHandlers ?_
  rw [NamesHandlers, blank.handlers]
  exact fun _ member => absurd member List.not_mem_nil

/-- The name of a handler begins with a letter of its own. -/
theorem NamesHandlers.ne_setter {draft : Draft} (names : NamesHandlers draft) {handler : Handler}
    (member : handler ∈ draft.handlers) (identifier : String) :
    handler.name ≠ Identifier.setter identifier := by
  rcases names handler member with ⟨owner, delegate, event, number, _, named⟩
  intro same
  have first := congrArg (fun name : String => name.toList.head?) same
  simp [named, Identifier.toList_handler, Identifier.setter] at first

end Pass

/-! ## Clashes -/

namespace Draft

variable {draft : Draft}

theorem boundNames_finish_perm (draft : Draft) :
    draft.finish.boundNames.Perm
      (draft.identifiers ++ draft.finish.reactiveStates.map (·.setter)) := by
  simp only [Component.boundNames, identifiers, List.append_assoc]
  refine List.Perm.append_left _ (List.perm_append_comm.trans ?_)
  simp only [List.append_assoc]
  exact List.Perm.refl _

/-- The setters of the states are different, unless two of them clash. -/
theorem Registered.nodup_setters_iff (registered : draft.Registered) :
    (draft.finish.reactiveStates.map (·.setter)).Nodup ↔
      ∀ first ∈ draft.finish.reactiveStates, ∀ second ∈ draft.finish.reactiveStates,
        first.setter = second.setter → first.identifier = second.identifier := by
  have states : draft.finish.reactiveStates.Nodup := registered.nodup_reactiveNames.of_map _
  rw [List.nodup_map_iff_inj_on states]
  refine forall₄_congr fun first among second also => imp_congr_right fun _ => ?_
  exact ⟨congrArg StateVariable.identifier,
    fun same => List.inj_on_of_nodup_map registered.nodup_reactiveNames among also same⟩

/-- The names that a component binds are different, unless the setter of a state clashes. -/
theorem Registered.nodup_boundNames_iff (registered : draft.Registered)
    (names : Pass.NamesHandlers draft) :
    draft.finish.boundNames.Nodup ↔ ¬ draft.finish.SetterClash := by
  rw [(boundNames_finish_perm draft).nodup_iff, List.nodup_append, registered.nodup_setters_iff]
  constructor
  · rintro ⟨_, setters, apart⟩ clash
    have free : ∀ state ∈ draft.finish.reactiveStates, state.setter ∉ draft.identifiers :=
      fun state among taken => apart _ taken _ (List.mem_map_of_mem among) rfl
    cases clash with
    | setter first second among also same different =>
        exact different (setters first among second also same)
    | state state other among also same =>
        exact free state among (mem_identifiers.mpr (.inl ⟨other, also, same⟩))
    | reference state reference among also same =>
        exact free state among (mem_identifiers.mpr (.inr (.inl ⟨reference, also, same⟩)))
    | function state function among also same =>
        exact free state among
          (mem_identifiers.mpr (.inr (.inr (.inr ⟨function, also, same⟩))))
  · intro clear
    refine ⟨registered.distinct, ?_, ?_⟩
    · intro first among second also same
      by_contra different
      exact clear (.setter first second among also same different)
    · rintro name taken _ member rfl
      rcases List.mem_map.mp member with ⟨state, among, rfl⟩
      rcases mem_identifiers.mp taken with ⟨other, also, same⟩ | ⟨reference, also, same⟩ |
        ⟨handler, also, same⟩ | ⟨function, also, same⟩
      · exact clear (.state state other among also same)
      · exact clear (.reference state reference among also same)
      · exact names.ne_setter also _ same
      · exact clear (.function state function among also same)

end Draft

/-- The names that the generated function of a script binds are all different exactly if no
function that sets a state has the name of another such function, or of a state, a reference or a
function. -/
theorem boundNames_nodup_iff (document : Document) (settings : Settings) (tree : Node) :
    (document.componentOf settings tree).boundNames.Nodup ↔
      ¬ (document.componentOf settings tree).SetterClash := by
  have blank := document.blank_draft settings
  have steps := Pass.steps_runAll (Facts.ofTree tree) (document.draft settings)
  exact (steps.registered blank.registered).nodup_boundNames_iff (steps.namesHandlers blank)

/-- A script may have a function for its variable that is named like the one that sets the state;
then that name is bound twice, and the function calls itself. -/
theorem not_nodup_boundNames_of_function :
    let document := Document.new
      "var count = 0;\nfunction setCount(n) { count = n; }\nsetCount(1);" ⟨"count.js"⟩
    let component := document.componentOf {} (parse document.script)
    component.states.map (·.identifier) = ["count"] ∧
      component.reactiveStates.map (·.setter) = ["setCount"] ∧
      component.functions = [⟨"setCount", "n", "setCount(n);", false⟩] ∧
      ¬ component.boundNames.Nodup := by
  decide +kernel

open Selection

/-!
## References and the variables of the script

A reference is declared around all the code of a component, so it must not have
the name of a variable of the script.  The facts about the script choose a name
that no identifier in it has; but a pattern that takes a property by its name
alone binds a variable without an identifier.  And where a handler already has
the name that was chosen, the reference gets the next one that is free in the
component, whether the script uses it or not.
-/

/-! ## The variables of a script -/

namespace Script

/-- The variable that a node names: by an identifier, or by its name alone in an object or a
pattern. -/
def Place.variableName? (place : Place) : Option String :=
  match place.kind with
  | .identifier | .shorthandPropertyIdentifier | .shorthandPropertyIdentifierPattern =>
      some place.text
  | .undefinedName => some "undefined"
  | _ => none

/-- The script binds or reads a variable with this name. -/
def Node.HasVariable (tree : Node) (name : String) : Prop :=
  ∃ place ∈ (Place.ofRoot tree).walk, place.variableName? = some name

instance (tree : Node) (name : String) : Decidable (tree.HasVariable name) :=
  inferInstanceAs (Decidable (∃ place ∈ (Place.ofRoot tree).walk, _))

/-- A pattern of the script takes a property by this name alone. -/
def Node.TakesProperty (tree : Node) (name : String) : Prop :=
  ∃ place ∈ (Place.ofRoot tree).walk,
    place.kind = .shorthandPropertyIdentifierPattern ∧ place.text = name

instance (tree : Node) (name : String) : Decidable (tree.TakesProperty name) :=
  inferInstanceAs (Decidable (∃ place ∈ (Place.ofRoot tree).walk, _))

theorem variableName?_eq_some_iff {place : Place} {name : String} :
    place.variableName? = some name ↔
      usedName? place = some name ∨
        (place.kind = .shorthandPropertyIdentifierPattern ∧ place.text = name) ∨
          (place.kind = .undefinedName ∧ "undefined" = name) := by
  rw [Place.variableName?, usedName?]
  cases place.kind <;> simp

/-- The facts about a script miss the variables that a pattern binds by a property's name. -/
theorem hasVariable_iff {tree : Node} {name : String} (defined : name ≠ "undefined") :
    tree.HasVariable name ↔ name ∈ (Facts.ofTree tree).names ∨ tree.TakesProperty name := by
  rw [Facts.mem_names]
  constructor
  · rintro ⟨place, inside, named⟩
    rcases variableName?_eq_some_iff.mp named with used | taken | ⟨_, same⟩
    · exact .inl ⟨place, inside, used⟩
    · exact .inr ⟨place, inside, taken⟩
    · exact absurd same.symm defined
  · rintro (⟨place, inside, used⟩ | ⟨place, inside, taken⟩)
    · exact ⟨place, inside, variableName?_eq_some_iff.mpr (.inl used)⟩
    · exact ⟨place, inside, variableName?_eq_some_iff.mpr (.inr (.inl taken))⟩

end Script

/-- No reference is named like this, whatever number it has. -/
theorem Identifier.not_isNumbered_undefined (selector : String) :
    ¬ IsNumbered (reference selector) "undefined" := by
  rintro ⟨number, digits, same⟩
  have ends : EndsInLetter "undefined".toList :=
    ⟨['u', 'n', 'd', 'e', 'f', 'i', 'n', 'e'], 'd', rfl, rfl⟩
  have empty := ends.eq_of_append_number digits same
  rw [empty, List.append_nil, toList_reference] at same
  have lasts := congrArg List.getLast? same
  simp at lasts

/-! ## In a component -/

namespace Component

/-- No reference has the name of a variable of the script. -/
def ShadowsNothing (component : Component) (tree : Node) : Prop :=
  ∀ reference ∈ component.references, ¬ tree.HasVariable reference.identifier

instance (component : Component) (tree : Node) : Decidable (component.ShadowsNothing tree) :=
  inferInstanceAs (Decidable (∀ reference ∈ component.references, _))

end Component

theorem Draft.mem_boundNames_finish {draft : Draft} {name : String}
    (member : name ∈ draft.identifiers) : name ∈ draft.finish.boundNames := by
  rw [Component.boundNames]
  rcases mem_identifiers.mp member with ⟨state, among, rfl⟩ | ⟨reference, among, rfl⟩ |
    ⟨handler, among, rfl⟩ | ⟨function, among, rfl⟩
  · simp only [List.mem_append]
    exact .inl (.inl (.inl (.inl (List.mem_map_of_mem among))))
  · simp only [List.mem_append]
    exact .inl (.inl (.inr (List.mem_map_of_mem among)))
  · simp only [List.mem_append]
    exact .inl (.inr (List.mem_map_of_mem among))
  · exact List.mem_append_right _ (List.mem_map_of_mem among)

/-- A reference has the first candidate for the name chosen by the facts that the component does
not use already, which is the chosen name itself unless a handler or a function has it.  So no
reference shadows a variable of the script exactly if no pattern takes a property by the name of
one, and none that had to give way to a handler or a function has come to a name that is used. -/
theorem references_shadow_nothing_iff (document : Document) (settings : Settings) (tree : Node) :
    let facts := Facts.ofTree tree
    let component := document.componentOf settings tree
    (∀ reference ∈ component.references,
      let chosen := facts.referenceName reference.selector
      ∃ index, reference.identifier = Identifier.candidate chosen index ∧
        (∀ earlier < index, Identifier.candidate chosen earlier ∈ component.boundNames) ∧
        (0 < index ↔ component.NamesCode chosen)) ∧
      (component.ShadowsNothing tree ↔
        ∀ reference ∈ component.references, ¬ tree.TakesProperty reference.identifier ∧
          (component.NamesCode (facts.referenceName reference.selector) →
            reference.identifier ∉ facts.names)) := by
  intro facts component
  have blank := document.blank_draft settings
  have steps := Pass.steps_runAll facts (document.draft settings)
  have named := steps.wellNamed blank.wellNamed
  have candidates := steps.candidates blank
  -- What is called has another name than a reference.
  have differs : ∀ reference ∈ component.references,
      component.NamesCode (facts.referenceName reference.selector) →
        reference.identifier ≠ facts.referenceName reference.selector := by
    intro reference member code same
    have listed := List.mem_append_right (component.states.map (·.identifier))
      (List.mem_map_of_mem (f := (·.identifier)) member)
    exact named.not_namesCode listed (same ▸ code)
  refine ⟨?_, ?_⟩
  · intro reference member chosen
    rcases candidates reference member with ⟨index, same, before, code⟩
    refine ⟨index, same, fun earlier below => Draft.mem_boundNames_finish (before earlier below),
      code, fun code => ?_⟩
    refine Nat.pos_of_ne_zero fun zero => differs reference member code ?_
    rw [same, zero]
    rfl
  · refine forall₂_congr fun reference member => ?_
    have defined : reference.identifier ≠ "undefined" := by
      intro same
      exact Identifier.not_isNumbered_undefined _ (same ▸ named.numbered reference member)
    rw [hasVariable_iff defined, not_or, and_comm]
    refine and_congr_right fun _ => ⟨fun unused _ => unused, fun unused used => ?_⟩
    rcases candidates.agrees reference member with same | code
    · exact facts.referenceName_not_mem reference.selector (same ▸ used)
    · exact unused code used

/-- Where a pattern takes a property by the name of a reference, the code passes a member of that
property instead of the element. -/
theorem not_shadowsNothing_of_pattern :
    let document := Document.new "var \x7b aRef \x7d = o;\nshow($('#a'));" ⟨"show.js"⟩
    let tree := parse document.script
    let component := document.componentOf {} tree
    component.references.map (·.identifier) = ["aRef"] ∧
      component.effects.map (·.code) = ["var \x7b aRef \x7d = o;\nshow(aRef.current);"] ∧
      tree.TakesProperty "aRef" ∧ ¬ component.ShadowsNothing tree := by
  decide +kernel

/-- A reference that gives way to a handler gets a number, also if the script has a variable with
that number. -/
theorem not_shadowsNothing_of_handler :
    let document := Document.new "$('#a').on('ref', f);\nshow($('#handleA'), handleARef2);"
      ⟨"show.js"⟩
    let tree := parse document.script
    let component := document.componentOf {} tree
    component.handlers.map (·.name) = ["handleARef"] ∧
      "handleARef2" ∈ component.references.map (·.identifier) ∧
      "handleARef2" ∈ (Facts.ofTree tree).names ∧ ¬ component.ShadowsNothing tree := by
  decide +kernel

end Hookify
