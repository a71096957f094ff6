import Hookify.Proofs.Conversion.Component
import Hookify.Proofs.Pass.Coverage

namespace Hookify

open Script Selection

/-!
# The names of references

The code of a component names a reference as the facts about the script do.
The reference itself gets the next name that is free in the draft.  The two
agree if the name of the facts is free in the draft, and only what is called can
stand in the way: states and other references never have that name, and neither
has a function whose name is an identifier of the script.  A handler can, since
its name is made of a selector and an event.
-/

namespace Pass

variable {tree : Node}

/-- A reference has the name that the facts choose, unless something that is called has it. -/
def Agrees (facts : Facts) (draft : Draft) : Prop :=
  ∀ reference ∈ draft.references,
    reference.identifier = facts.referenceName reference.selector ∨
      draft.NamesCode (facts.referenceName reference.selector)

/-- A reference has the first free candidate for the name that the facts choose: the name itself,
unless something that is called has it. -/
def Candidates (facts : Facts) (draft : Draft) : Prop :=
  ∀ reference ∈ draft.references, ∃ index,
    reference.identifier =
        Identifier.candidate (facts.referenceName reference.selector) index ∧
      (∀ earlier < index,
        Identifier.candidate (facts.referenceName reference.selector) earlier ∈
          draft.identifiers) ∧
      (0 < index → draft.NamesCode (facts.referenceName reference.selector))

theorem Candidates.extend {facts : Facts} {first second : Draft} (extended : first.Extends second)
    (same : second.references = first.references) (candidates : Candidates facts first) :
    Candidates facts second := by
  intro reference member
  rw [same] at member
  rcases candidates reference member with ⟨index, named, before, code⟩
  exact ⟨index, named, fun earlier below => extended.identifiers (before earlier below),
    fun later => (code later).extend extended⟩

theorem Candidates.agrees {facts : Facts} {draft : Draft} (candidates : Candidates facts draft) :
    Agrees facts draft := by
  intro reference member
  rcases candidates reference member with ⟨index, named, _, code⟩
  cases index with
  | zero => exact .inl named
  | succ index => exact .inr (code (Nat.succ_pos index))

/-- When a reference is missing, only what is called can have taken its name. -/
theorem namesCode_of_taken {draft : Draft} (named : draft.WellNamed)
    (origins : HasOrigins (Facts.ofTree tree) draft) {selector : String}
    (missing : draft.reference? selector = none)
    (taken : (Facts.ofTree tree).referenceName selector ∈ draft.identifiers) :
    draft.NamesCode ((Facts.ofTree tree).referenceName selector) := by
  rcases Draft.mem_identifiers.mp taken with ⟨state, member, same⟩ | ⟨reference, member, same⟩ |
    handler | function
  · exact absurd same ((origins state member).identifier_ne selector)
  · have numbered := named.numbered reference member
    rw [same] at numbered
    have key := Identifier.selectorKey_eq_of_isNumbered numbered
      ((Facts.ofTree tree).isNumbered_referenceName selector)
    exact absurd (List.mem_map.mpr ⟨reference, member, key⟩) (Draft.key_not_mem_of_missing missing)
  · exact .inl handler
  · exact .inr function

theorem Step.candidates {first second : Draft} (step : Step (Facts.ofTree tree) first second)
    (named : first.WellNamed) (origins : HasOrigins (Facts.ofTree tree) first)
    (candidates : Candidates (Facts.ofTree tree) first) :
    Candidates (Facts.ofTree tree) second := by
  have extended := step.extends
  cases step with
  | record same => exact candidates.extend extended same.references
  | state origin free => exact candidates.extend extended rfl
  | @reference selector missing =>
      intro reference member
      rcases List.mem_append.mp member with earlier | added
      · rcases candidates reference earlier with ⟨index, same, before, code⟩
        exact ⟨index, same, fun earlier below => extended.identifiers (before earlier below),
          fun later => (code later).extend extended⟩
      · rw [List.mem_singleton.mp added]
        rcases Identifier.fresh_spec first.taken ((Facts.ofTree tree).referenceName selector) with
          ⟨index, same, _, before⟩
        refine ⟨index, same, fun earlier below => ?_, fun later => ?_⟩
        · exact extended.identifiers (named.taken.mem_iff.mp (before earlier below))
        · have taken := named.taken.mem_iff.mp (before 0 later)
          exact (namesCode_of_taken named origins missing taken).extend extended
  | handler binding parameters body listens => exact candidates.extend extended rfl
  | function defined free => exact candidates.extend extended rfl

theorem Steps.candidates {first second : Draft} (steps : Steps (Facts.ofTree tree) first second)
    (blank : first.Blank) : Candidates (Facts.ofTree tree) second := by
  have start : Candidates (Facts.ofTree tree) first := by
    rw [Candidates, blank.references]
    exact fun _ member => absurd member List.not_mem_nil
  have origins : HasOrigins (Facts.ofTree tree) first := by
    rw [HasOrigins, blank.states]
    exact fun _ member => absurd member List.not_mem_nil
  exact (steps.preserves
    (fun draft => draft.WellNamed ∧ HasOrigins (Facts.ofTree tree) draft ∧
      Candidates (Facts.ofTree tree) draft)
    (fun step held => ⟨step.wellNamed held.1, step.hasOrigins held.2.1,
      step.candidates held.1 held.2.1 held.2.2⟩)
    ⟨blank.wellNamed, origins, start⟩).2.2

theorem Steps.agrees {first second : Draft} (steps : Steps (Facts.ofTree tree) first second)
    (blank : first.Blank) : Agrees (Facts.ofTree tree) second :=
  (steps.candidates blank).agrees

end Pass

/-! ## In a component -/

namespace Component

/-- Exactly one reference of the component has the name, and it is for the element of the
selector. -/
def Declares (component : Component) (name selector : String) : Prop :=
  ∃ reference, component.references.filter (·.identifier == name) = [reference] ∧
    Identifier.selectorKey reference.selector = Identifier.selectorKey selector

end Component

/-- The name under which the code refers to the element of a selector is declared, once and for
that element, unless a handler or a function of the component has the name.  No function has it
if functions are declared by identifiers, as they always are. -/
theorem declares_referenceName_iff (document : Document) (settings : Settings) (tree : Node)
    {place : Place} (inside : place ∈ (Place.ofRoot tree).walk) {chain : Chain} {selector : String}
    (selects : (Facts.ofTree tree).chain? place = some chain)
    (target : chain.target = .selector selector) :
    let component := document.componentOf settings tree
    let name := (Facts.ofTree tree).referenceName selector
    (component.Declares name selector ↔ ¬ component.NamesCode name) ∧
      (Pass.NamesFunctions tree → ∀ function ∈ component.functions, function.name ≠ name) := by
  intro component name
  have blank := document.blank_draft settings
  have steps := Pass.steps_runAll (Facts.ofTree tree) (document.draft settings)
  have named := steps.wellNamed blank.wellNamed
  rcases Facts.exists_selection_of_chain? inside selects target with ⟨value, selected, isSelection⟩
  have covers : Pass.Covers selector (Stage.runAll (Facts.ofTree tree) (document.draft settings)) :=
    Pass.covers_references (Pass.mem_selectorsOf selected isSelection) _
  refine ⟨⟨?_, ?_⟩, ?_⟩
  · rintro ⟨reference, single, _⟩
    have found : reference ∈ component.references.filter (·.identifier == name) := by
      rw [single]
      exact List.mem_singleton.mpr rfl
    rcases List.mem_filter.mp found with ⟨member, same⟩
    have listed : name ∈ component.references.map (·.identifier) :=
      List.mem_map.mpr ⟨reference, member, beq_iff_eq.mp same⟩
    exact named.not_namesCode (List.mem_append_right _ listed)
  · intro free
    rcases covers with ⟨reference, member, key⟩
    have same : (Facts.ofTree tree).referenceName reference.selector = name :=
      (Facts.ofTree tree).referenceName_eq_of_key key
    rcases steps.agrees blank reference member with agrees | taken
    · exact ⟨reference, agrees.trans same ▸ named.filter_references member, key⟩
    · exact absurd (same ▸ taken) free
  · intro identifiers function member same
    rcases steps.hasDefinitions blank function member with ⟨place, defined⟩
    have used := Pass.mem_names_of_definedFunctions identifiers defined
    rw [same] at used
    exact (Facts.ofTree tree).referenceName_not_mem selector used

/-- A script in which some chain begins at a selector has a place with that chain. -/
theorem exists_chain_of_any {tree : Node} {selector : String}
    (found : ((Place.ofRoot tree).walk.any fun place =>
      ((Facts.ofTree tree).chain? place).any (·.target == .selector selector)) = true) :
    ∃ place ∈ (Place.ofRoot tree).walk, ∃ chain,
      (Facts.ofTree tree).chain? place = some chain ∧ chain.target = .selector selector := by
  rcases List.any_eq_true.mp found with ⟨place, inside, chained⟩
  rcases (Option.any_eq_true _ _).mp chained with ⟨chain, selects, target⟩
  exact ⟨place, inside, chain, selects, beq_iff_eq.mp target⟩

/-- The element that a script shows has a reference under the name that the code uses. -/
theorem declares_referenceName_of_shown_element :
    let document := Document.new "$('#a').click(f);\nshow($('#a'));" ⟨"show.js"⟩
    let tree := parse document.script
    ∃ place ∈ (Place.ofRoot tree).walk, ∃ chain,
      (Facts.ofTree tree).chain? place = some chain ∧ chain.target = .selector "#a" ∧
        (document.componentOf {} tree).Declares "aRef" "#a" := by
  intro document tree
  have run : ((Place.ofRoot tree).walk.any fun place =>
        ((Facts.ofTree tree).chain? place).any (·.target == .selector "#a")) = true ∧
      (Facts.ofTree tree).referenceName "#a" = "aRef" ∧
      ¬ (document.componentOf {} tree).NamesCode "aRef" := by
    decide +kernel
  rcases run with ⟨chained, name, free⟩
  rcases exists_chain_of_any chained with ⟨place, inside, chain, selects, target⟩
  have declares := (declares_referenceName_iff document {} tree inside selects target).1
  rw [name] at declares
  exact ⟨place, inside, chain, selects, target, declares.mpr free⟩

/-- The handler of an event on one element may take the name of the reference to another: the
code that shows the second element then passes a member of the handler. -/
theorem not_declares_referenceName_of_handler :
    let document := Document.new "$('#a').on('ref', f);\nshow($('#handleA'));" ⟨"show.js"⟩
    let tree := parse document.script
    let component := document.componentOf {} tree
    (∃ place ∈ (Place.ofRoot tree).walk, ∃ chain,
      (Facts.ofTree tree).chain? place = some chain ∧ chain.target = .selector "#handleA") ∧
      (Facts.ofTree tree).referenceName "#handleA" = "handleARef" ∧
      "show(handleARef.current);" ∈ component.effects.map (·.code) ∧
      component.handlers.map (·.name) = ["handleARef"] ∧
      ¬ component.Declares "handleARef" "#handleA" := by
  intro document tree component
  have run : ((Place.ofRoot tree).walk.any fun place =>
        ((Facts.ofTree tree).chain? place).any (·.target == .selector "#handleA")) = true ∧
      (Facts.ofTree tree).referenceName "#handleA" = "handleARef" ∧
      "show(handleARef.current);" ∈ component.effects.map (·.code) ∧
      component.handlers.map (·.name) = ["handleARef"] ∧
      component.references.filter (·.identifier == "handleARef") = [] := by
    decide +kernel
  rcases run with ⟨chained, name, shown, handlers, missing⟩
  refine ⟨exists_chain_of_any chained, name, shown, handlers, ?_⟩
  rintro ⟨reference, single, _⟩
  rw [missing] at single
  exact absurd single (List.cons_ne_nil _ _).symm

end Hookify
