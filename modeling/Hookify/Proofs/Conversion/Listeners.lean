import Hookify.Proofs.Conversion.Component
import Hookify.Proofs.Pass.Renaming
import Mathlib.Data.List.Forall2

namespace Hookify

open Script

/-!
# Handlers and the effects that attach them

Each handler of a component has one effect, and the effects that listen stand
in the order of the handlers.  The code of such an effect is the code that is
written for the handler as it is in the end, although a handler may get its
name only after its effect has been written.

If the handler listens to an element, the effect finds the element by a
reference.  Exactly one reference of the component has that name, and it is
the reference to the element that listens.
-/

/-! ## In a draft -/

namespace Draft

/-- The effect adds and removes the handler as it is, and the draft has what it listens to. -/
structure Attaches (draft : Draft) (handler : Handler) (effect : PendingEffect) : Prop where
  trigger : effect.trigger = .event handler.event
  code : effect.code = Pass.listenerCode handler.target handler.event handler.name
    (handler.parent.map fun _ => handler.selector) handler.once
  target : Pass.Listens draft (handler.parent.getD handler.selector) handler.target

/-- The effects that listen attach the handlers, one for each and in the same order. -/
def Attached (draft : Draft) : Prop :=
  List.Forall₂ draft.Attaches draft.handlers draft.listenerEffects

theorem Attaches.extend {first second : Draft} (extended : first.Extends second)
    {handler : Handler} {effect : PendingEffect} (attaches : first.Attaches handler effect) :
    second.Attaches handler effect := by
  refine ⟨attaches.trigger, attaches.code, ?_⟩
  intro identifier same
  rcases attaches.target identifier same with ⟨reference, member, named⟩
  exact ⟨reference, extended.references.subset member, named⟩

theorem Blank.attached {draft : Draft} (blank : draft.Blank) : draft.Attached := by
  rw [Attached, listenerEffects, blank.handlers, blank.effects]
  exact .nil

/-- What listens has been named after the element that it belongs to. -/
theorem WellNamed.isNumbered_of_listens {draft : Draft} (named : draft.WellNamed) {owner : String}
    {target : ListenerTarget} (listens : Pass.Listens draft owner target) {identifier : String}
    (same : target = .reference identifier) :
    Identifier.IsNumbered (Identifier.reference owner) identifier := by
  rcases listens identifier same with ⟨reference, member, rfl, key⟩
  have numbered := named.numbered reference member
  rwa [Identifier.reference_eq_of_key key] at numbered

end Draft

namespace Pass

variable {facts : Facts}

/-- A handler may be renamed to any free name: its effect is then the effect of that name. -/
theorem replace_listenerCode (owner event : String) (delegate : Option String) (once : Bool)
    (taken : List String) {target : ListenerTarget}
    (numbered : ∀ identifier, target = .reference identifier →
      Identifier.IsNumbered (Identifier.reference owner) identifier) :
    let wanted := Identifier.handler owner delegate event
    Text.replace wanted (Identifier.fresh taken wanted)
        (listenerCode target event wanted delegate once) =
      listenerCode target event (Identifier.fresh taken wanted) delegate once := by
  intro wanted
  rcases Identifier.isNumbered_fresh taken wanted with ⟨number, digits, same⟩
  have isWord : Text.IsWord (Identifier.fresh taken wanted).toList := by
    rw [same]
    exact (Identifier.isWord_handler owner delegate event).append (Text.IsWord.of_digits digits)
  have nonempty : (Identifier.fresh taken wanted).toList ≠ [] := by
    rw [same]
    exact List.append_ne_nil_of_left_ne_nil (handler_ne_nil owner event delegate) number
  exact rename_listenerCode owner event delegate once
    (fun identifier found =>
      rename_reference owner event delegate _ (numbered identifier found)) isWord nonempty

/-- The last effect of a draft to which a handler has just been added. -/
theorem listenerEffects_withHandler (draft : Draft) (owner : String) (target : ListenerTarget)
    (binding : Binding) (parameters body : String) :
    ∃ effect, (withHandler draft owner target binding parameters body).listenerEffects =
        draft.listenerEffects ++ [effect] ∧ effect.trigger = .event binding.event ∧
      effect.code =
        let wanted := Identifier.handler owner binding.delegate binding.event
        let name := Identifier.fresh draft.taken wanted
        let code := listenerCode target binding.event wanted binding.delegate binding.once
        if name == wanted then code else Text.replace wanted name code := by
  rw [Draft.listenerEffects, withHandler, Draft.addHandler, List.filter_append]
  exact ⟨_, rfl, rfl, rfl⟩

/-- A handler that is added gets an effect that attaches it. -/
theorem attaches_withHandler {draft : Draft} (named : draft.WellNamed) {owner : String}
    {target : ListenerTarget} (binding : Binding) (parameters body : String)
    (listens : Listens draft owner target) :
    ∃ effect, (withHandler draft owner target binding parameters body).listenerEffects =
        draft.listenerEffects ++ [effect] ∧
      draft.Attaches
        { wantedHandler owner target binding parameters body with
          name := Identifier.fresh draft.taken
            (Identifier.handler owner binding.delegate binding.event) } effect := by
  have delegate : (binding.delegate.map fun _ => owner).map
      (fun _ => binding.delegate.getD owner) = binding.delegate := by
    cases binding.delegate <;> rfl
  have listener : (binding.delegate.map fun _ => owner).getD (binding.delegate.getD owner) =
      owner := by
    cases binding.delegate <;> rfl
  rcases listenerEffects_withHandler draft owner target binding parameters body with
    ⟨effect, effects, trigger, code⟩
  refine ⟨effect, effects, trigger, ?_, ?_⟩
  · dsimp only [wantedHandler]
    rw [delegate, code]
    dsimp only
    split
    · rename_i same
      rw [beq_iff_eq.mp same]
    · exact replace_listenerCode owner binding.event binding.delegate binding.once
        draft.taken (fun _ found => named.isNumbered_of_listens listens found)
  · dsimp only [wantedHandler]
    rw [listener]
    exact listens

theorem Step.attached {first second : Draft} (step : Step facts first second)
    (named : first.WellNamed) (attached : first.Attached) : second.Attached := by
  have kept : List.Forall₂ second.Attaches first.handlers first.listenerEffects :=
    attached.imp fun _ _ attaches => attaches.extend step.extends
  cases step with
  | record same =>
      rw [Draft.Attached, same.handlers, same.listenerEffects]
      exact kept
  | state origin free => exact kept
  | reference missing => exact kept
  | @handler owner target binding parameters body listens =>
      rcases attaches_withHandler named binding parameters body listens with
        ⟨effect, effects, added⟩
      rw [Draft.Attached, effects]
      exact List.rel_append kept (.cons (added.extend (Step.handler binding parameters body
        listens : Step facts first _).extends) .nil)
  | function defined free => exact kept

theorem Steps.attached {first second : Draft} (steps : Steps facts first second)
    (named : first.WellNamed) (attached : first.Attached) : second.Attached :=
  (steps.preserves (fun draft => draft.WellNamed ∧ draft.Attached)
    (fun step both => ⟨step.wellNamed both.1, step.attached both.1 both.2⟩) ⟨named, attached⟩).2

end Pass

/-! ## In a component -/

namespace Component

/-- The effect adds and removes the handler as it is.  If the handler listens to an element, one
reference has the name that the effect uses, and it refers to that element. -/
structure Attaches (component : Component) (handler : Handler) (effect : Effect) : Prop where
  trigger : effect.trigger = .event handler.event
  code : effect.code = Pass.listenerCode handler.target handler.event handler.name
    (handler.parent.map fun _ => handler.selector) handler.once
  target : ∀ identifier, handler.target = .reference identifier →
    ∃ reference, component.references.filter (·.identifier == identifier) = [reference] ∧
      Identifier.selectorKey reference.selector =
        Identifier.selectorKey (handler.parent.getD handler.selector)

end Component

/-- Finishing a draft keeps what its effects do and when they run. -/
theorem Draft.Attached.finish {draft : Draft} (named : draft.WellNamed)
    (attached : draft.Attached) :
    List.Forall₂ draft.finish.Attaches draft.finish.handlers draft.finish.listenerEffects := by
  rw [draft.listenerEffects_finish, List.forall₂_map_right_iff]
  apply attached.imp
  intro handler effect attaches
  refine ⟨attaches.trigger, attaches.code, ?_⟩
  intro identifier same
  rcases attaches.target identifier same with ⟨reference, member, rfl, key⟩
  exact ⟨reference, named.filter_references member, key⟩

/-- The effects of a component that listen attach its handlers, one for each and in the same
order; and whatever the names of the selectors and events are, renaming a handler in its effect
changes nothing else there. -/
theorem listenerEffects_attach_handlers (document : Document) (settings : Settings) (tree : Node) :
    let component := document.componentOf settings tree
    List.Forall₂ component.Attaches component.handlers component.listenerEffects ∧
      ∀ (owner event : String) (delegate : Option String) (once : Bool) (taken : List String)
        (target : ListenerTarget),
        (∀ identifier, target = .reference identifier →
          Identifier.IsNumbered (Identifier.reference owner) identifier) →
        let wanted := Identifier.handler owner delegate event
        Text.replace wanted (Identifier.fresh taken wanted)
            (Pass.listenerCode target event wanted delegate once) =
          Pass.listenerCode target event (Identifier.fresh taken wanted) delegate once := by
  have blank := document.blank_draft settings
  have steps := Pass.steps_runAll (Facts.ofTree tree) (document.draft settings)
  refine ⟨(steps.attached blank.wellNamed blank.attached).finish (steps.wellNamed blank.wellNamed),
    ?_⟩
  intro owner event delegate once taken target numbered
  exact Pass.replace_listenerCode owner event delegate once taken numbered

/-- The second of two handlers for the clicks on one element is renamed, and attached as such. -/
theorem listenerEffects_attach_two_clicks :
    let document := Document.new "$('#a').click(f);\n$('#a').click(g);" ⟨"clicks.js"⟩
    let component := document.componentOf {} (parse document.script)
    component.handlers.map (·.name) = ["handleAClick", "handleAClick2"] ∧
      List.Forall₂ component.Attaches component.handlers component.listenerEffects ∧
      (∀ identifier, ListenerTarget.reference "aRef" = .reference identifier →
        Identifier.IsNumbered (Identifier.reference "#a") identifier) ∧
      Text.replace "handleAClick" "handleAClick2"
          (Pass.listenerCode (.reference "aRef") "click" "handleAClick" none false) =
        Pass.listenerCode (.reference "aRef") "click" "handleAClick2" none false := by
  intro document component
  have attach := listenerEffects_attach_handlers document {} (parse document.script)
  have numbered : ∀ identifier, ListenerTarget.reference "aRef" = .reference identifier →
      Identifier.IsNumbered (Identifier.reference "#a") identifier := by
    intro identifier same
    cases same
    exact ⟨[], fun _ member => absurd member List.not_mem_nil, by decide⟩
  have wanted : Identifier.handler "#a" none "click" = "handleAClick" := by decide
  have name : Identifier.fresh ["handleAClick"] "handleAClick" = "handleAClick2" := by decide
  have renamed := attach.2 "#a" "click" none false ["handleAClick"] (.reference "aRef") numbered
  rw [wanted] at renamed
  dsimp only at renamed
  rw [name] at renamed
  exact ⟨by decide +kernel, attach.1, numbered, renamed⟩

end Hookify
