import Hookify.Proofs.Component.Dependencies
import Hookify.Proofs.Component.Names

namespace Hookify
namespace Draft

/-!
# What an operation leaves alone

An operation adds to one list of a draft, and a handler to two, since it comes
with its effect.  The other lists stay as they are, whether or not the name
that is asked for is free.  What is new in the list is what was asked for.
-/

/-- The effects that run without an event, on mount or to load data. -/
def startEffects (draft : Draft) : List PendingEffect :=
  draft.effects.filter (! ·.trigger.isEvent)

section Frames

variable (draft : Draft) {operation : Operation}

theorem perform_states (other : ∀ state, operation ≠ .addState state) :
    (draft.perform operation).states = draft.states := by
  cases operation with
  | addState state => exact absurd rfl (other state)
  | ensureReference selector | ensureReferenceNamed selector wanted | addFunction function
  | addSelector selector | addWarning warning =>
      simp only [perform, ensureReference, ensureReferenceNamed, addFunction, addSelector,
        addWarning]
      split <;> rfl
  | _ => rfl

/-- The name of the source is given at the beginning. -/
theorem perform_source (operation : Operation) :
    (draft.perform operation).source = draft.source := by
  cases operation with
  | addState state | ensureReference selector | ensureReferenceNamed selector wanted
  | addFunction function | addSelector selector | addWarning warning =>
      simp only [perform, addState, ensureReference, ensureReferenceNamed, addFunction,
        addSelector, addWarning]
      split <;> rfl
  | _ => rfl

theorem perform_references (other : ∀ selector, operation ≠ .ensureReference selector)
    (named : ∀ selector wanted, operation ≠ .ensureReferenceNamed selector wanted) :
    (draft.perform operation).references = draft.references := by
  cases operation with
  | ensureReference selector => exact absurd rfl (other selector)
  | ensureReferenceNamed selector wanted => exact absurd rfl (named selector wanted)
  | addState state | addFunction function | addSelector selector | addWarning warning =>
      simp only [perform, addState, addFunction, addSelector, addWarning]
      split <;> rfl
  | _ => rfl

theorem perform_selectors (other : ∀ selector, operation ≠ .addSelector selector) :
    (draft.perform operation).selectors = draft.selectors := by
  cases operation with
  | addSelector selector => exact absurd rfl (other selector)
  | addState state | ensureReference selector | ensureReferenceNamed selector wanted
  | addFunction function | addWarning warning =>
      simp only [perform, addState, ensureReference, ensureReferenceNamed, addFunction,
        addWarning]
      split <;> rfl
  | _ => rfl

theorem perform_handlers (other : ∀ handler code, operation ≠ .addHandler handler code) :
    (draft.perform operation).handlers = draft.handlers := by
  cases operation with
  | addHandler handler code => exact absurd rfl (other handler code)
  | addState state | ensureReference selector | ensureReferenceNamed selector wanted
  | addFunction function | addSelector selector | addWarning warning =>
      simp only [perform, addState, ensureReference, ensureReferenceNamed, addFunction,
        addSelector, addWarning]
      split <;> rfl
  | _ => rfl

theorem perform_functions (other : ∀ function, operation ≠ .addFunction function) :
    (draft.perform operation).functions = draft.functions := by
  cases operation with
  | addFunction function => exact absurd rfl (other function)
  | addState state | ensureReference selector | ensureReferenceNamed selector wanted
  | addSelector selector | addWarning warning =>
      simp only [perform, addState, ensureReference, ensureReferenceNamed, addSelector,
        addWarning]
      split <;> rfl
  | _ => rfl

theorem perform_claimed (other : ∀ name, operation ≠ .claim name) :
    (draft.perform operation).claimed = draft.claimed := by
  cases operation with
  | claim name => exact absurd rfl (other name)
  | addState state | ensureReference selector | ensureReferenceNamed selector wanted
  | addFunction function | addSelector selector | addWarning warning =>
      simp only [perform, addState, ensureReference, ensureReferenceNamed, addFunction,
        addSelector, addWarning]
      split <;> rfl
  | _ => rfl

theorem perform_warnings (other : ∀ warning, operation ≠ .addWarning warning) :
    (draft.perform operation).warnings = draft.warnings := by
  cases operation with
  | addWarning warning => exact absurd rfl (other warning)
  | addState state | ensureReference selector | ensureReferenceNamed selector wanted
  | addFunction function | addSelector selector =>
      simp only [perform, addState, ensureReference, ensureReferenceNamed, addFunction,
        addSelector]
      split <;> rfl
  | _ => rfl

theorem perform_animations (other : ∀ animation, operation ≠ .addAnimation animation) :
    (draft.perform operation).animations = draft.animations := by
  cases operation with
  | addAnimation animation => exact absurd rfl (other animation)
  | addState state | ensureReference selector | ensureReferenceNamed selector wanted
  | addFunction function | addSelector selector | addWarning warning =>
      simp only [perform, addState, ensureReference, ensureReferenceNamed, addFunction,
        addSelector, addWarning]
      split <;> rfl
  | _ => rfl

theorem perform_remoteCalls (other : ∀ call, operation ≠ .addRemoteCall call) :
    (draft.perform operation).remoteCalls = draft.remoteCalls := by
  cases operation with
  | addRemoteCall call => exact absurd rfl (other call)
  | addState state | ensureReference selector | ensureReferenceNamed selector wanted
  | addFunction function | addSelector selector | addWarning warning =>
      simp only [perform, addState, ensureReference, ensureReferenceNamed, addFunction,
        addSelector, addWarning]
      split <;> rfl
  | _ => rfl

theorem perform_mutations (other : ∀ mutation, operation ≠ .addMutation mutation) :
    (draft.perform operation).mutations = draft.mutations := by
  cases operation with
  | addMutation mutation => exact absurd rfl (other mutation)
  | addState state | ensureReference selector | ensureReferenceNamed selector wanted
  | addFunction function | addSelector selector | addWarning warning =>
      simp only [perform, addState, ensureReference, ensureReferenceNamed, addFunction,
        addSelector, addWarning]
      split <;> rfl
  | _ => rfl

/-- An effect that listens is none of the others. -/
theorem perform_startEffects (mount : ∀ code description,
      operation ≠ .addMountEffect code description)
    (fetch : ∀ code description, operation ≠ .addFetchEffect code description) :
    (draft.perform operation).startEffects = draft.startEffects := by
  cases operation with
  | addMountEffect code description => exact absurd rfl (mount code description)
  | addFetchEffect code description => exact absurd rfl (fetch code description)
  | addHandler handler code =>
      rw [perform, addHandler, startEffects, List.filter_append]
      exact List.append_nil _
  | addState state | ensureReference selector | ensureReferenceNamed selector wanted
  | addFunction function | addSelector selector | addWarning warning =>
      simp only [perform, addState, ensureReference, ensureReferenceNamed, addFunction,
        addSelector, addWarning]
      split <;> rfl
  | _ => rfl

theorem mem_states_addState {draft : Draft} {state other : StateVariable}
    (member : other ∈ (draft.addState state).1.states) : other ∈ draft.states ∨ other = state := by
  rw [addState] at member
  split at member
  · exact .inl member
  · exact (List.mem_append.mp member).imp_right List.mem_singleton.mp

theorem mem_references_ensureReferenceNamed {draft : Draft} {selector wanted : String}
    {reference : Reference}
    (member : reference ∈ (draft.ensureReferenceNamed selector wanted).1.references) :
    reference ∈ draft.references ∨ reference.selector = selector := by
  rw [ensureReferenceNamed] at member
  split at member
  · exact .inl member
  · refine (List.mem_append.mp member).imp_right fun added => ?_
    rw [List.mem_singleton.mp added]

theorem mem_functions_addFunction {draft : Draft} {function other : NamedFunction}
    (member : other ∈ (draft.addFunction function).1.functions) :
    other ∈ draft.functions ∨ other = function := by
  rw [addFunction] at member
  split at member
  · exact .inl member
  · exact (List.mem_append.mp member).imp_right List.mem_singleton.mp

end Frames

/-! ## Lists that grow -/

section Growing

variable {Item Value : Type} {items : List Item} {add : Draft → Item → Draft}

/-- If each item adds to the end of a list, all of them do, one after the other. -/
theorem foldl_appends (read : Draft → List Value) (added : Item → List Value)
    (each : ∀ item draft, read (add draft item) = read draft ++ added item) (draft : Draft) :
    read (items.foldl add draft) = read draft ++ items.flatMap added := by
  induction items generalizing draft with
  | nil => exact (List.append_nil _).symm
  | cons first rest ih =>
      rw [List.foldl_cons, ih, each, List.flatMap_cons, List.append_assoc]

/-- What is in a list in the end was there before or has been added by some item. -/
theorem mem_foldl_added (read : Draft → List Value) (added : Item → List Value) {value : Value}
    (each : ∀ item draft, value ∈ read (add draft item) → value ∈ read draft ∨ value ∈ added item)
    {draft : Draft} (member : value ∈ read (items.foldl add draft)) :
    value ∈ read draft ∨ value ∈ items.flatMap added := by
  induction items generalizing draft with
  | nil => exact .inl member
  | cons first rest ih =>
      rw [List.flatMap_cons, List.mem_append]
      rcases ih member with before | later
      · exact (each first draft before).imp_right .inl
      · exact .inr (.inr later)

end Growing

end Draft
end Hookify
