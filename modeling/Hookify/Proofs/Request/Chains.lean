import Hookify.Proofs.Renderer.Parts
import Mathlib.Data.Option.Basic

namespace Hookify

open Script Selection

/-!
# Requests with their continuations

A request is made by one call, and every continuation is a call of a method of
what comes before it.  So the request that a place heads is found by going down
from call to object until a call is reached that makes a request, and its
continuations are then applied in the order in which they run.
-/

/-- The arguments of a continuation, with the name of its method. -/
abbrev Continuation := String × List Place

namespace Request

/-- A request with several continuations more, applied from the first to the last. -/
def withContinuations (request : Request) (steps : List Continuation) : Request :=
  steps.foldl (fun request step => request.withContinuation step.1 step.2) request

theorem withContinuations_append (request : Request) (steps later : List Continuation) :
    request.withContinuations (steps ++ later) =
      (request.withContinuations steps).withContinuations later :=
  List.foldl_append

end Request

namespace Facts

/-- The continuations lead from a place to a call: each calls a method of what comes before. -/
inductive Continues (root : Place) : List Continuation → Place → Prop where
  | refl : Continues root [] root
  | step {steps : List Continuation} {object place : Place} {method : String}
      {arguments : List Place} (before : Continues root steps object)
      (continues : continuation? place = some (method, arguments, object)) :
      Continues root (steps ++ [(method, arguments)]) place

section Chains

variable {facts : Facts} {place object root : Place} {request start : Request} {method : String}
  {arguments : List Place} {steps : List Continuation} {fuel : Nat}

/-- A call that makes a request is a method of the selecting function. -/
theorem rootRequest?_eq_some (found : facts.rootRequest? place = some request) :
    place.kind = .callExpression ∧ ∃ function object property,
      place.child? .function = some function ∧ function.kind = .memberExpression ∧
        function.child? .object = some object ∧ object.kind = .identifier ∧
          isSelectName object.text = true ∧ function.child? .property = some property := by
  simp only [rootRequest?, Option.bind_eq_bind, Option.bind_eq_some_iff, Option.guard_eq_some',
    Bool.and_eq_true, beq_iff_eq] at found
  rcases found with
    ⟨_, isCall, function, isFunction, _, isMember, object, isObject, _, ⟨kind, name⟩, property,
      isProperty, _⟩
  exact ⟨isCall, function, object, property, isFunction, isMember, isObject, kind, name, isProperty⟩

/-- A continuation is a call of a method of an object. -/
theorem continuation?_eq_some_iff :
    continuation? place = some (method, arguments, object) ↔
      place.kind = .callExpression ∧ arguments = callArguments place ∧
        ∃ function property, place.child? .function = some function ∧
          function.kind = .memberExpression ∧ function.child? .property = some property ∧
            property.text = method ∧ continuationMethods.contains method = true ∧
              function.child? .object = some object := by
  simp only [continuation?, Option.bind_eq_bind, Option.bind_eq_some_iff, Option.guard_eq_some',
    beq_iff_eq]
  constructor
  · rintro ⟨_, isCall, function, isFunction, _, isMember, property, isProperty, _, continues, owner,
      isObject, same⟩
    rcases Prod.mk.inj (Option.some.inj same) with ⟨rfl, others⟩
    rcases Prod.mk.inj others with ⟨rfl, rfl⟩
    exact ⟨isCall, rfl, function, property, isFunction, isMember, isProperty, rfl, continues, isObject⟩
  · rintro ⟨isCall, rfl, function, property, isFunction, isMember, isProperty, rfl, continues,
      isObject⟩
    exact ⟨(), isCall, function, isFunction, (), isMember, property, isProperty, (), continues,
      object, isObject, rfl⟩

/-- What is continued is no name, so that the continuation makes no request itself. -/
theorem rootRequest?_of_continuation?
    (continues : continuation? place = some (method, arguments, object))
    (isCall : object.kind = .callExpression) : facts.rootRequest? place = none := by
  rcases continuation?_eq_some_iff.mp continues with ⟨_, _, function, _, isFunction, _, _, _, _, isObject⟩
  cases found : facts.rootRequest? place with
  | none => rfl
  | some request =>
      rcases rootRequest?_eq_some found with ⟨_, other, name, _, isOther, _, isName, kind, _⟩
      rw [isFunction] at isOther
      rw [← Option.some.inj isOther, isObject] at isName
      rw [← Option.some.inj isName, isCall] at kind
      cases kind

theorem Continues.kind (continues : Continues root steps place)
    (isCall : root.kind = .callExpression) : place.kind = .callExpression := by
  cases continues with
  | refl => exact isCall
  | step before continues => exact (continuation?_eq_some_iff.mp continues).1

theorem exists_root_of_requestFrom? (found : facts.requestFrom? fuel place = some request) :
    ∃ root steps start, Continues root steps place ∧ facts.rootRequest? root = some start ∧
      request = start.withContinuations steps := by
  induction fuel generalizing place request with
  | zero => cases found
  | succ fuel ih =>
      rw [requestFrom?] at found
      split at found
      · rename_i start isRoot
        exact ⟨place, [], start, .refl, isRoot, (Option.some.inj found).symm⟩
      · simp only [Option.bind_eq_bind, Option.bind_eq_some_iff] at found
        rcases found with ⟨⟨method, arguments, object⟩, continues, inner, isInner, same⟩
        rcases ih isInner with ⟨root, steps, start, before, isRoot, rfl⟩
        refine ⟨root, _, start, .step before continues, isRoot, ?_⟩
        rw [Request.withContinuations_append]
        exact (Option.some.inj same).symm

theorem requestFrom?_of_continues (continues : Continues root steps place)
    (isRoot : facts.rootRequest? root = some start) (enough : place.node.size ≤ fuel) :
    facts.requestFrom? fuel place = some (start.withContinuations steps) := by
  induction continues generalizing fuel with
  | refl =>
      cases fuel with
      | zero =>
          rw [Node.size_eq] at enough
          cases enough
      | succ fuel => rw [requestFrom?, isRoot]; rfl
  | @step steps object place method arguments before continues ih =>
      have isCall := before.kind (rootRequest?_eq_some isRoot).1
      have smaller :=
        (Request.continuation?_eq_some Place.passable_true continues).2.size_lt
      cases fuel with
      | zero => exact absurd (Nat.lt_of_lt_of_le smaller enough) (Nat.not_lt_zero _)
      | succ fuel =>
          rw [requestFrom?, rootRequest?_of_continuation? continues isCall, continues,
            Request.withContinuations_append]
          have inner := ih (Nat.le_of_lt_succ (Nat.lt_of_lt_of_le smaller enough))
          simp only [Option.bind_eq_bind, Option.bind_some, inner]
          rfl

/-- The request that a place heads is made by the call from which continuations lead to the place,
and has all of them. -/
theorem request?_eq_some_iff :
    facts.request? place = some request ↔ ∃ root steps start, Continues root steps place ∧
      facts.rootRequest? root = some start ∧ request = start.withContinuations steps := by
  constructor
  · exact exists_root_of_requestFrom?
  · rintro ⟨root, steps, start, continues, isRoot, rfl⟩
    exact requestFrom?_of_continues continues isRoot (Nat.le_refl _)

end Chains

end Facts
end Hookify
