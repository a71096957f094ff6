import Hookify.Proofs.Facts.Inside
import Hookify.Proofs.Pass.Plan
import Hookify.Proofs.Renderer.Calls
import Hookify.Proofs.Request.Chains

namespace Hookify

open Script Selection

/-!
# Statements that make requests

The methods that make a request, and those that go on with it, bind no events,
and none of them waits for the page.  So no other pass takes care of a statement
whose expression is a request, and the start plans an effect for it alone.
-/

/-- The methods that make a request or say what happens with the answer. -/
def chainMethods : List String :=
  requestMethods ++ continuationMethods

/-- The place calls a method of the object that makes a request or goes on with one. -/
structure CallsRequestMethod (place object : Place) : Prop where
  isCall : place.kind = .callExpression
  callee : ∃ function property, place.child? .function = some function ∧
    function.kind = .memberExpression ∧ function.child? .object = some object ∧
      function.child? .property = some property ∧ property.text ∈ chainMethods

section Methods

variable {facts : Facts} {place object root : Place} {request : Request}

theorem roleOf_of_requestMethod {name : String} (member : name ∈ chainMethods)
    (arguments : List Kind) : roleOf name arguments = .unknown := by
  simp only [chainMethods, requestMethods, continuationMethods, List.cons_append,
    List.nil_append, List.mem_cons, List.not_mem_nil, or_false] at member
  rcases member with rfl | rfl | rfl | rfl | rfl | rfl | rfl | rfl | rfl | rfl <;> rfl

theorem callsRequestMethod_of_root (found : facts.rootRequest? place = some request) :
    ∃ object, CallsRequestMethod place object ∧ object.kind = .identifier := by
  simp only [Facts.rootRequest?, Option.bind_eq_bind, Option.bind_eq_some_iff,
    Option.guard_eq_some', Bool.and_eq_true, beq_iff_eq] at found
  obtain ⟨_, isCall, function, isFunction, _, isMember, object, isObject, _, ⟨kind, _⟩, property,
    isProperty, makes⟩ := found
  refine ⟨object,
    ⟨isCall, function, property, isFunction, isMember, isObject, isProperty, ?_⟩, kind⟩
  split at makes
  · rename_i name
    rw [name]
    decide
  · rename_i name
    rw [name]
    decide
  · rename_i name
    rw [name]
    decide
  · rename_i name
    rw [name]
    decide
  · cases makes

theorem callsRequestMethod_of_continuation {method : String} {arguments : List Place}
    (continues : Facts.continuation? place = some (method, arguments, object)) :
    CallsRequestMethod place object := by
  obtain ⟨isCall, _, function, property, isFunction, isMember, isProperty, rfl, continues,
    isObject⟩ := Facts.continuation?_eq_some_iff.mp continues
  exact ⟨isCall, function, property, isFunction, isMember, isObject, isProperty,
    List.mem_append_right _ (List.contains_iff_mem.mp continues)⟩

namespace CallsRequestMethod

theorem selectArguments?_eq_none (calls : CallsRequestMethod place object) :
    selectArguments? place = none := by
  obtain ⟨function, _, isFunction, isMember, _⟩ := calls.callee
  simp [selectArguments?, isFunction, isMember]

theorem directTarget?_eq_none (calls : CallsRequestMethod place object) :
    directTarget? place = none := by
  rw [directTarget?, calls.selectArguments?_eq_none]
  rfl

theorem wrapperBody?_eq_none (calls : CallsRequestMethod place object) :
    wrapperBody? place = none := by
  obtain ⟨function, _, isFunction, isMember, _⟩ := calls.callee
  have same : withoutParentheses function.node.size function = some function := by
    rw [Node.size_eq, withoutParentheses, isMember]
    rfl
  simp [wrapperBody?, calls.isCall, isFunction, same, isMember, Kind.isFunctionLike]

/-- A request does not wait for the page. -/
theorem readyCallback?_eq_none (calls : CallsRequestMethod place object)
    (noTarget : directTarget? object = none) : readyCallback? place = none := by
  obtain ⟨function, property, isFunction, isMember, isObject, isProperty, member⟩ := calls.callee
  have other : property.text ≠ "addEventListener" := fun same => absurd (same ▸ member) (by decide)
  rw [readyCallback?, calls.isCall, calls.selectArguments?_eq_none]
  simp [isFunction, isMember, isObject, isProperty, readyMethodCallback?, other, noTarget]

theorem methodCall?_eq (calls : CallsRequestMethod place object) :
    ∃ call, methodCall? place = some (call, object) ∧ call.name ∈ chainMethods := by
  obtain ⟨function, property, isFunction, isMember, isObject, isProperty, member⟩ := calls.callee
  refine ⟨⟨property.text, place, callArguments place⟩, ?_, member⟩
  simp [methodCall?, calls.isCall, isFunction, isMember, isObject, isProperty]

/-- Below a call of such a method, the chain goes on with the object. -/
theorem forall_callsFrom (calls : CallsRequestMethod place object)
    (below : ∀ fuel, ∀ call ∈ (callsFrom fuel object).1, call.name ∈ chainMethods) :
    ∀ fuel, ∀ call ∈ (callsFrom fuel place).1, call.name ∈ chainMethods := by
  intro fuel call member
  cases fuel with
  | zero => exact absurd member List.not_mem_nil
  | succ fuel =>
      obtain ⟨top, found, named⟩ := calls.methodCall?_eq
      rw [callsFrom, found] at member
      rcases List.mem_append.mp member with deeper | same
      · exact below fuel call deeper
      · exact List.mem_singleton.mp same ▸ named

end CallsRequestMethod

/-- A name has no methods below it, and is no selection. -/
theorem callsFrom_of_identifier (isName : object.kind = .identifier) (fuel : Nat) :
    (callsFrom fuel object).1 = [] := by
  cases fuel with
  | zero => rfl
  | succ fuel =>
      have none : methodCall? object = none := by simp [methodCall?, isName]
      rw [callsFrom, none]

theorem directTarget?_of_identifier (isName : object.kind = .identifier) :
    directTarget? object = none := by
  simp [directTarget?, selectArguments?, isName]

/-- What stands on the way from the call that makes a request to its last continuation. -/
theorem exists_callsRequestMethod (found : facts.request? place = some request) :
    ∃ object, CallsRequestMethod place object ∧ directTarget? object = none ∧
      ∀ fuel, ∀ call ∈ (callsFrom fuel place).1, call.name ∈ chainMethods := by
  obtain ⟨root, steps, start, continues, isRoot, -⟩ := Facts.request?_eq_some_iff.mp found
  clear found
  induction continues with
  | refl =>
      obtain ⟨object, calls, isName⟩ := callsRequestMethod_of_root isRoot
      refine ⟨object, calls, directTarget?_of_identifier isName, calls.forall_callsFrom ?_⟩
      intro fuel call member
      rw [callsFrom_of_identifier isName] at member
      exact absurd member List.not_mem_nil
  | step before continues ih =>
      obtain ⟨_, callsBefore, _, below⟩ := ih
      have calls := callsRequestMethod_of_continuation continues
      exact ⟨_, calls, callsBefore.directTarget?_eq_none, calls.forall_callsFrom below⟩

end Methods

namespace Pass

variable {facts : Facts} {statement expression : Place} {request : Request}

/-- A chain that makes a request binds no event. -/
theorem bindsEvents_of_request? (found : facts.request? expression = some request) :
    bindsEvents facts expression = false := by
  obtain ⟨_, _, _, named⟩ := exists_callsRequestMethod found
  rw [bindsEvents]
  cases isChain : facts.chain? expression with
  | none => rfl
  | some chain =>
      simp only [Facts.chain?, Chain.at?, Option.map_eq_some_iff] at isChain
      obtain ⟨target, _, rfl⟩ := isChain
      refine Bool.and_eq_false_imp.mpr fun _ => List.any_eq_false.mpr fun call member => ?_
      rw [MethodCall.role, roleOf_of_requestMethod
        (named _ call (mem_calls_of_effective member))]
      decide

/-- A statement whose expression is a request is left to the start. -/
theorem isClaimed_of_request? (isExpression : statementExpression? statement = some expression)
    (found : facts.request? expression = some request) : isClaimed facts statement = false := by
  obtain ⟨object, calls, noTarget, _⟩ := exists_callsRequestMethod found
  have plain : introducesScope statement = false := by
    rw [introducesScope, isExpression]
    dsimp only
    rw [calls.readyCallback?_eq_none noTarget, calls.wrapperBody?_eq_none]
    rfl
  rw [isClaimed, kind_of_statementExpression? isExpression, isExpression]
  dsimp only
  rw [calls.isCall, plain, bindsEvents_of_request? found]
  rfl

/-- The start plans an effect for a request alone. -/
theorem exists_fetch_mem_startEffects (among : statement ∈ facts.statements)
    (isExpression : statementExpression? statement = some expression)
    (found : facts.request? expression = some request) :
    ∃ description, fetchDescription? facts statement = some description ∧
      ⟨.fetch, startCode facts statement, description, some (startCode facts statement), none⟩ ∈
        startEffects facts := by
  obtain ⟨description, described⟩ : ∃ description,
      fetchDescription? facts statement = some description := by
    simp only [fetchDescription?, isExpression, Option.bind_eq_bind, Option.bind_some, found]
    split <;> exact ⟨_, rfl⟩
  refine ⟨description, described, ?_⟩
  obtain ⟨scope, isScope, inScope⟩ := List.mem_flatMap.mp among
  have remains : statement ∈ remainingStatements facts scope := List.mem_filter.mpr
    ⟨inScope, by rw [isClaimed_of_request? isExpression found]; rfl⟩
  have planned : (⟨.fetch, [statement], description⟩ : PlannedEffect) ∈ plan facts := by
    refine List.mem_append_right _ (List.mem_flatMap.mpr
      ⟨scope, isScope, List.mem_append_right _ ?_⟩)
    exact List.mem_filterMap.mpr ⟨statement, remains, by rw [described]; rfl⟩
  rw [startEffects_eq_plan]
  refine List.mem_map.mpr ⟨_, planned, ?_⟩
  simp only [PlannedEffect.pending, PlannedEffect.code, List.map_singleton,
    String.intercalate_singleton, if_true]

end Pass
end Hookify
