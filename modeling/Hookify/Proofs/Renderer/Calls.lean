import Hookify.Proofs.Renderer.Locality
import Hookify.Proofs.Renderer.Values

namespace Hookify

open Script Selection

/-!
# Calls through the selecting function

A script calls the selecting function, or a method of it.  There are rules for
calls that select something, for requests and for some helper functions.  Any
other call is kept as it is, with whatever its arguments become.

A name that a variable gives to a selection may be that of the selecting
function itself.  Then the methods of the selecting function are calls of a
chain as well.
-/

namespace Selection

/-- What a call goes through: the object whose member is called, or what is called itself. -/
def calledThrough? (function : Place) : Option Place :=
  if function.kind == .memberExpression || function.kind == .subscriptExpression then
    function.child? .object
  else
    some function

/-- The name that a call goes through. -/
def calledName? (place : Place) : Option Place := do
  guard (place.kind == .callExpression)
  let name ← (place.child? .function).bind calledThrough?
  guard (name.kind == .identifier)
  return name

/-- A call goes through the selecting function. -/
def callsSelect (place : Place) : Bool :=
  (calledName? place).any fun name => isSelectName name.text

/-- An expression is the selecting function, or a member of it. -/
def namesSelect (function : Place) : Bool :=
  (calledThrough? function).any fun name => name.kind == .identifier && isSelectName name.text

/-- The methods of the selecting function that make requests. -/
def requestMethods : List String :=
  ["ajax", "get", "getJSON", "post"]

/-- The methods of the selecting function that have a standard equivalent. -/
def helperMethods : List String :=
  ["trim", "isArray", "parseJSON", "isFunction", "now", "inArray", "extend"]

end Selection

/-- A chain that ends at a place has nothing of it above, and each of its calls becomes a step. -/
def Facts.HasSteps (facts : Facts) (place : Place) : Prop :=
  isHead place = true ∧
    ∃ chain, facts.chain? place = some chain ∧ ∀ call ∈ chain.calls, call.role.hasStep = true

/-- There is no rule for a call through the selecting function. -/
inductive Facts.HasNoRule (facts : Facts) (place : Place) : Prop where
  /-- The function itself is called, and what it is called with is nothing that can be selected. -/
  | selection (direct : Renderer.helperName? place = none) (nothing : directTarget? place = none)
  /-- A method is called that neither makes a request nor is a known helper function. -/
  | method {name : String} (named : Renderer.helperName? place = some name)
      (noRequest : name ∉ requestMethods) (noHelper : name ∉ helperMethods)
      (kept : ¬ facts.HasSteps place)

namespace Renderer

variable {facts : Facts} {renderer : Renderer} {place name : Place} {method : String}

/-! ## The shape of the call -/

theorem callsSelect_iff : callsSelect place = true ↔
    ∃ name, calledName? place = some name ∧ isSelectName name.text = true := by
  rw [callsSelect]
  cases calledName? place <;> simp

theorem calledName?_eq_some (found : calledName? place = some name) :
    place.kind = .callExpression ∧ name.kind = .identifier ∧ ∃ function,
      place.child? .function = some function ∧
        (function.kind = .memberExpression → function.child? .object = some name) := by
  simp only [calledName?, Option.bind_eq_bind, Option.bind_eq_some_iff, Option.guard_eq_some',
    beq_iff_eq] at found
  obtain ⟨_, isCall, owner, ⟨function, isFunction, through⟩, _, isName, same⟩ := found
  obtain rfl := Option.some.inj same
  refine ⟨isCall, isName, function, isFunction, fun isMember => ?_⟩
  rwa [calledThrough?, isMember] at through

theorem helperName?_eq_some_iff : helperName? place = some method ↔ ∃ function object property,
    place.child? .function = some function ∧ function.kind = .memberExpression ∧
      function.child? .object = some object ∧ object.kind = .identifier ∧
        isSelectName object.text = true ∧ function.child? .property = some property ∧
          property.text = method := by
  simp only [helperName?, Option.bind_eq_bind, Option.bind_eq_some_iff, Option.guard_eq_some',
    Bool.and_eq_true, beq_iff_eq]
  constructor
  · rintro ⟨function, isFunction, _, isMember, object, isObject, _, ⟨kind, selects⟩, property,
      isProperty, same⟩
    exact ⟨function, object, property, isFunction, isMember, isObject, kind, selects, isProperty,
      Option.some.inj same⟩
  · rintro ⟨function, object, property, isFunction, isMember, isObject, kind, selects, isProperty,
      rfl⟩
    exact ⟨function, isFunction, (), isMember, object, isObject, (), ⟨kind, selects⟩, property,
      isProperty, rfl⟩

/-- A method of the selecting function is called on its name. -/
theorem methodCall?_of_helperName? (isCall : place.kind = .callExpression)
    (named : helperName? place = some method) : ∃ object,
      methodCall? place = some (⟨method, place, callArguments place⟩, object) ∧
        object.kind = .identifier ∧ isSelectName object.text = true := by
  obtain ⟨function, object, property, isFunction, isMember, isObject, kind, selects, isProperty,
    rfl⟩ := helperName?_eq_some_iff.mp named
  refine ⟨object, ?_, kind, selects⟩
  simp [methodCall?, isCall, isFunction, isMember, isObject, isProperty]

/-- What calls the selecting function itself calls no method. -/
theorem methodCall?_of_direct (found : calledName? place = some name)
    (selects : isSelectName name.text = true) (direct : helperName? place = none) :
    methodCall? place = none := by
  obtain ⟨_, kind, function, isFunction, owner⟩ := calledName?_eq_some found
  by_contra present
  obtain ⟨⟨call, object⟩, isMethod⟩ := Option.ne_none_iff_exists'.mp present
  obtain ⟨_, other, property, isOther, isMember, _, isProperty, _⟩ := shape_of_methodCall? isMethod
  rw [isFunction] at isOther
  obtain rfl := Option.some.inj isOther
  have named : helperName? place = some property.text := helperName?_eq_some_iff.mpr
    ⟨function, name, property, isFunction, isMember, owner isMember, kind, selects, isProperty, rfl⟩
  exact absurd (direct ▸ named) (Option.some_ne_none _).symm

/-! ## Requests and helper functions -/

theorem requestFrom?_of_identifier (fuel : Nat) (kind : name.kind = .identifier) :
    facts.requestFrom? fuel name = none := by
  cases fuel with
  | zero => rfl
  | succ fuel => simp [Facts.requestFrom?, Facts.rootRequest?, Facts.continuation?, kind]

/-- A call through a name makes a request only if it is one without continuations. -/
theorem request?_of_calledName? (found : calledName? place = some name) :
    facts.request? place = facts.rootRequest? place := by
  obtain ⟨_, kind, function, isFunction, owner⟩ := calledName?_eq_some found
  rw [Facts.request?, place.node.size_eq, Facts.requestFrom?]
  cases facts.rootRequest? place with
  | some request => rfl
  | none =>
      cases continues : Facts.continuation? place with
      | none => rfl
      | some step =>
          obtain ⟨_, arguments, object⟩ := step
          obtain ⟨_, _, other, property, isOther, isMember, _, _, _, isObject⟩ :=
            Facts.continuation?_eq_some_iff.mp continues
          rw [isFunction] at isOther
          obtain rfl := Option.some.inj isOther
          rw [owner isMember] at isObject
          obtain rfl := Option.some.inj isObject
          simp [requestFrom?_of_identifier _ kind]

theorem rootRequest?_eq_none_iff (facts : Facts) (isCall : place.kind = .callExpression) :
    facts.rootRequest? place = none ↔
      ∀ method, helperName? place = some method → method ∉ requestMethods := by
  constructor
  · intro absent method named listed
    obtain ⟨function, object, property, isFunction, isMember, isObject, kind, selects, isProperty,
      rfl⟩ := helperName?_eq_some_iff.mp named
    simp only [requestMethods, List.mem_cons, List.not_mem_nil, or_false] at listed
    rcases listed with same | same | same | same <;>
      simp [Facts.rootRequest?, isCall, isFunction, isMember, isObject, kind, selects, isProperty,
        same] at absent
  · intro others
    by_contra present
    obtain ⟨request, found⟩ := Option.ne_none_iff_exists'.mp present
    obtain ⟨_, function, object, property, isFunction, isMember, isObject, kind, selects,
      isProperty⟩ := Facts.rootRequest?_eq_some found
    obtain ⟨other, method, isOther, isMethod, listed⟩ := name_of_rootRequest? found
    rw [isFunction] at isOther
    obtain rfl := Option.some.inj isOther
    rw [isProperty] at isMethod
    obtain rfl := Option.some.inj isMethod
    exact others property.text (helperName?_eq_some_iff.mpr ⟨function, object, property, isFunction,
      isMember, isObject, kind, selects, isProperty, rfl⟩) listed

theorem helper?_eq_none_iff (renderer : Renderer) (place : Place) :
    renderer.helper? place = none ↔
      ∀ method, helperName? place = some method → method ∉ helperMethods := by
  rw [helper?]
  cases named : helperName? place with
  | none => simp
  | some method =>
      simp only [Option.bind_eq_bind, Option.bind_some, Option.some.injEq, forall_eq',
        helperMethods, List.mem_cons, List.not_mem_nil, or_false, not_or]
      split <;> simp_all

/-! ## Chains -/

/-- A call of the selecting function itself is a selection without calls of methods. -/
theorem chain?_of_direct (found : calledName? place = some name)
    (selects : isSelectName name.text = true) (direct : helperName? place = none) :
    facts.chain? place = (directTarget? place).map fun target => ⟨target, place, []⟩ := by
  have noIdentifier : ¬ (place.kind == .identifier) = true := by
    rw [(calledName?_eq_some found).1]
    decide
  rw [Facts.chain?, Chain.at?_eq, callsTo_eq, methodCall?_of_direct found selects direct]
  dsimp only
  rw [targetOf?, if_neg noIdentifier]

/-- A call of a method is replaced as a chain exactly if nothing of the chain is above it and each of
its calls becomes a step. -/
theorem asChain_eq_none_iff {call : MethodCall} {object : Place}
    (isMethod : methodCall? place = some (call, object)) :
    (match renderer.facts.chain? place with
      | some chain =>
          if ! chain.calls.isEmpty && ! isHead place then none else renderer.chain? chain place
      | none => none) = none ↔ ¬ renderer.facts.HasSteps place := by
  cases chained : renderer.facts.chain? place with
  | none => simp [Facts.HasSteps, chained]
  | some chain =>
      have some : chain.calls ≠ [] := by
        rw [Facts.chain?, Chain.at?_eq, callsTo_of_methodCall? isMethod,
          Option.map_eq_some_iff] at chained
        obtain ⟨target, _, rfl⟩ := chained
        simp
      have filled : chain.calls.isEmpty = false := by simpa using some
      dsimp only
      rw [filled]
      cases head : isHead place with
      | false => simp [Facts.HasSteps, head]
      | true => simp [Facts.HasSteps, head, chained, chain?_eq_none_iff some]

/-! ## The choice -/

/-- A call through the selecting function is kept exactly if there is no rule for it. -/
theorem replacement?_eq_none_iff_hasNoRule (found : calledName? place = some name)
    (selects : isSelectName name.text = true) :
    renderer.replacement? place = none ↔ renderer.facts.HasNoRule place := by
  have isCall := (calledName?_eq_some found).1
  have chosen : renderer.replacement? place = none ↔ renderer.call? place = none := by
    rw [replacement?, isCall, if_neg (by decide), Option.map_eq_none_iff, idiom?, isCall]
  rw [chosen, call?, request?_of_calledName? found]
  cases named : helperName? place with
  | none =>
      have noRequest : renderer.facts.rootRequest? place = none :=
        (rootRequest?_eq_none_iff _ isCall).mpr fun method other =>
          absurd (named ▸ other) (by simp)
      have noHelper : renderer.helper? place = none :=
        (helper?_eq_none_iff _ _).mpr fun method other => absurd (named ▸ other) (by simp)
      rw [noRequest, noHelper]
      dsimp only
      rw [chain?_of_direct found selects named]
      cases nothing : directTarget? place with
      | none => exact iff_of_true rfl (.selection named nothing)
      | some target =>
          refine iff_of_false (Option.some_ne_none _) fun none => ?_
          cases none with
          | selection _ none => cases nothing ▸ none
          | method other => cases named ▸ other
  | some method =>
      obtain ⟨object, isMethod, _⟩ := methodCall?_of_helperName? isCall named
      have request := rootRequest?_eq_none_iff renderer.facts isCall
      have helper := helper?_eq_none_iff renderer place
      rw [named] at request helper
      simp only [Option.some.injEq, forall_eq'] at request helper
      have noRule : renderer.facts.HasNoRule place ↔ method ∉ requestMethods ∧
          method ∉ helperMethods ∧ ¬ renderer.facts.HasSteps place := by
        constructor
        · intro none
          cases none with
          | selection direct => cases named ▸ direct
          | method other noRequest noHelper kept =>
              obtain rfl := Option.some.inj (named ▸ other)
              exact ⟨noRequest, noHelper, kept⟩
        · rintro ⟨noRequest, noHelper, kept⟩
          exact .method named noRequest noHelper kept
      rw [noRule, ← request, ← helper]
      cases renderer.facts.rootRequest? place with
      | some request => simp
      | none =>
          cases renderer.helper? place with
          | some text => simp
          | none => exact (asChain_eq_none_iff isMethod).trans (by simp)

end Renderer
end Hookify
