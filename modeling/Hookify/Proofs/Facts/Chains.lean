import Hookify.Pass.Listeners
import Hookify.Proofs.Facts.Inside
import Hookify.Proofs.Script.Paths

namespace Hookify

open Script Selection

/-!
# The handlers of a chain

The calls of a chain stand one inside the other, each in what the next one
calls.  So their arguments have no place in common.  A call that binds events
takes its handlers from its arguments, or from the values of an object among
them, and these are apart as well: no handler of a chain stands inside another.
-/

namespace Selection

/-! ## Calls -/

theorem mem_callsFrom_succ {fuel : Nat} {place : Place} {call : MethodCall} :
    call ∈ (callsFrom (fuel + 1) place).1 ↔ ∃ top object,
      methodCall? place = some (top, object) ∧
        (call ∈ (callsFrom fuel object).1 ∨ call = top) := by
  rw [callsFrom]
  cases methodCall? place with
  | none => simp
  | some found =>
      rcases found with ⟨top, object⟩
      simp

theorem arguments_of_mem_callsFrom {fuel : Nat} {place : Place} {call : MethodCall}
    (member : call ∈ (callsFrom fuel place).1) :
    call.arguments = callArguments call.place ∧ call.place ∈ place.walk := by
  induction fuel generalizing place with
  | zero => exact absurd member List.not_mem_nil
  | succ fuel ih =>
      rcases mem_callsFrom_succ.mp member with ⟨top, object, found, deeper | rfl⟩
      · rcases methodCall?_eq_some found with ⟨_, _, function, isFunction, isObject⟩
        have callee := Place.mem_walk_of_children place.mem_walk_self
          (Place.mem_children_of_child? isFunction)
        have below := Place.mem_walk_of_children callee (Place.mem_children_of_child? isObject)
        exact ⟨(ih deeper).1, Place.mem_walk_trans below (ih deeper).2⟩
      · rcases methodCall?_eq_some found with ⟨same, arguments, _⟩
        exact ⟨same.symm ▸ arguments, same ▸ place.mem_walk_self⟩

/-- The list of arguments of a call does not reach into what is called. -/
theorem not_mem_walk_of_function {place function arguments inner : Place}
    (isFunction : place.child? .function = some function)
    (isArguments : place.child? .arguments = some arguments)
    (inArguments : inner ∈ arguments.walk) : inner ∉ function.walk := by
  intro inFunction
  have same := Place.field_eq_of_mem_walk isFunction isArguments inFunction inArguments
  cases same

/-- Different calls of a chain have no place of their arguments in common. -/
theorem eq_of_mem_walk_arguments {fuel : Nat} {place : Place} {first second : MethodCall}
    (isFirst : first ∈ (callsFrom fuel place).1) (isSecond : second ∈ (callsFrom fuel place).1)
    {arguments others inner : Place}
    (firstArguments : first.place.child? .arguments = some arguments)
    (secondArguments : second.place.child? .arguments = some others)
    (inFirst : inner ∈ arguments.walk) (inSecond : inner ∈ others.walk) : first = second := by
  induction fuel generalizing place with
  | zero => exact absurd isFirst List.not_mem_nil
  | succ fuel ih =>
      rcases mem_callsFrom_succ.mp isFirst with ⟨top, object, found, firstWhere⟩
      rcases mem_callsFrom_succ.mp isSecond with ⟨_, _, again, secondWhere⟩
      rw [found] at again
      rcases Prod.mk.inj (Option.some.inj again) with ⟨rfl, rfl⟩
      rcases methodCall?_eq_some found with ⟨isPlace, _, function, isFunction, isObject⟩
      -- What belongs to a deeper call stands in what the top call calls.
      have below : ∀ {call : MethodCall} {list : Place}, call ∈ (callsFrom fuel object).1 →
          call.place.child? .arguments = some list → inner ∈ list.walk → inner ∈ function.walk := by
        intro call list deeper isList inList
        have inCall := Place.mem_walk_of_child (Place.mem_children_of_child? isList) inList
        have inObject := Place.mem_walk_trans (arguments_of_mem_callsFrom deeper).2 inCall
        exact Place.mem_walk_of_child (Place.mem_children_of_child? isObject) inObject
      rcases firstWhere with firstDeeper | rfl
      · rcases secondWhere with secondDeeper | rfl
        · exact ih firstDeeper secondDeeper
        · rw [isPlace] at secondArguments
          exact absurd (below firstDeeper firstArguments inFirst)
            (not_mem_walk_of_function isFunction secondArguments inSecond)
      · rcases secondWhere with secondDeeper | rfl
        · rw [isPlace] at firstArguments
          exact absurd (below secondDeeper secondArguments inSecond)
            (not_mem_walk_of_function isFunction firstArguments inFirst)
        · rfl

end Selection

namespace Pass

/-! ## Handlers -/

/-- The handlers of a call are the values of an object. -/
def takesMap (call : MethodCall) : Bool :=
  ["on", "bind", "one", "live"].contains call.name &&
    (call.argument? 0).any (·.kind == .object)

/-- Where a call has the handler of a binding: among its arguments, or in an object that is the
first of them. -/
def HoldsHandler (call : MethodCall) (handler : Place) : Prop :=
  if takesMap call then
    ∃ object, call.argument? 0 = some object ∧ ∃ entry ∈ object.children,
      entry.child? .value = some handler
  else handler ∈ call.arguments

theorem mem_bindAll {events : List String} {delegate : Option String} {once : Bool}
    {handler : Option Place} {binding : Binding}
    (member : binding ∈ bindAll events delegate once handler) : handler = some binding.handler := by
  cases handler with
  | none => exact absurd member List.not_mem_nil
  | some place =>
      rcases List.mem_map.mp member with ⟨event, _, rfl⟩
      rfl

theorem mem_arguments_of_argument? {call : MethodCall} {index : Nat} {argument : Place}
    (found : call.argument? index = some argument) : argument ∈ call.arguments :=
  List.mem_of_getElem? found

theorem mem_arguments_of_hoverBindings {call : MethodCall} {binding : Binding}
    (member : binding ∈ hoverBindings call) : binding.handler ∈ call.arguments := by
  rw [hoverBindings] at member
  split at member
  · exact absurd member List.not_mem_nil
  · rename_i enter first
    have entering := mem_arguments_of_argument? first
    have leaving : (call.argument? 1).getD enter ∈ call.arguments := by
      cases second : call.argument? 1 with
      | none => exact entering
      | some leave => exact mem_arguments_of_argument? second
    rcases List.mem_cons.mp member with rfl | other
    · exact entering
    · rw [List.mem_singleton.mp other]
      exact leaving

theorem mem_of_last {items : List Place} {count : Nat} {last : Place}
    (found : (items.drop count).getLast? = some last) : last ∈ items :=
  List.mem_of_mem_drop (List.mem_of_getLast? found)

theorem exists_entry_of_mapBindings {call : MethodCall} {once : Bool} {object : Place}
    {binding : Binding} (member : binding ∈ mapBindings call once object) :
    ∃ entry ∈ object.children, entry.child? .value = some binding.handler := by
  rcases List.mem_flatMap.mp member with ⟨entry, among, bound⟩
  exact ⟨entry, Place.mem_children_of_namedChildren (List.mem_of_mem_filter among),
    mem_bindAll bound⟩

/-- The handlers of the general methods are values if the first argument is an object. -/
theorem handler_of_generalBindings {call : MethodCall} {binding : Binding}
    (member : binding ∈ generalBindings call) :
    if (call.argument? 0).any (·.kind == .object) then
      ∃ object, call.argument? 0 = some object ∧ ∃ entry ∈ object.children,
        entry.child? .value = some binding.handler
    else binding.handler ∈ call.arguments := by
  rw [generalBindings] at member
  cases first : call.argument? 0 with
  | none =>
      rw [first] at member
      exact absurd member List.not_mem_nil
  | some place =>
      rw [first] at member
      dsimp only at member
      rw [Option.any_some]
      split at member
      · rename_i isObject
        rw [if_pos isObject]
        exact ⟨place, rfl, exists_entry_of_mapBindings member⟩
      · rename_i noObject
        rw [if_neg noObject]
        exact mem_of_last (mem_bindAll member)

theorem holdsHandler_of_mem_bindingsOf {call : MethodCall} {binding : Binding}
    (member : binding ∈ bindingsOf call) : HoldsHandler call binding.handler := by
  rw [HoldsHandler, takesMap]
  rw [bindingsOf] at member
  split at member
  case h_1 name =>
    rw [name]
    exact mem_arguments_of_hoverBindings member
  case h_2 name =>
    rw [name]
    exact mem_of_last (mem_bindAll member)
  case h_7 _ _ notOn notBind notOne notLive =>
    have special : ["on", "bind", "one", "live"].contains call.name = false := by
      simpa using ⟨notOn, notBind, notOne, notLive⟩
    rw [special, Bool.false_and, if_neg Bool.false_ne_true]
    split at member
    · exact List.mem_of_getLast? (mem_bindAll member)
    · exact absurd member List.not_mem_nil
  all_goals
    rename_i name
    rw [name]
    exact handler_of_generalBindings member

/-- The handlers of one call stand one beside the other. -/
theorem eq_of_holdsHandler {call : MethodCall}
    (arguments : call.arguments = callArguments call.place)
    {first second : Place} (isFirst : HoldsHandler call first) (isSecond : HoldsHandler call second)
    (inside : first ∈ second.walk) : first = second := by
  rw [HoldsHandler] at isFirst isSecond
  split at isFirst
  · rename_i takes
    rw [if_pos takes] at isSecond
    rcases isFirst with ⟨object, isObject, entry, member, value⟩
    rcases isSecond with ⟨_, again, other, otherMember, otherValue⟩
    rw [isObject] at again
    rcases again
    have same := Place.eq_of_mem_walk_children member otherMember
      (Place.mem_walk_of_children entry.mem_walk_self (Place.mem_children_of_child? value))
      (Place.mem_walk_of_child (Place.mem_children_of_child? otherValue) inside)
    rw [same, otherValue] at value
    exact (Option.some.inj value).symm
  · rename_i plain
    rw [if_neg plain, arguments, callArguments] at isSecond
    rw [arguments, callArguments] at isFirst
    split at isFirst
    · rename_i list isList
      rw [isList] at isSecond
      exact Place.eq_of_mem_walk_children (Place.mem_children_of_contents isFirst)
        (Place.mem_children_of_contents isSecond) first.mem_walk_self inside
    · exact absurd isFirst List.not_mem_nil

/-- A handler stands in the list of arguments of its call. -/
theorem exists_arguments_of_holdsHandler {call : MethodCall}
    (arguments : call.arguments = callArguments call.place) {handler : Place}
    (holds : HoldsHandler call handler) :
    ∃ list, call.place.child? .arguments = some list ∧ handler ∈ list.walk := by
  have among : ∀ {argument : Place}, argument ∈ call.arguments →
      ∃ list, call.place.child? .arguments = some list ∧ argument ∈ list.walk := by
    intro argument member
    rw [arguments, callArguments] at member
    split at member
    · rename_i list isList
      exact ⟨list, isList, Place.mem_walk_of_children list.mem_walk_self
        (Place.mem_children_of_contents member)⟩
    · exact absurd member List.not_mem_nil
  rw [HoldsHandler] at holds
  split at holds
  · rcases holds with ⟨object, isObject, entry, member, value⟩
    rcases among (mem_arguments_of_argument? isObject) with ⟨list, isList, inside⟩
    exact ⟨list, isList, Place.mem_walk_of_children (Place.mem_walk_of_children inside member)
      (Place.mem_children_of_child? value)⟩
  · exact among holds

/-! ## Bindings of a chain -/

/-- The events that a chain binds. -/
def chainBindings (chain : Chain) : List Binding :=
  (chain.effective.filter (·.role == .binding)).flatMap bindingsOf

/-- The events that scopes bind, each with the target of its chain. -/
def eventBindings (facts : Facts) : List (Target × Binding) :=
  (facts.statements.filterMap (bindingChain? facts)).flatMap fun chain =>
    (chainBindings chain).map fun binding => (chain.target, binding)

section Chain

variable {facts : Facts} {statement : Place} {chain : Chain}

theorem bindingChain?_eq_some (found : bindingChain? facts statement = some chain) :
    introducesScope statement = false ∧ chain.target ≠ .this ∧
      ∃ expression, statementExpression? statement = some expression ∧
        facts.chain? expression = some chain := by
  rw [bindingChain?] at found
  split at found
  · cases found
  · rename_i plain
    rcases Option.filter_eq_some_iff.mp found with ⟨chained, target⟩
    rcases Option.bind_eq_some_iff.mp chained with ⟨expression, isExpression, isChain⟩
    exact ⟨Bool.not_eq_true _ ▸ plain, by simpa using target, expression, isExpression, isChain⟩

/-- The calls of the chain of a statement are the method calls from its expression down. -/
theorem mem_callsFrom_of_bindingChain? (found : bindingChain? facts statement = some chain) :
    ∃ expression ∈ statement.walk, chain.calls = (callsFrom expression.node.size expression).1 := by
  rcases bindingChain?_eq_some found with ⟨_, _, expression, isExpression, isChain⟩
  rw [Facts.chain?, Chain.at?, Option.map_eq_some_iff] at isChain
  rcases isChain with ⟨target, _, rfl⟩
  exact ⟨expression, Place.mem_walk_of_children statement.mem_walk_self
    (mem_children_of_statementExpression? isExpression), rfl⟩

/-- The call that a handler of a chain is bound by. -/
theorem exists_call_of_mem_chainBindings (found : bindingChain? facts statement = some chain)
    {binding : Binding} (member : binding ∈ chainBindings chain) :
    ∃ call ∈ chain.calls, call.arguments = callArguments call.place ∧
      call.place ∈ statement.walk ∧ HoldsHandler call binding.handler := by
  rcases List.mem_flatMap.mp member with ⟨call, effective, binds⟩
  have isCall := mem_calls_of_effective (List.mem_of_mem_filter effective)
  rcases mem_callsFrom_of_bindingChain? found with ⟨expression, inside, calls⟩
  rcases arguments_of_mem_callsFrom (calls ▸ isCall) with ⟨arguments, within⟩
  exact ⟨call, isCall, arguments, Place.mem_walk_trans inside within,
    holdsHandler_of_mem_bindingsOf binds⟩

/-- A handler of a chain stands in the statement of the chain. -/
theorem mem_walk_of_mem_chainBindings (found : bindingChain? facts statement = some chain)
    {binding : Binding} (member : binding ∈ chainBindings chain) :
    binding.handler ∈ statement.walk := by
  rcases exists_call_of_mem_chainBindings found member with ⟨call, _, arguments, within, holds⟩
  rcases exists_arguments_of_holdsHandler arguments holds with ⟨list, isList, inside⟩
  exact Place.mem_walk_trans
    (Place.mem_walk_of_children within (Place.mem_children_of_child? isList)) inside

/-- No handler of a chain stands inside another. -/
theorem eq_of_mem_chainBindings (found : bindingChain? facts statement = some chain)
    {first second : Binding} (isFirst : first ∈ chainBindings chain)
    (isSecond : second ∈ chainBindings chain) (inside : first.handler ∈ second.handler.walk) :
    first.handler = second.handler := by
  rcases exists_call_of_mem_chainBindings found isFirst with
    ⟨call, isCall, arguments, _, holds⟩
  rcases exists_call_of_mem_chainBindings found isSecond with
    ⟨other, isOther, otherArguments, _, otherHolds⟩
  rcases exists_arguments_of_holdsHandler arguments holds with ⟨list, isList, inList⟩
  rcases exists_arguments_of_holdsHandler otherArguments otherHolds with
    ⟨otherList, isOtherList, inOtherList⟩
  rcases mem_callsFrom_of_bindingChain? found with ⟨expression, _, calls⟩
  rw [calls] at isCall isOther
  have same := eq_of_mem_walk_arguments isCall isOther isList isOtherList inList
    (Place.mem_walk_trans inOtherList inside)
  rw [← same] at otherHolds
  exact eq_of_holdsHandler arguments holds otherHolds inside

end Chain

theorem mem_eventBindings {facts : Facts} {target : Target} {binding : Binding} :
    (target, binding) ∈ eventBindings facts ↔ ∃ statement ∈ facts.statements, ∃ chain,
      bindingChain? facts statement = some chain ∧ chain.target = target ∧
        binding ∈ chainBindings chain := by
  simp only [eventBindings, List.mem_flatMap, List.mem_filterMap, List.mem_map, Prod.mk.injEq]
  constructor
  · rintro ⟨chain, ⟨statement, among, found⟩, _, member, rfl, rfl⟩
    exact ⟨statement, among, chain, found, rfl, member⟩
  · rintro ⟨statement, among, chain, found, rfl, member⟩
    exact ⟨chain, ⟨statement, among, found⟩, binding, member, rfl, rfl⟩

end Pass
end Hookify
