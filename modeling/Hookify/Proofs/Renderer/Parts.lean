import Hookify.Proofs.Facts.Inside
import Hookify.Request.Basic
import Mathlib.Logic.Relation

namespace Hookify

open Script Selection

/-!
# The parts of an idiom

An idiom is recognised at a node, and what is rendered to replace it are parts
of that node: arguments of its calls, settings and callbacks of a request.  All
of them are reached from the idiom by way of calls, members, lists of arguments
and objects of settings.  So they have fewer nodes than the idiom, which is why
rendering comes to an end, and there is no function between.
-/

/-! ## Ways -/

namespace Script.Place

/-- A place is reached from another one through children, by way of places that have a property. -/
abbrev Reaches (way : Place → Prop) : Place → Place → Prop :=
  Relation.TransGen fun outer inner => way outer ∧ inner ∈ outer.children

variable {way : Place → Prop} {outer inner : Place} {field : Field}

theorem Reaches.size_lt (reaches : Reaches way outer inner) :
    inner.node.size < outer.node.size := by
  induction reaches with
  | single step => exact size_lt_of_mem_children step.2
  | tail _ step ih => exact Nat.lt_trans (size_lt_of_mem_children step.2) ih

theorem Reaches.mem_walk (reaches : Reaches way outer inner) : inner ∈ outer.walk := by
  induction reaches with
  | single step => exact mem_walk_of_children outer.mem_walk_self step.2
  | tail _ step ih => exact mem_walk_of_children ih step.2

theorem reaches_child (passes : way outer) (found : outer.child? field = some inner) :
    Reaches way outer inner :=
  .single ⟨passes, mem_children_of_child? found⟩

/-- Calls and what they are made of can be passed. -/
structure Passable (way : Place → Prop) : Prop where
  call : ∀ place, place.kind = .callExpression → way place
  member : ∀ place, place.kind = .memberExpression → way place
  object : ∀ place, place.kind = .object → way place
  pair : ∀ place, place.kind = .pair → way place
  list : ∀ call list : Place, call.kind = .callExpression → call.child? .arguments = some list → way list

/-- If nothing stands in the way, everything can be passed. -/
theorem passable_true : Passable fun _ => True :=
  ⟨fun _ _ => trivial, fun _ _ => trivial, fun _ _ => trivial, fun _ _ => trivial,
    fun _ _ _ _ => trivial⟩

end Script.Place

section Parts

variable {way : Place → Prop} (passable : Place.Passable way)

/-! ## Arguments -/

namespace Selection

include passable

theorem reaches_of_mem_callArguments {call argument : Place} (isCall : call.kind = .callExpression)
    (member : argument ∈ callArguments call) : Place.Reaches way call argument := by
  rw [callArguments] at member
  split at member
  · rename_i list found
    exact (Place.reaches_child (passable.call call isCall) found).tail
      ⟨passable.list call list isCall found, Place.mem_children_of_contents member⟩
  · exact absurd member List.not_mem_nil

/-- The object of a called method is reached from the call. -/
theorem reaches_of_object {place function object : Place} (isCall : place.kind = .callExpression)
    (isFunction : place.child? .function = some function)
    (isMember : function.kind = .memberExpression)
    (isObject : function.child? .object = some object) : Place.Reaches way place object :=
  (Place.reaches_child (passable.call place isCall) isFunction).tail
    ⟨passable.member function isMember, Place.mem_children_of_child? isObject⟩

theorem reaches_of_methodCall? {place object : Place} {call : MethodCall}
    (found : methodCall? place = some (call, object)) :
    Place.Reaches way place object ∧ ∀ argument ∈ call.arguments, Place.Reaches way place argument := by
  simp only [methodCall?, Option.bind_eq_bind, Option.bind_eq_some_iff, Option.guard_eq_some',
    beq_iff_eq] at found
  rcases found with ⟨_, isCall, function, isFunction, _, isMember, owner, isObject, _, _, same⟩
  rcases Prod.mk.inj (Option.some.inj same) with ⟨rfl, rfl⟩
  exact ⟨reaches_of_object passable isCall isFunction isMember isObject,
    fun _ member => reaches_of_mem_callArguments passable isCall member⟩

theorem reaches_of_mem_callsFrom (fuel : Nat) {place argument : Place} {call : MethodCall}
    (member : call ∈ (callsFrom fuel place).1) (inside : argument ∈ call.arguments) :
    Place.Reaches way place argument := by
  induction fuel generalizing place with
  | zero => exact absurd member List.not_mem_nil
  | succ fuel ih =>
      rw [callsFrom] at member
      split at member
      · exact absurd member List.not_mem_nil
      · rename_i last object found
        have reached := reaches_of_methodCall? passable found
        rcases List.mem_append.mp member with earlier | same
        · exact reached.1.trans (ih earlier)
        · rw [List.mem_singleton.mp same] at inside
          exact reached.2 argument inside

theorem reaches_of_mem_calls {aliases : Aliases} {place argument : Place} {chain : Chain}
    (found : Chain.at? aliases place = some chain) {call : MethodCall}
    (member : call ∈ chain.calls) (inside : argument ∈ call.arguments) :
    Place.Reaches way place argument := by
  rw [Chain.at?, Option.map_eq_some_iff] at found
  rcases found with ⟨target, _, rfl⟩
  exact reaches_of_mem_callsFrom passable _ member inside

/-- The place at which a chain begins is the place itself, or it is reached from there. -/
theorem reaches_of_callsFrom (fuel : Nat) (place : Place) :
    (callsFrom fuel place).2 = place ∨ Place.Reaches way place (callsFrom fuel place).2 := by
  induction fuel generalizing place with
  | zero => exact .inl rfl
  | succ fuel ih =>
      rw [callsFrom]
      split
      · exact .inl rfl
      · rename_i last object found
        have isObject := (reaches_of_methodCall? passable found).1
        rcases ih object with same | further
        · exact .inr (same.symm ▸ isObject)
        · exact .inr (isObject.trans further)

omit passable in
theorem kind_of_argumentTarget? {argument : Place} (selects : argumentTarget? argument = some .this) :
    argument.kind = .this := by
  have literal : ∀ text, literalTarget? text ≠ some .this := by
    intro text found
    rw [literalTarget?] at found
    split at found <;> cases found
  rw [argumentTarget?] at selects
  split at selects
  · exact absurd selects (literal _)
  · split at selects
    · exact absurd selects (literal _)
    · cases selects
  · split at selects <;> cases selects
  · assumption
  · cases selects

/-- A chain that begins with a selection of `this` has that `this` inside. -/
theorem exists_this_of_at? {aliases : Aliases} {place : Place} {chain : Chain}
    (found : Chain.at? aliases place = some chain) (target : chain.target = .this) :
    ∃ occurrence, (callArguments chain.root).head? = some occurrence ∧ occurrence.kind = .this ∧
      Place.Reaches way place occurrence := by
  rw [Chain.at?, Option.map_eq_some_iff] at found
  rcases found with ⟨selected, starts, rfl⟩
  dsimp only at target starts
  rw [target, targetOf?] at starts
  split at starts
  · rcases Option.map_eq_some_iff.mp starts with ⟨_, _, impossible⟩
    cases impossible
  · simp only [directTarget?, Option.bind_eq_bind, Option.bind_eq_some_iff, selectArguments?,
      Option.guard_eq_some', beq_iff_eq] at starts
    rcases starts with ⟨arguments, ⟨_, isCall, _, _, _, _, same⟩, first, isFirst, selects⟩
    cases same
    have inner := reaches_of_mem_callArguments passable isCall (List.mem_of_head? isFirst)
    refine ⟨first, isFirst, kind_of_argumentTarget? selects, ?_⟩
    rcases reaches_of_callsFrom passable place.node.size place with same | further
    · rwa [same] at inner
    · exact further.trans inner

end Selection

/-! ## Requests -/

namespace Request

/-- The parts of a request that are rendered have a property. -/
structure All (holds : Place → Prop) (request : Request) : Prop where
  url : ∀ place, request.url = some place → holds place
  data : ∀ place, request.data = some place → holds place
  success : ∀ place, request.success = some place → holds place
  error : ∀ place, request.error = some place → holds place
  complete : ∀ place, request.complete = some place → holds place

variable {holds : Place → Prop} {request : Request}

theorem All.mono {implied : Place → Prop} (all : request.All holds)
    (implies : ∀ place, holds place → implied place) : request.All implied :=
  ⟨fun place same => implies place (all.url place same),
    fun place same => implies place (all.data place same),
    fun place same => implies place (all.success place same),
    fun place same => implies place (all.error place same),
    fun place same => implies place (all.complete place same)⟩

theorem holds_of_none : ∀ place : Place, none = some place → holds place := by
  intro place impossible
  cases impossible

theorem holds_of_some {value : Place} (isValue : holds value) :
    ∀ place, some value = some place → holds place :=
  fun _ same => Option.some.inj same ▸ isValue

theorem holds_of_or {first second : Option Place}
    (left : ∀ place, first = some place → holds place)
    (right : ∀ place, second = some place → holds place) :
    ∀ place, first.or second = some place → holds place := by
  intro place same
  cases first with
  | none => exact right place same
  | some other => exact left place same

theorem All.withSetting (all : request.All holds) (key : String) {value : Place}
    (isValue : holds value) : (request.withSetting key value).All holds := by
  have same := holds_of_some isValue
  unfold Request.withSetting
  split
  · exact { all with url := same }
  · exact { all with }
  · exact { all with }
  · exact { all with data := same }
  · exact { all with success := same }
  · exact { all with error := same }
  · exact { all with complete := same }
  · exact { all with }
  · exact all

theorem All.foldl_withSetting (all : request.All holds) {settings : List (String × Place)}
    (values : ∀ setting ∈ settings, holds setting.2) :
    (settings.foldl (fun request (key, value) => request.withSetting key value) request).All
      holds := by
  induction settings generalizing request with
  | nil => exact all
  | cons setting rest ih =>
      exact ih (all.withSetting setting.1 (values setting List.mem_cons_self))
        (fun next member => values next (List.mem_cons_of_mem setting member))

/-- A property passes from an object to the values of its settings. -/
def PassesOn (holds : Place → Prop) : Prop :=
  ∀ object, holds object → object.kind = .object → ∀ entry ∈ object.namedChildren,
    ∀ key value, setting? entry = some (key, value) → holds value

/-- The request that an object of settings describes, with or without an address before it. -/
theorem all_ofSettings (passesOn : PassesOn holds) {address settings : Option Place}
    (isAddress : ∀ place, address = some place → holds place)
    (isSettings : ∀ place, settings = some place → holds place) :
    (match settings.filter (fun place : Place => place.kind == Kind.object) with
      | some object =>
          (object.namedChildren.filterMap setting?).foldl
            (fun (request : Request) (key, value) => request.withSetting key value)
            { kind := .generic, url := address }
      | none => { kind := .generic, url := address }).All holds := by
  have start : ({ kind := .generic, url := address } : Request).All holds :=
    ⟨isAddress, holds_of_none, holds_of_none, holds_of_none, holds_of_none⟩
  split
  · rename_i object found
    rcases Option.filter_eq_some_iff.mp found with ⟨same, isObject⟩
    apply start.foldl_withSetting
    intro setting member
    rcases List.mem_filterMap.mp member with ⟨entry, inside, isSetting⟩
    exact passesOn object (isSettings object same) (beq_iff_eq.mp isObject) entry inside _ _ isSetting
  · exact start

theorem all_configurable (passesOn : PassesOn holds) {arguments : List Place}
    (inside : ∀ argument ∈ arguments, holds argument) : (configurable arguments).All holds := by
  unfold configurable
  cases arguments with
  | nil => exact all_ofSettings passesOn holds_of_none holds_of_none
  | cons first rest =>
      have isFirst := holds_of_some (inside first List.mem_cons_self)
      cases rest with
      | nil => exact all_ofSettings passesOn holds_of_none isFirst
      | cons second others =>
          have member : second ∈ first :: second :: others :=
            List.mem_cons_of_mem first List.mem_cons_self
          exact all_ofSettings passesOn isFirst (holds_of_some (inside second member))

theorem All.withArgument (facts : Facts) (all : request.All holds) {argument : Place}
    (isArgument : holds argument) : (withArgument facts request argument).All holds := by
  have same := holds_of_some isArgument
  rw [Request.withArgument]
  split
  · exact { all with }
  · split
    · exact { all with success := same }
    · split
      · exact { all with data := same }
      · exact all

theorem all_short (facts : Facts) (kind : RequestKind) {arguments : List Place}
    (inside : ∀ argument ∈ arguments, holds argument) : (short facts kind arguments).All holds := by
  have fold : ∀ (others : List Place), (∀ argument ∈ others, holds argument) →
      ∀ start : Request, start.All holds →
        (others.foldl (Request.withArgument facts) start).All holds := by
    intro others
    induction others with
    | nil => exact fun _ start all => all
    | cons first rest ih =>
        intro inside start all
        exact ih (fun next member => inside next (List.mem_cons_of_mem first member)) _
          (all.withArgument facts (inside first List.mem_cons_self))
  refine fold arguments.tail (fun argument member => inside argument (List.mem_of_mem_tail member))
    _ ?_
  exact ⟨fun place same => inside place (List.mem_of_head? same), holds_of_none, holds_of_none,
    holds_of_none, holds_of_none⟩

theorem All.withContinuation (all : request.All holds) (method : String)
    {arguments : List Place} (inside : ∀ argument ∈ arguments, holds argument) :
    (request.withContinuation method arguments).All holds := by
  have first : ∀ place, arguments.head? = some place → holds place :=
    fun place same => inside place (List.mem_of_head? same)
  have second : ∀ place, arguments[1]? = some place → holds place :=
    fun place same => inside place (List.mem_of_getElem? same)
  unfold Request.withContinuation
  split
  · exact { all with success := holds_of_or first all.success }
  · exact { all with
      success := holds_of_or first all.success, error := holds_of_or second all.error }
  · exact { all with error := holds_of_or first all.error }
  · exact { all with error := holds_of_or first all.error }
  · exact { all with complete := holds_of_or first all.complete }

include passable

/-- The values of settings are reached from whatever their object is reached from. -/
theorem passesOn_reaches (place : Place) : PassesOn (Place.Reaches way place) := by
  intro object reached isObject entry inside key value found
  have isEntry := reached.tail
    ⟨passable.object object isObject, Place.mem_children_of_namedChildren inside⟩
  rw [setting?] at found
  split at found
  · rename_i isPair
    simp only [Option.bind_eq_bind, Option.bind_eq_some_iff] at found
    rcases found with ⟨_, _, child, isChild, same⟩
    rcases Prod.mk.inj (Option.some.inj same) with ⟨_, rfl⟩
    exact isEntry.tail ⟨passable.pair entry isPair, Place.mem_children_of_child? isChild⟩
  · rcases Option.map_eq_some_iff.mp found with ⟨_, _, same⟩
    exact (Prod.mk.inj same).2 ▸ isEntry
  · cases found

theorem all_of_rootRequest? {facts : Facts} {place : Place}
    (found : facts.rootRequest? place = some request) : request.All (Place.Reaches way place) := by
  simp only [Facts.rootRequest?, Option.bind_eq_bind, Option.bind_eq_some_iff,
    Option.guard_eq_some', beq_iff_eq] at found
  rcases found with ⟨_, isCall, function, _, _, _, object, _, _, _, property, _, found⟩
  have inside : ∀ argument ∈ callArguments place, Place.Reaches way place argument :=
    fun _ member => reaches_of_mem_callArguments passable isCall member
  split at found
  · exact Option.some.inj found ▸ all_configurable (passesOn_reaches passable place) inside
  · exact Option.some.inj found ▸ all_short facts .get inside
  · exact Option.some.inj found ▸ { all_short facts .get inside with }
  · exact Option.some.inj found ▸ all_short facts .post inside
  · cases found

theorem continuation?_eq_some {place object : Place} {method : String} {arguments : List Place}
    (found : Facts.continuation? place = some (method, arguments, object)) :
    (∀ argument ∈ arguments, Place.Reaches way place argument) ∧ Place.Reaches way place object := by
  simp only [Facts.continuation?, Option.bind_eq_bind, Option.bind_eq_some_iff,
    Option.guard_eq_some', beq_iff_eq] at found
  rcases found with
    ⟨_, isCall, function, isFunction, _, isMember, property, _, _, _, owner, isObject, same⟩
  rcases Prod.mk.inj (Option.some.inj same) with ⟨_, same⟩
  rcases Prod.mk.inj same with ⟨rfl, rfl⟩
  exact ⟨fun _ member => reaches_of_mem_callArguments passable isCall member,
    reaches_of_object passable isCall isFunction isMember isObject⟩

theorem all_of_requestFrom? {facts : Facts} (fuel : Nat) {place : Place}
    (found : facts.requestFrom? fuel place = some request) :
    request.All (Place.Reaches way place) := by
  induction fuel generalizing place request with
  | zero => cases found
  | succ fuel ih =>
      rw [Facts.requestFrom?] at found
      split at found
      · rename_i root isRoot
        exact Option.some.inj found ▸ all_of_rootRequest? passable isRoot
      · simp only [Option.bind_eq_bind, Option.bind_eq_some_iff] at found
        rcases found with ⟨⟨method, arguments, object⟩, continues, inner, isInner, same⟩
        rcases continuation?_eq_some passable continues with ⟨inside, isObject⟩
        have all := (ih isInner).mono fun _ reached => isObject.trans reached
        exact Option.some.inj same ▸ all.withContinuation method inside

/-- What a request renders is reached from the call that makes it. -/
theorem all_of_request? {facts : Facts} {place : Place}
    (found : facts.request? place = some request) : request.All (Place.Reaches way place) :=
  all_of_requestFrom? passable _ found

end Request

/-! ## Functions that are taken over -/

namespace Facts

/-- A call stands alone as a statement. -/
def isStatement (place : Place) : Bool :=
  (place.parent?.map (·.kind == .expressionStatement)).getD false

/-- The functions of which only the bodies go into the code for a call: the callbacks of a request,
and what would run after an animation. -/
def takenOver (facts : Facts) (place : Place) : List Place :=
  match facts.request? place with
  | some request =>
      [request.success, request.error, request.complete].filterMap fun callback =>
        callback.filter fun place => place.kind.isFunctionLike || place.kind == .methodDefinition
  | none =>
      match facts.chain? place with
      | some chain =>
          if isStatement place then
            (chain.calls.filter (·.role == .animation)).filterMap fun call =>
              call.arguments.getLast?.filter (·.kind.isFunctionLike)
          else []
      | none => []

include passable

/-- What is taken over stands inside the call. -/
theorem reaches_of_mem_takenOver {facts : Facts} {place callback : Place}
    (member : callback ∈ facts.takenOver place) : Place.Reaches way place callback := by
  rw [takenOver] at member
  split at member
  · rename_i request found
    have all := Request.all_of_request? passable found
    rcases List.mem_filterMap.mp member with ⟨some, listed, kept⟩
    have same := (Option.filter_eq_some_iff.mp kept).1
    simp only [List.mem_cons, List.not_mem_nil, or_false] at listed
    rcases listed with rfl | rfl | rfl
    · exact all.success callback same
    · exact all.error callback same
    · exact all.complete callback same
  · split at member
    · rename_i chain found
      split at member
      · rcases List.mem_filterMap.mp member with ⟨call, inside, kept⟩
        have last := (Option.filter_eq_some_iff.mp kept).1
        exact reaches_of_mem_calls passable found (List.mem_of_mem_filter inside)
          (List.mem_of_getLast? last)
      · exact absurd member List.not_mem_nil
    · exact absurd member List.not_mem_nil

end Facts

end Parts
end Hookify
