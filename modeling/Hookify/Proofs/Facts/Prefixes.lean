import Hookify.Proofs.Facts.Chains
import Hookify.Proofs.Request.Chains
import Hookify.Renderer.Idiom
import Mathlib.Data.List.Induction

namespace Hookify

open Script Selection

/-!
# The beginnings of a chain

Every call of a chain has the calls before it below itself, so that the chain
which ends at it is a beginning of the whole.  All calls but the last are
objects of other method calls, and none of these ends a chain as far as the
script is concerned.

A chain in which some call reads is neither a request nor a call of a helper
function: what is above a call is the object of no name, and the methods that
read have names of their own.
-/

namespace Selection

variable {place object : Place} {call read : MethodCall} {before after : List MethodCall}

/-! ## Calls and their objects -/

/-- A method call is a call of a member. -/
theorem shape_of_methodCall? (found : methodCall? place = some (call, object)) :
    place.kind = .callExpression ∧ ∃ function property, place.child? .function = some function ∧
      function.kind = .memberExpression ∧ function.child? .object = some object ∧
        function.child? .property = some property ∧ property.text = call.name := by
  simp only [methodCall?, Option.bind_eq_bind, Option.bind_eq_some_iff, Option.guard_eq_some',
    beq_iff_eq] at found
  rcases found with
    ⟨_, isCall, function, isFunction, _, isMember, owner, isObject, property, isProperty, same⟩
  rcases Prod.mk.inj (Option.some.inj same) with ⟨rfl, rfl⟩
  exact ⟨isCall, function, property, isFunction, isMember, isObject, isProperty, rfl⟩

theorem size_lt_of_methodCall? (found : methodCall? place = some (call, object)) :
    object.node.size < place.node.size := by
  obtain ⟨_, function, _, isFunction, _, isObject, _⟩ := shape_of_methodCall? found
  exact Nat.lt_trans (Place.size_lt_of_mem_children (Place.mem_children_of_child? isObject))
    (Place.size_lt_of_mem_children (Place.mem_children_of_child? isFunction))

/-- The object of a method call has something of its chain above it. -/
theorem isHead_of_methodCall? (found : methodCall? place = some (call, object)) :
    isHead object = false := by
  obtain ⟨isCall, function, _, isFunction, isMember, isObject, _⟩ := shape_of_methodCall? found
  have objectField : object.field = some .object := by simpa using List.find?_some isObject
  have functionField : function.field = some .function := by simpa using List.find?_some isFunction
  rw [isHead, Place.parent?_of_mem_children (Place.mem_children_of_child? isObject)]
  dsimp only
  rw [isMember, objectField,
    Place.parent?_of_mem_children (Place.mem_children_of_child? isFunction)]
  dsimp only
  rw [isCall, functionField]
  rfl

/-! ## The calls that end at a place -/

/-- The calls from the first object up to a place, and that object. -/
def callsTo (place : Place) : List MethodCall × Place :=
  callsFrom place.node.size place

theorem callsFrom_eq {fuel other : Nat} (bound : place.node.size ≤ fuel)
    (otherBound : place.node.size ≤ other) : callsFrom fuel place = callsFrom other place := by
  have positive : 0 < place.node.size := place.node.size_eq ▸ Nat.succ_pos _
  induction fuel generalizing place other with
  | zero => exact absurd (Nat.lt_of_lt_of_le positive bound) (Nat.lt_irrefl 0)
  | succ fuel ih =>
      obtain ⟨other, rfl⟩ := Nat.exists_eq_succ_of_ne_zero
        (Nat.ne_zero_of_lt (Nat.lt_of_lt_of_le positive otherBound))
      rw [callsFrom, callsFrom]
      cases found : methodCall? place with
      | none => rfl
      | some pair =>
          obtain ⟨call, object⟩ := pair
          have smaller := size_lt_of_methodCall? found
          dsimp only
          rw [ih (Nat.le_of_lt_succ (Nat.lt_of_lt_of_le smaller bound))
            (Nat.le_of_lt_succ (Nat.lt_of_lt_of_le smaller otherBound))
            (object.node.size_eq ▸ Nat.succ_pos _)]

theorem callsTo_eq (place : Place) :
    callsTo place =
      match methodCall? place with
      | none => ([], place)
      | some (call, object) => ((callsTo object).1 ++ [call], (callsTo object).2) := by
  rw [callsTo, callsFrom_eq (Nat.le_refl _) (Nat.le_succ _), callsFrom]
  cases found : methodCall? place with
  | none => rfl
  | some pair =>
      obtain ⟨call, object⟩ := pair
      dsimp only
      rw [callsFrom_eq (Nat.le_of_lt (size_lt_of_methodCall? found)) (Nat.le_refl _)]
      rfl

theorem callsTo_of_methodCall? (found : methodCall? place = some (call, object)) :
    callsTo place = ((callsTo object).1 ++ [call], (callsTo object).2) := by
  rw [callsTo_eq, found]

/-- If there are calls, the last of them is the method call at the place itself. -/
theorem exists_methodCall?_of_concat (split : (callsTo place).1 = before ++ [call]) :
    ∃ object, methodCall? place = some (call, object) ∧
      callsTo object = (before, (callsTo place).2) := by
  cases found : methodCall? place with
  | none =>
      rw [callsTo_eq, found] at split
      exact absurd split.symm (List.append_ne_nil_of_right_ne_nil before (List.cons_ne_nil _ _))
  | some pair =>
      obtain ⟨last, object⟩ := pair
      rw [callsTo_of_methodCall? found] at split ⊢
      obtain ⟨earlier, same⟩ := List.append_inj' split rfl
      obtain ⟨rfl⟩ := same
      exact ⟨object, rfl, by rw [← earlier]⟩

theorem exists_methodCall? (some : (callsTo place).1 ≠ []) :
    ∃ call object, methodCall? place = Option.some (call, object) := by
  obtain ⟨before, call, split⟩ := List.eq_nil_or_concat' _ |>.resolve_left some
  obtain ⟨object, found, _⟩ := exists_methodCall?_of_concat split
  exact ⟨call, object, found⟩

/-- The calls that end at one of several calls are those before it, and that call. -/
theorem callsTo_of_split (split : (callsTo place).1 = before ++ read :: after) :
    callsTo read.place = (before ++ [read], (callsTo place).2) ∧
      (after = [] → read.place = place) ∧ (after ≠ [] → isHead read.place = false) := by
  induction after using List.reverseRecOn generalizing place with
  | nil =>
      obtain ⟨object, found, _⟩ := exists_methodCall?_of_concat split
      have same := (methodCall?_eq_some found).1
      rw [same, ← split]
      exact ⟨rfl, fun _ => rfl, fun some => absurd rfl some⟩
  | append_singleton rest last ih =>
      have concat : (callsTo place).1 = (before ++ read :: rest) ++ [last] := by
        rw [split, List.append_assoc, List.cons_append]
      obtain ⟨object, found, earlier⟩ := exists_methodCall?_of_concat concat
      have deeper := @ih object (by rw [earlier])
      rw [earlier] at deeper
      refine ⟨deeper.1, fun none => absurd none (by simp), fun _ => ?_⟩
      by_cases ends : rest = []
      · rw [deeper.2.1 ends]
        exact isHead_of_methodCall? found
      · exact deeper.2.2 ends

/-! ## Chains -/

theorem Chain.at?_eq (aliases : Aliases) (place : Place) :
    Chain.at? aliases place = (targetOf? aliases (callsTo place).2).map fun target =>
      ⟨target, (callsTo place).2, (callsTo place).1⟩ := rfl

/-- A chain of a tree ends at a call on its walk, with nothing of the chain above it. -/
theorem mem_chainsIn {aliases : Aliases} {root head : Place} {chain : Chain} :
    (head, chain) ∈ chainsIn aliases root ↔
      head ∈ root.walk ∧ head.kind = .callExpression ∧ isHead head = true ∧
        Chain.at? aliases head = some chain := by
  rw [chainsIn, List.mem_filterMap]
  constructor
  · rintro ⟨inner, inside, found⟩
    split at found
    · rename_i ends
      obtain ⟨other, chained, same⟩ := Option.map_eq_some_iff.mp found
      obtain ⟨rfl, rfl⟩ := Prod.mk.inj same
      rw [Bool.and_eq_true, beq_iff_eq] at ends
      exact ⟨inside, ends.1, ends.2, chained⟩
    · cases found
  · rintro ⟨inside, isCall, ends, chained⟩
    refine ⟨head, inside, ?_⟩
    rw [if_pos (by rw [isCall, ends]; rfl)]
    exact Option.map_eq_some_iff.mpr ⟨chain, chained, rfl⟩

/-- A chain that begins like another one. -/
def Chain.upTo (chain : Chain) (calls : List MethodCall) : Chain :=
  { chain with calls := calls }

/-- The chain that ends at a call of a chain is the beginning of that chain. -/
theorem at?_of_split {aliases : Aliases} {chain : Chain}
    (found : Chain.at? aliases place = some chain) (split : chain.calls = before ++ read :: after) :
    Chain.at? aliases read.place = some (chain.upTo (before ++ [read])) ∧
      (after = [] → read.place = place) ∧ (after ≠ [] → isHead read.place = false) := by
  rw [Chain.at?_eq, Option.map_eq_some_iff] at found
  obtain ⟨target, starts, rfl⟩ := found
  obtain ⟨calls, ends, inner⟩ := callsTo_of_split split
  refine ⟨?_, ends, inner⟩
  rw [Chain.at?_eq, calls, starts]
  rfl

end Selection

/-! ## Calls that read or write an element -/

section Methods

variable {facts : Facts} {place : Place} {call : MethodCall}

/-- The names of the methods that read. -/
def readMethods : List String :=
  ["html", "text", "val", "css", "attr", "prop", "data"]

/-- The names of the methods that write a facet of an element. -/
def facetMethods : List String :=
  ["html", "text", "val", "show", "hide", "toggle", "addClass", "removeClass", "toggleClass", "css"]

/-- None of these is the name of a request, of what continues one, or of a helper function. -/
def elementMethods : List String :=
  readMethods ++ facetMethods

/-- Among the methods whose name alone decides, none reads and none writes a facet. -/
theorem namedRole_ne (name : String) (count : Nat) :
    namedRole name count ≠ .read ∧ ∀ facet, namedRole name count ≠ .mutation facet := by
  unfold namedRole
  repeat' split
  all_goals exact ⟨Role.noConfusion, fun _ => Role.noConfusion⟩

theorem name_of_read (role : call.role = .read) : call.name ∈ readMethods := by
  unfold MethodCall.role roleOf at role
  dsimp only at role
  split at role
  -- Methods that read with few arguments are listed.
  case h_1 _ name | h_2 _ name | h_3 _ name | h_10 _ name | h_11 _ name | h_12 _ name |
      h_13 _ name =>
    rw [name]
    decide
  -- Visibility is changed or animated, never read.
  case h_4 | h_5 | h_6 => split at role <;> cases role
  case h_18 => exact absurd role (namedRole_ne _ _).1
  all_goals cases role

theorem name_of_mutation {facet : Facet} (role : call.role = .mutation facet) :
    call.name ∈ facetMethods := by
  unfold MethodCall.role roleOf at role
  dsimp only at role
  split at role
  case h_18 => exact absurd role ((namedRole_ne _ _).2 facet)
  -- Attributes are read or written, but they are no facet.
  case h_11 | h_12 | h_13 => split at role <;> cases role
  case h_14 | h_15 | h_16 | h_17 => cases role
  all_goals
    rename_i name
    rw [name]
    decide

theorem mem_elementMethods_of_read (role : call.role = .read) : call.name ∈ elementMethods :=
  List.mem_append_left _ (name_of_read role)

theorem mem_elementMethods_of_mutation {facet : Facet} (role : call.role = .mutation facet) :
    call.name ∈ elementMethods :=
  List.mem_append_right _ (name_of_mutation role)

/-- The name of the method that makes a request. -/
theorem name_of_rootRequest? {request : Request} (found : facts.rootRequest? place = some request) :
    ∃ function property, place.child? .function = some function ∧
      function.child? .property = some property ∧
        property.text ∈ ["ajax", "get", "getJSON", "post"] := by
  simp only [Facts.rootRequest?, Option.bind_eq_bind, Option.bind_eq_some_iff] at found
  rcases found with ⟨_, _, function, isFunction, _, _, _, _, _, _, property, isProperty, found⟩
  refine ⟨function, property, isFunction, isProperty, ?_⟩
  split at found
  case h_5 => cases found
  all_goals
    rename_i name
    rw [name]
    decide

/-- A call of a chain is the last one, or it is among those up to the object of the last. -/
theorem last_or_below (member : call ∈ (callsTo place).1) : ∃ last object,
    methodCall? place = some (last, object) ∧ (call = last ∨
      (call ∈ (callsTo object).1 ∧ object.kind = .callExpression)) := by
  obtain ⟨last, object, found⟩ := exists_methodCall? (List.ne_nil_of_mem member)
  rw [callsTo_of_methodCall? found] at member
  refine ⟨last, object, found, ?_⟩
  rcases List.mem_append.mp member with below | same
  · obtain ⟨_, _, inner⟩ := exists_methodCall? (List.ne_nil_of_mem below)
    exact .inr ⟨below, (shape_of_methodCall? inner).1⟩
  · exact .inl (List.mem_singleton.mp same)

theorem rootRequest?_of_element (member : call ∈ (callsTo place).1)
    (own : call.name ∈ elementMethods) : facts.rootRequest? place = none := by
  obtain ⟨last, object, found, which⟩ := last_or_below member
  obtain ⟨_, function, property, isFunction, _, isObject, isProperty, name⟩ :=
    shape_of_methodCall? found
  by_contra present
  obtain ⟨request, isRequest⟩ := Option.ne_none_iff_exists'.mp present
  rcases which with rfl | ⟨_, isCall⟩
  · obtain ⟨other, method, isOther, isMethod, listed⟩ := name_of_rootRequest? isRequest
    rw [isFunction] at isOther
    rw [← Option.some.inj isOther, isProperty] at isMethod
    rw [← Option.some.inj isMethod, name] at listed
    exact (by decide : ∀ name ∈ elementMethods, name ∉ ["ajax", "get", "getJSON", "post"])
      call.name own listed
  · obtain ⟨_, other, named, _, isOther, _, isNamed, kind, _⟩ :=
      Facts.rootRequest?_eq_some isRequest
    rw [isFunction] at isOther
    rw [← Option.some.inj isOther, isObject] at isNamed
    rw [← Option.some.inj isNamed, isCall] at kind
    cases kind

/-- What has a call for an element at or below it is no request. -/
theorem requestFrom?_of_element (fuel : Nat) (member : call ∈ (callsTo place).1)
    (own : call.name ∈ elementMethods) : facts.requestFrom? fuel place = none := by
  induction fuel generalizing place with
  | zero => rfl
  | succ fuel ih =>
      rw [Facts.requestFrom?, rootRequest?_of_element member own]
      obtain ⟨last, object, found, which⟩ := last_or_below member
      obtain ⟨_, function, property, isFunction, _, isObject, isProperty, name⟩ :=
        shape_of_methodCall? found
      cases continues : Facts.continuation? place with
      | none => rfl
      | some step =>
          obtain ⟨method, arguments, owner⟩ := step
          obtain ⟨_, _, other, named, isOther, _, isNamed, isMethod, listed, isOwner⟩ :=
            Facts.continuation?_eq_some_iff.mp continues
          rw [isFunction] at isOther
          rw [← Option.some.inj isOther] at isNamed isOwner
          rcases which with rfl | ⟨below, _⟩
          · rw [isProperty] at isNamed
            rw [← isMethod, ← Option.some.inj isNamed, name] at listed
            exact absurd listed ((by decide : ∀ name ∈ elementMethods,
              ¬ continuationMethods.contains name = true) call.name own)
          · rw [isObject] at isOwner
            rw [← Option.some.inj isOwner]
            simp only [Option.bind_eq_bind, Option.bind_some, ih below, Option.bind_none]

/-- What has a call for an element at or below it is no helper function. -/
theorem helper?_of_element (renderer : Renderer) (member : call ∈ (callsTo place).1)
    (own : call.name ∈ elementMethods) : renderer.helper? place = none := by
  obtain ⟨last, object, found, which⟩ := last_or_below member
  obtain ⟨_, function, property, isFunction, _, isObject, isProperty, name⟩ :=
    shape_of_methodCall? found
  rw [Renderer.helper?]
  cases named : Renderer.helperName? place with
  | none => rfl
  | some method =>
      simp only [Renderer.helperName?, Option.bind_eq_bind, Option.bind_eq_some_iff,
        Option.guard_eq_some', Bool.and_eq_true, beq_iff_eq] at named
      rcases named with ⟨_, isOther, _, _, owner, isOwner, _, ⟨kind, _⟩, _, isMethod, same⟩
      rw [isFunction] at isOther
      rw [← Option.some.inj isOther] at isOwner isMethod
      rw [isProperty] at isMethod
      rw [isObject] at isOwner
      rw [← Option.some.inj isMethod, name] at same
      rcases which with rfl | ⟨_, isCall⟩
      · rw [← Option.some.inj same]
        have plain := (by decide : ∀ name ∈ elementMethods, name ∉ ["trim", "isArray", "parseJSON",
          "isFunction", "now", "inArray", "extend"]) call.name own
        simp only [List.mem_cons, List.not_mem_nil, or_false, not_or] at plain
        simp only [Option.bind_eq_bind, Option.bind_some]
        split
        case h_8 => rfl
        all_goals
          rename_i name
          exact absurd name (by simp only [plain, not_false_eq_true])
      · rw [← Option.some.inj isOwner, isCall] at kind
        cases kind

end Methods

end Hookify
